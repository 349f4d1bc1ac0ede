import OpenBroadcast.Media.FragmentNumbers

namespace OpenBroadcast.Media

open RawBox

section Initialization

/-- A box as it is written, if it is. -/
def writtenBox (b : Mp4Box) : Option RawBox :=
  if 8+b.content.length ≤ maxBoxSize then some ⟨b.header.boxType,b.content⟩ else none

theorem serializeBox_eq {b : Mp4Box} (hkind : b.header.boxType.length = 4) :
    serializeBox b = encodeAll (writtenBox b).toList := by
  unfold serializeBox writtenBox
  rw [if_neg (by omega)]
  by_cases hfits : 8+b.content.length ≤ maxBoxSize
  · rw [if_neg (by omega),if_neg (by omega),if_pos hfits,Option.toList_some,encodeAll_cons,
      encodeAll_nil,List.append_nil]
    rfl
  · rw [if_neg hfits]
    split_ifs <;> first | rfl | omega

theorem writtenBox_fits {b : Mp4Box} (hkind : b.header.boxType.length = 4) {r : RawBox}
    (h : writtenBox b = some r) : r.Fits := by
  unfold writtenBox at h
  split_ifs at h with hfits
  cases h
  refine ⟨hkind,?_⟩
  change 8+b.content.length < 2^32
  unfold maxBoxSize at hfits
  omega

theorem length_flatMap_boxesFrom_le {f : BoxAt → Bytes} (hf : ∀ b, f b = [] ∨ f b = b.bytes)
    (n : Nat) (data : Bytes) : ((boxesFrom n data).flatMap f).length ≤ data.length := by
  induction n generalizing data with
  | zero => exact Nat.zero_le _
  | succ n ih =>
    rw [boxesFrom]
    split_ifs with hstop
    · exact Nat.zero_le _
    · have hrest := ih (data.drop (beNat (data.take 4)))
      have hfirst : (f ⟨(data.drop 4).take 4,beNat (data.take 4),data⟩).length ≤
          beNat (data.take 4) := by
        rcases hf ⟨(data.drop 4).take 4,beNat (data.take 4),data⟩ with hnil | hbytes
        · rw [hnil]
          exact Nat.zero_le _
        · rw [hbytes]
          exact List.length_take_le _ _
      rw [List.length_drop] at hrest
      rw [List.flatMap_cons,List.length_append]
      omega

theorem length_createVideoOnlyMoov_le (content : Bytes) :
    (createVideoOnlyMoov content).length ≤ content.length := by
  apply length_flatMap_boxesFrom_le
  intro b
  split_ifs
  · exact Or.inl rfl
  · exact Or.inr rfl

/-- What a box adds to the initialization segment of a fragmented file. -/
def initBox (p : Mp4Parser) (b : Mp4Box) : Option RawBox :=
  if b.header.boxType = tagFtyp then writtenBox b
  else if b.header.boxType = tagMoov then
    if p.hasAc3Audio then some ⟨tagMoov,createVideoOnlyMoov b.content⟩ else writtenBox b
  else none

variable {p : Mp4Parser} {b : Mp4Box}

theorem initData_eq (hsmall : b.header.boxType = tagMoov → 8+b.content.length < 2^32) :
    p.initData b = .ok (encodeAll (initBox p b).toList) := by
  unfold Mp4Parser.initData initBox
  by_cases hftyp : b.header.boxType = tagFtyp
  · rw [if_pos hftyp,if_pos hftyp,serializeBox_eq (by rw [hftyp]; rfl)]
  by_cases hmoov : b.header.boxType = tagMoov
  · have hle := length_createVideoOnlyMoov_le b.content
    have hlt := hsmall hmoov
    rw [if_neg hftyp,if_neg hftyp,if_pos hmoov,if_pos hmoov]
    split_ifs
    · rw [wrapBox_ok tagMoov (by omega),Option.toList_some,encodeAll_cons,encodeAll_nil,
        List.append_nil]
    · rw [serializeBox_eq (by rw [hmoov]; rfl)]
  · rw [if_neg hftyp,if_neg hftyp,if_neg hmoov,if_neg hmoov]
    rfl

theorem initBox_fits (hsmall : b.header.boxType = tagMoov → 8+b.content.length < 2^32) {r : RawBox}
    (h : initBox p b = some r) : r.Fits ∧ r.kind = b.header.boxType := by
  have hwritten : ∀ {kind : Bytes}, b.header.boxType = kind → kind.length = 4 →
      writtenBox b = some r → r.Fits ∧ r.kind = b.header.boxType := by
    intro kind hkind hlength h
    refine ⟨writtenBox_fits (by rw [hkind,hlength]) h,?_⟩
    unfold writtenBox at h
    split_ifs at h
    cases h
    rfl
  unfold initBox at h
  split_ifs at h with hftyp hmoov
  · exact hwritten hftyp rfl h
  · cases h
    have hle := length_createVideoOnlyMoov_le b.content
    have hlt := hsmall hmoov
    refine ⟨⟨rfl,?_⟩,hmoov.symm⟩
    unfold RawBox.size
    dsimp only
    omega
  · exact hwritten hmoov rfl h

theorem encodeAll_toList_flatten {α : Type} (f : α → Option RawBox) (l : List α) :
    (l.map (fun a => encodeAll (f a).toList)).flatten = encodeAll (l.filterMap f) := by
  induction l with
  | nil => rfl
  | cons a l ih =>
    rw [List.map_cons,List.flatten_cons,ih,← encodeAll_append]
    cases ha : f a <;> simp [ha]

section Fragmented

variable (hsmall : ∀ b ∈ p.boxes, b.header.boxType = tagMoov → 8+b.content.length < 2^32)

include hsmall

theorem mapM_initData :
    p.boxes.mapM p.initData = .ok (p.boxes.map (fun b => encodeAll (initBox p b).toList)) := by
  have hmap : ∀ l : List Mp4Box, (∀ b ∈ l, b ∈ p.boxes) →
      l.mapM p.initData = .ok (l.map (fun b => encodeAll (initBox p b).toList)) := by
    intro l hl
    induction l with
    | nil => rfl
    | cons b l ih =>
      rw [List.mapM_cons,initData_eq (hsmall b (hl b List.mem_cons_self)),
        ih (fun c hc => hl c (List.mem_cons_of_mem _ hc))]
      rfl
  exact hmap p.boxes (fun b hb => hb)

/-- The initialization segment of a fragmented file, box by box. -/
theorem initSegments_data {segments : List MseSegment} (h : p.initSegments = .ok segments)
    {seg : MseSegment} (hseg : seg ∈ segments) :
    seg.data = encodeAll (p.boxes.filterMap (initBox p)) := by
  unfold Mp4Parser.initSegments at h
  rw [mapM_initData hsmall] at h
  cases h
  rw [encodeAll_toList_flatten] at hseg
  split_ifs at hseg
  · cases hseg
  · rw [List.mem_singleton.mp hseg]

end Fragmented

theorem encodeAll_inj {l l' : List RawBox} (hl : ∀ r ∈ l, r.Fits) (hl' : ∀ r ∈ l', r.Fits)
    (h : encodeAll l = encodeAll l') : l = l' := by
  have hread := readBoxes_encodeAll hl
  rw [h,readBoxes_encodeAll hl'] at hread
  exact (Option.some.inj hread).symm

/-- The `moov` boxes are small enough to be written with an `mvex`. -/
def SmallMoovs (p : RegularMp4) : Prop :=
  ∀ b ∈ p.boxes, b.header.boxType = tagMoov →
    8+(b.content.length+(8+p.tracks.length*32)) < 2^32

/-- The `ftyp` boxes as they are written. -/
theorem serializeBox_ftyps (bs : List Mp4Box) :
    (bs.filter (fun b => b.header.boxType == tagFtyp)).flatMap serializeBox =
      encodeAll ((bs.filter (fun b => b.header.boxType == tagFtyp)).filterMap writtenBox) := by
  rw [← encodeAll_toList_flatten,List.flatMap_def]
  apply congrArg List.flatten
  apply List.map_congr_left
  intro b hb
  have hkind : b.header.boxType = tagFtyp := by simpa using (List.mem_filter.mp hb).2
  exact serializeBox_eq (by rw [hkind]; rfl)

/-- The initialization segment of a regular file, box by box. -/
theorem initSegment_data {p : RegularMp4} (hac3 : p.hasAc3Audio = false) (hsmall : SmallMoovs p)
    {init : MseSegment} (h : p.initSegment = .ok init) :
    ∃ moov mvex, p.lastBox tagMoov = some moov ∧ p.createMvexBox = .ok mvex ∧ moov ∈ p.boxes ∧
      moov.header.boxType = tagMoov ∧ 0 < mvex.length ∧
      (⟨tagMoov,moov.content++mvex⟩ : RawBox).Fits ∧
      init.data = encodeAll ((p.boxes.filter (fun b => b.header.boxType == tagFtyp)).filterMap
        writtenBox++[⟨tagMoov,moov.content++mvex⟩]) := by
  obtain ⟨mvex,hmvex,hlength⟩ := p.createMvexBox_ok
  unfold RegularMp4.initSegment at h
  dsimp only at h
  cases hlast : p.lastBox tagMoov with
  | none =>
    rw [hlast] at h
    cases h
  | some moov =>
    rw [hlast] at h
    obtain ⟨data,hdata,h⟩ := bind_eq_ok.mp h
    cases h
    obtain ⟨hmem,hkind⟩ := List.mem_filter.mp (List.mem_of_getLast? hlast)
    have hkind : moov.header.boxType = tagMoov := by simpa using hkind
    have hsize : 8+(moov.content++mvex).length < 2^32 := by
      rw [List.length_append,hlength]
      exact hsmall moov hmem hkind
    have hwrapped : p.createMseCompatibleMoov moov =
        .ok (RawBox.mk tagMoov (moov.content++mvex)).encode := by
      unfold RegularMp4.createMseCompatibleMoov
      rw [hmvex,hac3]
      exact wrapBox_ok tagMoov hsize
    rw [hwrapped] at hdata
    cases hdata
    refine ⟨moov,mvex,rfl,hmvex,hmem,hkind,by omega,⟨rfl,hsize⟩,?_⟩
    rw [encodeAll_append,encodeAll_cons,encodeAll_nil,List.append_nil,serializeBox_ftyps]

theorem ftyp_fits {bs : List Mp4Box} {r : RawBox}
    (h : r ∈ (bs.filter (fun b => b.header.boxType == tagFtyp)).filterMap writtenBox) :
    r.Fits ∧ r.kind = tagFtyp := by
  obtain ⟨b,hb,hwritten⟩ := List.mem_filterMap.mp h
  have hkind : b.header.boxType = tagFtyp := by simpa using (List.mem_filter.mp hb).2
  refine ⟨writtenBox_fits (by rw [hkind]; rfl) hwritten,?_⟩
  unfold writtenBox at hwritten
  split_ifs at hwritten
  cases hwritten
  exact hkind

/-- The two ways of writing an initialization segment never agree: only one adds an `mvex`. -/
theorem initSegment_ne_initSegments {p : RegularMp4} {q : Mp4Parser} (hboxes : q.boxes = p.boxes)
    (hac3 : p.hasAc3Audio = false) (hsmall : SmallMoovs p) {init : MseSegment}
    (h : p.initSegment = .ok init) {segments : List MseSegment}
    (hq : q.initSegments = .ok segments) : init ∉ segments := by
  intro hseg
  obtain ⟨moov,mvex,_,_,hmem,hkind,hmvex,hfits,hdata⟩ := initSegment_data hac3 hsmall h
  have hsmall' : ∀ b ∈ q.boxes, b.header.boxType = tagMoov → 8+b.content.length < 2^32 := by
    intro b hb hkind
    have := hsmall b (hboxes ▸ hb) hkind
    omega
  have hdata' := initSegments_data hsmall' hq hseg
  rw [hboxes] at hdata'
  have hlist : (p.boxes.filter (fun b => b.header.boxType == tagFtyp)).filterMap writtenBox++
      [⟨tagMoov,moov.content++mvex⟩] = p.boxes.filterMap (initBox q) := by
    apply encodeAll_inj _ _ (hdata.symm.trans hdata')
    · intro r hr
      rcases List.mem_append.mp hr with hr | hr
      · exact (ftyp_fits hr).1
      · rw [List.mem_singleton.mp hr]
        exact hfits
    · intro r hr
      obtain ⟨b,hb,hbox⟩ := List.mem_filterMap.mp hr
      exact (initBox_fits (hsmall' b (hboxes ▸ hb)) hbox).1
  -- A `moov` that is written has the `mvex` on the one side, and is a `moov` of the file on the other.
  have hmoovs : ∀ r ∈ p.boxes.filterMap (initBox q), r.kind = tagMoov →
      r.body = moov.content++mvex := by
    intro r hr hrkind
    rw [← hlist] at hr
    rcases List.mem_append.mp hr with hr | hr
    · rw [(ftyp_fits hr).2] at hrkind
      cases hrkind
    · rw [List.mem_singleton.mp hr]
  have hne : tagMoov ≠ tagFtyp := by decide
  cases hac3' : q.hasAc3Audio with
  | true =>
    have hbox : initBox q moov = some ⟨tagMoov,createVideoOnlyMoov moov.content⟩ := by
      unfold initBox
      rw [if_neg (by rw [hkind]; exact hne),if_pos hkind,if_pos hac3']
    have hbody := hmoovs _ (List.mem_filterMap.mpr ⟨moov,hmem,hbox⟩) rfl
    have hle := length_createVideoOnlyMoov_le moov.content
    have := congrArg List.length hbody
    rw [List.length_append] at this
    dsimp only at this
    omega
  | false =>
    have hwritten : ∀ b : Mp4Box, b.header.boxType = tagMoov → initBox q b = writtenBox b := by
      intro b hb
      unfold initBox
      rw [if_neg (by rw [hb]; exact hne),if_pos hb,if_neg (by simp [hac3'])]
    by_cases hfits' : 8+moov.content.length ≤ maxBoxSize
    · have hbox : initBox q moov = some ⟨tagMoov,moov.content⟩ := by
        rw [hwritten moov hkind]
        unfold writtenBox
        rw [if_pos hfits',hkind]
      have hbody := hmoovs _ (List.mem_filterMap.mpr ⟨moov,hmem,hbox⟩) rfl
      have := congrArg List.length hbody
      rw [List.length_append] at this
      dsimp only at this
      omega
    · -- The last `moov` is too large to be written, and so is what it becomes.
      have hin : (⟨tagMoov,moov.content++mvex⟩ : RawBox) ∈ p.boxes.filterMap (initBox q) := by
        rw [← hlist]
        exact List.mem_append_right _ (List.mem_singleton_self _)
      obtain ⟨b,hb,hbox⟩ := List.mem_filterMap.mp hin
      have hbkind : b.header.boxType = tagMoov :=
        ((initBox_fits (hsmall' b (hboxes ▸ hb)) hbox).2).symm
      rw [hwritten b hbkind] at hbox
      unfold writtenBox at hbox
      split_ifs at hbox with hbfits
      have hbody : b.content = moov.content++mvex := by
        have := Option.some.inj hbox
        exact congrArg RawBox.body this
      rw [hbody,List.length_append] at hbfits
      omega

end Initialization

section Fragmented

variable {q : Mp4Parser}

theorem mediaSegments_of_no_moof {bs : List Mp4Box} (h : ∀ b ∈ bs, b.header.boxType ≠ tagMoof)
    (index : Nat) : q.mediaSegments index bs = .ok [] := by
  induction bs with
  | nil => rfl
  | cons a bs ih =>
    cases bs with
    | nil => rfl
    | cons b bs =>
      have hpair : ¬ Mp4Parser.isPair a b = true := by
        have := h a List.mem_cons_self
        simp [Mp4Parser.isPair,this]
      rw [Mp4Parser.mediaSegments,if_neg hpair]
      exact ih (fun c hc => h c (List.mem_cons_of_mem _ hc))

theorem onlyPanics_initData (b : Mp4Box) : OnlyPanics (q.initData b) := by
  unfold Mp4Parser.initData
  split_ifs
  · exact .ok _
  · exact onlyPanics_wrapBox _ _
  · exact .ok _
  · exact .ok _

theorem onlyPanics_initSegments : OnlyPanics q.initSegments :=
  (onlyPanics_mapM onlyPanics_initData q.boxes).bind (fun _ => .ok _)

/-- Without a `moof`, the two ways of generating segments never agree, unless both panic. -/
theorem extract_ne_create {p : RegularMp4} (hboxes : q.boxes = p.boxes)
    (hmoof : ∀ b ∈ q.boxes, b.header.boxType ≠ tagMoof) (hac3 : p.hasAc3Audio = false)
    (hsmall : SmallMoovs p) (hreturns : p.createFragmentsFromRegularMp4 ≠ .error .panic) :
    q.extractFragmentedSegments ≠ p.createFragmentsFromRegularMp4.map Prod.fst := by
  have hextract : q.extractFragmentedSegments = q.initSegments := by
    unfold Mp4Parser.extractFragmentedSegments
    rw [mediaSegments_of_no_moof hmoof]
    cases q.initSegments with
    | error e => rfl
    | ok first => exact congrArg Except.ok (List.append_nil first)
  rw [hextract]
  intro heq
  cases hcreate : p.createFragmentsFromRegularMp4 with
  | error e =>
    rw [hcreate] at heq
    cases e with
    | io message => exact onlyPanics_initSegments message heq
    | panic => exact hreturns hcreate
  | ok r =>
    rw [hcreate] at heq
    obtain ⟨init,hinit,hrest⟩ := bind_eq_ok.mp hcreate
    apply initSegment_ne_initSegments hboxes hac3 hsmall hinit heq
    dsimp only at hrest
    split_ifs at hrest
    · cases hrest
      exact List.mem_singleton_self _
    · obtain ⟨_,_,hrest⟩ := bind_eq_ok.mp hrest
      obtain ⟨_,_,hrest⟩ := bind_eq_ok.mp hrest
      cases hrest
      exact List.mem_append_left _ List.mem_cons_self

end Fragmented

section Converter

variable {p : RegularMp4}

theorem createFragments_parts (hmedia : p.mdatData ≠ []) {segments : List MseSegment}
    {c : FragmentedMp4Converter} (h : p.createFragmentsFromRegularMp4 = .ok (segments,c)) :
    ∃ init video audio, p.initSegment = .ok init ∧ p.videoSegments = .ok (video,c) ∧
      p.audioSegments = .ok audio ∧ segments = init::video++audio := by
  obtain ⟨init,hinit,h⟩ := bind_eq_ok.mp h
  rw [if_neg (by simpa using hmedia)] at h
  obtain ⟨⟨video,_⟩,hvideo,h⟩ := bind_eq_ok.mp h
  obtain ⟨audio,haudio,h⟩ := bind_eq_ok.mp h
  cases h
  exact ⟨init,video,audio,hinit,hvideo,haudio,rfl⟩

/-- Fragments of the video move the converter. -/
theorem createFragments_moves (hemits : p.EmitsVideo) {segments : List MseSegment}
    {c : FragmentedMp4Converter} (h : p.createFragmentsFromRegularMp4 = .ok (segments,c)) :
    p.fmp4Converter.sequenceNumber < c.sequenceNumber := by
  obtain ⟨init,video,audio,_,hvideo,_,_⟩ := createFragments_parts hemits.2.1 h
  obtain ⟨hnumbered,hne⟩ := RegularMp4.videoSegments_numbered hemits.1 hemits.2.1 hvideo
  have hpos := List.length_pos_iff.mpr (hne.mpr hemits)
  rw [hnumbered.next]
  omega

theorem createFragments_stays (hemits : ¬ p.EmitsVideo) {segments : List MseSegment}
    {c : FragmentedMp4Converter} (h : p.createFragmentsFromRegularMp4 = .ok (segments,c)) :
    c = p.fmp4Converter := by
  have hsame := RegularMp4.createFragments_unmoved hemits p.fmp4Converter
  have heta : { p with fmp4Converter := p.fmp4Converter } = p := rfl
  rw [heta,h] at hsame
  exact congrArg Prod.snd (Except.ok.inj hsame)

/-- Another number in the converter is a number in the first fragment of the video. -/
theorem createFragments_ne (hemits : p.EmitsVideo) {segments : List MseSegment}
    {c c' : FragmentedMp4Converter} (h : p.createFragmentsFromRegularMp4 = .ok (segments,c))
    (hnumber : c'.sequenceNumber ≠ p.fmp4Converter.sequenceNumber) :
    { p with fmp4Converter := c' }.createFragmentsFromRegularMp4.map Prod.fst ≠ .ok segments := by
  intro heq
  have hemits' : { p with fmp4Converter := c' }.EmitsVideo := hemits
  cases hcreate : { p with fmp4Converter := c' }.createFragmentsFromRegularMp4 with
  | error e =>
    rw [hcreate] at heq
    cases heq
  | ok r =>
    rw [hcreate] at heq
    have hsegments : r.1 = segments := Except.ok.inj heq
    obtain ⟨init,video,audio,hinit,hvideo,haudio,rfl⟩ := createFragments_parts hemits.2.1 h
    obtain ⟨init',video',audio',hinit',hvideo',haudio',hr⟩ :=
      createFragments_parts hemits'.2.1 hcreate
    have haudios : audio' = audio := Except.ok.inj (haudio'.symm.trans haudio)
    rw [hr,haudios,List.cons_append,List.cons_append,List.cons.injEq] at hsegments
    have hvideos : video' = video := List.append_cancel_right hsegments.2
    subst hvideos
    obtain ⟨hnumbered,hne⟩ := RegularMp4.videoSegments_numbered hemits.1 hemits.2.1 hvideo
    obtain ⟨hnumbered',_⟩ := RegularMp4.videoSegments_numbered hemits'.1 hemits'.2.1 hvideo'
    have hnumbers := hnumbered'.numbers.symm.trans hnumbered.numbers
    cases video' with
    | nil => exact hne.mpr hemits rfl
    | cons seg rest =>
      rw [List.length_cons,List.range'_succ,List.range'_succ,List.map_cons,List.map_cons,
        List.cons.injEq] at hnumbers
      exact hnumber (Option.some.inj hnumbers.1)

end Converter

namespace ParserState

open RegularMp4

/-- The parser after `generate_mse_segments`, if this is called. -/
def afterGenerate (called : Bool) (s : ParserState) : Except Mp4Error ParserState :=
  if called then
    match s.generateMseSegments with
    | .ok (_,s) => .ok s
    | .error (.io _) => .ok s
    | .error .panic => .error .panic
  else .ok s

def segmentsOf (s : ParserState) : Except Mp4Error (List MseSegment) :=
  s.generateMseSegments.map Prod.fst

structure SameOutput (s f : ParserState) : Prop where
  tracks : s.tracks = f.tracks
  segments : s.segmentsOf = f.segmentsOf

/-- What `s` has parsed, and generated from if this is `called`, shows in what comes from `f`. -/
def Leaks (called : Bool) (s f : ParserState) : Prop :=
  f.isFragmented = false ∧
    (s.isFragmented = true ∨ called = true ∧ s.regular.EmitsVideo ∧ f.regular.EmitsVideo)

variable {d₁ d₂ : Bytes} {s₁ s s' f : ParserState} {called : Bool}

theorem segmentsOf_fragmented (h : s.isFragmented = true) :
    s.segmentsOf = s.fragmented.extractFragmentedSegments := by
  unfold segmentsOf generateMseSegments
  rw [if_pos h]
  cases s.fragmented.extractFragmentedSegments <;> rfl

theorem segmentsOf_regular (h : s.isFragmented = false) :
    s.segmentsOf = s.regular.createFragmentsFromRegularMp4.map Prod.fst := by
  unfold segmentsOf generateMseSegments
  rw [if_neg (by simp [h])]
  cases s.regular.createFragmentsFromRegularMp4 <;> rfl

/-- Only the converter changes, and it changes exactly by fragments of the video. -/
theorem afterGenerate_eq_ok (h : s₁.afterGenerate called = .ok s) :
    ∃ c, s = { s₁ with fmp4Converter := c } ∧
      (c = s₁.fmp4Converter ∨ s₁.isFragmented = false ∧ called = true ∧ s₁.regular.EmitsVideo) ∧
      (s₁.isFragmented = false → called = true → s₁.regular.EmitsVideo →
        s₁.fmp4Converter.sequenceNumber < c.sequenceNumber) := by
  cases hcalled : called with
  | false =>
    rw [hcalled] at h
    cases h
    exact ⟨s₁.fmp4Converter,rfl,Or.inl rfl,fun _ hfalse => (by cases hfalse)⟩
  | true =>
    rw [hcalled] at h
    by_cases hfragmented : s₁.isFragmented = true
    · refine ⟨s₁.fmp4Converter,?_,Or.inl rfl,?_⟩
      · unfold afterGenerate at h
        cases hgenerate : s₁.generateMseSegments with
        | ok r =>
          rw [hgenerate] at h
          cases h
          exact ((generateMseSegments_fragmented hfragmented).mp hgenerate).2
        | error e =>
          rw [hgenerate] at h
          cases e with
          | io message =>
            cases h
            rfl
          | panic => cases h
      · intro hfalse
        rw [hfragmented] at hfalse
        cases hfalse
    · have hregular : s₁.isFragmented = false := by simpa using hfragmented
      have hcreate : s₁.generateMseSegments = s₁.regular.createFragmentsFromRegularMp4.map
          (fun r => (r.1,{ s₁ with fmp4Converter := r.2 })) := by
        unfold generateMseSegments
        rw [if_neg hfragmented]
        cases s₁.regular.createFragmentsFromRegularMp4 <;> rfl
      unfold afterGenerate at h
      rw [hcreate] at h
      cases hr : s₁.regular.createFragmentsFromRegularMp4 with
      | ok r =>
        rw [hr] at h
        cases h
        refine ⟨r.2,rfl,?_,fun _ _ hemits => createFragments_moves hemits hr⟩
        by_cases hemits : s₁.regular.EmitsVideo
        · exact Or.inr ⟨hregular,rfl,hemits⟩
        · exact Or.inl (createFragments_stays hemits hr)
      | error e =>
        rw [hr] at h
        cases e with
        | io message =>
          cases h
          exact ⟨s₁.fmp4Converter,rfl,Or.inl rfl,
            fun _ _ hemits => absurd hr (hemits.onlyPanics message)⟩
        | panic => cases h

/-- What parsing in an old parser leaves, against a new one. -/
theorem parse_again (hs : s.parse d₂ = .ok s') (hf : new.parse d₂ = .ok f) :
    s'.boxes = f.boxes ∧ s'.tracks = f.tracks ∧
    s'.isFragmented = (s.isFragmented || f.isFragmented) ∧ s'.fmp4Converter = s.fmp4Converter ∧
    (f.regular.mdatData ≠ [] → s'.mdatPayloadOffset = f.mdatPayloadOffset) := by
  obtain ⟨bs,found,hbs,hfound,rfl⟩ := parse_spec.mp hs
  obtain ⟨bs',found',hbs',hfound',rfl⟩ := parse_spec.mp hf
  rw [hbs] at hbs'
  cases hbs'
  rw [hfound] at hfound'
  cases hfound'
  refine ⟨rfl,rfl,?_,rfl,?_⟩
  · exact congrArg (s.isFragmented || ·) (Bool.false_or _).symm
  · intro hmedia
    unfold payloadOffset
    dsimp only
    cases hlast : (bs.filter (fun b => b.header.boxType == tagMdat)).getLast? with
    | some mdat => rfl
    | none =>
      refine absurd ?_ hmedia
      have hnone : RegularMp4.lastBox ⟨bs,(found.filterMap Prod.fst).map ParsedTrack.toSampledTrack,
        .new,payloadOffset 0 bs⟩ tagMdat = none := hlast
      unfold mdatData
      change (RegularMp4.lastBox ⟨bs,(found.filterMap Prod.fst).map ParsedTrack.toSampledTrack,
        .new,payloadOffset 0 bs⟩ tagMdat).elim [] Mp4Box.content = []
      rw [hnone]
      rfl

/-- Without media data, the converter and the offset do not matter. -/
theorem createFragments_of_no_media {p : RegularMp4} (h : p.mdatData = [])
    (c : FragmentedMp4Converter) (offset : Nat) :
    { p with fmp4Converter := c, mdatPayloadOffset := offset }.createFragmentsFromRegularMp4.map
      Prod.fst = p.createFragmentsFromRegularMp4.map Prod.fst := by
  have hinit : { p with fmp4Converter := c, mdatPayloadOffset := offset }.initSegment =
      p.initSegment := rfl
  have hmdat : { p with fmp4Converter := c, mdatPayloadOffset := offset }.mdatData = [] := h
  unfold createFragmentsFromRegularMp4
  rw [hinit,hmdat,h]
  cases p.initSegment with
  | error e => rfl
  | ok init =>
    simp only [bind,Except.bind]
    rw [if_pos List.isEmpty_nil,if_pos List.isEmpty_nil]
    rfl

/-- A regular file after a regular one: only the converter is old. -/
theorem segmentsOf_again (hs : s.parse d₂ = .ok s') (hf : new.parse d₂ = .ok f)
    (hregular : s.isFragmented = false) (hregular' : f.isFragmented = false) :
    s'.segmentsOf = { f.regular with
      fmp4Converter := s.fmp4Converter }.createFragmentsFromRegularMp4.map Prod.fst := by
  obtain ⟨hboxes,htracks,hfragmented,hconverter,hoffset⟩ := parse_again hs hf
  rw [segmentsOf_regular (by rw [hfragmented,hregular,hregular']; rfl)]
  have hp : s'.regular = { f.regular with
      fmp4Converter := s.fmp4Converter, mdatPayloadOffset := s'.mdatPayloadOffset } := by
    unfold regular
    rw [hboxes,htracks,hconverter]
  rw [hp]
  by_cases hmedia : f.regular.mdatData = []
  · have hold := createFragments_of_no_media hmedia s.fmp4Converter s'.mdatPayloadOffset
    have hnew := createFragments_of_no_media hmedia s.fmp4Converter f.mdatPayloadOffset
    exact hold.trans hnew.symm
  · rw [hoffset hmedia]
    rfl

theorem parse_returns (hf : new.parse d₂ = .ok f) (s : ParserState) :
    ∃ s', s.parse d₂ = .ok s' := by
  obtain ⟨bs,found,hbs,hfound,_⟩ := parse_spec.mp hf
  exact ⟨_,parse_spec.mpr ⟨bs,found,hbs,hfound,rfl⟩⟩

theorem no_moof_of_regular (hf : new.parse d₂ = .ok f) (hregular : f.isFragmented = false) :
    ∀ b ∈ f.boxes, b.header.boxType ≠ tagMoof := by
  obtain ⟨bs,found,_,_,rfl⟩ := parse_spec.mp hf
  have hany : (bs.any (fun b => b.header.boxType == tagMoof)) = false :=
    (Bool.false_or _).symm.trans hregular
  intro b hb hkind
  have := List.any_eq_false.mp hany b hb
  simp [hkind] at this

section Reuse

variable (h₁ : new.parse d₁ = .ok s₁) (hg : s₁.afterGenerate called = .ok s)
  (hs : s.parse d₂ = .ok s') (hf : new.parse d₂ = .ok f)

include h₁ hg hs hf

theorem sameOutput_of_not_leaks (hleaks : ¬ Leaks called s₁ f) : SameOutput s' f := by
  obtain ⟨hboxes,htracks,hfragmented,_,_⟩ := parse_again hs hf
  refine ⟨htracks,?_⟩
  obtain ⟨c,rfl,hc,_⟩ := afterGenerate_eq_ok hg
  cases hf' : f.isFragmented with
  | true =>
    rw [segmentsOf_fragmented (by rw [hfragmented,hf',Bool.or_true]),segmentsOf_fragmented hf']
    unfold fragmented
    rw [hboxes,htracks]
  | false =>
    have hregular : s₁.isFragmented = false := by
      rw [← Bool.not_eq_true]
      exact fun htrue => hleaks ⟨hf',Or.inl htrue⟩
    rw [segmentsOf_again hs hf hregular hf',segmentsOf_regular hf']
    rcases hc with hc | ⟨_,hcalled,hemits⟩
    · have hnew : f.regular.fmp4Converter = c := by
        rw [hc]
        exact (parse_freshly hf).converter.trans (parse_freshly h₁).converter.symm
      dsimp only
      rw [← hnew]
    · have hnone : ¬ f.regular.EmitsVideo := fun h => hleaks ⟨hf',Or.inr ⟨hcalled,hemits,h⟩⟩
      rw [createFragments_unmoved hnone]
      cases f.regular.createFragmentsFromRegularMp4 <;> rfl

theorem not_sameOutput_of_leaks (hreturns : f.generateMseSegments ≠ .error .panic)
    (hsmall : SmallMoovs f.regular) (hleaks : Leaks called s₁ f) : ¬ SameOutput s' f := by
  intro hsame
  obtain ⟨hf',hold⟩ := hleaks
  obtain ⟨hboxes,htracks,hfragmented,_,_⟩ := parse_again hs hf
  obtain ⟨c,rfl,_,hmoves⟩ := afterGenerate_eq_ok hg
  have hcreate : f.regular.createFragmentsFromRegularMp4 ≠ .error .panic := by
    intro hpanic
    apply hreturns
    unfold generateMseSegments
    rw [if_neg (by simp [hf']),hpanic]
    rfl
  have hsegments := hsame.segments
  rw [segmentsOf_regular hf'] at hsegments
  by_cases hs₁ : s₁.isFragmented = true
  · rw [segmentsOf_fragmented (by rw [hfragmented,hs₁,Bool.true_or])] at hsegments
    have hmoof : ∀ b ∈ s'.fragmented.boxes, b.header.boxType ≠ tagMoof := by
      change ∀ b ∈ s'.boxes, _
      rw [hboxes]
      exact no_moof_of_regular hf hf'
    exact extract_ne_create hboxes hmoof (parse_hasAc3Audio hf) hsmall hcreate hsegments
  · have hregular : s₁.isFragmented = false := by simpa using hs₁
    obtain ⟨hcalled,hemits,hemits'⟩ : called = true ∧ s₁.regular.EmitsVideo ∧
        f.regular.EmitsVideo := by
      rcases hold with htrue | hall
      · exact absurd htrue hs₁
      · exact hall
    rw [segmentsOf_again hs hf hregular hf'] at hsegments
    have hlt := hmoves hregular hcalled hemits
    have hone : s₁.fmp4Converter = f.regular.fmp4Converter :=
      (parse_freshly h₁).converter.trans (parse_freshly hf).converter.symm
    cases hr : f.regular.createFragmentsFromRegularMp4 with
    | error e =>
      cases e with
      | io message => exact hemits'.onlyPanics message hr
      | panic => exact hcreate hr
    | ok r =>
      rw [hr] at hsegments
      apply createFragments_ne hemits' hr _ hsegments
      rw [← hone]
      exact hlt.ne'

end Reuse

theorem generate_twice_iff {segments : List MseSegment}
    (h : s₁.generateMseSegments = .ok (segments,s)) :
    s.segmentsOf = .ok segments ↔ ¬ (s₁.isFragmented = false ∧ s₁.regular.EmitsVideo) := by
  by_cases hfragmented : s₁.isFragmented = true
  · obtain ⟨hextract,rfl⟩ := (generateMseSegments_fragmented hfragmented).mp h
    rw [segmentsOf_fragmented hfragmented,hextract]
    simp [hfragmented]
  · have hregular : s₁.isFragmented = false := by simpa using hfragmented
    obtain ⟨c,hcreate,rfl⟩ := (generateMseSegments_regular hregular).mp h
    have hnext : { s₁ with fmp4Converter := c }.isFragmented = false := hregular
    rw [segmentsOf_regular hnext]
    change { s₁.regular with fmp4Converter := c }.createFragmentsFromRegularMp4.map Prod.fst = _ ↔ _
    by_cases hemits : s₁.regular.EmitsVideo
    · have hmoves := createFragments_moves hemits hcreate
      have hne := createFragments_ne hemits hcreate hmoves.ne'
      exact ⟨fun heq => absurd heq hne,fun hnot => absurd ⟨hregular,hemits⟩ hnot⟩
    · rw [createFragments_unmoved hemits,hcreate]
      exact ⟨fun _ hboth => hemits hboth.2,fun _ => rfl⟩

/-- A parser can be used again unless a fragmented file comes before one that is not, or fragments
of a video have been generated before. -/
theorem parser_reuse (d₁ d₂ : Bytes) (s₁ f : ParserState) (h₁ : new.parse d₁ = .ok s₁)
    (hf : new.parse d₂ = .ok f) :
    (∀ called s, s₁.afterGenerate called = .ok s → ∃ s', s.parse d₂ = .ok s' ∧
      (¬ Leaks called s₁ f → SameOutput s' f) ∧
      (f.generateMseSegments ≠ .error .panic → SmallMoovs f.regular → Leaks called s₁ f →
        ¬ SameOutput s' f)) ∧
    ∀ segments s, s₁.generateMseSegments = .ok (segments,s) →
      (s.segmentsOf = .ok segments ↔ ¬ (s₁.isFragmented = false ∧ s₁.regular.EmitsVideo)) := by
  constructor
  · intro called s hg
    obtain ⟨s',hs⟩ := parse_returns hf s
    exact ⟨s',hs,sameOutput_of_not_leaks h₁ hg hs hf,not_sameOutput_of_leaks h₁ hg hs hf⟩
  · exact fun segments s h => generate_twice_iff h

/-- Without a call of `generate_mse_segments`, a file that is not fragmented leaves nothing. -/
theorem parser_reuse_avFile :
    ∃ s', avState.parse (avFile 48000) = .ok s' ∧ SameOutput s' avState := by
  obtain ⟨s',hs,hsame,_⟩ := (parser_reuse (avFile 48000) (avFile 48000) avState avState
    avFile_parse avFile_parse).1 false avState rfl
  refine ⟨s',hs,hsame ?_⟩
  rintro ⟨_,htrue | ⟨hcalled,_⟩⟩
  · cases htrue
  · cases hcalled

def moofState : ParserState :=
  { new with boxes := [⟨⟨tagMoof,8,8⟩,[]⟩], isFragmented := true }

/-- After a `moof`, a file that is not fragmented gives its initialization only. And fragments that
are generated twice have new numbers. -/
theorem old_state_shows :
    (new.parse (encodeAll [⟨tagMoof,[]⟩]) = .ok moofState ∧ new.parse (avFile 48000) = .ok avState ∧
      ∃ s', moofState.parse (avFile 48000) = .ok s' ∧
        s'.segmentsOf.map List.length = .ok 1 ∧ avState.segmentsOf.map List.length = .ok 4 ∧
        ¬ SameOutput s' avState) ∧
    ∃ segments s, avState.generateMseSegments = .ok (segments,s) ∧
      segments.map (fun seg => carriedNumber seg.data) = [none,some 1,some 2,some 1] ∧
      s.segmentsOf.map (fun segments => segments.map (fun seg => carriedNumber seg.data)) =
        .ok [none,some 3,some 4,some 1] ∧
      s.segmentsOf ≠ .ok segments := by
  have hone : avState.fragmented.extractFragmentedSegments.map List.length = .ok 1 := by
    decide +kernel
  have hfour : avState.segmentsOf.map List.length = .ok 4 := by decide +kernel
  have hfirst : avState.segmentsOf.map (fun segments =>
      segments.map (fun seg => carriedNumber seg.data)) =
      .ok [none,some 1,some 2,some 1] := by decide +kernel
  have hsecond : avState.generateMseSegments.bind (fun r => r.2.segmentsOf.map (fun segments =>
      segments.map (fun seg => carriedNumber seg.data))) =
      .ok [none,some 3,some 4,some 1] := by decide +kernel
  constructor
  · obtain ⟨s',hs⟩ := parse_returns avFile_parse moofState
    obtain ⟨hboxes,htracks,hfragmented,_⟩ := parse_again hs avFile_parse
    have hsource : s'.fragmented = avState.fragmented := by
      unfold fragmented
      rw [hboxes,htracks]
    have hlength : s'.segmentsOf.map List.length = .ok 1 := by
      rw [segmentsOf_fragmented (by rw [hfragmented]; rfl),hsource]
      exact hone
    refine ⟨by decide +kernel,avFile_parse,s',hs,hlength,hfour,?_⟩
    intro hsame
    rw [hsame.segments,hfour] at hlength
    cases hlength
  · obtain ⟨⟨segments,s⟩,h⟩ :=
      @exists_ok _ avState.generateMseSegments (by decide +kernel)
    have hsegments : avState.segmentsOf = .ok segments := by
      unfold segmentsOf
      rw [h]
      rfl
    rw [hsegments] at hfirst
    rw [h] at hsecond
    refine ⟨segments,s,h,Except.ok.inj hfirst,hsecond,?_⟩
    intro hsame
    have hnumbers : s.segmentsOf.map (fun segments =>
      segments.map (fun seg => carriedNumber seg.data)) = .ok [none,some 3,some 4,some 1] := hsecond
    rw [hsame,hfirst] at hnumbers
    revert hnumbers
    decide

end ParserState

end OpenBroadcast.Media
