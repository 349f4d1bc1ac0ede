import OpenBroadcast.Media.SkippedGroups

namespace OpenBroadcast.Media

section Groups

variable {loop : GroupLoop} {start : Nat} {mdat : Bytes}

theorem onlyPanics_groupFrames {frame : SampleEntry → Bytes → FrameData}
    (group : List SampleEntry) : OnlyPanics (groupFrames frame start mdat group) := by
  induction group with
  | nil => exact .ok _
  | cons se group ih =>
    rw [groupFrames]
    split_ifs
    · intro message h
      cases h
    · apply (onlyPanics_checkedU64 _).bind
      intro stop
      split_ifs
      · exact .ok _
      · exact ih.bind (fun _ => .ok _)

/-- A group that is skipped, or panics, does so whatever has been emitted before. -/
theorem emitGroup_skipped {group : List SampleEntry} (h : ¬ AllInside start mdat.length group)
    (st : Emission) :
    emitGroup loop start mdat st group =
      (groupFrames loop.frame start mdat group).map (fun _ => st) := by
  unfold emitGroup
  cases hframes : groupFrames loop.frame start mdat group with
  | error e => rfl
  | ok found =>
    have hnone := (groupFrames_eq_ok.mp hframes).2
    rw [if_neg h] at hnone
    subst hnone
    rfl

theorem foldlM_skipped {groups : List (List SampleEntry)}
    (h : ∀ group ∈ groups, ¬ AllInside start mdat.length group) (st st' : Emission) :
    groups.foldlM (emitGroup loop start mdat) st =
      (groups.foldlM (emitGroup loop start mdat) st').map (fun _ => st) := by
  induction groups with
  | nil => rfl
  | cons group groups ih =>
    have hgroup := h group List.mem_cons_self
    rw [List.foldlM_cons,List.foldlM_cons,emitGroup_skipped hgroup,emitGroup_skipped hgroup]
    cases groupFrames loop.frame start mdat group with
    | error e => rfl
    | ok found => exact ih (fun other hother => h other (List.mem_cons_of_mem _ hother))

/-- What a group that is kept adds: one segment with the number of the converter. -/
theorem emitGroup_numbered {group : List SampleEntry} (hne : group ≠ [])
    (hinside : AllInside start mdat.length group) {st st' : Emission}
    (h : emitGroup loop start mdat st group = .ok st') :
    ∃ seg, st'.segments = st.segments++[seg] ∧
      carriedNumber seg.data = some st.converter.sequenceNumber ∧
      st'.converter.sequenceNumber = st.converter.sequenceNumber+1 := by
  unfold emitGroup at h
  obtain ⟨found,hfound,h⟩ := bind_eq_ok.mp h
  have hsome := (groupFrames_eq_ok.mp hfound).2
  rw [if_pos hinside] at hsome
  subst hsome
  have hframes : (group.map (fun se => loop.frame se (se.dataIn start mdat))).isEmpty = false := by
    simpa using hne
  dsimp only at h
  rw [hframes,if_neg (by decide)] at h
  obtain ⟨duration,_,h⟩ := bind_eq_ok.mp h
  obtain ⟨timestamp,_,h⟩ := bind_eq_ok.mp h
  cases hfragment : st.converter.createFragmentV2
      (group.map (fun se => loop.frame se (se.dataIn start mdat))) loop.trackId with
  | error e =>
    cases e with
    | io message => exact absurd hfragment (st.converter.onlyPanics_createFragmentV2 _ _ message)
    | panic =>
      rw [hfragment] at h
      cases h
  | ok r =>
    rw [hfragment] at h
    obtain ⟨st₁,hst₁,h⟩ := bind_eq_ok.mp h
    cases hst₁
    obtain ⟨decodeTime,_,h⟩ := bind_eq_ok.mp h
    cases h
    obtain ⟨hbegins,hnext⟩ := FragmentedMp4Converter.createFragmentV2_begins hfragment
    obtain ⟨hafter,hnumber,_⟩ := FragmentedMp4Converter.next_eq_ok hnext
    refine ⟨_,rfl,hbegins.number (by omega),?_⟩
    dsimp only
    rw [hafter]

theorem onlyPanics_emitFrames (frames : List FrameData) (st : Emission) :
    OnlyPanics (emitFrames loop frames st) := by
  have hmillis : OnlyPanics (timestampMs st.decodeTime loop.timescale) := by
    apply (onlyPanics_checkedU64 _).bind
    intro scaled
    split_ifs
    · intro message h
      cases h
    · exact .ok _
  apply (onlyPanics_checkedU64 _).bind
  intro duration
  apply hmillis.bind
  intro timestamp
  have hnext : ∀ st : Emission, OnlyPanics (do
      let decodeTime ← checkedU64 (st.decodeTime+duration)
      return { st with decodeTime := decodeTime }) :=
    fun st => (onlyPanics_checkedU64 _).bind (fun _ => .ok _)
  cases hfragment : st.converter.createFragmentV2 frames loop.trackId with
  | ok r => exact hnext _
  | error e =>
    cases e with
    | io message => exact absurd hfragment (st.converter.onlyPanics_createFragmentV2 _ _ message)
    | panic =>
      intro message h
      cases h

theorem onlyPanics_emitGroups (groups : List (List SampleEntry)) (st : Emission) :
    OnlyPanics (groups.foldlM (emitGroup loop start mdat) st) := by
  induction groups generalizing st with
  | nil => exact .ok _
  | cons group groups ih =>
    rw [List.foldlM_cons]
    apply OnlyPanics.bind
    · apply (onlyPanics_groupFrames group).bind
      intro found
      split
      · split_ifs
        · exact .ok _
        · exact onlyPanics_emitFrames _ _
      · exact .ok _
    · exact ih

/-- The segments of the groups that are kept have the next numbers. -/
theorem foldlM_numbered {groups : List (List SampleEntry)} (hne : [] ∉ groups)
    {st st' : Emission} (h : groups.foldlM (emitGroup loop start mdat) st = .ok st') :
    ∃ added : List MseSegment, st'.segments = st.segments++added ∧
      added.map (fun seg => carriedNumber seg.data) =
        (List.range' st.converter.sequenceNumber added.length).map some ∧
      st'.converter.sequenceNumber = st.converter.sequenceNumber+added.length ∧
      added.length = (groups.filter (fun group => AllInside start mdat.length group)).length := by
  induction groups generalizing st with
  | nil =>
    cases h
    exact ⟨[],(List.append_nil _).symm,rfl,rfl,rfl⟩
  | cons group groups ih =>
    have hgroup : group ≠ [] := fun heq => hne (by simp [heq])
    have hrest : [] ∉ groups := fun hmem => hne (List.mem_cons_of_mem _ hmem)
    rw [List.foldlM_cons,bind_eq_ok] at h
    obtain ⟨st₁,hst₁,h⟩ := h
    obtain ⟨added,hadded,hnumbers,hafter,hlength⟩ := ih hrest h
    by_cases hinside : AllInside start mdat.length group
    · obtain ⟨seg,hseg,hnumber,hnext⟩ := emitGroup_numbered hgroup hinside hst₁
      rw [hnext] at hnumbers hafter
      refine ⟨seg::added,?_,?_,?_,?_⟩
      · rw [hadded,hseg,List.append_assoc]
        rfl
      · rw [List.map_cons,hnumber,hnumbers,List.length_cons,List.range'_succ,List.map_cons]
      · rw [hafter,List.length_cons]
        omega
      · rw [List.filter_cons_of_pos (by simpa using hinside),List.length_cons,List.length_cons,
          hlength]
    · rw [emitGroup_skipped hinside] at hst₁
      cases hframes : groupFrames loop.frame start mdat group with
      | error e =>
        rw [hframes] at hst₁
        cases hst₁
      | ok found =>
        rw [hframes] at hst₁
        cases hst₁
        refine ⟨added,hadded,hnumbers,hafter,?_⟩
        rw [List.filter_cons_of_neg (by simpa using hinside),hlength]

end Groups

section SampleTables

theorem onlyPanics_panic {α : Type} : OnlyPanics (.error .panic : Except Mp4Error α) := by
  intro message h
  cases h

theorem onlyPanics_mapM {α β : Type} {f : α → Except Mp4Error β} (hf : ∀ a, OnlyPanics (f a))
    (l : List α) : OnlyPanics (l.mapM f) := by
  induction l with
  | nil => exact .ok _
  | cons a l ih =>
    rw [List.mapM_cons]
    exact (hf a).bind (fun _ => ih.bind (fun _ => .ok _))

namespace SampleTable

theorem onlyPanics_zeroBased (n : UInt32) : OnlyPanics (zeroBased n) := by
  unfold zeroBased
  split_ifs
  · exact onlyPanics_panic
  · exact .ok _

theorem onlyPanics_fillChunks (runs : List (UInt32 × UInt32 × UInt32)) (counts : List Nat) :
    OnlyPanics (fillChunks runs counts) := by
  induction runs generalizing counts with
  | nil => exact .ok _
  | cons run runs ih =>
    obtain ⟨first,spc,desc⟩ := run
    have hfill : ∀ start stop : Nat, OnlyPanics (if min stop counts.length < start then
        .error .panic else fillChunks runs (counts.take start++
          List.replicate (min stop counts.length-start) spc.toNat++
          counts.drop (min stop counts.length))) := by
      intro start stop
      split_ifs
      · exact onlyPanics_panic
      · exact ih _
    apply (onlyPanics_zeroBased first).bind
    intro start
    cases runs with
    | nil => exact hfill start _
    | cons next runs => exact (onlyPanics_zeroBased next.1).bind (hfill start)

theorem onlyPanics_chunkSamples (chunkOffset n offsetInChunk : Nat) (sizes : List UInt32) :
    OnlyPanics (chunkSamples chunkOffset n offsetInChunk sizes) := by
  induction n generalizing offsetInChunk sizes with
  | zero => exact .ok _
  | succ n ih =>
    cases sizes with
    | nil => exact .ok _
    | cons size sizes =>
      exact (onlyPanics_checkedU64 _).bind (fun _ => (onlyPanics_checkedU64 _).bind
        (fun _ => (ih _ _).bind (fun _ => .ok _)))

theorem onlyPanics_allSamples (chunks : List (UInt64 × Nat)) (sizes : List UInt32) :
    OnlyPanics (allSamples chunks sizes) := by
  induction chunks generalizing sizes with
  | nil => exact .ok _
  | cons chunk chunks ih =>
    exact (onlyPanics_chunkSamples _ _ _ _).bind (fun r => (ih r.2).bind (fun _ => .ok _))

theorem onlyPanics_markKeyframes (syncSamples : List UInt32) (entries : List SampleEntry) :
    OnlyPanics (markKeyframes syncSamples entries) := by
  unfold markKeyframes
  split_ifs
  · exact .ok _
  · exact (onlyPanics_mapM onlyPanics_zeroBased _).bind (fun _ => .ok _)

theorem onlyPanics_resolveSampleOffsets (t : SampleTable) : OnlyPanics t.resolveSampleOffsets := by
  unfold resolveSampleOffsets
  split_ifs
  · exact .ok _
  · exact (onlyPanics_fillChunks _ _).bind (fun _ => (onlyPanics_allSamples _ _).bind
      (fun _ => (onlyPanics_markKeyframes _ _).bind (fun _ => .ok _)))

end SampleTable

theorem FragmentedMp4Converter.onlyPanics_createFragment (s : FragmentedMp4Converter)
    (frames : List FrameData) (trackId : UInt32) : OnlyPanics (s.createFragment frames trackId) := by
  have hsize : OnlyPanics (calculateMoofSize frames) :=
    (onlyPanics_checkedU32 _).bind (fun _ => onlyPanics_checkedU32 _)
  have htrun : OnlyPanics (createTrun frames) :=
    hsize.bind (fun _ => (onlyPanics_checkedU32 _).bind (fun _ => onlyPanics_wrapBox _ _))
  have htraf : OnlyPanics (s.createTraf frames trackId) :=
    htrun.bind (fun _ => onlyPanics_wrapBox _ _)
  have hmdat : OnlyPanics (createMdat frames) :=
    (onlyPanics_checkedU32 _).bind (fun _ => (onlyPanics_checkedU32 _).bind (fun _ => .ok _))
  exact (htraf.bind (fun _ => onlyPanics_wrapBox _ _)).bind
    (fun _ => hmdat.bind (fun _ => (s.onlyPanics_next frames).bind (fun _ => .ok _)))

end SampleTables

namespace RegularMp4

variable {p : RegularMp4}

/-- There is a fragment for the video, if nothing panics: there is data for one, and an
initialization segment before it. -/
def EmitsVideo (p : RegularMp4) : Prop :=
  (∃ moov, p.lastBox tagMoov = some moov) ∧ p.mdatData ≠ [] ∧
    ∀ t, p.videoTrack.bind SampledTrack.sampleTable = some t →
      ∃ entries, t.resolveSampleOffsets = .ok entries ∧ (gops entries).filter p.isKept ≠ []

/-- The segments of the video are numbered on from the number of the converter. -/
structure Numbered (c c' : FragmentedMp4Converter) (video : List MseSegment) : Prop where
  numbers : video.map (fun seg => carriedNumber seg.data) =
    (List.range' c.sequenceNumber video.length).map some
  next : c'.sequenceNumber = c.sequenceNumber+video.length

theorem pieceSegments_numbered {n index : Nat} {data : Bytes} {c c' : FragmentedMp4Converter}
    {segments : List MseSegment} (h : p.pieceSegments n index data c = .ok (segments,c')) :
    Numbered c c' segments := by
  induction n generalizing index data c segments with
  | zero =>
    cases data <;>
    · cases h
      exact ⟨rfl,rfl⟩
  | succ n ih =>
    by_cases hne : data = []
    · subst hne
      cases h
      exact ⟨rfl,rfl⟩
    · rw [pieceSegments] at h
      · obtain ⟨timestamp,_,h⟩ := bind_eq_ok.mp h
        obtain ⟨⟨fragment,c₁⟩,hfragment,h⟩ := bind_eq_ok.mp h
        obtain ⟨⟨rest,c₂⟩,hrest,h⟩ := bind_eq_ok.mp h
        cases h
        obtain ⟨hbegins,hnext⟩ := FragmentedMp4Converter.createFragment_begins hfragment
        obtain ⟨rfl,hnumber,_⟩ := FragmentedMp4Converter.next_eq_ok hnext
        obtain ⟨hnumbers,hafter⟩ := ih hrest
        dsimp only at hnumbers hafter
        constructor
        · rw [List.map_cons,hbegins.number (by omega),hnumbers,List.length_cons,
            List.range'_succ,List.map_cons]
        · rw [hafter,List.length_cons]
          omega
      · exact hne

theorem gopSegments_numbered {t : SampleTable} {st : Emission} (h : p.gopSegments t = .ok st) :
    ∃ entries, t.resolveSampleOffsets = .ok entries ∧ entries ≠ [] ∧
      Numbered p.fmp4Converter st.converter st.segments ∧
      st.segments.length = ((gops entries).filter p.isKept).length := by
  obtain ⟨entries,hentries,h⟩ := bind_eq_ok.mp h
  split_ifs at h with hempty
  have hne : entries ≠ [] := by simpa using hempty
  rw [gopLoop_eq _ hne] at h
  obtain ⟨added,hadded,hnumbers,hafter,hlength⟩ :=
    foldlM_numbered (gops_cut entries).nonempty h
  rw [List.nil_append] at hadded
  rw [← hadded] at hnumbers hafter hlength
  exact ⟨entries,hentries,hne,⟨hnumbers,hafter⟩,hlength⟩

/-- The video: its numbers, and that there is some exactly if the data says so. -/
theorem videoSegments_numbered {video : List MseSegment} {c : FragmentedMp4Converter}
    (hmoov : ∃ moov, p.lastBox tagMoov = some moov) (hmedia : p.mdatData ≠ [])
    (h : p.videoSegments = .ok (video,c)) :
    Numbered p.fmp4Converter c video ∧ (video ≠ [] ↔ p.EmitsVideo) := by
  unfold videoSegments at h
  cases htable : p.videoTrack.bind SampledTrack.sampleTable with
  | none =>
    rw [htable] at h
    refine ⟨pieceSegments_numbered h,?_⟩
    constructor
    · intro _
      refine ⟨hmoov,hmedia,?_⟩
      intro t ht
      rw [htable] at ht
      cases ht
    · intro _ hnil
      subst hnil
      obtain ⟨n,hn⟩ := Nat.exists_eq_succ_of_ne_zero
        (fun hzero => hmedia (List.length_eq_zero_iff.mp hzero) : p.mdatData.length ≠ 0)
      dsimp only at h
      rw [hn,pieceSegments] at h
      · obtain ⟨_,_,h⟩ := bind_eq_ok.mp h
        obtain ⟨_,_,h⟩ := bind_eq_ok.mp h
        obtain ⟨_,_,h⟩ := bind_eq_ok.mp h
        cases h
      · exact hmedia
  | some t =>
    rw [htable] at h
    obtain ⟨st,hst,h⟩ := bind_eq_ok.mp h
    cases h
    obtain ⟨entries,hentries,_,hnumbered,hlength⟩ := gopSegments_numbered hst
    refine ⟨hnumbered,?_⟩
    rw [← List.length_pos_iff,hlength,List.length_pos_iff]
    constructor
    · intro hkept
      refine ⟨hmoov,hmedia,?_⟩
      intro t' ht'
      rw [htable] at ht'
      cases ht'
      exact ⟨entries,hentries,hkept⟩
    · intro hemits
      obtain ⟨entries',hentries',hkept⟩ := hemits.2.2 t htable
      rw [hentries] at hentries'
      cases hentries'
      exact hkept

section Panics

theorem onlyPanics_pieceSegments (n index : Nat) (data : Bytes) (c : FragmentedMp4Converter) :
    OnlyPanics (p.pieceSegments n index data c) := by
  induction n generalizing index data c with
  | zero => cases data <;> exact .ok _
  | succ n ih =>
    by_cases hne : data = []
    · subst hne
      exact .ok _
    · rw [pieceSegments]
      · exact (onlyPanics_checkedU64 _).bind (fun _ => (c.onlyPanics_createFragment _ _).bind
          (fun r => (ih _ _ r.2).bind (fun _ => .ok _)))
      · exact hne

theorem onlyPanics_audioSegments : OnlyPanics p.audioSegments := by
  unfold audioSegments
  split_ifs
  · exact .ok _
  · split
    · exact .ok _
    · split
      · exact .ok _
      · apply (SampleTable.onlyPanics_resolveSampleOffsets _).bind
        intro entries
        cases entries with
        | nil => exact .ok _
        | cons first rest =>
          dsimp only
          rw [chunkLoop_eq _ (samplesPerChunk_pos _ _) (le_refl _)]
          exact (onlyPanics_emitGroups _ _).bind (fun _ => .ok _)

theorem onlyPanics_initSegment {moov : Mp4Box} (hmoov : p.lastBox tagMoov = some moov) :
    OnlyPanics p.initSegment := by
  obtain ⟨mvex,hmvex,_⟩ := p.createMvexBox_ok
  have hcreate : p.createMseCompatibleMoov moov = wrapBox tagMoov (p.moovContent moov++mvex) := by
    unfold createMseCompatibleMoov
    rw [hmvex]
    rfl
  have honly : OnlyPanics (p.createMseCompatibleMoov moov) := by
    rw [hcreate]
    exact onlyPanics_wrapBox _ _
  unfold initSegment
  rw [hmoov]
  exact honly.bind (fun _ => .ok _)

/-- Where a fragment of the video is to be emitted, the conversion fails only by a panic. -/
theorem EmitsVideo.onlyPanics (h : p.EmitsVideo) : OnlyPanics p.createFragmentsFromRegularMp4 := by
  obtain ⟨⟨moov,hmoov⟩,hmedia,htable⟩ := h
  have hvideo : OnlyPanics p.videoSegments := by
    unfold videoSegments
    cases ht : p.videoTrack.bind SampledTrack.sampleTable with
    | none => exact onlyPanics_pieceSegments _ _ _ _
    | some t =>
      obtain ⟨entries,hentries,hkept⟩ := htable t ht
      have hne : entries ≠ [] := by
        intro hnil
        subst hnil
        exact hkept rfl
      have hempty : entries.isEmpty = false := by simpa using hne
      apply OnlyPanics.bind
      · unfold gopSegments
        rw [hentries]
        simp only [bind,Except.bind,hempty]
        rw [gopLoop_eq _ hne]
        exact onlyPanics_emitGroups _ _
      · exact fun _ => .ok _
  unfold createFragmentsFromRegularMp4
  apply (onlyPanics_initSegment hmoov).bind
  intro init
  rw [if_neg (by simpa using hmedia)]
  exact hvideo.bind (fun _ => onlyPanics_audioSegments.bind (fun _ => .ok _))

end Panics

section Unmoved

theorem videoSegments_unmoved (hemits : ¬ p.EmitsVideo)
    (hmoov : ∃ moov, p.lastBox tagMoov = some moov) (hmedia : p.mdatData ≠ [])
    (c : FragmentedMp4Converter) :
    { p with fmp4Converter := c }.videoSegments = p.videoSegments.map (fun r => (r.1,c)) := by
  obtain ⟨t,htable,hskipped⟩ : ∃ t, p.videoTrack.bind SampledTrack.sampleTable = some t ∧
      ∀ entries, t.resolveSampleOffsets = .ok entries → (gops entries).filter p.isKept = [] := by
    by_contra hnone
    refine hemits ⟨hmoov,hmedia,?_⟩
    intro t ht
    by_contra hall
    refine hnone ⟨t,ht,?_⟩
    intro entries hentries
    by_contra hkept
    exact hall ⟨entries,hentries,hkept⟩
  have htable' : { p with fmp4Converter := c }.videoTrack.bind SampledTrack.sampleTable = some t :=
    htable
  have hgops : { p with fmp4Converter := c }.gopSegments t =
      (p.gopSegments t).map (fun _ => ⟨c,0,[]⟩) ∧
      p.gopSegments t = (p.gopSegments t).map (fun _ => ⟨p.fmp4Converter,0,[]⟩) := by
    unfold gopSegments
    cases hentries : t.resolveSampleOffsets with
    | error e => exact ⟨rfl,rfl⟩
    | ok entries =>
      by_cases hempty : entries = []
      · subst hempty
        exact ⟨rfl,rfl⟩
      · have hnot : ∀ group ∈ gops entries,
            ¬ AllInside p.mdatPayloadOffset p.mdatData.length group := by
          intro group hgroup hinside
          have hmem : group ∈ (gops entries).filter p.isKept :=
            List.mem_filter.mpr ⟨hgroup,by simpa [isKept] using hinside⟩
          rw [hskipped entries hentries] at hmem
          cases hmem
        have hboth : ∀ c : FragmentedMp4Converter,
            (gops entries).foldlM (emitGroup p.videoLoop p.mdatPayloadOffset p.mdatData) ⟨c,0,[]⟩ =
            ((gops entries).foldlM (emitGroup p.videoLoop p.mdatPayloadOffset p.mdatData)
              ⟨p.fmp4Converter,0,[]⟩).map (fun _ => ⟨c,0,[]⟩) :=
          fun c => foldlM_skipped hnot _ _
        simp only [bind,Except.bind,List.isEmpty_iff,hempty,if_false]
        rw [gopLoop_eq _ hempty,gopLoop_eq _ hempty]
        exact ⟨hboth c,hboth p.fmp4Converter⟩
  unfold videoSegments
  rw [htable',htable]
  dsimp only
  rw [hgops.1]
  cases hst : p.gopSegments t with
  | error e => rfl
  | ok st =>
    rw [hst] at hgops
    have hnil : st = ⟨p.fmp4Converter,0,[]⟩ := Except.ok.inj hgops.2
    rw [hnil]
    rfl

/-- Where no fragment of the video is emitted, the converter does not matter, and stays. -/
theorem createFragments_unmoved (hemits : ¬ p.EmitsVideo) (c : FragmentedMp4Converter) :
    { p with fmp4Converter := c }.createFragmentsFromRegularMp4 =
      p.createFragmentsFromRegularMp4.map (fun r => (r.1,c)) := by
  have hinit : { p with fmp4Converter := c }.initSegment = p.initSegment := rfl
  have hmdat : { p with fmp4Converter := c }.mdatData = p.mdatData := rfl
  have haudio : { p with fmp4Converter := c }.audioSegments = p.audioSegments := rfl
  unfold createFragmentsFromRegularMp4
  rw [hinit,hmdat,haudio]
  cases hok : p.initSegment with
  | error e => rfl
  | ok init =>
    have hmoov : ∃ moov, p.lastBox tagMoov = some moov := by
      unfold initSegment at hok
      dsimp only at hok
      split at hok
      · next moov hmoov => exact ⟨moov,hmoov⟩
      · cases hok
    by_cases hmedia : p.mdatData = []
    · simp only [bind,Except.bind,hmedia,List.isEmpty_nil,if_true]
      rfl
    · rw [videoSegments_unmoved hemits hmoov hmedia]
      simp only [bind,Except.bind,List.isEmpty_iff,hmedia,if_false]
      cases p.videoSegments with
      | error e => rfl
      | ok r =>
        dsimp only [Except.map]
        cases p.audioSegments <;> rfl

end Unmoved

end RegularMp4

end OpenBroadcast.Media
