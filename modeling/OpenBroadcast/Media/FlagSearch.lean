import OpenBroadcast.Media.FragmentReader

namespace OpenBroadcast.Media

open RawBox

/-- The content of a `tfhd` with its flags changed. -/
def fixedTfhd (body : Bytes) : Bytes :=
  let flags := beNat ((body.drop 1).take 3)
  if body.length < 8 ∨ (flags.testBit 17 && !flags.testBit 0) = true then body
  else body.take 1++toBe 3 ((flags &&& 0xfffffe) ||| 0x020000)++body.drop 4

theorem length_fixedTfhd (body : Bytes) : (fixedTfhd body).length = body.length := by
  unfold fixedTfhd
  dsimp only
  split_ifs with hkeep
  · rfl
  · simp only [List.length_append,List.length_take,List.length_drop,length_toBe]
    omega

theorem drop_fixedTfhd {n : Nat} (hn : 4 ≤ n) (body : Bytes) :
    (fixedTfhd body).drop n = body.drop n := by
  unfold fixedTfhd
  dsimp only
  split_ifs with hkeep
  · rfl
  · have hfour : (body.take 1++toBe 3 ((beNat ((body.drop 1).take 3) &&& 0xfffffe) ||| 0x020000) :
        Bytes).length = 4 := by
      simp only [List.length_append,List.length_take,length_toBe]
      omega
    obtain ⟨k,rfl⟩ : ∃ k, n = 4+k := ⟨n-4,by omega⟩
    rw [← List.drop_drop,List.drop_left' hfour,List.drop_drop]

theorem testBit_changedFlags (flags : Nat) {i : Nat} (hi : i < 24) :
    ((flags &&& 0xfffffe) ||| 0x020000).testBit i =
      if i = 0 then false else if i = 17 then true else flags.testBit i := by
  have hmask : ∀ i < 24, Nat.testBit 0xfffffe i = decide (i ≠ 0) := by decide
  have hbase : ∀ i < 24, Nat.testBit 0x020000 i = decide (i = 17) := by decide
  rw [Nat.testBit_or,Nat.testBit_and,hmask i hi,hbase i hi]
  split_ifs with hzero h17
  · simp [hzero]
  · simp [h17]
  · simp [hzero,h17]

/-- The flags after the change. -/
theorem flags_fixedTfhd {body : Bytes} (h : 8 ≤ body.length) {i : Nat} (hi : i < 24) :
    (beNat (((fixedTfhd body).drop 1).take 3)).testBit i =
      if i = 0 then false else if i = 17 then true
      else (beNat ((body.drop 1).take 3)).testBit i := by
  have hlt := beNat_lt ((body.drop 1).take 3)
  have hthree : ((body.drop 1).take 3).length = 3 := by
    rw [List.length_take,List.length_drop]
    omega
  rw [hthree] at hlt
  unfold fixedTfhd
  dsimp only
  generalize hflags : beNat ((body.drop 1).take 3) = flags at hlt
  by_cases hkeep : body.length < 8 ∨ (flags.testBit 17 && !flags.testBit 0) = true
  · have hok : flags.testBit 17 = true ∧ flags.testBit 0 = false := by
      rcases hkeep with hshort | hok
      · omega
      · simpa using hok
    rw [if_pos hkeep,hflags]
    split_ifs with hzero h17
    · rw [hzero,hok.2]
    · rw [h17,hok.1]
    · rfl
  · have hone : (body.take 1).length = 1 := by
      rw [List.length_take]
      omega
    have hor : (flags &&& 0xfffffe) ||| 0x020000 < 2^24 :=
      Nat.or_lt_two_pow (lt_of_le_of_lt Nat.and_le_left hlt) (by decide)
    rw [if_neg hkeep,List.append_assoc,List.drop_left' hone,List.take_left' (length_toBe 3 _),
      beNat_toBe,show 256^3 = 2^24 by decide,Nat.mod_eq_of_lt hor]
    exact testBit_changedFlags flags hi

/-- Changing the flags again changes nothing. -/
theorem fixedTfhd_idem (body : Bytes) : fixedTfhd (fixedTfhd body) = fixedTfhd body := by
  by_cases hshort : body.length < 8
  · have hsame : fixedTfhd body = body := if_pos (Or.inl hshort)
    rw [hsame,hsame]
  · have h17 := flags_fixedTfhd (Nat.le_of_not_lt hshort) (show 17 < 24 by decide)
    have h0 := flags_fixedTfhd (Nat.le_of_not_lt hshort) (show 0 < 24 by decide)
    rw [if_neg (by decide),if_pos rfl] at h17
    rw [if_pos rfl] at h0
    exact if_pos (Or.inr (by rw [h17,h0]; rfl))

/-- The change of the flags, box by box. -/
theorem fixSingleTfhdFlags_encode {b : RawBox} (h : b.Fits) (rest : Bytes) :
    fixSingleTfhdFlags (b.encode++rest) b.size =
      (RawBox.mk b.kind (fixedTfhd b.body)).encode++rest := by
  have hsize : (RawBox.mk b.kind (fixedTfhd b.body)).size = b.size := by
    simp only [RawBox.size,length_fixedTfhd]
  have hheader : (toBe 4 b.size++b.kind : Bytes).length = 8 := by
    rw [List.length_append,length_toBe,h.kind]
  have hencode : b.encode++rest = (toBe 4 b.size++b.kind)++(b.body++rest) := by
    simp only [encode,List.append_assoc]
  have hnew : (RawBox.mk b.kind (fixedTfhd b.body)).encode++rest =
      (toBe 4 b.size++b.kind)++(fixedTfhd b.body++rest) := by
    simp only [encode,hsize,List.append_assoc]
  rw [hnew,hencode]
  unfold fixSingleTfhdFlags fixedTfhd
  by_cases hshort : b.body.length < 8
  · rw [if_pos (Or.inl (by rw [RawBox.size]; omega))]
    dsimp only
    rw [if_pos (Or.inl hshort)]
  · have hlong : ¬ (b.size < 16 ∨
        ((toBe 4 b.size++b.kind)++(b.body++rest) : Bytes).length < 12) := by
      rw [@List.length_append _ (toBe 4 b.size++b.kind),hheader,List.length_append,RawBox.size]
      omega
    have hdrop : ∀ n, ((toBe 4 b.size++b.kind)++(b.body++rest) : Bytes).drop (8+n) =
        (b.body++rest).drop n := by
      intro n
      rw [← List.drop_drop,List.drop_left' hheader]
    have hflags : (((toBe 4 b.size++b.kind)++(b.body++rest) : Bytes).drop 9).take 3 =
        (b.body.drop 1).take 3 := by
      rw [hdrop 1,List.drop_append_of_le_length (by omega),
        List.take_append_of_le_length (by rw [List.length_drop]; omega)]
    have htake : ((toBe 4 b.size++b.kind)++(b.body++rest) : Bytes).take 9 =
        (toBe 4 b.size++b.kind)++b.body.take 1 := by
      have hnine := @List.take_length_add_append _ (toBe 4 b.size++b.kind) (b.body++rest) 1
      rw [hheader] at hnine
      rw [hnine,List.take_append_of_le_length (by omega)]
    rw [if_neg hlong]
    dsimp only
    rw [hflags,hdrop 4,htake]
    by_cases hok : ((beNat ((b.body.drop 1).take 3)).testBit 17 &&
        !(beNat ((b.body.drop 1).take 3)).testBit 0) = true
    · rw [if_pos hok,if_pos (Or.inr hok)]
    · rw [if_neg hok,if_neg (not_or.mpr ⟨hshort,hok⟩),List.drop_append_of_le_length (by omega)]
      simp only [List.append_assoc]

/-- A box in a `traf` after the change. -/
def fixLeaf (b : RawBox) : RawBox := if isTfhd b then ⟨b.kind,fixedTfhd b.body⟩ else b

/-- A box in a `moof` after the change. -/
def fixBox (b : RawBox) : RawBox :=
  if isTraf b then ⟨b.kind,encodeAll (((readBoxes b.body).getD []).map fixLeaf)⟩ else fixLeaf b

/-- A box that the search for flags goes through box by box. -/
structure Searchable (b : RawBox) : Prop where
  mfhd : isMfhd b → b.body.take 4 = [0,0,0,0]
  traf : isTraf b → ∃ cs, readBoxes b.body = some cs ∧ ∀ c ∈ cs, ¬ isTraf c ∧ ¬ isMfhd c

@[simp] theorem kind_fixLeaf (b : RawBox) : (fixLeaf b).kind = b.kind := by
  unfold fixLeaf
  split_ifs <;> rfl

@[simp] theorem length_fixLeaf (b : RawBox) : (fixLeaf b).body.length = b.body.length := by
  unfold fixLeaf
  split_ifs
  · exact length_fixedTfhd b.body
  · rfl

theorem size_fixLeaf (b : RawBox) : (fixLeaf b).size = b.size := by
  simp only [RawBox.size,length_fixLeaf]

theorem fixLeaf_fits {b : RawBox} (h : b.Fits) : (fixLeaf b).Fits :=
  ⟨by rw [kind_fixLeaf]; exact h.kind,by rw [size_fixLeaf]; exact h.size⟩

theorem fixLeaf_idem (b : RawBox) : fixLeaf (fixLeaf b) = fixLeaf b := by
  by_cases hb : isTfhd b
  · have hone : fixLeaf b = ⟨b.kind,fixedTfhd b.body⟩ := if_pos hb
    have htwo : fixLeaf ⟨b.kind,fixedTfhd b.body⟩ = ⟨b.kind,fixedTfhd (fixedTfhd b.body)⟩ :=
      if_pos hb
    rw [hone,htwo,fixedTfhd_idem]
  · have hone : fixLeaf b = b := if_neg hb
    rw [hone,hone]

theorem length_encodeAll_fixLeaf {cs : List RawBox} (h : ∀ c ∈ cs, c.Fits) :
    (encodeAll (cs.map fixLeaf)).length = (encodeAll cs).length := by
  induction cs with
  | nil => rfl
  | cons c cs ih =>
    have hc := h c List.mem_cons_self
    have htail := ih (fun d hd => h d (List.mem_cons_of_mem _ hd))
    rw [List.map_cons,encodeAll_cons,encodeAll_cons,List.length_append,List.length_append,htail,
      (fixLeaf_fits hc).length_encode,hc.length_encode,size_fixLeaf]

@[simp] theorem kind_fixBox (b : RawBox) : (fixBox b).kind = b.kind := by
  unfold fixBox
  split_ifs
  · rfl
  · exact kind_fixLeaf b

theorem isTraf_fixBox (b : RawBox) : isTraf (fixBox b) = isTraf b := by
  unfold isTraf
  rw [kind_fixBox]

theorem fixBox_traf {b : RawBox} {cs : List RawBox} (hb : isTraf b)
    (hcs : readBoxes b.body = some cs) : fixBox b = ⟨b.kind,encodeAll (cs.map fixLeaf)⟩ := by
  unfold fixBox
  rw [if_pos hb,hcs]
  rfl

theorem fixBox_other {b : RawBox} (hb : ¬ isTraf b) : fixBox b = fixLeaf b := if_neg hb

theorem map_fixBox {cs : List RawBox} (h : ∀ c ∈ cs, ¬ isTraf c ∧ ¬ isMfhd c) :
    cs.map fixBox = cs.map fixLeaf :=
  List.map_congr_left (fun c hc => fixBox_other (h c hc).1)

theorem readBoxes_fixLeaf {body : Bytes} {cs : List RawBox} (hcs : readBoxes body = some cs) :
    readBoxes (encodeAll (cs.map fixLeaf)) = some (cs.map fixLeaf) := by
  apply readBoxes_encodeAll
  intro d hd
  obtain ⟨c,hc,rfl⟩ := List.mem_map.mp hd
  exact fixLeaf_fits ((readBoxes_exact hcs).2 c hc)

namespace Searchable

variable {b : RawBox}

theorem size (h : Searchable b) : (fixBox b).size = b.size := by
  by_cases hb : isTraf b
  · obtain ⟨cs,hcs,_⟩ := h.traf hb
    obtain ⟨hbody,hfits⟩ := readBoxes_exact hcs
    rw [fixBox_traf hb hcs,RawBox.size,RawBox.size,length_encodeAll_fixLeaf hfits,hbody]
  · rw [fixBox_other hb,size_fixLeaf]

theorem fits (h : Searchable b) (hb : b.Fits) : (fixBox b).Fits :=
  ⟨by rw [kind_fixBox]; exact hb.kind,by rw [h.size]; exact hb.size⟩

theorem flat_map {cs : List RawBox} (h : ∀ c ∈ cs, ¬ isTraf c ∧ ¬ isMfhd c) :
    ∀ c ∈ cs.map fixLeaf, ¬ isTraf c ∧ ¬ isMfhd c := by
  intro d hd
  obtain ⟨c,hc,rfl⟩ := List.mem_map.mp hd
  unfold isTraf isMfhd
  rw [kind_fixLeaf]
  exact h c hc

theorem fixBox (h : Searchable b) : Searchable (fixBox b) := by
  constructor
  · intro hmfhd
    have hkind : b.kind = tagMfhd := by simpa [isMfhd] using hmfhd
    have hsame : Media.fixBox b = b := by
      have htfhd : ¬ isTfhd b := by simp [isTfhd,hkind,tagMfhd,tagTfhd]
      rw [fixBox_other (by simp [isTraf,hkind,tagMfhd,tagTraf])]
      exact if_neg htfhd
    rw [hsame]
    exact h.mfhd (by simp [isMfhd,hkind])
  · intro htraf
    rw [isTraf_fixBox] at htraf
    obtain ⟨cs,hcs,hflat⟩ := h.traf htraf
    rw [fixBox_traf htraf hcs]
    exact ⟨_,readBoxes_fixLeaf hcs,flat_map hflat⟩

theorem idem (h : Searchable b) : Media.fixBox (Media.fixBox b) = Media.fixBox b := by
  by_cases hb : isTraf b
  · obtain ⟨cs,hcs,_⟩ := h.traf hb
    rw [fixBox_traf hb hcs]
    have htraf : isTraf ⟨b.kind,encodeAll (cs.map fixLeaf)⟩ := hb
    rw [fixBox_traf htraf (readBoxes_fixLeaf hcs),List.map_map]
    congr 2
    apply List.map_congr_left
    intro c _
    exact fixLeaf_idem c
  · have hnot : ¬ isTraf (fixLeaf b) := by
      unfold isTraf
      rw [kind_fixLeaf]
      exact hb
    rw [fixBox_other hb,fixBox_other hnot,fixLeaf_idem]

theorem of_flat {c : RawBox} (h : ¬ isTraf c ∧ ¬ isMfhd c) : Searchable c :=
  ⟨fun hmfhd => absurd hmfhd h.2,fun htraf => absurd htraf h.1⟩

end Searchable

section Search

variable {b : RawBox} {bs : List RawBox}

/-- What is made of the first box before the search goes on behind it. What follows a `traf` or an
`mfhd` is searched along with its content. -/
def fixFirst (n : Nat) (b : RawBox) (rest : Bytes) : Bytes :=
  if b.kind = tagTfhd then fixSingleTfhdFlags (b.encode++rest) b.size
  else if b.kind = tagTraf ∨ b.kind = tagMfhd then
    (b.encode++rest).take 8++fixTfhdFlagsFrom n (b.body++rest)
  else b.encode++rest

theorem fixTfhdFlagsFrom_first (hb : b.Fits) (n : Nat) (rest : Bytes) :
    fixTfhdFlagsFrom (n+1) (b.encode++rest) = (fixFirst n b rest).take b.size++
      fixTfhdFlagsFrom n ((fixFirst n b rest).drop b.size) := by
  have h8 := b.eight_le_size
  have hlength : (b.encode++rest).length = b.size+rest.length := by
    rw [List.length_append,hb.length_encode]
  rw [fixTfhdFlagsFrom,hb.read_size,hlength,if_neg (by omega),hb.read_kind,hb.drop_header]
  rfl

theorem fixFirst_traf (hb : b.Fits) (hsb : Searchable b) (htraf : isTraf b) {cs : List RawBox}
    (hcs : readBoxes b.body = some cs) {n : Nat} {rest rest' : Bytes}
    (hinner : fixTfhdFlagsFrom n (b.body++rest) = encodeAll (cs.map fixLeaf)++rest') :
    fixFirst n b rest = (fixBox b).encode++rest' := by
  have hkind : b.kind = tagTraf := by simpa [isTraf] using htraf
  have hheader : (b.encode++rest).take 8 = toBe 4 b.size++b.kind := by
    rw [encode,List.append_assoc]
    exact List.take_left' (by rw [List.length_append,length_toBe,hb.kind])
  unfold fixFirst
  rw [if_neg (by rw [hkind]; decide),if_pos (Or.inl hkind),hinner,hheader,← List.append_assoc]
  congr 1
  rw [encode,hsb.size,fixBox_traf htraf hcs]

theorem fixFirst_other (hb : b.Fits) (hsb : Searchable b) (htraf : ¬ isTraf b) (n : Nat)
    (rest : Bytes) : fixFirst n b rest = (fixBox b).encode++rest := by
  have hnew := fixBox_other htraf
  unfold fixFirst
  by_cases htfhd : isTfhd b
  · have hkind : b.kind = tagTfhd := by simpa [isTfhd] using htfhd
    have hfix : fixLeaf b = ⟨b.kind,fixedTfhd b.body⟩ := if_pos htfhd
    rw [if_pos hkind,hnew,hfix,fixSingleTfhdFlags_encode hb]
  · have hleaf : fixLeaf b = b := if_neg htfhd
    rw [if_neg (by simpa [isTfhd] using htfhd),hnew,hleaf]
    by_cases hmfhd : isMfhd b
    · have hkind : b.kind = tagMfhd := by simpa [isMfhd] using hmfhd
      -- The content of an `mfhd` starts with a size of 0.
      have hstop : fixTfhdFlagsFrom n (b.body++rest) = b.body++rest :=
        fixTfhdFlagsFrom_zero n (take_four_append (hsb.mfhd hmfhd) _)
      rw [if_pos (Or.inr hkind),hstop,← hb.drop_header,List.take_append_drop]
    · rw [if_neg (by simpa [isTraf,isMfhd] using And.intro htraf hmfhd)]

theorem map_fixBox_fits (hfits : ∀ b ∈ bs, b.Fits) (hs : ∀ b ∈ bs, Searchable b) :
    ∀ d ∈ bs.map fixBox, d.Fits := by
  intro d hd
  obtain ⟨c,hc,rfl⟩ := List.mem_map.mp hd
  exact (hs c hc).fits (hfits c hc)

theorem map_fixBox_searchable (hs : ∀ b ∈ bs, Searchable b) :
    ∀ d ∈ bs.map fixBox, Searchable d := by
  intro d hd
  obtain ⟨c,hc,rfl⟩ := List.mem_map.mp hd
  exact (hs c hc).fixBox

theorem map_fixBox_idem (hs : ∀ b ∈ bs, Searchable b) :
    (bs.map fixBox).map fixBox = bs.map fixBox := by
  rw [List.map_map]
  apply List.map_congr_left
  intro c hc
  exact (hs c hc).idem

/-- The search changes the flags box by box. What follows a `traf` it goes through twice. -/
theorem fixTfhdFlagsFrom_map (n : Nat) {bs : List RawBox} (hn : (encodeAll bs).length ≤ n)
    (hfits : ∀ b ∈ bs, b.Fits) (hs : ∀ b ∈ bs, Searchable b) :
    fixTfhdFlagsFrom n (encodeAll bs) = encodeAll (bs.map fixBox) := by
  induction n generalizing bs with
  | zero =>
    cases bs with
    | nil => rfl
    | cons b bs =>
      have h8 := b.eight_le_size
      have hlength := (hfits b List.mem_cons_self).length_encode
      rw [encodeAll_cons,List.length_append] at hn
      omega
  | succ n ih =>
    cases bs with
    | nil => rfl
    | cons b bs =>
      have hb := hfits b List.mem_cons_self
      have hsb := hs b List.mem_cons_self
      have hfits' : ∀ c ∈ bs, c.Fits := fun c hc => hfits c (List.mem_cons_of_mem _ hc)
      have hs' : ∀ c ∈ bs, Searchable c := fun c hc => hs c (List.mem_cons_of_mem _ hc)
      have h8 := b.eight_le_size
      rw [encodeAll_cons,List.length_append,hb.length_encode] at hn
      have htail : fixTfhdFlagsFrom n (encodeAll bs) = encodeAll (bs.map fixBox) :=
        ih (by omega) hfits' hs'
      have hnew := hsb.fits hb
      rw [encodeAll_cons,fixTfhdFlagsFrom_first hb,List.map_cons,encodeAll_cons]
      by_cases htraf : isTraf b
      · obtain ⟨cs,hcs,hflat⟩ := hsb.traf htraf
        obtain ⟨hbody,hcsFits⟩ := readBoxes_exact hcs
        have hinner : fixTfhdFlagsFrom n (b.body++encodeAll bs) =
            encodeAll (cs.map fixLeaf)++encodeAll (bs.map fixBox) := by
          rw [hbody,← encodeAll_append,← map_fixBox hflat,← encodeAll_append,← List.map_append]
          apply ih
          · rw [encodeAll_append,List.length_append,← hbody]
            rw [RawBox.size] at hn
            omega
          · intro c hc
            rcases List.mem_append.mp hc with hc | hc
            · exact hcsFits c hc
            · exact hfits' c hc
          · intro c hc
            rcases List.mem_append.mp hc with hc | hc
            · exact .of_flat (hflat c hc)
            · exact hs' c hc
        -- The boxes behind are changed already, and changing them again does nothing.
        have hagain : fixTfhdFlagsFrom n (encodeAll (bs.map fixBox)) =
            encodeAll (bs.map fixBox) := by
          have hsize : (encodeAll (bs.map fixBox)).length = (encodeAll bs).length := by
            rw [← htail,length_fixTfhdFlagsFrom]
          have hrun := @ih (bs.map fixBox) (by omega) (map_fixBox_fits hfits' hs')
            (map_fixBox_searchable hs')
          rwa [map_fixBox_idem hs'] at hrun
        rw [fixFirst_traf hb hsb htraf hcs hinner,← hsb.size,hnew.take_size,hnew.drop_size,hagain]
      · rw [fixFirst_other hb hsb htraf,← hsb.size,hnew.take_size,hnew.drop_size,htail]

end Search

end OpenBroadcast.Media
