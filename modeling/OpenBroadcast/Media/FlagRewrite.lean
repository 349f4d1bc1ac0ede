import OpenBroadcast.Media.FlagSearch
import OpenBroadcast.Media.ParserReuse

namespace OpenBroadcast.Media

open RawBox

section Fields

/-- A `tfhd` by the standard. Its optional fields follow each other. -/
structure TfhdFields where
  trackId : Nat
  baseDataOffset : Option Nat
  sampleDescriptionIndex : Option Nat
  defaultSampleDuration : Option Nat
  defaultSampleSize : Option Nat
  defaultSampleFlags : Option Nat
  durationIsEmpty : Bool
  defaultBaseIsMoof : Bool
  deriving DecidableEq, Repr

def optionalField (body : Bytes) (flags i offset width : Nat) : Option Nat :=
  if flags.testBit i then some (beNat ((body.drop offset).take width)) else none

/-- The fields of a `tfhd` that is as long as its flags say. -/
def readTfhdFields (body : Bytes) : Option TfhdFields :=
  let flags := beNat ((body.drop 1).take 3)
  let index := 8+2*field flags 0
  let duration := index+field flags 1
  let size := duration+field flags 3
  let sampleFlags := size+field flags 4
  if body.length = sampleFlags+field flags 5 then
    some
      { trackId := beNat ((body.drop 4).take 4)
        baseDataOffset := optionalField body flags 0 8 8
        sampleDescriptionIndex := optionalField body flags 1 index 4
        defaultSampleDuration := optionalField body flags 3 duration 4
        defaultSampleSize := optionalField body flags 4 size 4
        defaultSampleFlags := optionalField body flags 5 sampleFlags 4
        durationIsEmpty := flags.testBit 16
        defaultBaseIsMoof := flags.testBit 17 }
  else none

def tfhdFlags (body : Bytes) : Nat := beNat ((body.drop 1).take 3)

/-- The length that the flags of a `tfhd` say. -/
def tfhdLength (flags : Nat) : Nat :=
  8+2*field flags 0+field flags 1+field flags 3+field flags 4+field flags 5

variable {body : Bytes}

theorem readTfhdFields_isSome : (readTfhdFields body).isSome ↔
    body.length = tfhdLength (tfhdFlags body) := by
  unfold readTfhdFields tfhdLength tfhdFlags
  dsimp only
  split_ifs with h
  · exact ⟨fun _ => h,fun _ => rfl⟩
  · exact ⟨fun hsome => (by cases hsome),fun hlength => absurd hlength h⟩

theorem eight_le_of_isSome (h : (readTfhdFields body).isSome) : 8 ≤ body.length := by
  have hlength := readTfhdFields_isSome.mp h
  unfold tfhdLength at hlength
  omega

/-- Without a base data offset, all fields stay where they are. -/
theorem readTfhdFields_fixedTfhd {f : TfhdFields} (h : readTfhdFields body = some f)
    (hbase : (tfhdFlags body).testBit 0 = false) :
    readTfhdFields (fixedTfhd body) =
      some { f with baseDataOffset := none, defaultBaseIsMoof := true } := by
  have h8 : 8 ≤ body.length := eight_le_of_isSome (by rw [h]; rfl)
  have hbit : ∀ i < 24, i ≠ 17 → (beNat (((fixedTfhd body).drop 1).take 3)).testBit i =
      (beNat ((body.drop 1).take 3)).testBit i := by
    intro i hi h17
    have hflags := flags_fixedTfhd h8 hi
    by_cases hzero : i = 0
    · subst hzero
      rw [if_pos rfl] at hflags
      exact hflags.trans hbase.symm
    · rwa [if_neg hzero,if_neg h17] at hflags
  have hmoof : (beNat (((fixedTfhd body).drop 1).take 3)).testBit 17 = true := by
    have hflags := flags_fixedTfhd h8 (show 17 < 24 by decide)
    rwa [if_neg (by decide),if_pos rfl] at hflags
  have hfield : ∀ i < 24, i ≠ 17 → field (beNat (((fixedTfhd body).drop 1).take 3)) i =
      field (beNat ((body.drop 1).take 3)) i := by
    intro i hi h17
    unfold field
    rw [hbit i hi h17]
  have hvalue : ∀ i < 24, i ≠ 17 → ∀ offset, 4 ≤ offset → ∀ width,
      optionalField (fixedTfhd body) (beNat (((fixedTfhd body).drop 1).take 3)) i offset width =
        optionalField body (beNat ((body.drop 1).take 3)) i offset width := by
    intro i hi h17 offset hoffset width
    unfold optionalField
    rw [hbit i hi h17,drop_fixedTfhd hoffset]
  have hnone : optionalField body (beNat ((body.drop 1).take 3)) 0 8 8 = none := by
    unfold optionalField
    rw [show (beNat ((body.drop 1).take 3)).testBit 0 = false from hbase]
    rfl
  unfold readTfhdFields at h ⊢
  dsimp only at h ⊢
  rw [hfield 0 (by decide) (by decide),hfield 1 (by decide) (by decide),
    hfield 3 (by decide) (by decide),hfield 4 (by decide) (by decide),
    hfield 5 (by decide) (by decide),length_fixedTfhd]
  split_ifs at h with hlength
  cases h
  rw [if_pos hlength,drop_fixedTfhd (le_refl 4),hvalue 0 (by decide) (by decide) _ (by omega),
    hvalue 1 (by decide) (by decide) _ (by omega),hvalue 3 (by decide) (by decide) _ (by omega),
    hvalue 4 (by decide) (by decide) _ (by omega),hvalue 5 (by decide) (by decide) _ (by omega),
    hbit 16 (by decide) (by decide),hmoof,hnone]

/-- With a base data offset, the fields behind it are not where the flags say. -/
theorem readTfhdFields_fixedTfhd_none (h : (readTfhdFields body).isSome)
    (hbase : (tfhdFlags body).testBit 0 = true) : readTfhdFields (fixedTfhd body) = none := by
  have h8 := eight_le_of_isSome h
  have hlength := readTfhdFields_isSome.mp h
  have hfield : ∀ i < 24, i ≠ 0 → i ≠ 17 →
      field (tfhdFlags (fixedTfhd body)) i = field (tfhdFlags body) i := by
    intro i hi hzero h17
    have hflags := flags_fixedTfhd h8 hi
    rw [if_neg hzero,if_neg h17] at hflags
    unfold field tfhdFlags
    rw [hflags]
  have hgone : field (tfhdFlags (fixedTfhd body)) 0 = 0 := by
    have hflags := flags_fixedTfhd h8 (show 0 < 24 by decide)
    rw [if_pos rfl] at hflags
    unfold field tfhdFlags
    rw [hflags]
    rfl
  have hthere : field (tfhdFlags body) 0 = 4 := by
    unfold field
    rw [hbase]
    rfl
  rw [← Option.not_isSome_iff_eq_none,readTfhdFields_isSome,length_fixedTfhd,hlength]
  unfold tfhdLength
  rw [hfield 1 (by decide) (by decide) (by decide),hfield 3 (by decide) (by decide) (by decide),
    hfield 4 (by decide) (by decide) (by decide),hfield 5 (by decide) (by decide) (by decide),
    hgone,hthere]
  omega

end Fields

section Boxes

/-- A `tfhd` keeps its meaning, and any other box stays as it is. -/
def LeafKept (b b' : RawBox) : Prop :=
  b'.kind = b.kind ∧
    if isTfhd b then ∃ f, readTfhdFields b.body = some f ∧ readTfhdFields b'.body =
      some { f with baseDataOffset := none, defaultBaseIsMoof := true }
    else b'.body = b.body

/-- In a `traf`, this goes for the boxes that it consists of. -/
def BoxKept (b b' : RawBox) : Prop :=
  if isTraf b then b'.kind = b.kind ∧ ∃ cs cs', readBoxes b.body = some cs ∧
    readBoxes b'.body = some cs' ∧ List.Forall₂ LeafKept cs cs'
  else LeafKept b b'

/-- The `tfhd` boxes in a box of a `moof`. -/
def tfhdsIn (b : RawBox) : List RawBox :=
  (if isTraf b then (readBoxes b.body).getD [] else [b]).filter isTfhd

/-- A `tfhd` without a base data offset. -/
def NoBase (b : RawBox) : Prop := (tfhdFlags b.body).testBit 0 = false

theorem leafKept_fixLeaf_iff {b : RawBox} (h : isTfhd b → (readTfhdFields b.body).isSome) :
    LeafKept b (fixLeaf b) ↔ (isTfhd b → NoBase b) := by
  unfold LeafKept fixLeaf NoBase
  by_cases htfhd : isTfhd b = true
  · obtain ⟨f,hf⟩ := Option.isSome_iff_exists.mp (h htfhd)
    rw [if_pos htfhd,if_pos htfhd]
    constructor
    · intro hkept _
      obtain ⟨_,_,_,hread⟩ := hkept
      by_contra hbase
      rw [Bool.not_eq_false] at hbase
      rw [readTfhdFields_fixedTfhd_none (h htfhd) hbase] at hread
      cases hread
    · intro hbase
      exact ⟨rfl,f,hf,readTfhdFields_fixedTfhd hf (hbase htfhd)⟩
  · rw [if_neg htfhd,if_neg htfhd]
    simp [htfhd]

theorem boxKept_fixBox_iff {b : RawBox} (hs : Searchable b)
    (h : ∀ t ∈ tfhdsIn b, (readTfhdFields t.body).isSome) :
    BoxKept b (fixBox b) ↔ ∀ t ∈ tfhdsIn b, NoBase t := by
  unfold BoxKept tfhdsIn at *
  by_cases htraf : isTraf b = true
  · obtain ⟨cs,hcs,_⟩ := hs.traf htraf
    have hleaf : ∀ c ∈ cs, LeafKept c (fixLeaf c) ↔ (isTfhd c → NoBase c) := by
      intro c hc
      apply leafKept_fixLeaf_iff
      intro htfhd
      apply h
      rw [if_pos htraf,hcs]
      exact List.mem_filter.mpr ⟨hc,htfhd⟩
    have hall : List.Forall₂ LeafKept cs (cs.map fixLeaf) ↔ ∀ c ∈ cs, isTfhd c → NoBase c := by
      rw [List.forall₂_map_right_iff,List.forall₂_same]
      exact forall₂_congr hleaf
    rw [if_pos htraf,if_pos htraf,hcs,fixBox_traf htraf hcs,Option.getD_some]
    simp only [List.mem_filter,and_imp]
    rw [← hall]
    constructor
    · intro hkept
      obtain ⟨_,ds,ds',hds,hds',hkept⟩ := hkept
      cases hds
      have hread : readBoxes (encodeAll (cs.map fixLeaf)) = some ds' := hds'
      rw [readBoxes_fixLeaf hcs] at hread
      cases hread
      exact hkept
    · intro hkept
      exact ⟨by simp,cs,_,rfl,readBoxes_fixLeaf hcs,hkept⟩
  · rw [if_neg htraf,if_neg htraf,fixBox_other htraf]
    rw [if_neg htraf] at h
    rw [leafKept_fixLeaf_iff (fun htfhd => h b (by simp [htfhd]))]
    simp

end Boxes

section Moof

/-- A `moof` whose boxes follow each other, with those of its `traf` boxes, and whose `tfhd` boxes
have the length that their flags say. -/
structure TiledMoof where
  boxes : List RawBox
  fits : ∀ b ∈ boxes, b.Fits
  searchable : ∀ b ∈ boxes, Searchable b
  tfhds : ∀ b ∈ boxes, ∀ t ∈ tfhdsIn b, (readTfhdFields t.body).isSome

namespace TiledMoof

variable (m : TiledMoof) (header : BoxHeader)

def content : Bytes := encodeAll m.boxes

/-- The result is a `moof` of boxes that keep their meaning, and it is left alone when it is
rewritten again. -/
structure RewrittenTo (after : List RawBox) : Prop where
  result : fixMoofTfhdFlags ⟨header,m.content⟩ = .ok (RawBox.mk tagMoof (encodeAll after)).encode
  moof_fits : (RawBox.mk tagMoof (encodeAll after)).Fits
  fits : ∀ b ∈ after, b.Fits
  kept : List.Forall₂ BoxKept m.boxes after
  again : fixMoofTfhdFlags ⟨header,encodeAll after⟩ =
    .ok (RawBox.mk tagMoof (encodeAll after)).encode

theorem fixTfhdFlagsRecursive_content :
    fixTfhdFlagsRecursive m.content = encodeAll (m.boxes.map fixBox) :=
  fixTfhdFlagsFrom_map _ (le_refl _) m.fits m.searchable

theorem fixBox_fits : ∀ b ∈ m.boxes.map fixBox, b.Fits := by
  intro b hb
  obtain ⟨c,hc,rfl⟩ := List.mem_map.mp hb
  exact (m.searchable c hc).fits (m.fits c hc)

theorem length_fixBox : (encodeAll (m.boxes.map fixBox)).length = m.content.length := by
  rw [← m.fixTfhdFlagsRecursive_content]
  exact length_fixTfhdFlagsFrom _ _

theorem fixTfhdFlagsRecursive_again :
    fixTfhdFlagsRecursive (encodeAll (m.boxes.map fixBox)) = encodeAll (m.boxes.map fixBox) := by
  have htwice : (m.boxes.map fixBox).map fixBox = m.boxes.map fixBox := by
    rw [List.map_map]
    apply List.map_congr_left
    intro b hb
    exact (m.searchable b hb).idem
  have hsearchable : ∀ b ∈ m.boxes.map fixBox, Searchable b := by
    intro b hb
    obtain ⟨c,hc,rfl⟩ := List.mem_map.mp hb
    exact (m.searchable c hc).fixBox
  have hrun := fixTfhdFlagsFrom_map _ (le_refl _) m.fixBox_fits hsearchable
  rw [htwice] at hrun
  exact hrun

/-- The only boxes that the result can consist of. -/
theorem RewrittenTo.after_eq {after : List RawBox} (h : m.RewrittenTo header after) :
    after = m.boxes.map fixBox := by
  have hresult := h.result
  unfold fixMoofTfhdFlags at hresult
  dsimp only at hresult
  rw [m.fixTfhdFlagsRecursive_content] at hresult
  obtain ⟨size,hsize,hdata⟩ := wrapBox_eq_ok hresult
  unfold RawBox.encode at hdata
  have hsame := List.append_inj_right hdata (by simp [hsize])
  exact encodeAll_inj h.fits m.fixBox_fits hsame

/-- The rewrite keeps the meaning of the `tfhd` boxes exactly if none of them has a base data
offset, in a `moof` whose size can be written. -/
theorem rewritten_iff : (∃ after, m.RewrittenTo header after) ↔
    8+m.content.length < 2^32 ∧ ∀ b ∈ m.boxes, ∀ t ∈ tfhdsIn b, NoBase t := by
  have hkept : List.Forall₂ BoxKept m.boxes (m.boxes.map fixBox) ↔
      ∀ b ∈ m.boxes, ∀ t ∈ tfhdsIn b, NoBase t := by
    rw [List.forall₂_map_right_iff,List.forall₂_same]
    exact forall₂_congr (fun b hb => boxKept_fixBox_iff (m.searchable b hb) (m.tfhds b hb))
  have hlength := m.length_fixBox
  constructor
  · intro h
    obtain ⟨after,h⟩ := h
    have hafter := h.after_eq
    have hsize : 8+(encodeAll after).length < 2^32 := h.moof_fits.size
    rw [hafter,hlength] at hsize
    refine ⟨hsize,hkept.mp ?_⟩
    rw [← hafter]
    exact h.kept
  · intro h
    obtain ⟨hsize,hbase⟩ := h
    have hwrap : wrapBox tagMoof (encodeAll (m.boxes.map fixBox)) =
        .ok (RawBox.mk tagMoof (encodeAll (m.boxes.map fixBox))).encode :=
      wrapBox_ok tagMoof (by omega)
    refine ⟨m.boxes.map fixBox,?_,⟨rfl,?_⟩,m.fixBox_fits,hkept.mpr hbase,?_⟩
    · unfold fixMoofTfhdFlags
      dsimp only
      rw [m.fixTfhdFlagsRecursive_content,hwrap]
    · unfold RawBox.size
      dsimp only
      rw [hlength]
      exact hsize
    · unfold fixMoofTfhdFlags
      dsimp only
      rw [m.fixTfhdFlagsRecursive_again,hwrap]

/-- A fragment of a track whose `tfhd` has a base data offset and a default duration. -/
def offsetMoof : TiledMoof where
  boxes := [⟨tagTraf,encodeAll [⟨tagTfhd,[0,0,0,9]++toBe 4 1++toBe 8 1000++toBe 4 40⟩]⟩]
  fits := by
    intro b hb
    cases List.mem_singleton.mp hb
    exact ⟨rfl,by decide⟩
  searchable := by
    intro b hb
    cases List.mem_singleton.mp hb
    refine ⟨by decide,fun _ => ⟨[⟨tagTfhd,[0,0,0,9]++toBe 4 1++toBe 8 1000++toBe 4 40⟩],?_,?_⟩⟩
    · decide
    · decide
  tfhds := by
    intro b hb
    cases List.mem_singleton.mp hb
    decide

/-- The upper half of the offset has become the default duration, and the size is wrong. -/
theorem offsetMoof_not_rewritten :
    fixTfhdFlagsRecursive offsetMoof.content = encodeAll [⟨tagTraf,encodeAll
      [⟨tagTfhd,[0,2,0,8]++toBe 4 1++toBe 4 0++toBe 4 1000++toBe 4 40⟩]⟩] ∧
    ∀ header, ¬ ∃ after, offsetMoof.RewrittenTo header after := by
  refine ⟨by decide,?_⟩
  intro header h
  obtain ⟨after,h⟩ := h
  have hafter := h.after_eq
  have hkept := h.kept
  rw [hafter] at hkept
  have hbox : BoxKept _ _ := (List.forall₂_cons.mp hkept).1
  rw [boxKept_fixBox_iff (offsetMoof.searchable _ List.mem_cons_self)
    (offsetMoof.tfhds _ List.mem_cons_self)] at hbox
  revert hbox
  unfold NoBase
  decide

end TiledMoof

end Moof

end OpenBroadcast.Media
