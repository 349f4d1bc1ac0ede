import OpenBroadcast.Media.ParserTotality
import OpenBroadcast.Media.TrackKinds

namespace OpenBroadcast.Media

open RawBox

section Visited

/-- The boxes on the way of the loop over children: it ends at a box of size 0 or one that is not
all there, and where no header fits into the limit. -/
def visitedFrom : Nat → Nat → Bytes → List BoxAt
  | 0,_,_ => []
  | n+1,limit,data =>
    let childSize := beNat (data.take 4)
    if limit < 8 ∨ data.length < 8 ∨ childSize = 0 ∨ data.length < childSize then []
    else ⟨(data.drop 4).take 4,childSize,data⟩::
      visitedFrom n (limit-childSize) (data.drop childSize)

def visited (limit : Nat) (data : Bytes) : List BoxAt := visitedFrom data.length limit data

/-- Within a limit that the data reach, no header is read behind their end. -/
theorem forChildrenFrom_eq {S : Type} (step : S → Bytes → Bytes → Except Mp4Error S)
    {n limit : Nat} {data : Bytes} (hlimit : limit ≤ data.length) (s : S) :
    forChildrenFrom step n limit data s =
      (visitedFrom n limit data).foldlM (fun s b => step s b.kind b.bytes) s := by
  induction n generalizing limit data s with
  | zero => rfl
  | succ n ih =>
    rw [forChildrenFrom,visitedFrom]
    by_cases hend : limit < 8
    · rw [if_pos (Or.inl hend)]
      simp [hend,pure,Except.pure]
    · have hlong : ¬ data.length < 8 := by omega
      have hdata : data ≠ [] := by
        intro hnil
        rw [hnil] at hlong
        exact hlong (by decide)
      rw [if_neg (by simp [hend,hdata]),if_neg hlong]
      dsimp only
      by_cases hstop : beNat (data.take 4) = 0 ∨ data.length < beNat (data.take 4)
      · rw [if_pos hstop,if_pos (by tauto)]
        rfl
      · rw [if_neg hstop,if_neg (by tauto),List.foldlM_cons]
        apply bind_congr
        intro s
        apply ih
        rw [List.length_drop]
        omega

/-- A box on the way is all there. -/
structure BoxAt.Whole (b : BoxAt) : Prop where
  header : 8 ≤ b.rest.length
  size : b.size = beNat (b.rest.take 4)
  within : b.size ≤ b.rest.length

theorem visitedFrom_whole {n limit : Nat} {data : Bytes} :
    ∀ b ∈ visitedFrom n limit data, b.Whole := by
  induction n generalizing limit data with
  | zero => simp [visitedFrom]
  | succ n ih =>
    intro b hb
    rw [visitedFrom] at hb
    split_ifs at hb with hstop
    · cases hb
    · rcases List.mem_cons.mp hb with rfl | hb
      · exact ⟨by dsimp only; omega,rfl,by dsimp only; omega⟩
      · exact ih b hb

theorem BoxAt.Whole.length_bytes {b : BoxAt} (h : b.Whole) : b.bytes.length = b.size := by
  have hwithin := h.within
  unfold bytes
  rw [List.length_take]
  omega

theorem BoxAt.Whole.read_size {b : BoxAt} (h : b.Whole) (h4 : 4 ≤ b.size) :
    beNat (b.bytes.take 4) = b.size := by
  unfold bytes
  rw [List.take_take,Nat.min_eq_left h4,h.size]

end Visited

section Traf

/-- What the new `traf` takes over from a child. -/
def keptSize (c : BoxAt) : Nat :=
  if c.kind = tagTfhd then 0 else if c.kind = tagTfdt then 20 else c.size

def lastTfhd (cs : List BoxAt) : Option BoxAt := (cs.filter (fun c => c.kind == tagTfhd)).getLast?

/-- The length of what a new `traf` holds: the last `tfhd`, a `tfdt` of its own or those for the old
ones, and the other children. -/
def newTrafLength (cs : List BoxAt) : Nat :=
  ((lastTfhd cs).elim 0 BoxAt.size)+(if cs.any (fun c => c.kind == tagTfdt) then 0 else 20)+
    (cs.map keptSize).sum

theorem length_createTfdtBox (time : Nat) : (createTfdtBox time).length = 20 := by
  simp [createTfdtBox,tagTfdt]

theorem trafChild_fold_length {time : Nat} {cs : List BoxAt} (hcs : ∀ c ∈ cs, c.Whole)
    (s : TrafParts) : ∃ parts : TrafParts,
      cs.foldlM (fun s b => trafChild time s b.kind b.bytes) s = .ok parts ∧
      (parts.tfhd.getD []).length = (lastTfhd cs).elim (s.tfhd.getD []).length BoxAt.size ∧
      parts.hasTfdt = (s.hasTfdt || cs.any (fun c => c.kind == tagTfdt)) ∧
      parts.content.length = s.content.length+(cs.map keptSize).sum := by
  induction cs generalizing s with
  | nil => exact ⟨s,rfl,rfl,by simp,rfl⟩
  | cons c cs ih =>
    have hwhole := hcs c List.mem_cons_self
    have hlength := hwhole.length_bytes
    have hrest : ∀ c ∈ cs, c.Whole := fun x hx => hcs x (List.mem_cons_of_mem _ hx)
    rw [List.foldlM_cons]
    by_cases htfhd : c.kind = tagTfhd
    · have hne : (c.kind == tagTfdt) = false := by
        rw [htfhd]
        decide
      obtain ⟨parts,hfold,hhead,htime,hcontent⟩ := ih hrest { s with tfhd := some c.bytes }
      refine ⟨parts,?_,?_,?_,?_⟩
      · simpa [trafChild,htfhd,bind,Except.bind] using hfold
      · rw [hhead]
        unfold lastTfhd
        rw [List.filter_cons_of_pos (by simpa using htfhd),List.getLast?_cons]
        cases (cs.filter (fun c => c.kind == tagTfhd)).getLast? with
        | none => exact hlength
        | some last => rfl
      · rw [List.any_cons,hne,Bool.false_or]
        exact htime
      · simpa [keptSize,htfhd] using hcontent
    · have hlast : lastTfhd (c::cs) = lastTfhd cs := by
        unfold lastTfhd
        rw [List.filter_cons_of_neg (by simpa using htfhd)]
      by_cases htfdt : c.kind = tagTfdt
      · obtain ⟨parts,hfold,hhead,htime,hcontent⟩ :=
          ih hrest { s with hasTfdt := true, content := s.content++createTfdtBox time }
        have hne : tagTfdt ≠ tagTfhd := by decide
        refine ⟨parts,?_,?_,?_,?_⟩
        · simpa [trafChild,htfdt,hne,bind,Except.bind] using hfold
        · rw [hhead,hlast]
        · simpa [htfdt] using htime
        · rw [hcontent,List.length_append,length_createTfdtBox,List.map_cons,List.sum_cons]
          simp only [keptSize,htfdt,hne,if_true,if_false]
          omega
      · obtain ⟨parts,hfold,hhead,htime,hcontent⟩ :=
          ih hrest { s with content := s.content++c.bytes }
        have hne : (c.kind == tagTfdt) = false := by simpa using htfdt
        refine ⟨parts,?_,?_,?_,?_⟩
        · simpa [trafChild,htfhd,htfdt,bind,Except.bind] using hfold
        · rw [hhead,hlast]
        · rw [List.any_cons,hne,Bool.false_or]
          exact htime
        · rw [hcontent,List.length_append,hlength,List.map_cons,List.sum_cons]
          simp only [keptSize,htfhd,htfdt,if_false]
          omega

namespace BoxAt

variable (b : BoxAt)

/-- A `traf` that is too small for a header is refused. -/
def ShortTraf : Prop := b.kind = tagTraf ∧ b.size < 8

/-- The children of a `traf`. -/
def trafChildren : List BoxAt := visited (b.size-8) (b.bytes.drop 8)

/-- The size of the new `traf` can be written. -/
def TrafFits : Prop :=
  b.kind = tagTraf → 8 ≤ b.size → 8+newTrafLength b.trafChildren%2^32 < 2^32

variable {b}

theorem ensureTrafHasTfdt_eq (h : b.Whole) (time : Nat) (h8 : 8 ≤ b.size) :
    ∃ content : Bytes, content.length = newTrafLength b.trafChildren ∧
      ensureTrafHasTfdt b.bytes time = wrapBox tagTraf content := by
  have hlength := h.length_bytes
  have hdrop : (b.bytes.drop 8).length = b.size-8 := by rw [List.length_drop,hlength]
  obtain ⟨parts,hfold,hhead,htime,hcontent⟩ :=
    @trafChild_fold_length time b.trafChildren visitedFrom_whole ⟨none,false,[]⟩
  have hchildren : forChildren (trafChild time) (b.size-8) (b.bytes.drop 8) ⟨none,false,[]⟩ =
      .ok parts := by
    unfold forChildren
    rw [forChildrenFrom_eq _ (le_of_eq hdrop.symm)]
    exact hfold
  refine ⟨parts.tfhd.getD []++(if parts.hasTfdt then [] else createTfdtBox time)++parts.content,
    ?_,?_⟩
  · rw [Bool.false_or] at htime
    rw [List.length_append,List.length_append,hhead,hcontent,htime]
    unfold newTrafLength
    split_ifs
    · simp
    · rw [length_createTfdtBox]
      simp
  · unfold ensureTrafHasTfdt
    rw [if_neg (by omega),h.read_size (by omega)]
    dsimp only
    rw [hchildren]
    rfl

end BoxAt

end Traf

section Moof

/-- The length of what a new `moof` holds. -/
def newMoofLength (cs : List BoxAt) : Nat :=
  (cs.map (fun c => if c.kind = tagTraf then 8+newTrafLength c.trafChildren else c.size)).sum

variable {b : BoxAt}

/-- A child of a `moof` is taken over, or its `traf` is refused or too large. -/
theorem moofChild_cases (h : b.Whole) (time : Nat) (content : Bytes) :
    (b.ShortTraf ∧ moofChild time content b.kind b.bytes = .error (.io "traf data too small")) ∨
    (¬ b.ShortTraf ∧ ¬ b.TrafFits ∧ moofChild time content b.kind b.bytes = .error .panic) ∨
    (¬ b.ShortTraf ∧ b.TrafFits ∧ ∃ new : Bytes, new.length =
        (if b.kind = tagTraf then 8+newTrafLength b.trafChildren else b.size) ∧
      moofChild time content b.kind b.bytes = .ok (content++new)) := by
  unfold moofChild
  by_cases hkind : b.kind = tagTraf
  · rw [if_pos hkind]
    by_cases h8 : b.size < 8
    · have hshort : ensureTrafHasTfdt b.bytes time = .error (.io "traf data too small") := by
        unfold ensureTrafHasTfdt
        rw [if_pos (by rw [h.length_bytes]; exact h8)]
      rw [hshort]
      exact Or.inl ⟨⟨hkind,h8⟩,rfl⟩
    · have hlong : ¬ b.ShortTraf := fun hshort => h8 hshort.2
      obtain ⟨new,hlength,hnew⟩ := BoxAt.ensureTrafHasTfdt_eq h time (by omega)
      have hwrap := wrapBox_eq_ok_iff tagTraf new
      rw [hnew]
      cases hok : wrapBox tagTraf new with
      | ok traf =>
        have hfits := hwrap.mp ⟨traf,hok⟩
        rw [hlength] at hfits
        refine Or.inr (Or.inr ⟨hlong,fun _ _ => hfits,traf,?_,rfl⟩)
        rw [if_pos hkind,length_wrapBox rfl hok,hlength]
      | error e =>
        have hlarge : ¬ b.TrafFits := by
          intro hfits
          obtain ⟨traf,htraf⟩ := hwrap.mpr (by rw [hlength]; exact hfits hkind (by omega))
          rw [hok] at htraf
          cases htraf
        cases e with
        | io message => exact absurd hok (onlyPanics_wrapBox _ _ message)
        | panic => exact Or.inr (Or.inl ⟨hlong,hlarge,rfl⟩)
  · rw [if_neg hkind]
    refine Or.inr (Or.inr ⟨fun hshort => hkind hshort.1,fun htraf => absurd htraf hkind,b.bytes,
      ?_,rfl⟩)
    rw [if_neg hkind,h.length_bytes]

theorem moofChild_returns_iff (h : b.Whole) (time : Nat) (content : Bytes) :
    moofChild time content b.kind b.bytes ≠ .error .panic ↔ b.TrafFits := by
  rcases moofChild_cases h time content with ⟨hshort,hio⟩ | ⟨_,hlarge,hpanic⟩ | ⟨_,hfits,new,_,hok⟩
  · have hfits : b.TrafFits := fun _ h8 => absurd hshort.2 (by omega)
    simp [hio,hfits]
  · simp [hpanic,hlarge]
  · simp [hok,hfits]

theorem moofChild_ok_iff (h : b.Whole) (time : Nat) (content : Bytes) :
    (∃ new, moofChild time content b.kind b.bytes = .ok new) ↔ b.TrafFits ∧ ¬ b.ShortTraf := by
  rcases moofChild_cases h time content with ⟨hshort,hio⟩ | ⟨_,hlarge,hpanic⟩ |
    ⟨hlong,hfits,new,_,hok⟩
  · simp [hio,hshort]
  · simp [hpanic,hlarge]
  · simp [hok,hfits,hlong]

/-- The children of a new `moof`, as the sizes go that are written into it. -/
def moofChildren (content : Bytes) : List BoxAt := visited (content.length%2^32) content

def ShortTrafIn (content : Bytes) : Prop := ∃ c ∈ moofChildren content, c.ShortTraf

/-- Up to a `traf` that is refused, the new ones have sizes that can be written, and without one, so
has the new `moof`. -/
structure MoofBounded (content : Bytes) : Prop where
  trafs : GoodUntil BoxAt.ShortTraf BoxAt.TrafFits (moofChildren content)
  size : ¬ ShortTrafIn content → 8+newMoofLength (moofChildren content)%2^32 < 2^32

theorem moofChild_fold_length {time : Nat} {cs : List BoxAt} (hcs : ∀ c ∈ cs, c.Whole)
    {content new : Bytes}
    (h : cs.foldlM (fun s b => moofChild time s b.kind b.bytes) content = .ok new) :
    new.length = content.length+newMoofLength cs := by
  induction cs generalizing content with
  | nil =>
    cases h
    rfl
  | cons c cs ih =>
    obtain ⟨hwhole,hrest⟩ := List.forall_mem_cons.mp hcs
    rw [List.foldlM_cons] at h
    obtain ⟨next,hnext,h⟩ := bind_eq_ok.mp h
    rcases moofChild_cases hwhole time content with ⟨_,hio⟩ | ⟨_,_,hpanic⟩ | ⟨_,_,part,hlength,hok⟩
    · rw [hio] at hnext
      cases hnext
    · rw [hpanic] at hnext
      cases hnext
    · rw [hok] at hnext
      cases hnext
      have hsum : newMoofLength (c::cs) = part.length+newMoofLength cs := by
        rw [hlength]
        rfl
      rw [ih hrest h,List.length_append,hsum]
      omega

/-- The `moof` that was just written is read as it was written. -/
theorem ensureMoofHasTfdt_eq {content moof : Bytes} (hmoof : wrapBox tagMoof content = .ok moof)
    (time : Nat) : ensureMoofHasTfdt moof time =
      (moofChildren content).foldlM (fun s b => moofChild time s b.kind b.bytes) [] >>=
        wrapBox tagMoof := by
  have hfits : 8+content.length%2^32 < 2^32 := (wrapBox_eq_ok_iff tagMoof content).mp ⟨moof,hmoof⟩
  have hbytes : moof = toBe 4 (8+content.length%2^32)++tagMoof++content := by
    unfold wrapBox boxSize32 at hmoof
    rw [if_pos hfits] at hmoof
    cases hmoof
    rfl
  have hlength : moof.length = 8+content.length := length_wrapBox rfl hmoof
  have hsize : beNat (moof.take 4) = 8+content.length%2^32 := by
    rw [hbytes,List.append_assoc,List.take_left' (length_toBe 4 _),beNat_toBe]
    exact Nat.mod_eq_of_lt hfits
  have hkind : (moof.drop 4).take 4 = tagMoof := by
    rw [hbytes,List.append_assoc,List.drop_left' (length_toBe 4 _)]
    rfl
  have hdrop : moof.drop 8 = content := by
    rw [hbytes]
    exact List.drop_left' (by rw [List.length_append,length_toBe]; rfl)
  have hchildren : forChildren (moofChild time) (8+content.length%2^32-8) (moof.drop 8) [] =
      (moofChildren content).foldlM (fun s b => moofChild time s b.kind b.bytes) [] := by
    rw [hdrop,Nat.add_sub_cancel_left]
    unfold forChildren
    exact forChildrenFrom_eq _ (Nat.mod_le _ _) _
  unfold ensureMoofHasTfdt
  rw [if_neg (by omega),if_neg (by simp [hkind]),hsize]
  dsimp only
  rw [hchildren]

variable {content moof : Bytes} {time : Nat}

theorem moofChildren_whole : ∀ c ∈ moofChildren content, c.Whole := visitedFrom_whole

/-- The new children of a `moof` are made exactly if none is refused and all can be written. -/
theorem moofChildren_ok_iff : (∃ new, (moofChildren content).foldlM
      (fun s b => moofChild time s b.kind b.bytes) [] = .ok new) ↔
    GoodUntil BoxAt.ShortTraf BoxAt.TrafFits (moofChildren content) ∧ ¬ ShortTrafIn content := by
  have hfold := foldlM_ok_iff
    (fun c (hc : c ∈ moofChildren content) s => moofChild_ok_iff (moofChildren_whole c hc) time s) []
  have hshort : ¬ ShortTrafIn content ↔ ∀ c ∈ moofChildren content, ¬ c.ShortTraf := by
    unfold ShortTrafIn
    push Not
    rfl
  rw [hfold,hshort]
  constructor
  · intro h
    have hlong : ∀ c ∈ moofChildren content, ¬ c.ShortTraf := fun c hc => (h c hc).2
    exact ⟨(goodUntil_iff_forall hlong).mpr (fun c hc => (h c hc).1),hlong⟩
  · intro h c hc
    exact ⟨(goodUntil_iff_forall h.2).mp h.1 c hc,h.2 c hc⟩

theorem moofChildren_wrap {new : Bytes} (hnew : (moofChildren content).foldlM
      (fun s b => moofChild time s b.kind b.bytes) [] = .ok new) :
    (∃ moof, wrapBox tagMoof new = .ok moof) ↔
      8+newMoofLength (moofChildren content)%2^32 < 2^32 := by
  have hlength := moofChild_fold_length moofChildren_whole hnew
  rw [List.length_nil,Nat.zero_add] at hlength
  rw [wrapBox_eq_ok_iff,hlength]

theorem ensureMoofHasTfdt_ok_iff (hmoof : wrapBox tagMoof content = .ok moof) :
    (∃ new, ensureMoofHasTfdt moof time = .ok new) ↔
      MoofBounded content ∧ ¬ ShortTrafIn content := by
  rw [ensureMoofHasTfdt_eq hmoof]
  simp only [bind_eq_ok]
  constructor
  · intro h
    obtain ⟨moof,new,hnew,hwrap⟩ := h
    obtain ⟨htrafs,hlong⟩ := moofChildren_ok_iff.mp ⟨new,hnew⟩
    exact ⟨⟨htrafs,fun _ => (moofChildren_wrap hnew).mp ⟨moof,hwrap⟩⟩,hlong⟩
  · intro h
    obtain ⟨hbounded,hlong⟩ := h
    obtain ⟨new,hnew⟩ := (@moofChildren_ok_iff content time).mpr ⟨hbounded.trafs,hlong⟩
    obtain ⟨moof,hwrap⟩ := (moofChildren_wrap hnew).mpr (hbounded.size hlong)
    exact ⟨moof,new,hnew,hwrap⟩

theorem ensureMoofHasTfdt_returns_iff (hmoof : wrapBox tagMoof content = .ok moof) :
    ensureMoofHasTfdt moof time ≠ .error .panic ↔ MoofBounded content := by
  have hfold := foldlM_goodUntil_iff
    (fun c (hc : c ∈ moofChildren content) s =>
      moofChild_returns_iff (moofChildren_whole c hc) time s)
    (fun c hc s => moofChild_ok_iff (moofChildren_whole c hc) time s) []
  have hwrap : ∀ new, (moofChildren content).foldlM
      (fun s b => moofChild time s b.kind b.bytes) [] = .ok new →
      (wrapBox tagMoof new ≠ .error .panic ↔
        8+newMoofLength (moofChildren content)%2^32 < 2^32) := by
    intro new hnew
    rw [(onlyPanics_wrapBox _ _).returns_iff,moofChildren_wrap hnew]
  rw [ensureMoofHasTfdt_eq hmoof,bind_returns_iff,hfold]
  constructor
  · intro h
    obtain ⟨htrafs,hreturns⟩ := h
    refine ⟨htrafs,fun hlong => ?_⟩
    obtain ⟨new,hnew⟩ := (@moofChildren_ok_iff content time).mpr ⟨htrafs,hlong⟩
    exact (hwrap new hnew).mp (hreturns new hnew)
  · intro h
    refine ⟨h.trafs,fun new hnew => ?_⟩
    exact (hwrap new hnew).mpr (h.size (moofChildren_ok_iff.mp ⟨new,hnew⟩).2)

end Moof

namespace Mp4Parser

variable (p : Mp4Parser)

section Pairs

/-- What the segment of a fragment is made from. -/
def fixedContent (moof : Mp4Box) : Bytes := fixTfhdFlagsRecursive moof.content

/-- The times of a segment can be computed in milliseconds. -/
structure StampsFit (index : Nat) : Prop where
  timescale : p.timescale ≠ 0
  timestamp : index*p.frameDuration*1000 < 2^64
  duration : p.frameDuration*1000 < 2^64

/-- The fragment with an index becomes a segment without an overflow, or is refused before one. -/
structure PairBounded (index : Nat) (moof : Mp4Box) : Prop where
  size : 8+moof.content.length%2^32 < 2^32
  time : index*p.frameDuration < 2^64
  trafs : MoofBounded (fixedContent moof)
  stamps : ¬ ShortTrafIn (fixedContent moof) → p.StampsFit index

variable {p} {index : Nat} {moof mdat : Mp4Box}

theorem fixMoofTfhdFlags_ok_iff :
    (∃ fixed, fixMoofTfhdFlags moof = .ok fixed) ↔ 8+moof.content.length%2^32 < 2^32 := by
  have hlength : (fixTfhdFlagsRecursive moof.content).length = moof.content.length :=
    length_fixTfhdFlagsFrom _ _
  unfold fixMoofTfhdFlags
  rw [wrapBox_eq_ok_iff,hlength]

theorem mediaData_ok_iff : (∃ data, p.mediaData index moof mdat = .ok data) ↔
    8+moof.content.length%2^32 < 2^32 ∧ index*p.frameDuration < 2^64 ∧
      MoofBounded (fixedContent moof) ∧ ¬ ShortTrafIn (fixedContent moof) := by
  unfold mediaData
  simp only [bind_eq_ok]
  constructor
  · intro h
    obtain ⟨_,fixed,hfixed,time,htime,new,hnew,_⟩ := h
    exact ⟨fixMoofTfhdFlags_ok_iff.mp ⟨fixed,hfixed⟩,(checkedU64_eq_ok htime).2,
      (ensureMoofHasTfdt_ok_iff hfixed).mp ⟨new,hnew⟩⟩
  · intro h
    obtain ⟨hsize,htime,hmoof⟩ := h
    obtain ⟨fixed,hfixed⟩ := fixMoofTfhdFlags_ok_iff.mpr hsize
    obtain ⟨new,hnew⟩ := (ensureMoofHasTfdt_ok_iff hfixed).mpr hmoof
    exact ⟨_,fixed,hfixed,_,if_pos htime,new,hnew,rfl⟩

theorem mediaData_returns_iff : p.mediaData index moof mdat ≠ .error .panic ↔
    8+moof.content.length%2^32 < 2^32 ∧ index*p.frameDuration < 2^64 ∧
      MoofBounded (fixedContent moof) := by
  have hfix : fixMoofTfhdFlags moof ≠ .error .panic ↔ 8+moof.content.length%2^32 < 2^32 := by
    rw [← fixMoofTfhdFlags_ok_iff]
    exact (onlyPanics_wrapBox _ _).returns_iff
  have htime : checkedU64 (index*p.frameDuration) ≠ .error .panic ↔
      index*p.frameDuration < 2^64 := by
    unfold checkedU64
    split_ifs with h
    · exact iff_of_true (by simp) h
    · exact iff_of_false (by simp) h
  have hrest : ∀ fixed time, fixMoofTfhdFlags moof = .ok fixed →
      ((ensureMoofHasTfdt fixed time >>= fun moof => pure (moof++serializeBox mdat)) ≠
        .error .panic ↔ MoofBounded (fixedContent moof)) := by
    intro fixed time hfixed
    rw [bind_returns_iff,ensureMoofHasTfdt_returns_iff hfixed]
    refine and_iff_left (fun new _ h => ?_)
    cases h
  unfold mediaData
  rw [bind_returns_iff,hfix]
  apply and_congr_right
  intro hsize
  obtain ⟨fixed,hfixed⟩ := fixMoofTfhdFlags_ok_iff.mpr hsize
  simp only [hfixed,Except.ok.injEq,forall_eq']
  rw [bind_returns_iff,htime]
  apply and_congr_right
  intro hlt
  have hok : checkedU64 (index*p.frameDuration) = .ok (index*p.frameDuration) := if_pos hlt
  simp only [hok,Except.ok.injEq,forall_eq']
  exact hrest fixed _ hfixed

theorem onlyPanics_millis (time : Nat) : OnlyPanics (p.millis time) := by
  apply (onlyPanics_checkedU64 _).bind
  intro scaled message h
  split_ifs at h <;> cases h

theorem millis_ok_iff {time : Nat} :
    (∃ stamp, p.millis time = .ok stamp) ↔ time*1000 < 2^64 ∧ p.timescale ≠ 0 := by
  unfold millis
  simp only [bind_eq_ok]
  constructor
  · intro h
    obtain ⟨_,scaled,hscaled,h⟩ := h
    split_ifs at h with hzero
    exact ⟨(checkedU64_eq_ok hscaled).2,hzero⟩
  · intro h
    exact ⟨_,_,if_pos h.1,if_neg h.2⟩

/-- The segment for its data. -/
def stamped (p : Mp4Parser) (index : Nat) (data : Bytes) : Except Mp4Error MseSegment := do
  let timestamp ← p.millis (index*p.frameDuration)
  let duration ← p.millis p.frameDuration
  return ⟨.media,data,some timestamp,some duration,isLikelyKeyframe data index,1⟩

theorem mediaSegment_eq :
    p.mediaSegment index moof mdat = p.mediaData index moof mdat >>= p.stamped index := rfl

theorem stamped_ok_iff {data : Bytes} :
    (∃ segment, p.stamped index data = .ok segment) ↔ p.StampsFit index := by
  unfold stamped
  simp only [bind_eq_ok]
  constructor
  · intro h
    obtain ⟨_,timestamp,htimestamp,duration,hduration,_⟩ := h
    obtain ⟨htime,hscale⟩ := millis_ok_iff.mp ⟨timestamp,htimestamp⟩
    exact ⟨hscale,htime,(millis_ok_iff.mp ⟨duration,hduration⟩).1⟩
  · intro h
    obtain ⟨timestamp,htimestamp⟩ := millis_ok_iff.mpr ⟨h.timestamp,h.timescale⟩
    obtain ⟨duration,hduration⟩ := millis_ok_iff.mpr ⟨h.duration,h.timescale⟩
    exact ⟨_,timestamp,htimestamp,duration,hduration,rfl⟩

theorem stamped_returns_iff {data : Bytes} :
    p.stamped index data ≠ .error .panic ↔ p.StampsFit index := by
  have honly : OnlyPanics (p.stamped index data) :=
    (onlyPanics_millis _).bind (fun _ => (onlyPanics_millis _).bind (fun _ => .ok _))
  rw [honly.returns_iff,stamped_ok_iff]

theorem mediaSegment_returns_iff :
    p.mediaSegment index moof mdat ≠ .error .panic ↔ p.PairBounded index moof := by
  rw [mediaSegment_eq,bind_returns_iff,mediaData_returns_iff]
  simp only [stamped_returns_iff]
  constructor
  · intro h
    obtain ⟨⟨hsize,htime,htrafs⟩,hbehind⟩ := h
    refine ⟨hsize,htime,htrafs,fun hlong => ?_⟩
    obtain ⟨data,hdata⟩ := (@mediaData_ok_iff p index moof mdat).mpr ⟨hsize,htime,htrafs,hlong⟩
    exact hbehind data hdata
  · intro h
    refine ⟨⟨h.size,h.time,h.trafs⟩,fun data hdata => ?_⟩
    exact h.stamps (mediaData_ok_iff.mp ⟨data,hdata⟩).2.2.2

theorem mediaSegment_ok_iff : (∃ segment, p.mediaSegment index moof mdat = .ok segment) ↔
    p.PairBounded index moof ∧ ¬ ShortTrafIn (fixedContent moof) := by
  rw [mediaSegment_eq]
  simp only [bind_eq_ok]
  constructor
  · intro h
    obtain ⟨segment,data,hdata,hsegment⟩ := h
    obtain ⟨hsize,htime,htrafs,hlong⟩ := mediaData_ok_iff.mp ⟨data,hdata⟩
    exact ⟨⟨hsize,htime,htrafs,fun _ => stamped_ok_iff.mp ⟨segment,hsegment⟩⟩,hlong⟩
  · intro h
    obtain ⟨hbounded,hlong⟩ := h
    obtain ⟨data,hdata⟩ := (@mediaData_ok_iff p index moof mdat).mpr
      ⟨hbounded.size,hbounded.time,hbounded.trafs,hlong⟩
    obtain ⟨segment,hsegment⟩ := stamped_ok_iff.mpr (hbounded.stamps hlong)
    exact ⟨segment,data,hdata,hsegment⟩

end Pairs

section Whole

/-- The initialization segment, and the fragments up to one that is refused. -/
structure Bounded : Prop where
  initialization : p.hasAc3Audio → ∀ b ∈ p.boxes, b.header.boxType = tagMoov →
    8+(createVideoOnlyMoov b.content).length%2^32 < 2^32
  fragments : GoodUntil (fun q => ShortTrafIn (fixedContent q.2.1))
    (fun q => p.PairBounded q.1 q.2.1) ((fragmentPairs p.boxes).mapIdx (fun i pair => (i,pair)))

variable {p}

theorem initData_ok_iff {b : Mp4Box} : (∃ data, p.initData b = .ok data) ↔
    (p.hasAc3Audio → b.header.boxType = tagMoov →
      8+(createVideoOnlyMoov b.content).length%2^32 < 2^32) := by
  have hne : tagMoov ≠ tagFtyp := by decide
  unfold initData
  split_ifs with hftyp hmoov hac3
  · simp [hftyp,hne.symm]
  · rw [wrapBox_eq_ok_iff]
    simp [hac3,hmoov]
  · simp [hac3]
  · simp [hmoov]

theorem initSegments_returns_iff : p.initSegments ≠ .error .panic ↔
    (p.hasAc3Audio → ∀ b ∈ p.boxes, b.header.boxType = tagMoov →
      8+(createVideoOnlyMoov b.content).length%2^32 < 2^32) := by
  have hparts := @mapM_goodUntil_iff _ _ Mp4Error.panic (fun _ => False)
    (fun b => ∃ data, p.initData b = .ok data) _ p.initData p.boxes
    (fun b _ => (onlyPanics_initData b).returns_iff) (by simp)
  rw [goodUntil_iff_forall (by simp)] at hparts
  unfold initSegments
  rw [bind_returns_iff,hparts]
  simp only [initData_ok_iff]
  constructor
  · intro h hac3 b hb
    exact h.1 b hb hac3
  · intro h
    refine ⟨fun b hb hac3 => h hac3 b hb,fun parts _ hpanic => ?_⟩
    cases hpanic

/-- A fragmented file is cut into its segments, or refused with an error, exactly if this stays
within its bounds. -/
theorem extractFragmentedSegments_returns_iff :
    p.extractFragmentedSegments ≠ .error .panic ↔ p.Bounded := by
  have hmedia : p.mediaSegments 0 p.boxes ≠ .error .panic ↔
      GoodUntil (fun q : Nat × Mp4Box × Mp4Box => ShortTrafIn (fixedContent q.2.1))
        (fun q => p.PairBounded q.1 q.2.1)
        ((fragmentPairs p.boxes).mapIdx (fun i pair => (i,pair))) := by
    have hindex : (fun (i : Nat) (pair : Mp4Box × Mp4Box) => (0+i,pair)) =
        fun i pair => (i,pair) := by
      funext i pair
      rw [Nat.zero_add]
    rw [mediaSegments_eq,hindex]
    exact mapM_goodUntil_iff (fun q _ => mediaSegment_returns_iff) (fun q _ => mediaSegment_ok_iff)
  have honly : OnlyPanics p.initSegments := onlyPanics_initSegments
  have hinit := @initSegments_returns_iff p
  unfold extractFragmentedSegments
  rw [bind_returns_iff]
  constructor
  · intro h
    obtain ⟨first,hfirst⟩ := honly.returns_iff.mp h.1
    exact ⟨hinit.mp h.1,hmedia.mp (bind_returns_iff.mp (h.2 first hfirst)).1⟩
  · intro h
    refine ⟨hinit.mpr h.initialization,fun first _ => bind_returns_iff.mpr
      ⟨hmedia.mpr h.fragments,fun media _ hpanic => ?_⟩⟩
    cases hpanic

end Whole

end Mp4Parser

end OpenBroadcast.Media
