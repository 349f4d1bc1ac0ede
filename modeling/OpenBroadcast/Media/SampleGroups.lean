import Mathlib.Data.List.SplitBy
import OpenBroadcast.Media.RegularMp4

namespace OpenBroadcast.Media

section Gops

/-- The samples in groups, which are cut before each keyframe other than the first sample. -/
structure CutBeforeKeyframes (entries : List SampleEntry) (groups : List (List SampleEntry)) :
    Prop where
  flatten : groups.flatten = entries
  nonempty : [] ∉ groups
  inner : ∀ group ∈ groups, ∀ se ∈ group.tail, se.isKeyframe = false
  starts : ∀ group ∈ groups.tail, ∀ se, group.head? = some se → se.isKeyframe = true

def gops (entries : List SampleEntry) : List (List SampleEntry) :=
  entries.splitBy (fun _ se => !se.isKeyframe)

theorem isChain_iff_tail (group : List SampleEntry) :
    group.IsChain (fun _ se => (!se.isKeyframe) = true) ↔
      ∀ se ∈ group.tail, se.isKeyframe = false := by
  induction group with
  | nil => simp
  | cons se group ih =>
    cases group with
    | nil => simp
    | cons next group =>
      rw [List.isChain_cons_cons,ih]
      simp

theorem starts_of_isChain {groups : List (List SampleEntry)}
    (h : groups.IsChain (fun _ group => ∀ se, group.head? = some se → se.isKeyframe = true)) :
    ∀ group ∈ groups.tail, ∀ se, group.head? = some se → se.isKeyframe = true := by
  induction groups with
  | nil => simp
  | cons group groups ih =>
    cases groups with
    | nil => simp
    | cons next groups =>
      rw [List.isChain_cons_cons] at h
      intro other hother
      rcases List.mem_cons.mp hother with rfl | hother
      · exact h.1
      · exact ih h.2 other hother

theorem gops_cut (entries : List SampleEntry) : CutBeforeKeyframes entries (gops entries) where
  flatten := List.flatten_splitBy _ _
  nonempty := List.nil_notMem_splitBy _ _
  inner := fun group hgroup => (isChain_iff_tail group).mp (List.isChain_of_mem_splitBy hgroup)
  starts := by
    apply starts_of_isChain
    apply (List.isChain_getLast_head_splitBy _ entries).imp
    intro _ group hstart se hse
    obtain ⟨_,hne,hkey⟩ := hstart
    rw [List.head?_eq_some_head hne,Option.some_inj] at hse
    rw [hse] at hkey
    simpa using hkey

variable {cur rest : List SampleEntry} {se : SampleEntry}

theorem gops_single (hne : cur ≠ []) (hcur : ∀ se ∈ cur.tail, se.isKeyframe = false) :
    gops cur = [cur] := List.splitBy_of_isChain hne ((isChain_iff_tail cur).mpr hcur)

theorem gops_keyframe (hne : cur ≠ []) (hcur : ∀ se ∈ cur.tail, se.isKeyframe = false)
    (hkey : se.isKeyframe = true) : gops (cur++se::rest) = cur::gops (se::rest) := by
  have hcut : gops (cur++se::rest) = gops cur++gops (se::rest) := by
    apply List.splitBy_append
    intro _ _ next hnext
    rw [List.head?_cons,Option.mem_some] at hnext
    simp [← hnext,hkey]
  rw [hcut,gops_single hne hcur]
  rfl

variable (emit : Emission → List SampleEntry → Except Mp4Error Emission)

/-- One round of the loop, at a sample behind the first. -/
theorem gopLoop_sample {entries : List SampleEntry} {n i gopStart : Nat} (hi : 0 < i)
    (hse : entries[i]? = some se) (st : Emission) :
    gopLoop emit entries (n+1) i gopStart st =
      if se.isKeyframe = true ∧ gopStart < i then
        emit st ((entries.take i).drop gopStart) >>= gopLoop emit entries n (i+1) i
      else gopLoop emit entries n (i+1) gopStart st := by
  have hlt := (List.getElem?_eq_some_iff.mp hse).1
  have hboundary : (if i = entries.length then true else if i = 0 then false
      else (entries[i]?.map SampleEntry.isKeyframe).getD false) = se.isKeyframe := by
    rw [if_neg (by omega),if_neg (by omega),hse]
    rfl
  rw [gopLoop,hboundary]

/-- The last round, behind all samples. -/
theorem gopLoop_end {entries : List SampleEntry} {gopStart : Nat}
    (hstart : gopStart < entries.length) (st : Emission) :
    gopLoop emit entries 1 entries.length gopStart st = emit st (entries.drop gopStart) := by
  rw [gopLoop,if_pos rfl,if_pos ⟨rfl,hstart⟩,List.take_length]
  exact bind_pure _

/-- The loop from a group that is under way on. -/
theorem gopLoop_eq_foldlM (before : List SampleEntry) (hne : cur ≠ [])
    (hcur : ∀ se ∈ cur.tail, se.isKeyframe = false) (st : Emission) :
    gopLoop emit (before++cur++rest) (rest.length+1) (before++cur).length before.length st =
      (gops (cur++rest)).foldlM emit st := by
  induction rest generalizing before cur st with
  | nil =>
    have hpos := List.length_pos_iff.mpr hne
    have hstart : before.length < (before++cur).length := by rw [List.length_append]; omega
    rw [List.append_nil,List.append_nil,gops_single hne hcur,List.length_nil,
      gopLoop_end emit hstart,List.drop_left]
    exact (bind_pure _).symm
  | cons se rest ih =>
    have hpos := List.length_pos_iff.mpr hne
    have hi : 0 < (before++cur).length := by rw [List.length_append]; omega
    have hget : (before++cur++se::rest)[(before++cur).length]? = some se := by
      rw [List.getElem?_append_right (le_refl _)]
      simp
    rw [List.length_cons,gopLoop_sample emit hi hget]
    cases hkey : se.isKeyframe with
    | true =>
      have hstart : before.length < (before++cur).length := by rw [List.length_append]; omega
      rw [if_pos ⟨rfl,hstart⟩,List.take_left,List.drop_left,gops_keyframe hne hcur hkey,
        List.foldlM_cons]
      apply bind_congr
      intro st
      simpa [Nat.add_assoc] using ih (before++cur) (by simp : [se] ≠ []) (by simp) st
    | false =>
      have htail : ∀ x ∈ (cur++[se]).tail, x.isKeyframe = false := by
        rw [List.tail_append_of_ne_nil hne]
        intro x hx
        rcases List.mem_append.mp hx with hx | hx
        · exact hcur x hx
        · rwa [List.mem_singleton.mp hx]
      rw [if_neg (by simp)]
      simpa [Nat.add_assoc] using ih before (by simp : cur++[se] ≠ []) htail st

theorem gopLoop_eq {entries : List SampleEntry} (hne : entries ≠ []) (st : Emission) :
    gopLoop emit entries (entries.length+1) 0 0 st = (gops entries).foldlM emit st := by
  cases entries with
  | nil => exact absurd rfl hne
  | cons se rest =>
    have hloop : gopLoop emit (se::rest) (rest.length+1) 1 0 st = (gops (se::rest)).foldlM emit st :=
      gopLoop_eq_foldlM emit [] (by simp : [se] ≠ []) (by simp) st
    rw [gopLoop]
    simpa using hloop

end Gops

section Chunks

/-- The samples in groups of `size`, of which the last may be shorter. -/
def chunks (size : Nat) (entries : List SampleEntry) : List (List SampleEntry) :=
  (List.range ((entries.length+size-1)/size)).map (fun i => (entries.drop (i*size)).take size)

theorem chunks_of_ne_nil {size : Nat} (hsize : 0 < size) {entries : List SampleEntry}
    (hne : entries ≠ []) :
    chunks size entries = entries.take size::chunks size (entries.drop size) := by
  have hpos := List.length_pos_iff.mpr hne
  have hcount : (entries.length+size-1)/size = (entries.length-size+size-1)/size+1 := by
    by_cases hle : size ≤ entries.length
    · have : entries.length+size-1 = (entries.length-size+size-1)+size := by omega
      rw [this,Nat.add_div_right _ hsize]
    · have hzero : entries.length-size+size-1 = size-1 := by omega
      have hone : entries.length+size-1 = entries.length-1+size := by omega
      rw [hzero,hone,Nat.add_div_right _ hsize,Nat.div_eq_of_lt (by omega),
        Nat.div_eq_of_lt (by omega)]
  unfold chunks
  rw [hcount,List.range_succ_eq_map,List.map_cons,List.map_map,List.length_drop,Nat.zero_mul,
    List.drop_zero]
  congr 1
  apply List.map_congr_left
  intro i _
  simp only [Function.comp,List.drop_drop]
  rw [Nat.succ_mul,Nat.add_comm]

theorem chunkLoop_eq (emit : Emission → List SampleEntry → Except Mp4Error Emission) {size : Nat}
    (hsize : 0 < size) {n : Nat} {entries : List SampleEntry} (hn : entries.length ≤ n)
    (st : Emission) :
    chunkLoop emit size n entries st = (chunks size entries).foldlM emit st := by
  induction n generalizing entries st with
  | zero =>
    have hnil : entries = [] := List.length_eq_zero_iff.mp (by omega)
    subst hnil
    have hzero : (size-1)/size = 0 := Nat.div_eq_of_lt (by omega)
    simp [chunkLoop,chunks,hzero]
    rfl
  | succ n ih =>
    cases entries with
    | nil =>
      have hzero : (size-1)/size = 0 := Nat.div_eq_of_lt (by omega)
      simp [chunkLoop,chunks,hzero]
      rfl
    | cons se rest =>
      have hrest : ((se::rest).drop size).length ≤ n := by
        rw [List.length_drop]
        simp only [List.length_cons] at hn ⊢
        omega
      rw [chunkLoop,chunks_of_ne_nil hsize (by simp),List.foldlM_cons]
      · exact bind_congr (fun st => ih hrest st)
      · simp

theorem nil_notMem_chunks {size : Nat} (hsize : 0 < size) (entries : List SampleEntry) :
    [] ∉ chunks size entries := by
  intro hnil
  obtain ⟨i,hi,hchunk⟩ := List.mem_map.mp hnil
  have hlt := List.mem_range.mp hi
  have hlength := congrArg List.length hchunk
  rw [List.length_take,List.length_drop,List.length_nil] at hlength
  have hmul : (i+1)*size ≤ entries.length+size-1 := by
    calc
      (i+1)*size ≤ (entries.length+size-1)/size*size := Nat.mul_le_mul_right _ hlt
      _ ≤ entries.length+size-1 := Nat.div_mul_le_self _ _
  rw [Nat.succ_mul] at hmul
  omega

theorem length_le_of_mem_chunks {size : Nat} {entries group : List SampleEntry}
    (h : group ∈ chunks size entries) : group.length ≤ entries.length := by
  obtain ⟨i,_,rfl⟩ := List.mem_map.mp h
  rw [List.length_take,List.length_drop]
  omega

end Chunks

end OpenBroadcast.Media
