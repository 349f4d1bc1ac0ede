import Mathlib.Algebra.Order.BigOperators.Group.List
import OpenBroadcast.Framework.ListRelations
import OpenBroadcast.Framework.RunTables
import OpenBroadcast.Media.SampleTable

namespace OpenBroadcast.Media

namespace SampleTable

section Runs

variable {α : Type}

def runsOf (runs : List (UInt32 × α)) : List (Nat × α) := runs.map (fun r => (r.1.toNat,r.2))

/-- Position by position, the runs are given to the entries; behind the last run nothing is. -/
theorem getElem?_assignRuns (set : α → SampleEntry → SampleEntry) (runs : List (UInt32 × α))
    (entries : List SampleEntry) (k : Nat) :
    (assignRuns set runs entries)[k]? =
      entries[k]?.map (fun e => (((expandRuns (runsOf runs))[k]?).map (fun a => set a e)).getD e) := by
  induction runs generalizing entries k with
  | nil => cases h : entries[k]? <;> simp [assignRuns,runsOf,h]
  | cons run runs ih =>
    obtain ⟨count,a⟩ := run
    have hruns : runsOf ((count,a)::runs) = (count.toNat,a)::runsOf runs := rfl
    have hlen : ((entries.take count.toNat).map (set a)).length = min count.toNat entries.length := by
      rw [List.length_map,List.length_take]
    rw [assignRuns,hruns]
    by_cases hk : k < count.toNat
    · rw [expandRuns_cons_lt hk]
      by_cases hin : k < entries.length
      · have hget : (entries.take count.toNat)[k]? = entries[k]? := by
          rw [List.getElem?_take,if_pos hk]
        rw [List.getElem?_append_left (by omega),List.getElem?_map,hget]
        rfl
      · have hnone : entries[k]? = none := List.getElem?_eq_none (by omega)
        have hdrop : entries.drop count.toNat = [] := List.drop_eq_nil_iff.mpr (by omega)
        have hnil : assignRuns set runs [] = [] := by
          rw [← List.length_eq_zero_iff,length_assignRuns]
          rfl
        rw [hnone,hdrop,hnil,List.append_nil]
        exact List.getElem?_eq_none (by omega)
    · rw [expandRuns_cons_ge (by omega)]
      by_cases hin : k < entries.length
      · have hsum : count.toNat+(k-count.toNat) = k := by omega
        rw [List.getElem?_append_right (by omega),hlen,Nat.min_eq_left (by omega),ih,
          List.getElem?_drop,hsum]
      · have hnone : entries[k]? = none := List.getElem?_eq_none (by omega)
        rw [hnone]
        apply List.getElem?_eq_none
        rw [List.length_append,hlen,length_assignRuns,List.length_drop]
        omega

end Runs

section Chunks

/-- The runs of `stsc` as steps over the numbers of the chunks. -/
def chunkSteps (runs : List (UInt32 × UInt32 × UInt32)) : List (Nat × Nat) :=
  runs.map (fun r => (r.1.toNat,r.2.1.toNat))

theorem zeroBased_eq_ok {n : UInt32} {k : Nat} : zeroBased n = .ok k ↔ n.toNat = k+1 := by
  have hzero : n = 0 ↔ n.toNat = 0 := by
    rw [← UInt32.toNat_inj]
    rfl
  unfold zeroBased
  split_ifs with h
  · have hn := hzero.mp h
    constructor
    · intro hk
      cases hk
    · intro hk
      omega
  · have hn : n.toNat ≠ 0 := fun hn => h (hzero.mpr hn)
    rw [Except.ok.injEq]
    omega

theorem zeroBased_eq {n : UInt32} (h : 1 ≤ n.toNat) : zeroBased n = .ok (n.toNat-1) :=
  zeroBased_eq_ok.mpr (by omega)

/-- The chunk before which a run ends. -/
def runStop : List (UInt32 × UInt32 × UInt32) → Nat → Except Mp4Error Nat
  | [],count => .ok count
  | (next,_,_)::_,_ => zeroBased next

theorem fillChunks_cons (first spc desc : UInt32) (runs : List (UInt32 × UInt32 × UInt32))
    (counts : List Nat) :
    fillChunks ((first,spc,desc)::runs) counts = (do
      let start ← zeroBased first
      let stop ← runStop runs counts.length
      if min stop counts.length < start then .error .panic
      else
        fillChunks runs (counts.take start++
          List.replicate (min stop counts.length-start) spc.toNat++
            counts.drop (min stop counts.length))) := by
  cases runs <;> rfl

/-- The runs can be written over `count` chunks: their numbers count from 1, start at most right
behind the last chunk and do not go back. -/
structure RunsFit (runs : List (UInt32 × UInt32 × UInt32)) (count : Nat) : Prop where
  starts : ∀ r ∈ runs, 1 ≤ r.1.toNat ∧ r.1.toNat ≤ count+1
  ordered : StepsOrdered (chunkSteps runs)

section Written

variable {runs : List (UInt32 × UInt32 × UInt32)} {count start stop : Nat}

theorem runsFit_cons {run : UInt32 × UInt32 × UInt32} :
    RunsFit (run::runs) count ↔ (1 ≤ run.1.toNat ∧ run.1.toNat ≤ count+1) ∧
      (∀ r ∈ runs, run.1.toNat ≤ r.1.toNat) ∧ RunsFit runs count := by
  have hlater : (∀ step ∈ chunkSteps runs, run.1.toNat ≤ step.1) ↔
      ∀ r ∈ runs, run.1.toNat ≤ r.1.toNat := List.forall_mem_map
  constructor
  · intro h
    obtain ⟨hall,hordered⟩ := List.pairwise_cons.mp h.ordered
    exact ⟨h.starts _ List.mem_cons_self,hlater.mp hall,
      fun r hr => h.starts r (List.mem_cons_of_mem _ hr),hordered⟩
  · intro h
    obtain ⟨hrun,hall,hrest⟩ := h
    exact ⟨List.forall_mem_cons.mpr ⟨hrun,hrest.starts⟩,
      List.pairwise_cons.mpr ⟨hlater.mpr hall,hrest.ordered⟩⟩

/-- Where a run ends, the next one starts. -/
theorem runStop_eq_ok : runStop runs count = .ok stop ↔
    (runs = [] ∧ stop = count) ∨ ∃ r rest, runs = r::rest ∧ r.1.toNat = stop+1 := by
  cases runs with
  | nil => simp [runStop,eq_comm]
  | cons r rest =>
    obtain ⟨next,spc,desc⟩ := r
    simp [runStop,zeroBased_eq_ok]

/-- Up to where a run goes, the runs after it say nothing, and from there on they do. -/
theorem runStop_spec (hfit : RunsFit runs count) (hstop : runStop runs count = .ok stop) :
    (∀ c < min stop count, stepAt (chunkSteps runs) (c+1) = none) ∧
      ∀ c < count, min stop count ≤ c → ∃ n, stepAt (chunkSteps runs) (c+1) = some n := by
  rcases runStop_eq_ok.mp hstop with ⟨rfl,rfl⟩ | ⟨⟨next,spc,desc⟩,rest,rfl,hnext⟩
  · refine ⟨fun _ _ => rfl,?_⟩
    intro c hc hle
    omega
  · dsimp only at hnext
    constructor
    · intro c hc
      have hbefore : c+1 < next.toNat := by omega
      exact StepsOrdered.stepAt_of_lt hfit.ordered hbefore
    · intro c _ hc
      have hreached : next.toNat ≤ c+1 := by omega
      exact ⟨_,stepAt_cons spc.toNat hreached⟩

/-- What a run writes stays where no later run writes over it. -/
theorem mapIdx_written {counts : List Nat} {first spc desc : UInt32}
    (hfit : RunsFit ((first,spc,desc)::runs) counts.length) (hfirst : first.toNat = start+1)
    (hstop : runStop runs counts.length = .ok stop) (hle : start ≤ min stop counts.length) :
    (counts.take start++List.replicate (min stop counts.length-start) spc.toNat++
        counts.drop (min stop counts.length)).mapIdx
        (fun c n => (stepAt (chunkSteps runs) (c+1)).getD n) =
      counts.mapIdx (fun c n => (stepAt (chunkSteps ((first,spc,desc)::runs)) (c+1)).getD n) := by
  obtain ⟨_,_,hrest⟩ := runsFit_cons.mp hfit
  obtain ⟨hbefore,hafter⟩ := runStop_spec hrest hstop
  have hsteps : chunkSteps ((first,spc,desc)::runs) = (start+1,spc.toNat)::chunkSteps runs := by
    rw [← hfirst]
    rfl
  have hordered : StepsOrdered ((start+1,spc.toNat)::chunkSteps runs) := by
    rw [← hsteps]
    exact hfit.ordered
  have hlength : (counts.take start++List.replicate (min stop counts.length-start) spc.toNat++
      counts.drop (min stop counts.length)).length = counts.length := by
    simp only [List.length_append,List.length_take,List.length_replicate,List.length_drop]
    omega
  rw [hsteps]
  apply List.ext_getElem?
  intro c
  rw [List.getElem?_mapIdx,List.getElem?_mapIdx]
  by_cases hc : c < counts.length
  · rw [List.getElem?_eq_getElem hc]
    by_cases hc1 : c < start
    · rw [hbefore c (by omega),hordered.stepAt_of_lt (by omega),List.append_assoc,
        List.getElem?_append_left (by rw [List.length_take]; omega),List.getElem?_take,
        if_pos hc1,List.getElem?_eq_getElem hc]
    · rw [stepAt_cons spc.toNat (by omega : start+1 ≤ c+1)]
      by_cases hc2 : c < min stop counts.length
      · have hleft : (counts.take start).length = start := by
          rw [List.length_take]
          omega
        rw [hbefore c hc2,List.append_assoc,List.getElem?_append_right (by omega),hleft,
          List.getElem?_append_left (by rw [List.length_replicate]; omega),
          List.getElem?_replicate,if_pos (by omega)]
        rfl
      · obtain ⟨n,hn⟩ := hafter c hc (by omega)
        rw [hn,List.getElem?_eq_getElem (by omega)]
        rfl
  · rw [List.getElem?_eq_none (by omega),List.getElem?_eq_none (by omega)]
    rfl

end Written

/-- The runs are written one over the other, and every chunk gets the number of the last one that
reaches it. -/
theorem fillChunks_eq_ok {runs : List (UInt32 × UInt32 × UInt32)} {counts counts' : List Nat} :
    fillChunks runs counts = .ok counts' ↔ RunsFit runs counts.length ∧
      counts' = counts.mapIdx (fun c n => (stepAt (chunkSteps runs) (c+1)).getD n) := by
  induction runs generalizing counts with
  | nil =>
    have hsame : counts.mapIdx (fun c n => (stepAt (chunkSteps []) (c+1)).getD n) = counts := by
      apply List.ext_getElem?
      intro c
      rw [List.getElem?_mapIdx]
      cases counts[c]? <;> rfl
    have hfit : RunsFit [] counts.length := ⟨by simp,List.Pairwise.nil⟩
    rw [hsame,fillChunks,Except.ok.injEq]
    exact ⟨fun h => ⟨hfit,h.symm⟩,fun h => h.2.symm⟩
  | cons run runs ih =>
    obtain ⟨first,spc,desc⟩ := run
    have hlength : ∀ start stop : Nat, start ≤ min stop counts.length →
        (counts.take start++List.replicate (min stop counts.length-start) spc.toNat++
          counts.drop (min stop counts.length)).length = counts.length := by
      intro start stop hle
      simp only [List.length_append,List.length_take,List.length_replicate,List.length_drop]
      omega
    rw [fillChunks_cons]
    simp only [bind_eq_ok,zeroBased_eq_ok]
    constructor
    · intro h
      obtain ⟨start,hfirst,stop,hstop,h⟩ := h
      split_ifs at h with hshort
      have hle : start ≤ min stop counts.length := by omega
      obtain ⟨hrest,hcounts⟩ := ih.mp h
      rw [hlength start stop hle] at hrest
      have hall : ∀ r ∈ runs, first.toNat ≤ r.1.toNat := by
        rcases runStop_eq_ok.mp hstop with ⟨rfl,_⟩ | ⟨next,rest,rfl,hnext⟩
        · simp
        · obtain ⟨_,hlater,_⟩ := runsFit_cons.mp hrest
          intro r hr
          rcases List.mem_cons.mp hr with rfl | hr
          · omega
          · have := hlater r hr
            omega
      have hfit : RunsFit ((first,spc,desc)::runs) counts.length :=
        runsFit_cons.mpr ⟨⟨by dsimp only; omega,by dsimp only; omega⟩,hall,hrest⟩
      exact ⟨hfit,by rw [hcounts,mapIdx_written hfit hfirst hstop hle]⟩
    · intro h
      obtain ⟨hfit,hcounts⟩ := h
      obtain ⟨⟨hpos,hin⟩,hall,hrest⟩ := runsFit_cons.mp hfit
      dsimp only at hpos hin hall
      obtain ⟨start,hfirst⟩ : ∃ start, first.toNat = start+1 := ⟨first.toNat-1,by omega⟩
      obtain ⟨stop,hstop,hle⟩ : ∃ stop, runStop runs counts.length = .ok stop ∧
          start ≤ min stop counts.length := by
        cases runs with
        | nil => exact ⟨counts.length,rfl,by omega⟩
        | cons next rest =>
          obtain ⟨hnext,_⟩ := hrest.starts next List.mem_cons_self
          have hlater := hall next List.mem_cons_self
          exact ⟨next.1.toNat-1,zeroBased_eq hnext,by omega⟩
      refine ⟨start,hfirst,stop,hstop,?_⟩
      rw [if_neg (by omega),ih,hlength start stop hle,mapIdx_written hfit hfirst hstop hle]
      exact ⟨hrest,hcounts⟩

end Chunks

section Samples

/-- The bytes of the `n` samples from sample `first` on. -/
def bytesOf (sizes : List UInt32) (first n : Nat) : Nat :=
  (((sizes.drop first).take n).map UInt32.toNat).sum

theorem bytesOf_succ {sizes : List UInt32} {first n : Nat} {size : UInt32}
    (h : sizes[first+n]? = some size) :
    bytesOf sizes first (n+1) = bytesOf sizes first n+size.toNat := by
  have hget : (sizes.drop first)[n]? = some size := by rw [List.getElem?_drop,h]
  unfold bytesOf
  rw [List.take_add_one,hget]
  simp

theorem bytesOf_cons (size : UInt32) (sizes : List UInt32) (n : Nat) :
    bytesOf (size::sizes) 0 (n+1) = size.toNat+bytesOf sizes 0 n := by
  simp [bytesOf]

theorem bytesOf_drop (sizes : List UInt32) (skip first n : Nat) :
    bytesOf (sizes.drop skip) first n = bytesOf sizes (skip+first) n := by
  simp [bytesOf,List.drop_drop]

theorem bytesOf_le (sizes : List UInt32) (first n : Nat) :
    bytesOf sizes first n ≤ (sizes.map UInt32.toNat).sum := by
  have hsub : ((sizes.drop first).take n).Sublist sizes :=
    (List.take_sublist _ _).trans (List.drop_sublist _ _)
  exact (hsub.map UInt32.toNat).sum_le_sum (fun _ _ => Nat.zero_le _)

/-- The samples of a chunk that starts at `offset`, if its first sample is `o` bytes into it. -/
theorem chunkSamples_eq {offset n o : Nat} {sizes : List UInt32}
    (hfits : ∀ j size, j < n → sizes[j]? = some size →
      offset+(o+bytesOf sizes 0 j) < 2^64 ∧ o+bytesOf sizes 0 j+size.toNat < 2^64) :
    ∃ entries, chunkSamples offset n o sizes = .ok (entries,sizes.drop n) ∧
      ∀ j, entries[j]? = if j < n then sizes[j]?.map (fun size =>
        (⟨offset+(o+bytesOf sizes 0 j),size,0,false,0⟩ : SampleEntry)) else none := by
  induction n generalizing o sizes with
  | zero => exact ⟨[],rfl,by simp⟩
  | succ n ih =>
    cases sizes with
    | nil => exact ⟨[],rfl,by simp⟩
    | cons size sizes =>
      have hfirst := hfits 0 size (by omega) rfl
      have hzero : bytesOf (size::sizes) 0 0 = 0 := rfl
      rw [hzero] at hfirst
      obtain ⟨entries,hentries,hget⟩ := @ih (o+size.toNat) sizes (by
        intro j next hj hnext
        have := hfits (j+1) next (by omega) hnext
        rw [bytesOf_cons] at this
        omega)
      refine ⟨⟨offset+o,size,0,false,0⟩::entries,?_,?_⟩
      · rw [chunkSamples]
        simp only [checkedU64,bind,Except.bind]
        rw [if_pos (by omega),if_pos (by omega)]
        dsimp only
        rw [hentries]
        rfl
      · intro j
        cases j with
        | zero => simp [hzero]
        | succ j =>
          rw [List.getElem?_cons_succ,List.getElem?_cons_succ,hget,bytesOf_cons]
          simp [Nat.add_assoc]

/-- The number of the first sample of a chunk. -/
def firstOf (counts : List Nat) (chunk : Nat) : Nat := (counts.take chunk).sum

/-- No offset of a sample that is there leaves the 64 bits, and neither does the one in its
chunk that is computed behind it. -/
def OffsetsFit (chunks : List (UInt64 × Nat)) (sizes : List UInt32) : Prop :=
  ∀ c j offset n size, chunks[c]? = some (offset,n) → j < n →
    sizes[firstOf (chunks.map Prod.snd) c+j]? = some size →
    offset.toNat+bytesOf sizes (firstOf (chunks.map Prod.snd) c) j < 2^64 ∧
      bytesOf sizes (firstOf (chunks.map Prod.snd) c) j+size.toNat < 2^64

/-- Sample `k` is number `j` of chunk `c`. -/
structure InChunk (chunks : List (UInt64 × Nat)) (sizes : List UInt32) (k c j : Nat)
    (e : SampleEntry) : Prop where
  chunk : ∃ offset n, chunks[c]? = some (offset,n) ∧ j < n ∧
    e.offset = offset.toNat+bytesOf sizes (firstOf (chunks.map Prod.snd) c) j
  place : k = firstOf (chunks.map Prod.snd) c+j
  size : sizes[k]? = some e.size
  others : e.duration = 0 ∧ e.isKeyframe = false ∧ e.compositionOffset = 0

theorem allSamples_eq {chunks : List (UInt64 × Nat)} {sizes : List UInt32}
    (hfits : OffsetsFit chunks sizes) :
    ∃ entries, allSamples chunks sizes = .ok entries ∧
      entries.length = min sizes.length (chunks.map Prod.snd).sum ∧
      ∀ k e, entries[k]? = some e → ∃ c j, InChunk chunks sizes k c j e := by
  induction chunks generalizing sizes with
  | nil => exact ⟨[],rfl,by simp,by simp⟩
  | cons chunk chunks ih =>
    obtain ⟨offset,n⟩ := chunk
    have hnext : ∀ c, firstOf (((offset,n)::chunks).map Prod.snd) (c+1) =
        n+firstOf (chunks.map Prod.snd) c := by
      intro c
      simp [firstOf]
    obtain ⟨first,hfirst,hget⟩ := @chunkSamples_eq offset.toNat n 0 sizes (by
        intro j size hj hsize
        have := hfits 0 j offset n size rfl hj (by simpa [firstOf] using hsize)
        have hzero : firstOf (((offset,n)::chunks).map Prod.snd) 0 = 0 := rfl
        rw [hzero] at this
        omega)
    obtain ⟨rest,hrest,hlength,hin⟩ := @ih (sizes.drop n) (by
      intro c j off m size hchunk hj hsize
      rw [List.getElem?_drop] at hsize
      have := hfits (c+1) j off m size hchunk hj (by rw [hnext,Nat.add_assoc]; exact hsize)
      rw [bytesOf_drop,← hnext]
      exact this)
    have hfirstLength : first.length = min n sizes.length := by
      have hsum := length_chunkSamples hfirst
      rw [List.length_drop] at hsum
      omega
    refine ⟨first++rest,?_,?_,?_⟩
    · rw [allSamples,hfirst]
      simp only [bind,Except.bind,hrest]
      rfl
    · rw [List.length_append,hfirstLength,hlength,List.length_drop,List.map_cons,List.sum_cons]
      omega
    · intro k e he
      by_cases hk : k < first.length
      · rw [List.getElem?_append_left hk,hget,if_pos (by omega),Option.map_eq_some_iff] at he
        obtain ⟨size,hsize,rfl⟩ := he
        refine ⟨0,k,⟨offset,n,rfl,by omega,?_⟩,by simp [firstOf],hsize,rfl,rfl,rfl⟩
        simp [firstOf]
      · rw [List.getElem?_append_right (by omega)] at he
        obtain ⟨c,j,⟨off,m,hchunk,hj,hoff⟩,hplace,hsize,hothers⟩ := hin _ e he
        have hall : first.length = n := by
          have hlt := (List.getElem?_eq_some_iff.mp hsize).1
          rw [List.length_drop] at hlt
          omega
        rw [List.getElem?_drop] at hsize
        have hsum : n+(k-first.length) = k := by omega
        rw [hsum] at hsize
        refine ⟨c+1,j,⟨off,m,hchunk,hj,?_⟩,?_,hsize,hothers⟩
        · rw [hnext,hoff,bytesOf_drop]
        · rw [hnext]
          omega

end Samples

section Keyframes

theorem mapM_zeroBased {syncSamples : List UInt32} (h : ∀ n ∈ syncSamples, 1 ≤ n.toNat) :
    syncSamples.mapM zeroBased = .ok (syncSamples.map (fun n => n.toNat-1)) := by
  apply mapM_eq_ok_iff.mpr
  apply List.forall₂_map_right_iff.mpr
  apply List.forall₂_same.mpr
  intro n hn
  exact zeroBased_eq (h n hn)

/-- A sample is a keyframe if the table is empty or has its number, which counts from 1. -/
def IsSync (syncSamples : List UInt32) (k : Nat) : Prop :=
  syncSamples = [] ∨ ∃ n ∈ syncSamples, n.toNat = k+1

theorem markKeyframes_eq {syncSamples : List UInt32} {entries : List SampleEntry}
    (h : ∀ n ∈ syncSamples, 1 ≤ n.toNat) :
    ∃ marked, markKeyframes syncSamples entries = .ok marked ∧
      ∀ k e', marked[k]? = some e' → ∃ e flag, entries[k]? = some e ∧
        e' = { e with isKeyframe := flag } ∧
        (e.isKeyframe = false → (flag = true ↔ IsSync syncSamples k)) := by
  cases syncSamples with
  | nil =>
    refine ⟨_,rfl,?_⟩
    intro k e' he'
    rw [List.getElem?_map,Option.map_eq_some_iff] at he'
    obtain ⟨e,he,rfl⟩ := he'
    exact ⟨e,true,he,rfl,fun _ => by simp [IsSync]⟩
  | cons n ns =>
    refine ⟨entries.mapIdx (fun i e =>
      if i ∈ (n::ns).map (fun n => n.toNat-1) then { e with isKeyframe := true } else e),?_,?_⟩
    · unfold markKeyframes
      rw [mapM_zeroBased h]
      rfl
    · intro k e' he'
      rw [List.getElem?_mapIdx,Option.map_eq_some_iff] at he'
      obtain ⟨e,he,rfl⟩ := he'
      have hmem : k ∈ (n::ns).map (fun n => n.toNat-1) ↔ IsSync (n::ns) k := by
        rw [List.mem_map]
        constructor
        · intro hk
          obtain ⟨m,hm,hk⟩ := hk
          have := h m hm
          exact Or.inr ⟨m,hm,by omega⟩
        · intro hk
          rcases hk with hk | ⟨m,hm,hk⟩
          · cases hk
          · exact ⟨m,hm,by omega⟩
      by_cases hk : k ∈ (n::ns).map (fun n => n.toNat-1)
      · refine ⟨e,true,he,if_pos hk,?_⟩
        intro _
        simp [hmem.mp hk]
      · refine ⟨e,e.isKeyframe,he,if_neg hk,?_⟩
        intro hfalse
        rw [hfalse]
        constructor
        · intro htrue
          cases htrue
        · intro hsync
          exact absurd (hmem.mpr hsync) hk

end Keyframes

section Resolved

variable (t : SampleTable)

/-- The number of samples in a chunk, by the last run of `stsc` that starts there or before. -/
def samplesIn (chunk : Nat) : Nat := (stepAt (chunkSteps t.sampleToChunk) (chunk+1)).getD 0

/-- How many samples the chunks before this one have. -/
def firstSample (chunk : Nat) : Nat := ((List.range chunk).map t.samplesIn).sum

/-- The bytes of the `n` samples from sample `first` on. -/
def sampleBytes (first n : Nat) : Nat := bytesOf t.sampleSizes first n

/-- The runs of `stsc` start at the first chunk, go on growing and stay within the chunks. -/
structure ChunkRuns : Prop where
  first : ∀ r ∈ t.sampleToChunk.head?, r.1 = 1
  increase : StepsIncrease (chunkSteps t.sampleToChunk)
  within : ∀ r ∈ t.sampleToChunk, r.1.toNat ≤ t.chunkOffsets.length

/-- Neither the offset of a sample nor the one behind it in its chunk leaves the 64 bits. -/
def NoOverflow : Prop :=
  ∀ c j offset size, t.chunkOffsets[c]? = some offset → j < t.samplesIn c →
    t.sampleSizes[t.firstSample c+j]? = some size →
    offset.toNat+t.sampleBytes (t.firstSample c) j < 2^64 ∧
      t.sampleBytes (t.firstSample c) j+size.toNat < 2^64

/-- Entry `k` of what the standard says: the sample is number `j` of chunk `c`. -/
structure Resolved (k : Nat) (e : SampleEntry) : Prop where
  offset : ∃ c j offset, t.chunkOffsets[c]? = some offset ∧ j < t.samplesIn c ∧
    k = t.firstSample c+j ∧ e.offset = offset.toNat+t.sampleBytes (t.firstSample c) j
  size : t.sampleSizes[k]? = some e.size
  duration : e.duration = ((expandRuns (runsOf t.timeToSample))[k]?).getD 0
  compositionOffset : e.compositionOffset = ((expandRuns (runsOf t.compositionOffsets))[k]?).getD 0
  isKeyframe : e.isKeyframe = true ↔ IsSync t.syncSamples k

variable {t}

theorem ChunkRuns.one_le (h : t.ChunkRuns) {r : UInt32 × UInt32 × UInt32}
    (hr : r ∈ t.sampleToChunk) : 1 ≤ r.1.toNat := by
  obtain ⟨hfirst,hincrease,_⟩ := h
  cases hruns : t.sampleToChunk with
  | nil =>
    rw [hruns] at hr
    cases hr
  | cons r' runs =>
    rw [hruns] at hfirst hincrease hr
    have hone : r'.1 = 1 := hfirst r' rfl
    rcases List.mem_cons.mp hr with rfl | hr
    · rw [hone]
      decide
    · have hlt : r'.1.toNat < r.1.toNat :=
        (List.pairwise_cons.mp hincrease).1 (r.1.toNat,r.2.1.toNat) (List.mem_map.mpr ⟨r,hr,rfl⟩)
      omega

theorem mapIdx_zeros (t : SampleTable) (count : Nat) : (List.replicate count 0).mapIdx
    (fun c n => (stepAt (chunkSteps t.sampleToChunk) (c+1)).getD n) =
      (List.range count).map t.samplesIn := by
  apply List.ext_getElem?
  intro c
  rw [List.getElem?_mapIdx,List.getElem?_map,List.getElem?_replicate]
  by_cases hc : c < count
  · rw [if_pos hc,List.getElem?_range hc]
    rfl
  · rw [if_neg hc,List.getElem?_eq_none (by rw [List.length_range]; omega)]
    rfl

/-- Every chunk gets the number of samples that `stsc` says. -/
theorem fillChunks_zeros_eq_ok {counts : List Nat} :
    SampleTable.fillChunks t.sampleToChunk (List.replicate t.chunkOffsets.length 0) = .ok counts ↔
      RunsFit t.sampleToChunk t.chunkOffsets.length ∧
      counts = (List.range t.chunkOffsets.length).map t.samplesIn := by
  rw [fillChunks_eq_ok,mapIdx_zeros,List.length_replicate]

theorem ChunkRuns.fit (h : t.ChunkRuns) : RunsFit t.sampleToChunk t.chunkOffsets.length where
  starts := by
    intro r hr
    have hwithin := h.within r hr
    exact ⟨h.one_le hr,by omega⟩
  ordered := h.increase.ordered

/-- The chunks with the numbers of their samples. -/
def chunksOf (t : SampleTable) : List (UInt64 × Nat) :=
  t.chunkOffsets.zip ((List.range t.chunkOffsets.length).map t.samplesIn)

theorem map_snd_chunksOf : t.chunksOf.map Prod.snd =
    (List.range t.chunkOffsets.length).map t.samplesIn := by
  apply List.map_snd_zip
  rw [List.length_map,List.length_range]

theorem getElem?_chunksOf {c n : Nat} {offset : UInt64} :
    t.chunksOf[c]? = some (offset,n) ↔ t.chunkOffsets[c]? = some offset ∧ n = t.samplesIn c := by
  unfold chunksOf
  rw [List.getElem?_zip_eq_some]
  apply and_congr_right
  intro hoffset
  have hc : c < t.chunkOffsets.length := (List.getElem?_eq_some_iff.mp hoffset).1
  rw [List.getElem?_map,List.getElem?_range hc]
  exact ⟨fun h => (Option.some.inj h).symm,fun h => congrArg some h.symm⟩

theorem firstOf_chunksOf {c : Nat} (hc : c ≤ t.chunkOffsets.length) :
    firstOf (t.chunksOf.map Prod.snd) c = t.firstSample c := by
  rw [map_snd_chunksOf]
  unfold firstOf firstSample
  rw [← List.map_take,List.take_range,Nat.min_eq_left hc]

theorem NoOverflow.offsetsFit (h : t.NoOverflow) : OffsetsFit t.chunksOf t.sampleSizes := by
  intro c j offset n size hchunk hj hsize
  obtain ⟨hoffset,rfl⟩ := getElem?_chunksOf.mp hchunk
  have hc : c ≤ t.chunkOffsets.length := le_of_lt (List.getElem?_eq_some_iff.mp hoffset).1
  rw [firstOf_chunksOf hc] at hsize ⊢
  exact h c j offset size hoffset hj hsize

/-- Where all samples together would fit behind every chunk, no offset is too large. -/
theorem noOverflow_of_le (h : ∀ offset ∈ t.chunkOffsets,
    offset.toNat+(t.sampleSizes.map UInt32.toNat).sum < 2^64) : t.NoOverflow := by
  intro c j offset size hoffset hj hsize
  have hsum := h offset (List.mem_of_getElem? hoffset)
  have hall := bytesOf_le t.sampleSizes (t.firstSample c) (j+1)
  rw [bytesOf_succ hsize] at hall
  unfold sampleBytes
  omega

/-- What `resolve_sample_offsets` makes of the tables is what they say, sample by sample. -/
theorem resolveSampleOffsets_spec (t : SampleTable) (hruns : t.ChunkRuns)
    (hsync : ∀ n ∈ t.syncSamples, 1 ≤ n.toNat) (hfits : t.NoOverflow) :
    ∃ entries, t.resolveSampleOffsets = .ok entries ∧
      entries.length = min t.sampleSizes.length (t.firstSample t.chunkOffsets.length) ∧
      ∀ k e, entries[k]? = some e → t.Resolved k e := by
  by_cases hempty : t.sampleSizes.isEmpty
  · refine ⟨[],?_,?_,by simp⟩
    · rw [resolveSampleOffsets,if_pos hempty]
    · rw [List.isEmpty_iff.mp hempty]
      simp
  obtain ⟨all,hall,hlength,hin⟩ := allSamples_eq hfits.offsetsFit
  obtain ⟨marked,hmarked,hflags⟩ := @markKeyframes_eq t.syncSamples
    (assignRuns (fun d e => { e with duration := d }) t.timeToSample all) hsync
  refine ⟨assignRuns (fun o e => { e with compositionOffset := o }) t.compositionOffsets marked,
    ?_,?_,?_⟩
  · rw [resolveSampleOffsets,if_neg hempty,fillChunks_zeros_eq_ok.mpr ⟨hruns.fit,rfl⟩]
    show allSamples t.chunksOf t.sampleSizes >>= _ = _
    rw [hall]
    show markKeyframes _ _ >>= _ = _
    rw [hmarked]
    rfl
  · rw [length_assignRuns,length_markKeyframes hmarked,length_assignRuns,hlength,map_snd_chunksOf]
    rfl
  · intro k e he
    rw [getElem?_assignRuns,Option.map_eq_some_iff] at he
    obtain ⟨e₂,he₂,rfl⟩ := he
    obtain ⟨e₁,flag,he₁,rfl,hflag⟩ := hflags k e₂ he₂
    rw [getElem?_assignRuns,Option.map_eq_some_iff] at he₁
    obtain ⟨e₀,he₀,rfl⟩ := he₁
    obtain ⟨c,j,⟨offset,n,hchunk,hj,hoff⟩,hplace,hsize,hduration,hkey,hcomposition⟩ := hin k e₀ he₀
    obtain ⟨hoffset,rfl⟩ := getElem?_chunksOf.mp hchunk
    have hc : c ≤ t.chunkOffsets.length := le_of_lt (List.getElem?_eq_some_iff.mp hoffset).1
    rw [firstOf_chunksOf hc] at hplace hoff
    -- The tables for times and offsets leave the other fields of an entry alone.
    cases hd : (expandRuns (runsOf t.timeToSample))[k]? with
    | none =>
      cases ho : (expandRuns (runsOf t.compositionOffsets))[k]? with
      | none =>
        rw [hd] at hflag
        exact ⟨⟨c,j,offset,hoffset,hj,hplace,hoff⟩,hsize,by rw [hd]; exact hduration,
          by rw [ho]; exact hcomposition,hflag hkey⟩
      | some o =>
        rw [hd] at hflag
        exact ⟨⟨c,j,offset,hoffset,hj,hplace,hoff⟩,hsize,by rw [hd]; exact hduration,
          by rw [ho]; rfl,hflag hkey⟩
    | some d =>
      rw [hd] at hflag
      cases ho : (expandRuns (runsOf t.compositionOffsets))[k]? with
      | none =>
        exact ⟨⟨c,j,offset,hoffset,hj,hplace,hoff⟩,hsize,by rw [hd]; rfl,
          by rw [ho]; exact hcomposition,hflag hkey⟩
      | some o =>
        exact ⟨⟨c,j,offset,hoffset,hj,hplace,hoff⟩,hsize,by rw [hd]; rfl,by rw [ho]; rfl,
          hflag hkey⟩

/-- Two chunks, three samples, and tables of times that are shorter and longer than these. -/
def expandedTable : SampleTable where
  sampleSizes := [10,20,30]
  timeToSample := [(2,512)]
  sampleToChunk := [(1,2,1),(2,1,1)]
  chunkOffsets := [100,200]
  syncSamples := [1]
  compositionOffsets := [(1,0),(5,7)]

theorem resolveSampleOffsets_spec_expanded :
    expandedTable.resolveSampleOffsets = .ok
      [⟨100,10,512,true,0⟩,⟨110,20,512,false,7⟩,⟨200,30,0,false,7⟩] ∧
    expandedTable.Resolved 2 ⟨200,30,0,false,7⟩ := by
  have hvalue : expandedTable.resolveSampleOffsets = .ok
      [⟨100,10,512,true,0⟩,⟨110,20,512,false,7⟩,⟨200,30,0,false,7⟩] := by decide
  have hruns : expandedTable.ChunkRuns :=
    ⟨by simp [expandedTable],by decide,by simp [expandedTable]⟩
  have hfits : expandedTable.NoOverflow := noOverflow_of_le (by simp [expandedTable])
  obtain ⟨entries,hentries,_,hspec⟩ :=
    resolveSampleOffsets_spec expandedTable hruns (by simp [expandedTable]) hfits
  rw [hvalue] at hentries
  cases hentries
  exact ⟨hvalue,hspec 2 _ rfl⟩

end Resolved

end SampleTable

end OpenBroadcast.Media
