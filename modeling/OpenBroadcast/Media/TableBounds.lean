import OpenBroadcast.Media.GroupEmission
import OpenBroadcast.Media.SampleExpansion

namespace OpenBroadcast.Media

namespace SampleTable

section Placing

/-- Samples of these sizes, one behind the other from an offset on. -/
def placeSizes (offset : Nat) : List UInt32 → List SampleEntry
  | [] => []
  | size::sizes => ⟨offset,size,0,false,0⟩::placeSizes (offset+size.toNat) sizes

/-- The sizes are dealt out to the chunks in order. -/
def placeChunks : List (UInt64 × Nat) → List UInt32 → List SampleEntry
  | [],_ => []
  | (offset,n)::chunks,sizes =>
    placeSizes offset.toNat (sizes.take n)++placeChunks chunks (sizes.drop n)

variable {chunkOffset n o : Nat} {sizes rest : List UInt32} {entries : List SampleEntry}

theorem chunkSamples_places (h : chunkSamples chunkOffset n o sizes = .ok (entries,rest)) :
    entries = placeSizes (chunkOffset+o) (sizes.take n) ∧ rest = sizes.drop n := by
  induction n generalizing o sizes entries rest with
  | zero =>
    cases h
    exact ⟨rfl,rfl⟩
  | succ n ih =>
    cases sizes with
    | nil =>
      cases h
      exact ⟨rfl,rfl⟩
    | cons size sizes =>
      obtain ⟨offset,hoffset,h⟩ := bind_eq_ok.mp h
      obtain ⟨next,hnext,h⟩ := bind_eq_ok.mp h
      obtain ⟨⟨tail,left⟩,htail,h⟩ := bind_eq_ok.mp h
      cases h
      obtain ⟨rfl,_⟩ := checkedU64_eq_ok hoffset
      obtain ⟨rfl,_⟩ := checkedU64_eq_ok hnext
      obtain ⟨htail,hleft⟩ := ih htail
      rw [← Nat.add_assoc] at htail
      exact ⟨by rw [htail]; rfl,hleft⟩

/-- The offsets that were computed for a chunk are not too large. -/
theorem chunkSamples_fit (h : chunkSamples chunkOffset n o sizes = .ok (entries,rest)) {j : Nat}
    {size : UInt32} (hj : j < n) (hsize : sizes[j]? = some size) :
    chunkOffset+(o+bytesOf sizes 0 j) < 2^64 ∧ o+bytesOf sizes 0 j+size.toNat < 2^64 := by
  induction n generalizing o sizes entries rest j with
  | zero => omega
  | succ n ih =>
    cases sizes with
    | nil => cases hsize
    | cons first sizes =>
      obtain ⟨offset,hoffset,h⟩ := bind_eq_ok.mp h
      obtain ⟨next,hnext,h⟩ := bind_eq_ok.mp h
      obtain ⟨⟨tail,left⟩,htail,_⟩ := bind_eq_ok.mp h
      obtain ⟨_,hoffsetLt⟩ := checkedU64_eq_ok hoffset
      obtain ⟨rfl,hnextLt⟩ := checkedU64_eq_ok hnext
      cases j with
      | zero =>
        cases hsize
        have hzero : bytesOf (size::sizes) 0 0 = 0 := rfl
        rw [hzero]
        omega
      | succ j =>
        have hlater := ih htail (by omega) hsize
        rw [bytesOf_cons]
        omega

variable {chunks : List (UInt64 × Nat)}

theorem allSamples_places (h : allSamples chunks sizes = .ok entries) :
    entries = placeChunks chunks sizes := by
  induction chunks generalizing sizes entries with
  | nil =>
    cases h
    rfl
  | cons chunk chunks ih =>
    obtain ⟨offset,n⟩ := chunk
    obtain ⟨⟨first,left⟩,hfirst,h⟩ := bind_eq_ok.mp h
    obtain ⟨later,hlater,h⟩ := bind_eq_ok.mp h
    cases h
    obtain ⟨rfl,rfl⟩ := chunkSamples_places hfirst
    rw [ih hlater]
    rfl

theorem allSamples_fit (h : allSamples chunks sizes = .ok entries) : OffsetsFit chunks sizes := by
  induction chunks generalizing sizes entries with
  | nil =>
    intro c j offset n size hchunk
    cases hchunk
  | cons chunk chunks ih =>
    obtain ⟨⟨first,left⟩,hfirst,h⟩ := bind_eq_ok.mp h
    obtain ⟨later,hlater,_⟩ := bind_eq_ok.mp h
    obtain ⟨_,rfl⟩ := chunkSamples_places hfirst
    intro c j offset n size hchunk hj hsize
    cases c with
    | zero =>
      cases hchunk
      have hzero : firstOf (((offset,n)::chunks).map Prod.snd) 0 = 0 := rfl
      rw [hzero,Nat.zero_add] at hsize
      have hfit := chunkSamples_fit hfirst hj hsize
      rw [Nat.zero_add] at hfit
      rw [hzero]
      exact hfit
    | succ c =>
      have hnext : firstOf ((chunk::chunks).map Prod.snd) (c+1) =
          chunk.2+firstOf (chunks.map Prod.snd) c := by simp [firstOf]
      rw [hnext] at hsize ⊢
      have hfit := ih hlater c j offset n size hchunk hj
        (by rw [List.getElem?_drop,← Nat.add_assoc]; exact hsize)
      rw [bytesOf_drop] at hfit
      exact hfit

/-- The samples are found exactly if no offset is too large, and they are placed one behind the
other. -/
theorem allSamples_eq_ok : allSamples chunks sizes = .ok entries ↔
    OffsetsFit chunks sizes ∧ entries = placeChunks chunks sizes := by
  constructor
  · intro h
    exact ⟨allSamples_fit h,allSamples_places h⟩
  · intro h
    obtain ⟨hfit,rfl⟩ := h
    obtain ⟨found,hfound,_⟩ := allSamples_eq hfit
    rw [hfound,allSamples_places hfound]

end Placing

section Marking

variable {syncSamples : List UInt32} {entries marked : List SampleEntry}

instance (syncSamples : List UInt32) (k : Nat) : Decidable (IsSync syncSamples k) :=
  inferInstanceAs (Decidable (syncSamples = [] ∨ ∃ n ∈ syncSamples, n.toNat = k+1))

/-- The samples with the numbers of a table are keyframes, or all if it is empty. -/
def markSync (syncSamples : List UInt32) (entries : List SampleEntry) : List SampleEntry :=
  entries.mapIdx (fun k e => if IsSync syncSamples k then { e with isKeyframe := true } else e)

theorem markKeyframes_of_ne_nil (hne : syncSamples ≠ []) :
    markKeyframes syncSamples entries = .ok marked ↔
      (∀ n ∈ syncSamples, 1 ≤ n.toNat) ∧ marked = markSync syncSamples entries := by
  have hpos : (∃ indices, syncSamples.mapM zeroBased = .ok indices) ↔
      ∀ n ∈ syncSamples, 1 ≤ n.toNat := by
    constructor
    · intro h n hn
      obtain ⟨indices,hindices⟩ := h
      obtain ⟨k,_,hk⟩ := forall₂_mem_left (mapM_eq_ok_iff.mp hindices) hn
      have := zeroBased_eq_ok.mp hk
      omega
    · intro h
      exact ⟨_,mapM_zeroBased h⟩
  have hmark : (∀ n ∈ syncSamples, 1 ≤ n.toNat) → entries.mapIdx (fun k e =>
      if k ∈ syncSamples.map (fun n => n.toNat-1) then { e with isKeyframe := true } else e) =
        markSync syncSamples entries := by
    intro h
    unfold markSync
    congr 1
    funext k e
    have hmem : k ∈ syncSamples.map (fun n => n.toNat-1) ↔ IsSync syncSamples k := by
      rw [List.mem_map]
      constructor
      · intro hk
        obtain ⟨n,hn,hk⟩ := hk
        have := h n hn
        exact Or.inr ⟨n,hn,by omega⟩
      · intro hk
        obtain ⟨n,hn,hk⟩ := hk.resolve_left hne
        exact ⟨n,hn,by omega⟩
    simp only [hmem]
  have hempty : syncSamples.isEmpty = false := by simpa using hne
  unfold markKeyframes
  rw [hempty,if_neg (by decide),bind_eq_ok]
  constructor
  · intro h
    obtain ⟨indices,hindices,h⟩ := h
    have hall := hpos.mp ⟨indices,hindices⟩
    rw [mapM_zeroBased hall] at hindices
    cases hindices
    cases h
    exact ⟨hall,hmark hall⟩
  · intro h
    obtain ⟨hall,rfl⟩ := h
    exact ⟨_,mapM_zeroBased hall,by rw [← hmark hall]; rfl⟩

theorem markKeyframes_eq_ok : markKeyframes syncSamples entries = .ok marked ↔
    (∀ n ∈ syncSamples, 1 ≤ n.toNat) ∧ marked = markSync syncSamples entries := by
  cases syncSamples with
  | nil =>
    have hall : markSync [] entries = entries.map (fun e => { e with isKeyframe := true }) := by
      unfold markSync
      apply List.ext_getElem?
      intro k
      simp [IsSync]
    rw [hall]
    simp [markKeyframes,eq_comm]
  | cons n ns => exact markKeyframes_of_ne_nil (List.cons_ne_nil n ns)

end Marking

section Bounds

variable (t : SampleTable)

/-- The samples that the tables list, with their durations and flags. -/
def samples : List SampleEntry :=
  assignRuns (fun o e => { e with compositionOffset := o }) t.compositionOffsets
    (markSync t.syncSamples
      (assignRuns (fun d e => { e with duration := d }) t.timeToSample
        (placeChunks t.chunksOf t.sampleSizes)))

theorem placeChunks_nil (chunks : List (UInt64 × Nat)) : placeChunks chunks [] = [] := by
  induction chunks with
  | nil => rfl
  | cons chunk chunks ih =>
    obtain ⟨offset,n⟩ := chunk
    rw [placeChunks,List.take_nil,List.drop_nil,ih]
    rfl

/-- Without sizes there are no samples. -/
theorem samples_eq_nil (h : t.sampleSizes = []) : t.samples = [] := by
  have hlength : t.samples.length = 0 := by
    unfold samples markSync
    rw [h,placeChunks_nil,length_assignRuns,List.length_mapIdx,length_assignRuns]
    rfl
  exact List.length_eq_zero_iff.mp hlength

/-- With samples at all, the runs of `stsc` fit the chunks, no offset leaves the 64 bits, and `stss`
counts from 1. -/
structure Bounded : Prop where
  runs : t.sampleSizes ≠ [] → RunsFit t.sampleToChunk t.chunkOffsets.length
  offsets : t.sampleSizes ≠ [] → t.NoOverflow
  sync : t.sampleSizes ≠ [] → ∀ n ∈ t.syncSamples, 1 ≤ n.toNat

variable {t}

theorem offsetsFit_chunksOf : OffsetsFit t.chunksOf t.sampleSizes ↔ t.NoOverflow := by
  constructor
  · intro h c j offset size hoffset hj hsize
    have hc : c ≤ t.chunkOffsets.length := le_of_lt (List.getElem?_eq_some_iff.mp hoffset).1
    have hfit := h c j offset (t.samplesIn c) size (getElem?_chunksOf.mpr ⟨hoffset,rfl⟩) hj
    rw [firstOf_chunksOf hc] at hfit
    exact hfit hsize
  · exact NoOverflow.offsetsFit

/-- The samples are resolved exactly if the tables are within their bounds. -/
theorem resolveSampleOffsets_eq_ok {entries : List SampleEntry} :
    t.resolveSampleOffsets = .ok entries ↔ t.Bounded ∧ entries = t.samples := by
  by_cases hempty : t.sampleSizes = []
  · have hbounded : t.Bounded :=
      ⟨fun hne => absurd hempty hne,fun hne => absurd hempty hne,fun hne => absurd hempty hne⟩
    have hnone : t.resolveSampleOffsets = .ok [] := by
      simp [resolveSampleOffsets,hempty]
    rw [hnone,samples_eq_nil t hempty,Except.ok.injEq]
    exact ⟨fun h => ⟨hbounded,h.symm⟩,fun h => h.2.symm⟩
  have hsome : t.sampleSizes.isEmpty = false := by simpa using hempty
  unfold resolveSampleOffsets
  rw [hsome,if_neg (by decide)]
  simp only [bind_eq_ok,fillChunks_zeros_eq_ok]
  constructor
  · intro h
    obtain ⟨counts,⟨hruns,rfl⟩,all,hall,marked,hmarked,h⟩ := h
    obtain ⟨hfit,rfl⟩ := allSamples_eq_ok.mp hall
    obtain ⟨hsync,rfl⟩ := markKeyframes_eq_ok.mp hmarked
    cases h
    exact ⟨⟨fun _ => hruns,fun _ => offsetsFit_chunksOf.mp hfit,fun _ => hsync⟩,rfl⟩
  · intro h
    obtain ⟨hbounded,rfl⟩ := h
    exact ⟨_,⟨hbounded.runs hempty,rfl⟩,_,
      allSamples_eq_ok.mpr ⟨offsetsFit_chunksOf.mpr (hbounded.offsets hempty),rfl⟩,_,
      markKeyframes_eq_ok.mpr ⟨hbounded.sync hempty,rfl⟩,rfl⟩

end Bounds

end SampleTable

end OpenBroadcast.Media
