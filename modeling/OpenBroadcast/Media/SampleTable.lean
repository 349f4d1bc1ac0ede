import OpenBroadcast.Media.Fmp4Converter

namespace OpenBroadcast.Media

structure SampleTable where
  sampleSizes : List UInt32
  timeToSample : List (UInt32 × UInt32)
  sampleToChunk : List (UInt32 × UInt32 × UInt32)
  chunkOffsets : List UInt64
  syncSamples : List UInt32
  compositionOffsets : List (UInt32 × Int32)
  deriving DecidableEq

structure SampleEntry where
  offset : Nat
  size : UInt32
  duration : UInt32
  isKeyframe : Bool
  compositionOffset : Int32
  deriving DecidableEq

namespace SampleTable

/-- `(n - 1) as usize` for a number that counts from 1. -/
def zeroBased (n : UInt32) : Except Mp4Error Nat :=
  if n = 0 then .error .panic else .ok (n.toNat-1)

/-- The runs of `stsc`, written into the counts of the chunks. -/
def fillChunks : List (UInt32 × UInt32 × UInt32) → List Nat → Except Mp4Error (List Nat)
  | [],counts => .ok counts
  | (firstChunk,spc,_)::runs,counts => do
    let start ← zeroBased firstChunk
    let stop ← match runs with
      | [] => .ok counts.length
      | (next,_,_)::_ => zeroBased next
    let stop := min stop counts.length
    -- The slice of the counts from `start` to `stop`.
    if stop < start then .error .panic
    else
      fillChunks runs
        (counts.take start++List.replicate (stop-start) spc.toNat++counts.drop stop)

/-- The samples of one chunk, and the sizes that are left for the next ones. -/
def chunkSamples (chunkOffset : Nat) :
    Nat → Nat → List UInt32 → Except Mp4Error (List SampleEntry × List UInt32)
  | 0,_,sizes => .ok ([],sizes)
  | _+1,_,[] => .ok ([],[])
  | n+1,offsetInChunk,size::sizes => do
    let offset ← checkedU64 (chunkOffset+offsetInChunk)
    let next ← checkedU64 (offsetInChunk+size.toNat)
    let (entries,sizes) ← chunkSamples chunkOffset n next sizes
    return (⟨offset,size,0,false,0⟩::entries,sizes)

def allSamples : List (UInt64 × Nat) → List UInt32 → Except Mp4Error (List SampleEntry)
  | [],_ => .ok []
  | (chunkOffset,spc)::chunks,sizes => do
    let (entries,sizes) ← chunkSamples chunkOffset.toNat spc 0 sizes
    let rest ← allSamples chunks sizes
    return entries++rest

/-- The values of a run-length encoded table, given to the entries in order. -/
def assignRuns {α : Type} (set : α → SampleEntry → SampleEntry) :
    List (UInt32 × α) → List SampleEntry → List SampleEntry
  | [],entries => entries
  | (count,a)::runs,entries =>
    (entries.take count.toNat).map (set a)++assignRuns set runs (entries.drop count.toNat)

/-- Without `stss` every sample is a keyframe. -/
def markKeyframes (syncSamples : List UInt32) (entries : List SampleEntry) :
    Except Mp4Error (List SampleEntry) :=
  if syncSamples.isEmpty then .ok (entries.map (fun e => { e with isKeyframe := true }))
  else do
    let indices ← syncSamples.mapM zeroBased
    return entries.mapIdx (fun i e => if i ∈ indices then { e with isKeyframe := true } else e)

def resolveSampleOffsets (t : SampleTable) : Except Mp4Error (List SampleEntry) :=
  if t.sampleSizes.isEmpty then .ok []
  else do
    let counts ← fillChunks t.sampleToChunk (List.replicate t.chunkOffsets.length 0)
    let entries ← allSamples (t.chunkOffsets.zip counts) t.sampleSizes
    let entries := assignRuns (fun d e => { e with duration := d }) t.timeToSample entries
    let entries ← markKeyframes t.syncSamples entries
    return assignRuns (fun o e => { e with compositionOffset := o }) t.compositionOffsets entries

section Length

theorem length_assignRuns {α : Type} (set : α → SampleEntry → SampleEntry)
    (runs : List (UInt32 × α)) (entries : List SampleEntry) :
    (assignRuns set runs entries).length = entries.length := by
  induction runs generalizing entries with
  | nil => rfl
  | cons run runs ih =>
    obtain ⟨count,a⟩ := run
    rw [assignRuns,List.length_append,List.length_map,ih,List.length_take,List.length_drop]
    omega

theorem length_markKeyframes {syncSamples : List UInt32} {entries marked : List SampleEntry}
    (h : markKeyframes syncSamples entries = .ok marked) : marked.length = entries.length := by
  unfold markKeyframes at h
  split_ifs at h
  · cases h
    rw [List.length_map]
  · obtain ⟨indices,_,h⟩ := bind_eq_ok.mp h
    cases h
    rw [List.length_mapIdx]

theorem length_chunkSamples {chunkOffset n offsetInChunk : Nat} {sizes rest : List UInt32}
    {entries : List SampleEntry}
    (h : chunkSamples chunkOffset n offsetInChunk sizes = .ok (entries,rest)) :
    entries.length+rest.length = sizes.length := by
  induction n generalizing offsetInChunk sizes entries rest with
  | zero =>
    cases h
    simp
  | succ n ih =>
    cases sizes with
    | nil =>
      cases h
      rfl
    | cons size sizes =>
      obtain ⟨offset,_,h⟩ := bind_eq_ok.mp h
      obtain ⟨next,_,h⟩ := bind_eq_ok.mp h
      obtain ⟨⟨tail,left⟩,htail,h⟩ := bind_eq_ok.mp h
      cases h
      have := ih htail
      simp only [List.length_cons]
      omega

theorem length_allSamples {chunks : List (UInt64 × Nat)} {sizes : List UInt32}
    {entries : List SampleEntry} (h : allSamples chunks sizes = .ok entries) :
    entries.length ≤ sizes.length := by
  induction chunks generalizing sizes entries with
  | nil =>
    cases h
    exact Nat.zero_le _
  | cons chunk chunks ih =>
    obtain ⟨⟨first,left⟩,hfirst,h⟩ := bind_eq_ok.mp h
    obtain ⟨rest,hrest,h⟩ := bind_eq_ok.mp h
    cases h
    have := length_chunkSamples hfirst
    have := ih hrest
    rw [List.length_append]
    omega

/-- There are no more samples than sizes. -/
theorem length_resolveSampleOffsets {t : SampleTable} {entries : List SampleEntry}
    (h : t.resolveSampleOffsets = .ok entries) : entries.length ≤ t.sampleSizes.length := by
  unfold resolveSampleOffsets at h
  split_ifs at h
  · cases h
    exact Nat.zero_le _
  · obtain ⟨counts,_,h⟩ := bind_eq_ok.mp h
    obtain ⟨all,hall,h⟩ := bind_eq_ok.mp h
    obtain ⟨marked,hmarked,h⟩ := bind_eq_ok.mp h
    cases h
    rw [length_assignRuns,length_markKeyframes hmarked,length_assignRuns]
    exact length_allSamples hall

end Length

end SampleTable

end OpenBroadcast.Media
