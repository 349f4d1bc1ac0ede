import OpenBroadcast.Media.GroupEmission

namespace OpenBroadcast.Media

namespace RegularMp4

variable (p : RegularMp4)

/-- About half a second of samples each. -/
def audioChunks (track : SampledTrack) : List SampleEntry → List (List SampleEntry)
  | [] => []
  | first::rest => chunks (samplesPerChunk track.timescale first) (first::rest)

/-- The groups that are not skipped. -/
def keptGroups (groups : List (List SampleEntry)) : List (List SampleEntry) :=
  groups.filter (fun group => AllInside p.mdatPayloadOffset p.mdatData.length group)

/-- The audio is converted without a panic, or left out. -/
def AudioPasses : Prop :=
  p.hasAc3Audio = false → ∀ track t, p.audioTrack = some track → track.sampleTable = some t →
    ∃ entries, t.resolveSampleOffsets = .ok entries ∧
      (∀ group ∈ audioChunks track entries,
        Readable p.mdatPayloadOffset p.mdatData.length group) ∧
      Encodable track.timescale .new (p.keptGroups (audioChunks track entries))

theorem audioLoop_plain (track : SampledTrack) : (audioLoop track).Plain :=
  fun _ _ => ⟨_,_,rfl⟩

theorem samplesPerChunk_pos (timescale : Nat) (first : SampleEntry) :
    0 < samplesPerChunk timescale first := by
  unfold samplesPerChunk
  omega

theorem nil_notMem_audioChunks (track : SampledTrack) (entries : List SampleEntry) :
    [] ∉ audioChunks track entries := by
  cases entries with
  | nil => exact List.not_mem_nil
  | cons first rest => exact nil_notMem_chunks (samplesPerChunk_pos _ first) _

theorem length_le_of_mem_audioChunks {track : SampledTrack} {entries group : List SampleEntry}
    (h : group ∈ audioChunks track entries) : group.length ≤ entries.length := by
  cases entries with
  | nil => cases h
  | cons first rest => exact length_le_of_mem_chunks h

theorem segment_of_mem_mapIdx {loop : GroupLoop} {start : Nat} {mdat : Bytes}
    {s : Nat → FragmentedMp4Converter} {groups : List (List SampleEntry)} {seg : MseSegment}
    (h : seg ∈ groups.mapIdx (fun i group => loop.segment start mdat (s i) group)) :
    seg.segmentType = .media ∧ seg.trackId = loop.trackId.toNat := by
  obtain ⟨i,_,rfl⟩ := List.mem_mapIdx.mp h
  exact ⟨rfl,rfl⟩

variable {p}

/-- With an audio track, its chunks are emitted one after the other. -/
theorem audioSegments_eq (hac3 : p.hasAc3Audio = false) {track : SampledTrack}
    (htrack : p.audioTrack = some track) {t : SampleTable} (ht : track.sampleTable = some t) :
    p.audioSegments = t.resolveSampleOffsets >>= fun entries =>
      (audioChunks track entries).foldlM
        (emitGroup (audioLoop track) p.mdatPayloadOffset p.mdatData) ⟨.new,0,[]⟩ >>= fun st =>
      .ok st.segments := by
  unfold audioSegments
  rw [hac3,htrack,if_neg (by decide)]
  dsimp only
  rw [ht]
  apply bind_congr
  intro entries
  cases entries with
  | nil => rfl
  | cons first rest =>
    rw [audioChunks,← chunkLoop_eq _ (samplesPerChunk_pos _ first) (le_refl _)]
    rfl

theorem audioSegments_none (h : ¬ (p.hasAc3Audio = false ∧ ∃ track t,
    p.audioTrack = some track ∧ track.sampleTable = some t)) : p.audioSegments = .ok [] := by
  unfold audioSegments
  split_ifs with hac3
  · rfl
  · split
    · rfl
    · next track htrack =>
      split
      · rfl
      · next t ht => exact absurd ⟨by simpa using hac3,track,t,htrack,ht⟩ h

variable (hcounts : ∀ track ∈ p.tracks, ∀ t, track.sampleTable = some t →
  t.sampleSizes.length < 2^32)

include hcounts

theorem length_lt_of_mem {track : SampledTrack} (htrack : track ∈ p.tracks) {t : SampleTable}
    (ht : track.sampleTable = some t) {entries : List SampleEntry}
    (hentries : t.resolveSampleOffsets = .ok entries) : entries.length < 2^32 := by
  calc
    entries.length ≤ t.sampleSizes.length := SampleTable.length_resolveSampleOffsets hentries
    _ < 2^32 := hcounts track htrack t ht

theorem audioChunks_eq_ok {track : SampledTrack} (htrack : p.audioTrack = some track)
    {t : SampleTable} (ht : track.sampleTable = some t) {entries : List SampleEntry}
    (hentries : t.resolveSampleOffsets = .ok entries) {st : Emission} :
    (audioChunks track entries).foldlM
        (emitGroup (audioLoop track) p.mdatPayloadOffset p.mdatData) ⟨.new,0,[]⟩ = .ok st ↔
      (∀ group ∈ audioChunks track entries,
        Readable p.mdatPayloadOffset p.mdatData.length group) ∧
      Encodable track.timescale .new (p.keptGroups (audioChunks track entries)) ∧
      st = (p.keptGroups (audioChunks track entries)).foldl
        (Emission.emitted (audioLoop track) p.mdatPayloadOffset p.mdatData) ⟨.new,0,[]⟩ := by
  have hlengths : ∀ group ∈ audioChunks track entries, group.length < 2^32 := by
    intro group hgroup
    have hle := length_le_of_mem_audioChunks hgroup
    have hlt := length_lt_of_mem hcounts (List.mem_of_find?_eq_some htrack) ht hentries
    omega
  exact emitGroups_eq_ok (audioLoop_plain track) (nil_notMem_audioChunks track entries) hlengths rfl

theorem audioSegments_eq_ok : (∃ audio, p.audioSegments = .ok audio) ↔ p.AudioPasses := by
  unfold AudioPasses
  by_cases h : p.hasAc3Audio = false ∧ ∃ track t,
      p.audioTrack = some track ∧ track.sampleTable = some t
  · obtain ⟨hac3,track,t,htrack,ht⟩ := h
    constructor
    · intro h _ track' t' htrack' ht'
      rw [htrack] at htrack'
      cases htrack'
      rw [ht] at ht'
      cases ht'
      obtain ⟨audio,haudio⟩ := h
      rw [audioSegments_eq hac3 htrack ht] at haudio
      obtain ⟨entries,hentries,haudio⟩ := bind_eq_ok.mp haudio
      obtain ⟨st,hst,_⟩ := bind_eq_ok.mp haudio
      obtain ⟨hreadable,hencodable,_⟩ := (audioChunks_eq_ok hcounts htrack ht hentries).mp hst
      exact ⟨entries,hentries,hreadable,hencodable⟩
    · intro h
      obtain ⟨entries,hentries,hreadable,hencodable⟩ := h hac3 track t htrack ht
      have hst := (audioChunks_eq_ok hcounts htrack ht hentries).mpr ⟨hreadable,hencodable,rfl⟩
      rw [audioSegments_eq hac3 htrack ht,hentries]
      exact ⟨_,bind_eq_ok.mpr ⟨entries,rfl,bind_eq_ok.mpr ⟨_,hst,rfl⟩⟩⟩
  · refine ⟨fun _ hac3 track t htrack ht => absurd ⟨hac3,track,t,htrack,ht⟩ h,fun _ => ?_⟩
    exact ⟨[],audioSegments_none h⟩

theorem audioSegments_trackId {audio : List MseSegment} (haudio : p.audioSegments = .ok audio) :
    ∀ seg ∈ audio, ∃ track, p.audioTrack = some track ∧ seg.trackId = track.trackId.toNat := by
  intro seg hseg
  by_cases h : p.hasAc3Audio = false ∧ ∃ track t,
      p.audioTrack = some track ∧ track.sampleTable = some t
  · obtain ⟨hac3,track,t,htrack,ht⟩ := h
    rw [audioSegments_eq hac3 htrack ht] at haudio
    obtain ⟨entries,hentries,haudio⟩ := bind_eq_ok.mp haudio
    obtain ⟨st,hst,haudio⟩ := bind_eq_ok.mp haudio
    cases haudio
    obtain ⟨_,_,rfl⟩ := (audioChunks_eq_ok hcounts htrack ht hentries).mp hst
    rw [foldl_emitted,List.nil_append] at hseg
    exact ⟨track,htrack,(segment_of_mem_mapIdx hseg).2⟩
  · rw [audioSegments_none h] at haudio
    cases haudio
    cases hseg

end RegularMp4

end OpenBroadcast.Media
