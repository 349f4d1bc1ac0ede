import OpenBroadcast.Media.FragmentBounds
import OpenBroadcast.Media.RegularBounds
import OpenBroadcast.Media.TfhdSearch

namespace OpenBroadcast.Media

open RawBox

namespace Mp4Parser

variable (p : Mp4Parser)

/-- The contents of the `moof` boxes that are searched as the media segments are made. -/
def searchesFrom : Nat → List Mp4Box → List Bytes
  | index,a::b::rest =>
    if isPair a b then
      a.content::
        match p.mediaSegment index a b with
        | .ok _ => searchesFrom (index+1) rest
        | .error _ => []
    else searchesFrom index (b::rest)
  | _,_ => []

def searches : List Bytes :=
  match p.initSegments with
  | .ok _ => p.searchesFrom 0 p.boxes
  | .error _ => []

/-- Every search up to a fragment that is refused is as it should be. -/
def SearchesGood (Good : Bytes → Prop) : Prop :=
  GoodUntil (fun q => ShortTrafIn (fixedContent q.2.1)) (fun q => Good q.2.1.content)
    ((fragmentPairs p.boxes).mapIdx (fun i pair => (i,pair)))

variable {p} {Good : Bytes → Prop}

theorem searchesFrom_iff {index : Nat} {bs : List Mp4Box}
    (h : GoodUntil (fun q => ShortTrafIn (fixedContent q.2.1))
      (fun q => p.PairBounded q.1 q.2.1)
      ((fragmentPairs bs).mapIdx (fun i pair => (index+i,pair)))) :
    (∀ content ∈ p.searchesFrom index bs, Good content) ↔
      GoodUntil (fun q => ShortTrafIn (fixedContent q.2.1)) (fun q => Good q.2.1.content)
        ((fragmentPairs bs).mapIdx (fun i pair => (index+i,pair))) := by
  fun_induction fragmentPairs bs generalizing index with
  | case1 a b rest hpair ih =>
    rw [List.mapIdx_cons,goodUntil_cons,mapIdx_next] at h
    rw [searchesFrom,if_pos hpair,List.forall_mem_cons,List.mapIdx_cons,goodUntil_cons,mapIdx_next]
    apply and_congr_right
    intro _
    have hok := @mediaSegment_ok_iff p index a b
    cases hsegment : p.mediaSegment index a b with
    | ok segment =>
      obtain ⟨_,hlong⟩ := hok.mp ⟨segment,hsegment⟩
      rw [ih (h.2 hlong)]
      exact ⟨fun hrest _ => hrest,fun hrest => hrest hlong⟩
    | error e =>
      have hshort : ¬ ¬ ShortTrafIn (fixedContent a) := by
        intro hlong
        obtain ⟨segment,hs⟩ := hok.mpr ⟨h.1,hlong⟩
        rw [hsegment] at hs
        cases hs
      exact iff_of_true (by simp) (fun hlong => absurd hlong hshort)
  | case2 a b rest hpair ih =>
    rw [searchesFrom,if_neg hpair]
    exact ih h
  | case3 bs hbs =>
    rcases bs with _ | ⟨a,_ | ⟨b,rest⟩⟩
    · exact iff_of_true (by simp [searchesFrom]) goodUntil_nil
    · exact iff_of_true (by simp [searchesFrom]) goodUntil_nil
    · exact absurd rfl (hbs a b rest)

theorem searches_iff (h : p.Bounded) :
    (∀ content ∈ p.searches, Good content) ↔ p.SearchesGood Good := by
  have hindex : (fun (i : Nat) (pair : Mp4Box × Mp4Box) => (0+i,pair)) =
      fun i pair => (i,pair) := by
    funext i pair
    rw [Nat.zero_add]
  obtain ⟨first,hfirst⟩ :=
    onlyPanics_initSegments.returns_iff.mp (initSegments_returns_iff.mpr h.initialization)
  have hfragments := h.fragments
  unfold searches SearchesGood
  rw [hfirst]
  rw [← hindex] at hfragments ⊢
  exact searchesFrom_iff hfragments

end Mp4Parser

section Requests

/-- The counts of the chunks, of 4 bytes each, and the entries for the samples, of 24. -/
def SampleTable.requests (t : SampleTable) : List Nat :=
  if t.sampleSizes.isEmpty then [] else [4*t.chunkOffsets.length,24*t.sampleSizes.length]

namespace RegularMp4

variable (p : RegularMp4)

/-- The frames of a group, of 40 bytes each, and the samples that are copied for them, up to the first
that exceeds the `mdat`. -/
def groupRequests (group : List SampleEntry) : List Nat :=
  40*group.length::(group.takeWhile (fun se =>
    se.Inside p.mdatPayloadOffset p.mdatData.length)).map (fun se => se.size.toNat)

/-- What the conversion of the video asks for. -/
def videoRequests : List Nat :=
  match p.videoTrack.bind SampledTrack.sampleTable with
  | none => []
  | some t => t.requests++
    match t.resolveSampleOffsets with
    | .ok entries => (gops entries).flatMap p.groupRequests
    | .error _ => []

/-- What the conversion of the audio asks for. -/
def audioRequests : List Nat :=
  if p.hasAc3Audio then []
  else
    match p.audioTrack with
    | none => []
    | some track =>
      match track.sampleTable with
      | none => []
      | some t => t.requests++
        match t.resolveSampleOffsets with
        | .ok entries => (audioChunks track entries).flatMap p.groupRequests
        | .error _ => []

/-- What the conversion asks for. -/
def requests : List Nat :=
  match p.initSegment with
  | .error _ => []
  | .ok _ =>
    if p.mdatData.isEmpty then []
    else p.videoRequests++
      match p.videoSegments with
      | .ok _ => p.audioRequests
      | .error _ => []

/-- The sizes that the table of the video declares. -/
def videoSizes : List Nat :=
  (p.videoTrack.bind SampledTrack.sampleTable).elim []
    (fun t => t.requests++(gops t.samples).flatMap p.groupRequests)

/-- The sizes that the table of the audio declares. -/
def audioSizes : List Nat :=
  if p.hasAc3Audio then []
  else p.audioTrack.elim [] (fun track => track.sampleTable.elim []
    (fun t => t.requests++(audioChunks track t.samples).flatMap p.groupRequests))

def videoFound : Bool :=
  (p.videoTrack.bind SampledTrack.sampleTable).all (fun t => !t.samples.isEmpty)

/-- The sizes that the tables of a file declare: of the video and, unless this has no samples, of the
audio. -/
def declaredSizes : List Nat :=
  if (p.lastBox tagMoov).isNone || p.mdatData.isEmpty then []
  else p.videoSizes++if p.videoFound then p.audioSizes else []

variable {p}

theorem videoFound_iff : p.videoFound = true ↔ p.VideoFound := by
  unfold videoFound VideoFound
  cases p.videoTrack.bind SampledTrack.sampleTable with
  | none => simp
  | some t => simp

theorem videoRequests_eq (h : p.VideoBounded) : p.videoRequests = p.videoSizes := by
  unfold videoRequests videoSizes
  unfold VideoBounded at h
  cases ht : p.videoTrack.bind SampledTrack.sampleTable with
  | none => rfl
  | some t =>
    rw [ht] at h
    dsimp only at h ⊢
    rw [SampleTable.resolveSampleOffsets_eq_ok.mpr ⟨h.1,rfl⟩]
    rfl

theorem audioRequests_eq (h : p.AudioBounded) : p.audioRequests = p.audioSizes := by
  unfold audioRequests audioSizes
  unfold AudioBounded at h
  split_ifs with hac3
  · rfl
  · cases htrack : p.audioTrack with
    | none => rfl
    | some track =>
      dsimp only [Option.elim_some]
      cases ht : track.sampleTable with
      | none => rfl
      | some t =>
        have hbounded := (h (by simpa using hac3) track t htrack ht).1
        dsimp only [Option.elim_some]
        rw [SampleTable.resolveSampleOffsets_eq_ok.mpr ⟨hbounded,rfl⟩]

/-- A conversion that returns asks for what its tables declare. -/
theorem requests_eq (hcounts : ∀ track ∈ p.tracks, ∀ t, track.sampleTable = some t →
    t.sampleSizes.length < 2^32) (h : p.Bounded) : p.requests = p.declaredSizes := by
  unfold requests declaredSizes
  cases hmoov : p.lastBox tagMoov with
  | none =>
    have hinit : p.initSegment = .error (.io "No moov box found in MP4") := by
      unfold initSegment
      rw [hmoov]
    rw [hinit]
    rfl
  | some moov =>
    obtain ⟨hfits,hmedia⟩ := h moov hmoov
    obtain ⟨init,hinit⟩ := (p.initSegment_eq_ok hmoov).mpr hfits
    rw [hinit]
    simp only [Option.isNone_some,Bool.false_or]
    split_ifs with hmdat hfound hnone
    · rfl
    · obtain ⟨hvideo,haudio⟩ := hmedia (by simpa using hmdat)
      have hvideoFound := videoFound_iff.mp hfound
      obtain ⟨r,hr⟩ := (videoSegments_ok_iff hcounts).mpr ⟨hvideo,hvideoFound⟩
      rw [hr,videoRequests_eq hvideo]
      dsimp only
      rw [audioRequests_eq (haudio hvideoFound)]
    · obtain ⟨hvideo,_⟩ := hmedia (by simpa using hmdat)
      rw [videoRequests_eq hvideo]
      cases hsegments : p.videoSegments with
      | error e => rfl
      | ok r =>
        have hvideoFound := ((videoSegments_ok_iff hcounts).mp ⟨r,hsegments⟩).2
        exact absurd (videoFound_iff.mpr hvideoFound) hfound

end RegularMp4

end Requests

end OpenBroadcast.Media
