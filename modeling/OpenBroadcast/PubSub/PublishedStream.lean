import OpenBroadcast.Media.Publisher
import OpenBroadcast.PubSub.Replay

namespace OpenBroadcast.PubSub

open Media

namespace StreamDataValidator

def results (v : StreamDataValidator) : List Delivery → List ValidationResult
  | [] => []
  | d::ds =>
    let (result,v) := v.validate d.message d.source d.now
    result::results v ds

/-- No source exceeds the limit. -/
def WithinLimit (v : StreamDataValidator) : List Delivery → Prop
  | [] => True
  | d::ds =>
    (v.checkSource d.message d.source d.now).1 = true ∧
      WithinLimit (v.checkSource d.message d.source d.now).2 ds

instance decidableWithinLimit (v : StreamDataValidator) (ds : List Delivery) :
    Decidable (v.WithinLimit ds) :=
  match ds with
  | [] => isTrue trivial
  | d::ds =>
    have := decidableWithinLimit (v.checkSource d.message d.source d.now).2 ds
    inferInstanceAs (Decidable (_ ∧ _))

theorem isStreamDataTopic_streamData (streamId : Relay.StreamId) :
    isStreamDataTopic (Delivery.streamData streamId) = true := by
  have hstart : "stream/".toList.isPrefixOf (Delivery.streamData streamId).toList = true := by
    unfold Delivery.streamData Delivery.streamTopic
    rw [String.toList_ofList,List.isPrefixOf_iff_prefix]
    exact ⟨Delivery.hexEncode streamId.bytes++"/data".toList,
      by simp [List.intercalate,List.intersperse]⟩
  unfold isStreamDataTopic
  rw [hstart,Delivery.endsWithData_streamData]
  rfl

variable (blake3 : Bytes → Digest)

/-- The message holds a segment of the stream and is on the stream's data topic. -/
structure Wraps (streamId : StreamId) (segment : StreamSegment) (d : Delivery) : Prop where
  topic : d.message.topic = Delivery.streamData ⟨overlayStreamId streamId⟩
  payload : ∃ bytes, (WireSegment.ofSegment blake3 segment).toBytes = .ok bytes ∧
    d.message.payload = .binary bytes

def wireId (segment : StreamSegment) : SegmentId :=
  ((segment.streamId.bytes,segment.trackId),segment.sequence)

theorem readSegment_ofSegment (segment : StreamSegment) {bytes : Bytes}
    (h : (WireSegment.ofSegment blake3 segment).toBytes = .ok bytes) :
    readSegment bytes = some (.ofSegment blake3 segment) := by
  have hread : WireSegment.fromBytes bytes = .ok (.ofSegment blake3 segment) := by
    cases h
    exact map_decode_encode _ _
  have hversion : (WireSegment.ofSegment blake3 segment).isCompatible = true := rfl
  have htype : (WireSegment.ofSegment blake3 segment).mediaTypeEnum = some segment.mediaType :=
    MediaType.fromU8_toU8 segment.mediaType
  simp [readSegment,hread,hversion,htype]

/-- Segments within the limit are accepted exactly if no sequence number is the last one of its
track. -/
theorem results_accept_iff {streamId : StreamId} {segments : List StreamSegment}
    {ds : List Delivery} (hwraps : List.Forall₂ (Wraps blake3 streamId) segments ds)
    {v u : StreamDataValidator} {s : LastSeen (Bytes × UInt8) UInt64} (hrates : SameRates v u)
    (htracks : Tracks v s) (hlimit : u.WithinLimit ds) :
    (∀ r ∈ v.results ds, r = .accept) ↔ s.PassesAll (segments.map wireId) := by
  induction hwraps generalizing v u s with
  | nil => simp [results,LastSeen.PassesAll]
  | @cons segment d segments ds hd _ ih =>
    obtain ⟨hallow,hlimit⟩ := hlimit
    obtain ⟨hsame,hadmitted⟩ := checkSource_sameRates hrates d.message d.source d.now
    have htopic : isStreamDataTopic d.message.topic = true := by
      rw [hd.topic]
      exact isStreamDataTopic_streamData _
    obtain ⟨bytes,hbytes,hpayload⟩ := hd.payload
    have hread : readSegment d.message.payload.asBytes = some (.ofSegment blake3 segment) := by
      rw [hpayload]
      exact readSegment_ofSegment blake3 segment hbytes
    have hvalidate : v.validate d.message d.source d.now =
        (v.checkSource d.message d.source d.now).2.checkSequence
          (streamKey segment.streamId.bytes segment.trackId) segment.sequence := by
      simp only [validate,htopic,hsame,hallow]
      simp only [checkSegment_eq,hread]
      rfl
    have hkept : Tracks (v.checkSource d.message d.source d.now).2 s := by
      intro id trackId
      rw [checkSource_sequenceTracker]
      exact htracks id trackId
    have hsequence := checkSequence_sameRates (v.checkSource d.message d.source d.now).2
      (streamKey segment.streamId.bytes segment.trackId) segment.sequence
    have hrest := ih ⟨hsequence.1.trans hadmitted.1,hsequence.2.trans hadmitted.2⟩
      (tracks_checkSequence hkept segment.streamId.bytes segment.trackId segment.sequence) hlimit
    have haccept := checkSequence_accept hkept segment.streamId.bytes segment.trackId
      segment.sequence
    rw [← hvalidate] at hrest haccept
    have hresults : v.results (d::ds) = (v.validate d.message d.source d.now).1::
        (v.validate d.message d.source d.now).2.results ds := rfl
    rw [hresults,List.forall_mem_cons,hrest,haccept]
    rfl

end StreamDataValidator

section Published

open StreamDataValidator

variable (blake3 : Bytes → Digest)

theorem nodup_sequence {segments : List StreamSegment}
    (hsequence : segments.map (·.sequence) = (List.range segments.length).map UInt64.ofNat)
    (hlength : segments.length < 2^64) : (segments.map (·.sequence)).Nodup := by
  rw [hsequence]
  apply List.Nodup.map_on _ List.nodup_range
  intro i hi j hj hij
  have hi := List.mem_range.mp hi
  have hj := List.mem_range.mp hj
  have hvalue := congrArg UInt64.toNat hij
  rw [UInt64.toNat_ofNat',UInt64.toNat_ofNat'] at hvalue
  omega

theorem nodup_wireId {segments : List StreamSegment} (h : (segments.map (·.sequence)).Nodup) :
    (segments.map wireId).Nodup := by
  have hmap : segments.map (·.sequence) = (segments.map wireId).map Prod.snd := by
    simp [wireId,Function.comp_def]
  rw [hmap] at h
  exact h.of_map

theorem publishMedia_sublist (stop : Option Nat) (media : List StreamSegment) :
    (publishMedia stop media).Sublist media := by
  cases stop with
  | none => exact List.Sublist.refl _
  | some n => exact List.take_sublist n media

/-- Segments of other tracks than the one of the first message pass after it. -/
theorem passesAll_otherTrack {k : Bytes × UInt8} {n : UInt64} {l : List StreamSegment}
    (hnodup : (l.map wireId).Nodup) (hother : ∀ seg ∈ l, (wireId seg).1 ≠ k) :
    (LastSeen.empty.push (k,n)).PassesAll (l.map wireId) := by
  apply LastSeen.passesAll_of_nodup _ _ hnodup
  intro x hx
  obtain ⟨seg,hseg,rfl⟩ := List.mem_map.mp hx
  simp [LastSeen.push,LastSeen.empty,hother seg hseg]

/-- Segments with other numbers than 0 pass after the number 0. -/
theorem passesAll_after_zero {k : Bytes × UInt8} {n : UInt64} {l : List StreamSegment}
    (hnodup : (l.map wireId).Nodup) (hlater : ∀ seg ∈ l, seg.sequence ≠ 0) :
    ((LastSeen.empty.push (k,n)).push (k,0)).PassesAll (l.map wireId) := by
  apply LastSeen.passesAll_of_nodup _ _ hnodup
  intro x hx
  obtain ⟨seg,hseg,rfl⟩ := List.mem_map.mp hx
  by_cases hkey : (wireId seg).1 = k
  · have hlast : ((LastSeen.empty.push (k,n)).push (k,0)).last (wireId seg).1 = some 0 := by
      simp [LastSeen.push,hkey]
    rw [hlast]
    intro hzero
    exact hlater seg hseg (Option.some.inj hzero).symm
  · simp [LastSeen.push,LastSeen.empty,hkey]

variable {s s' : ParserState} {b : SegmentBuilder} {segments : List StreamSegment} {file : Bytes}

/-- What a call publishes passes, unless the number of the metadata is that of the initialization
segment on the same track. -/
theorem passesAll_published (stop : Option Nat) (nowUs : UInt64) (data : Sized UInt8)
    (hs : ParserState.new.parse file = .ok s)
    (hsegments : s.generateStreamSegments b.streamId = .ok (segments,s'))
    (hlength : segments.length < 2^64) :
    LastSeen.empty.PassesAll (((b.metadata nowUs data).1::segments.filter (·.isInit)++
        publishMedia stop (segments.filter (fun s => !s.isInit))).map wireId) ↔
      b.metaSequence ≠ 0 ∨ s.LacksInit := by
  obtain ⟨hids,hsequence⟩ := ParserState.generateStreamSegments_sequence hsegments
  obtain ⟨inits,media,rfl,hparts⟩ := ParserState.generateStreamSegments_initFirst hs hsegments
  have hnumbers := nodup_sequence hsequence hlength
  have hsublist := publishMedia_sublist stop media
  have hmeta : wireId (b.metadata nowUs data).1 = ((b.streamId.bytes,0),b.metaSequence) := rfl
  rw [hparts.filter_isInit,hparts.filter_isMedia]
  cases inits with
  | nil =>
    have hlacks := hparts.lacks.mp rfl
    have hnodup : ((publishMedia stop media).map wireId).Nodup :=
      nodup_wireId (hnumbers.sublist (hsublist.map _))
    have hlist : ((b.metadata nowUs data).1::[]++publishMedia stop media).map wireId =
        ((b.streamId.bytes,0),b.metaSequence)::(publishMedia stop media).map wireId := by
      simp [hmeta]
    rw [hlist]
    have hother : ∀ seg ∈ publishMedia stop media, (wireId seg).1 ≠ (b.streamId.bytes,0) := by
      intro seg hseg
      simp [wireId,hparts.onlyVideo hlacks seg (hsublist.subset hseg)]
    exact iff_of_true ⟨by simp [LastSeen.empty],passesAll_otherTrack hnodup hother⟩ (.inr hlacks)
  | cons init inits =>
    have hnil : inits = [] := by simpa using hparts.atMostOne
    subst hnil
    have hlacks : ¬ s.LacksInit := by simp [← hparts.lacks]
    have hfirst : init.sequence = 0 := by
      have hhead := congrArg List.head? hsequence
      simpa [List.range_succ_eq_map] using hhead
    have hinit : wireId init = ((b.streamId.bytes,0),0) := by
      simp [wireId,hids init (by simp),(hparts.isInit init (by simp)).2,hfirst]
    obtain ⟨hfresh,hrest⟩ := List.nodup_cons.mp hnumbers
    have hlater : ∀ seg ∈ publishMedia stop media, seg.sequence ≠ 0 := by
      intro seg hseg hzero
      exact hfresh (List.mem_map.mpr ⟨seg,hsublist.subset hseg,hzero.trans hfirst.symm⟩)
    have hpass := passesAll_after_zero (k := (b.streamId.bytes,0)) (n := b.metaSequence)
      (nodup_wireId (hrest.sublist (hsublist.map _))) hlater
    have hlist : ((b.metadata nowUs data).1::[init]++publishMedia stop media).map wireId =
        ((b.streamId.bytes,0),b.metaSequence)::((b.streamId.bytes,0),0)::
          (publishMedia stop media).map wireId := by
      simp [hmeta,hinit]
    rw [hlist]
    simp only [LastSeen.PassesAll,hpass,hlacks,or_false,and_true]
    simp [LastSeen.push,LastSeen.empty]

/-- A fresh validator accepts all that a publisher makes of a file exactly if metadata has been
published before, or if there is no initialization segment. -/
theorem published_accepted_iff (toVec : StreamMetadata → Sized UInt8) (b : SegmentBuilder)
    (fileName : Option String) (fileData : Bytes) (nowUs : UInt64) (stop : Option Nat)
    (maxMessagesPerSecond : Nat) (ds : List Delivery)
    (hok : (publishFromFile toVec b fileName fileData nowUs stop).result = .ok ())
    (hwraps : List.Forall₂ (Wraps blake3 b.streamId)
      (publishFromFile toVec b fileName fileData nowUs stop).published ds)
    (hlimit : (new maxMessagesPerSecond).WithinLimit ds) :
    (∀ r ∈ (new maxMessagesPerSecond).results ds, r = .accept) ↔
      b.metaSequence ≠ 0 ∨ ∃ s, ParserState.new.parse fileData = .ok s ∧ s.LacksInit := by
  have htracks : Tracks (new maxMessagesPerSecond) LastSeen.empty :=
    fun _ _ => by simp [new,LastSeen.empty]
  rw [results_accept_iff blake3 hwraps ⟨rfl,rfl⟩ htracks hlimit]
  unfold publishFromFile at hok ⊢
  cases hs : ParserState.new.parse fileData with
  | error e => simp [hs] at hok
  | ok s =>
    simp only [hs] at hok ⊢
    cases hsegments : s.generateStreamSegments b.streamId with
    | error e => simp [SegmentBuilder.metadata,hsegments] at hok
    | ok r =>
      obtain ⟨segments,s'⟩ := r
      have hstream : ∀ data, (b.metadata nowUs data).2.streamId = b.streamId := fun _ => rfl
      simp only [hstream,hsegments] at hok ⊢
      split_ifs at hok ⊢ with hempty hlong
      have hpassed := passesAll_published stop nowUs (toVec (streamMetadata fileName s.tracks)) hs
        hsegments (by omega)
      simpa using hpassed

section AvFile

/-- `serde_json::to_vec` on the metadata of the file. -/
def avMetadata : Bytes :=
  ("\x7b\"title\":\"av.mp4\",\"video_width\":1920,\"video_height\":1080,\"video_fps\":30,"++
    "\"audio_sample_rate\":48000,\"audio_channels\":2,\"video_codec\":\"H.264\","++
    "\"audio_codec\":\"AAC\"\x7d").toUTF8.toList

theorem avMetadata_fits : avMetadata.length < 2^64 := by decide +kernel

theorem avStreamId_fits : [(0x61 : UInt8)].length < 2^64 := by decide

def avBuilder : SegmentBuilder := .new ⟨[0x61]⟩ avStreamId_fits

def avPublication : Publication :=
  publishFromFile (fun _ => ⟨avMetadata,avMetadata_fits⟩) avBuilder (some "av.mp4")
    (RegularMp4.avFile 48000) 1000000 none

/-- A segment as it comes from the overlay. -/
def avDelivery (segment : StreamSegment) : Delivery where
  message := {
    topic := Delivery.streamData ⟨overlayStreamId ⟨[0x61]⟩⟩
    publisher := some "alice"
    payload := .binary (WireSegment.codec.encode (.ofSegment sampleHash segment))
    timestamp := 0
    ttl := 0
    headers := ∅ }
  source := none
  now := ⟨0,0⟩

theorem avDelivery_wraps (segments : List StreamSegment) :
    List.Forall₂ (Wraps sampleHash ⟨[0x61]⟩) segments (segments.map avDelivery) := by
  induction segments with
  | nil => exact .nil
  | cons segment segments ih => exact .cons ⟨rfl,_,rfl,rfl⟩ ih

theorem avFile_published_accepted_iff :
    (∀ r ∈ (new 100).results (avPublication.published.map avDelivery), r = .accept) ↔
      avBuilder.metaSequence ≠ 0 ∨
        ∃ s, ParserState.new.parse (RegularMp4.avFile 48000) = .ok s ∧ s.LacksInit :=
  published_accepted_iff sampleHash (fun _ => ⟨avMetadata,avMetadata_fits⟩) avBuilder (some "av.mp4")
    (RegularMp4.avFile 48000) 1000000 none 100 _ (by decide +kernel) (avDelivery_wraps _)
    (by decide +kernel)

/-- The initialization segment of the file is ignored as a duplicate of the metadata. -/
theorem avFile_init_ignored :
    avPublication.result = .ok () ∧
      (new 100).results (avPublication.published.map avDelivery) =
        [.accept,.ignore,.accept,.accept,.accept] := by
  decide +kernel

end AvFile

end Published

end OpenBroadcast.PubSub
