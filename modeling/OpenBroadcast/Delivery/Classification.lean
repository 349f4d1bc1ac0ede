import OpenBroadcast.Delivery.Gossip

namespace OpenBroadcast

open Media

variable {PeerId : Type}

namespace Media.MediaType

/-- The kinds of content by the short names that a chunk may carry. -/
def ofContentType (contentType : String) : MediaType :=
  if contentType = "video" then .video
  else if contentType = "audio" then .audio
  else if contentType = "metadata" ∨ contentType = "meta" then .metadata
  else if contentType = "init" ∨ contentType = "initialization" then .initialization
  else .video

end Media.MediaType

/-- `From<StreamChunk>`, and that from a reference to one. The time is taken for milliseconds. -/
def Media.StreamSegment.fromChunk (chunk : Relay.StreamChunk PeerId) :
    Except Mp4Error StreamSegment := do
  let pts ← checkedU64 (chunk.timestamp*1000)
  let mediaType := MediaType.ofContentType chunk.contentType
  -- No buffer has 2^64 bytes or more.
  if h : chunk.streamId.bytes.length < 2^64 ∧ chunk.data.length < 2^64 then
    return {
      streamId := ⟨chunk.streamId.bytes⟩
      sequence := .ofNat chunk.sequence
      ptsUs := .ofNat pts
      durationUs := 0
      mediaType := mediaType
      data := chunk.data
      isKeyframe := chunk.isKeyframe
      trackId := if mediaType = .video then 1 else if mediaType = .audio then 2 else 0
      idLength := h.1
      dataLength := h.2 }
  else .error .panic

namespace Delivery

section Vocabularies

theorem contentType_not_init (t : MediaType) :
    contentType (some t) ≠ "init" ∧ contentType (some t) ≠ "initialization" := by
  cases t <;> decide

/-- The names that the overlay gives to the kinds are none of those of a segment. -/
theorem ofContentType_contentType (t : MediaType) :
    MediaType.ofContentType (contentType (some t)) = .video := by
  cases t <;> rfl

theorem isInit_contentType {chunk : Relay.StreamChunk PeerId} {t : MediaType}
    (h : chunk.contentType = contentType (some t)) : Relay.StreamRelay.isInit chunk = false := by
  have hnone := contentType_not_init t
  unfold Relay.StreamRelay.isInit
  rw [h]
  simp [hnone.1,hnone.2]

/-- Initialization segments pass for video too. -/
theorem isVideo_contentType {chunk : Relay.StreamChunk PeerId} {t : MediaType}
    (h : chunk.contentType = contentType (some t)) :
    Relay.StreamRelay.isVideo chunk = true ↔ t = .video ∨ t = .initialization := by
  unfold Relay.StreamRelay.isVideo
  rw [h]
  cases t <;> decide

end Vocabularies

/-- The chunk that `handle_gossipsub_event` makes of a message and passes to `publish_chunk`. -/
def gossipChunk (blake3 : Bytes → Digest) (c : Circumstances) (m : GossipMessage PeerId) :
    Option (Relay.StreamChunk PeerId) :=
  match parseStreamId m.topic with
  | some streamId => if endsWithData m.topic then dataChunk blake3 c streamId m else none
  | none => none

section Chunk

variable {blake3 : Bytes → Digest} {c : Circumstances} {m : GossipMessage PeerId}
    {streamId : Relay.StreamId} {wire : WireSegment}

theorem gossipChunk_streamData (htopic : m.topic = streamData streamId)
    (hwire : WireSegment.fromBytes m.data = .ok wire) (hintact : wire.verifyIntegrity blake3 = true) :
    gossipChunk blake3 c m = some ⟨wire.sequence.toNat,streamId,m.data,wire.ptsUs.toNat/1000,
      wire.sequence.toNat,contentType wire.mediaTypeEnum,wire.isKeyframe,
      some m.propagationSource⟩ := by
  have hends : endsWithData m.topic = true := by
    rw [htopic]
    exact endsWithData_streamData streamId
  have hparse : parseStreamId m.topic = some streamId := by
    rw [htopic]
    exact parseStreamId_streamData streamId
  unfold gossipChunk dataChunk
  rw [hparse,hwire]
  simp [hends,hintact]

theorem publishChunk_ok_iff (c : Circumstances) (chunk : Relay.StreamChunk PeerId) :
    publishChunk c chunk = .ok () ↔
      chunk.data.length ≤ c.relayConfig.maxChunkSize ∧ c.chunkChannel = .present := by
  unfold publishChunk
  split_ifs with hsize
  · constructor
    · nofun
    · rintro ⟨hle,_⟩
      exact absurd hsize (Nat.not_lt.mpr hle)
  · have hle : chunk.data.length ≤ c.relayConfig.maxChunkSize := Nat.not_lt.mp hsize
    cases c.chunkChannel <;> simp [hle]

theorem fromChunk_mediaType {chunk : Relay.StreamChunk PeerId}
    (htime : chunk.timestamp*1000 < 2^64) (hid : chunk.streamId.bytes.length < 2^64)
    (hdata : chunk.data.length < 2^64) :
    (StreamSegment.fromChunk chunk).map StreamSegment.mediaType =
      .ok (MediaType.ofContentType chunk.contentType) := by
  unfold StreamSegment.fromChunk checkedU64
  rw [if_pos htime]
  dsimp only [bind,Except.bind]
  rw [dif_pos ⟨hid,hdata⟩]
  rfl

end Chunk

section Agreement

/-- The relay and the segment made of a chunk take it for what it is: an initialization segment is
kept as such, keyframes of video are kept, and the segment has the type. -/
structure Agrees (t : MediaType) (chunk : Relay.StreamChunk PeerId)
    (before after : Relay.StreamRelay PeerId) : Prop where
  init : after.initSegment = if t = .initialization then some chunk else before.initSegment
  keyframe : after.keyframeBuffer = if t = .video ∧ chunk.isKeyframe then
      Relay.StreamRelay.trim before.maxKeyframes (before.keyframeBuffer++[chunk])
    else before.keyframeBuffer
  segment : (StreamSegment.fromChunk chunk).map StreamSegment.mediaType = .ok t

theorem addChunk_agrees {t : MediaType} {chunk : Relay.StreamChunk PeerId}
    (hname : chunk.contentType = contentType (some t)) (htime : chunk.timestamp*1000 < 2^64)
    (hid : chunk.streamId.bytes.length < 2^64) (hdata : chunk.data.length < 2^64)
    (relay : Relay.StreamRelay PeerId) (maxBufferSize now : Nat) :
    Agrees t chunk relay (relay.addChunk chunk maxBufferSize now) ↔ t = .video := by
  have hsegment := fromChunk_mediaType htime hid hdata
  rw [hname,ofContentType_contentType] at hsegment
  constructor
  · intro h
    have hsame := hsegment.symm.trans h.segment
    injection hsame with htype
    exact htype.symm
  · intro h
    have hinit := isInit_contentType hname
    have hvideo := (isVideo_contentType hname).mpr (.inl h)
    subst h
    refine ⟨?_,?_,hsegment⟩
    · unfold Relay.StreamRelay.addChunk
      cases hkey : chunk.isKeyframe <;> simp [hinit,hvideo]
    · unfold Relay.StreamRelay.addChunk
      cases hkey : chunk.isKeyframe <;> simp [hinit,hvideo]

/-- Of the intact segments of a known type that come on the data topic of a registered stream, the
overlay, the relay and the conversion back to a segment agree on those of video that the relay node
takes, and on no others. -/
theorem classification_agrees_iff [DecidableEq PeerId] {blake3 : Bytes → Digest} (c : Circumstances)
    (order : HashOrder Unit PeerId) (node : Relay.RelayNode PeerId) (now : Nat)
    {m : GossipMessage PeerId} {streamId : Relay.StreamId} {wire : WireSegment} {t : MediaType}
    {relay : Relay.StreamRelay PeerId} (htopic : m.topic = streamData streamId)
    (hwire : WireSegment.fromBytes m.data = .ok wire) (hintact : wire.verifyIntegrity blake3 = true)
    (htype : wire.mediaTypeEnum = some t) (hrelay : node.streams.lookup streamId = some relay)
    (hid : streamId.bytes.length < 2^64) (hdata : m.data.length < 2^64) :
    (∃ chunk after, gossipChunk blake3 c m = some chunk ∧ chunk.isKeyframe = wire.isKeyframe ∧
      publishChunk c chunk = .ok () ∧
      (node.bufferChunk order chunk now).1.streams.lookup streamId = some after ∧
      Agrees t chunk relay after) ↔
    t = .video ∧ m.data.length ≤ c.relayConfig.maxChunkSize ∧ c.chunkChannel = .present := by
  have hchunk := gossipChunk_streamData (c := c) htopic hwire hintact
  rw [htype] at hchunk
  generalize hmade : (⟨wire.sequence.toNat,streamId,m.data,wire.ptsUs.toNat/1000,
    wire.sequence.toNat,contentType (some t),wire.isKeyframe,some m.propagationSource⟩ :
    Relay.StreamChunk PeerId) = made at hchunk
  have hpts : wire.ptsUs.toNat < 2^64 := wire.ptsUs.toNat_lt
  have hafter : (node.bufferChunk order made now).1.streams.lookup streamId =
      some (relay.addChunk made node.config.maxBufferSize now) := by
    subst hmade
    unfold Relay.RelayNode.bufferChunk
    rw [hrelay]
    dsimp only
    split_ifs <;> exact Finmap.lookup_insert _
  have hagrees : Agrees t made relay (relay.addChunk made node.config.maxBufferSize now) ↔
      t = .video := by
    subst hmade
    apply addChunk_agrees rfl _ hid hdata
    show wire.ptsUs.toNat/1000*1000 < 2^64
    omega
  have htaken : publishChunk c made = .ok () ↔
      m.data.length ≤ c.relayConfig.maxChunkSize ∧ c.chunkChannel = .present := by
    subst hmade
    exact publishChunk_ok_iff c _
  rw [← hagrees,← htaken]
  constructor
  · rintro ⟨chunk,after,hsome,_,hpublish,hlookup,h⟩
    rw [hchunk] at hsome
    cases hsome
    rw [hafter] at hlookup
    cases hlookup
    exact ⟨h,hpublish⟩
  · rintro ⟨h,hpublish⟩
    refine ⟨made,_,hchunk,?_,hpublish,hafter,h⟩
    subst hmade
    rfl

section Samples

theorem sampleId_short : ([1] : Bytes).length < 2^64 := by decide

theorem sampleData_short : ([9] : Bytes).length < 2^64 := by decide

def sampleSegment (t : MediaType) : StreamSegment :=
  ⟨⟨[1]⟩,0,0,0,t,[9],true,1,sampleId_short,sampleData_short⟩

def sampleDigest : Bytes → Digest := fun _ => ⟨List.replicate 32 0,List.length_replicate⟩

def sampleWire (t : MediaType) : WireSegment := WireSegment.ofSegment sampleDigest (sampleSegment t)

def sampleMessage (t : MediaType) : GossipMessage Nat :=
  ⟨streamData ⟨[1]⟩,WireSegment.codec.encode (sampleWire t),5⟩

theorem sampleMessage_wire (t : MediaType) :
    WireSegment.fromBytes (sampleMessage t).data = .ok (sampleWire t) :=
  map_decode_encode _ _

def sampleRelay : Relay.StreamRelay Nat := .new ⟨[1]⟩ 5 0

def sampleNode : Relay.RelayNode Nat :=
  { Relay.RelayNode.start 0 .default true 0 with streams := Finmap.singleton ⟨[1]⟩ sampleRelay }

def sampleCircumstances : Circumstances := ⟨0,.default,.present,false,fun b => ⟨b⟩⟩

/-- A keyframe of video. -/
theorem classification_agrees_video :
    ∃ chunk after, gossipChunk sampleDigest sampleCircumstances (sampleMessage .video) = some chunk ∧
      chunk.isKeyframe = (sampleWire .video).isKeyframe ∧
      publishChunk sampleCircumstances chunk = .ok () ∧
      (sampleNode.bufferChunk .ascending chunk 0).1.streams.lookup ⟨[1]⟩ = some after ∧
      Agrees .video chunk sampleRelay after :=
  (classification_agrees_iff sampleCircumstances .ascending sampleNode 0 rfl
    (sampleMessage_wire .video) (verifyIntegrity_ofSegment _ _) rfl (Finmap.lookup_singleton_eq)
    (by decide) (by decide)).mpr ⟨rfl,by decide,rfl⟩

/-- An initialization segment is put among the keyframes, not kept as what it is, and passes for
video. -/
theorem initialization_misclassified :
    gossipChunk sampleDigest sampleCircumstances (sampleMessage .initialization) =
      some ⟨0,⟨[1]⟩,(sampleMessage .initialization).data,0,0,"video/mp4",true,some 5⟩ ∧
    ∀ chunk, gossipChunk sampleDigest sampleCircumstances (sampleMessage .initialization) =
        some chunk →
      publishChunk sampleCircumstances chunk = .ok () ∧
      (sampleRelay.addChunk chunk 100 0).initSegment = none ∧
      (sampleRelay.addChunk chunk 100 0).keyframeBuffer = [chunk] ∧
      (StreamSegment.fromChunk chunk).map StreamSegment.mediaType = .ok .video ∧
      ¬ Agrees .initialization chunk sampleRelay (sampleRelay.addChunk chunk 100 0) := by
  have hchunk : gossipChunk sampleDigest sampleCircumstances (sampleMessage .initialization) =
      some ⟨0,⟨[1]⟩,(sampleMessage .initialization).data,0,0,"video/mp4",true,some 5⟩ :=
    gossipChunk_streamData rfl (sampleMessage_wire .initialization) (verifyIntegrity_ofSegment _ _)
  refine ⟨hchunk,?_⟩
  intro chunk hsome
  rw [hchunk] at hsome
  cases hsome
  have hpublish : publishChunk sampleCircumstances (⟨0,⟨[1]⟩,(sampleMessage .initialization).data,
      0,0,"video/mp4",true,some 5⟩ : Relay.StreamChunk Nat) = .ok () :=
    (publishChunk_ok_iff _ _).mpr ⟨by decide,rfl⟩
  refine ⟨hpublish,rfl,rfl,rfl,?_⟩
  intro h
  have hinit := h.init
  cases hinit

end Samples

end Agreement

end Delivery

end OpenBroadcast
