import OpenBroadcast.Framework.Codec
import OpenBroadcast.Media.Segment

namespace OpenBroadcast.Media

/-- The errors of `bincode`. -/
abbrev BincodeError := DecodeError

/-- What `blake3::hash` returns. -/
abbrev Digest := { b : Bytes // b.length = 32 }

def wireFormatVersion : UInt8 := 2

structure WireSegment where
  version : UInt8
  streamId : Sized UInt8
  sequence : UInt64
  ptsUs : UInt64
  durationUs : UInt64
  mediaType : UInt8
  trackId : UInt8
  isKeyframe : Bool
  contentHash : Sized UInt8
  data : Sized UInt8
  deriving DecidableEq

structure WireSegmentBatch where
  version : UInt8
  segments : Sized WireSegment

section Hash

variable (blake3 : Bytes → Digest)

/-- The first 16 bytes of the hash. -/
def computeContentHash (data : Bytes) : Sized UInt8 :=
  ⟨(blake3 data).val.take 16,by rw [List.length_take,(blake3 data).property]; decide⟩

namespace WireSegment

def new (streamId : Sized UInt8) (sequence ptsUs durationUs : UInt64)
    (mediaType trackId : UInt8) (isKeyframe : Bool) (data : Sized UInt8) : WireSegment where
  version := wireFormatVersion
  streamId := streamId
  sequence := sequence
  ptsUs := ptsUs
  durationUs := durationUs
  mediaType := mediaType
  trackId := trackId
  isKeyframe := isKeyframe
  contentHash := computeContentHash blake3 data.val
  data := data

/-- The two conversions from a segment and from a reference to one do the same. -/
def ofSegment (s : StreamSegment) : WireSegment :=
  new blake3 ⟨s.streamId.bytes,s.idLength⟩ s.sequence s.ptsUs s.durationUs s.mediaType.toU8
    s.trackId s.isKeyframe ⟨s.data,s.dataLength⟩

def verifyIntegrity (w : WireSegment) : Bool :=
  w.contentHash == computeContentHash blake3 w.data.val

end WireSegment

end Hash

namespace WireSegment

/-- The fields in their order. -/
def codec : Codec WireSegment :=
  (Codec.byte.pair (Codec.byte.seq.pair (Codec.word.pair (Codec.word.pair (Codec.word.pair
    (Codec.byte.pair (Codec.byte.pair (Codec.bool.pair
      (Codec.byte.seq.pair Codec.byte.seq))))))))).via
    (fun f => ⟨f.1,f.2.1,f.2.2.1,f.2.2.2.1,f.2.2.2.2.1,f.2.2.2.2.2.1,f.2.2.2.2.2.2.1,
      f.2.2.2.2.2.2.2.1,f.2.2.2.2.2.2.2.2.1,f.2.2.2.2.2.2.2.2.2⟩)
    (fun w => (w.version,w.streamId,w.sequence,w.ptsUs,w.durationUs,w.mediaType,w.trackId,
      w.isKeyframe,w.contentHash,w.data))
    (fun _ => rfl)

def toBytes (w : WireSegment) : Except BincodeError Bytes := .ok (codec.encode w)

/-- Bytes behind the value are ignored. -/
def fromBytes (data : Bytes) : Except BincodeError WireSegment := (codec.decode data).map Prod.fst

def isCompatible (w : WireSegment) : Bool := w.version ≤ wireFormatVersion

def mediaTypeEnum (w : WireSegment) : Option MediaType := MediaType.fromU8 w.mediaType

/-- A type that is not known is taken for video. -/
def toSegment (w : WireSegment) : StreamSegment where
  streamId := ⟨w.streamId.val⟩
  sequence := w.sequence
  ptsUs := w.ptsUs
  durationUs := w.durationUs
  mediaType := w.mediaTypeEnum.getD .video
  data := w.data.val
  isKeyframe := w.isKeyframe
  trackId := w.trackId
  idLength := w.streamId.property
  dataLength := w.data.property

end WireSegment

namespace WireSegmentBatch

def new (segments : Sized WireSegment) : WireSegmentBatch := ⟨wireFormatVersion,segments⟩

def fromSegments (blake3 : Bytes → Digest) (segments : Sized StreamSegment) : WireSegmentBatch :=
  new ⟨segments.val.map (WireSegment.ofSegment blake3),
    by rw [List.length_map]; exact segments.property⟩

def codec : Codec WireSegmentBatch :=
  (Codec.byte.pair WireSegment.codec.seq).via (fun f => ⟨f.1,f.2⟩)
    (fun b => (b.version,b.segments)) (fun _ => rfl)

def toBytes (b : WireSegmentBatch) : Except BincodeError Bytes := .ok (codec.encode b)

def fromBytes (data : Bytes) : Except BincodeError WireSegmentBatch :=
  (codec.decode data).map Prod.fst

def intoSegments (b : WireSegmentBatch) : List StreamSegment :=
  b.segments.val.map WireSegment.toSegment

end WireSegmentBatch

section RoundTrip

/-- A whole message is read back. -/
theorem map_decode_encode {α : Type} (c : Codec α) (a : α) :
    (c.decode (c.encode a)).map Prod.fst = .ok a := by
  have h := c.decode_encode a []
  rw [List.append_nil] at h
  rw [h]
  rfl

variable (blake3 : Bytes → Digest)

theorem toSegment_ofSegment (s : StreamSegment) :
    (WireSegment.ofSegment blake3 s).toSegment = s := by
  have htype : (WireSegment.ofSegment blake3 s).mediaTypeEnum = some s.mediaType :=
    MediaType.fromU8_toU8 s.mediaType
  unfold WireSegment.toSegment
  rw [htype]
  rfl

theorem verifyIntegrity_ofSegment (s : StreamSegment) :
    (WireSegment.ofSegment blake3 s).verifyIntegrity blake3 = true :=
  beq_self_eq_true _

/-- Segments and batches of segments come back from the wire as they were. -/
theorem wire_round_trip :
    (∀ s : StreamSegment, ∃ bytes w, (WireSegment.ofSegment blake3 s).toBytes = .ok bytes ∧
      WireSegment.fromBytes bytes = .ok w ∧ w.toSegment = s ∧
      w.verifyIntegrity blake3 = true) ∧
    ∀ segments : Sized StreamSegment, ∃ bytes batch,
      (WireSegmentBatch.fromSegments blake3 segments).toBytes = .ok bytes ∧
      WireSegmentBatch.fromBytes bytes = .ok batch ∧ batch.intoSegments = segments.val := by
  constructor
  · intro s
    exact ⟨_,_,rfl,map_decode_encode _ _,toSegment_ofSegment blake3 s,
      verifyIntegrity_ofSegment blake3 s⟩
  · intro segments
    refine ⟨_,_,rfl,map_decode_encode _ _,?_⟩
    have hsame : WireSegment.toSegment ∘ WireSegment.ofSegment blake3 = id :=
      funext (toSegment_ofSegment blake3)
    unfold WireSegmentBatch.intoSegments WireSegmentBatch.fromSegments WireSegmentBatch.new
    rw [List.map_map,hsame,List.map_id]

end RoundTrip

end OpenBroadcast.Media
