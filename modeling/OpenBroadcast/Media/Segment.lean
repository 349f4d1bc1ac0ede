import OpenBroadcast.Media.Fragments

namespace OpenBroadcast.Media

inductive MediaType where
  | video
  | audio
  | metadata
  | initialization
  deriving DecidableEq, Repr

namespace MediaType

def toU8 : MediaType → UInt8
  | video => 0
  | audio => 1
  | metadata => 2
  | initialization => 3

def fromU8 (value : UInt8) : Option MediaType :=
  if value = 0 then some video
  else if value = 1 then some audio
  else if value = 2 then some metadata
  else if value = 3 then some initialization
  else none

theorem fromU8_toU8 (t : MediaType) : fromU8 t.toU8 = some t := by
  cases t <;> rfl

theorem fromU8_eq_none_iff (value : UInt8) : fromU8 value = none ↔ 3 < value.toNat := by
  have hvalue : ∀ n : Nat, n < 256 → (value = UInt8.ofNat n ↔ value.toNat = n) := by
    intro n hn
    rw [← UInt8.toNat_inj,UInt8.toNat_ofNat',Nat.mod_eq_of_lt hn]
  unfold fromU8
  have h0 := hvalue 0 (by decide)
  have h1 := hvalue 1 (by decide)
  have h2 := hvalue 2 (by decide)
  have h3 := hvalue 3 (by decide)
  split_ifs with c0 c1 c2 c3
  · simp [h0.mp c0]
  · simp [h1.mp c1]
  · simp [h2.mp c2]
  · simp [h3.mp c3]
  · have n0 := mt h0.mpr c0
    have n1 := mt h1.mpr c1
    have n2 := mt h2.mpr c2
    have n3 := mt h3.mpr c3
    simp only [true_iff]
    omega

end MediaType

/-- A stream id is a byte string. -/
structure StreamId where
  bytes : Bytes
  deriving DecidableEq, Repr

/-- A segment of a stream. The lengths of its buffers are numbers of 64 bits. -/
structure StreamSegment where
  streamId : StreamId
  sequence : UInt64
  ptsUs : UInt64
  durationUs : UInt64
  mediaType : MediaType
  data : Bytes
  isKeyframe : Bool
  trackId : UInt8
  idLength : streamId.bytes.length < 2^64
  dataLength : data.length < 2^64
  deriving DecidableEq

namespace StreamSegment

def isInit (s : StreamSegment) : Bool := s.mediaType = .initialization

/-- The kind of a segment is told by the number of its track. -/
def mseMediaType (mse : MseSegment) : MediaType :=
  if mse.segmentType = .initialization then .initialization
  else if mse.trackId = 2 then .audio
  else .video

def fromMseSegment (mse : MseSegment) (streamId : StreamId) (sequence : Nat) :
    Except Mp4Error StreamSegment := do
  let pts ← checkedU64 (mse.timestamp.getD 0*1000)
  let duration ← checkedU64 (mse.duration.getD 0*1000)
  -- No buffer has 2^64 bytes or more.
  if h : streamId.bytes.length < 2^64 ∧ mse.data.length < 2^64 then
    return {
      streamId := streamId
      sequence := .ofNat sequence
      ptsUs := .ofNat pts
      durationUs := .ofNat duration
      mediaType := mseMediaType mse
      data := mse.data
      isKeyframe := mse.isKeyframe
      trackId := .ofNat mse.trackId
      idLength := h.1
      dataLength := h.2 }
  else .error .panic

end StreamSegment

end OpenBroadcast.Media
