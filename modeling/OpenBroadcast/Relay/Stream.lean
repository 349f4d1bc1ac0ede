import OpenBroadcast.Framework.Collections

namespace OpenBroadcast.Relay

/-- A stream id is a byte string. -/
structure StreamId where
  bytes : List UInt8
  deriving DecidableEq, Repr

namespace StreamId

def hexDigit (n : Nat) : Char :=
  if n < 10 then Char.ofNat (48+n) else Char.ofNat (87+n)

/-- Shown as text if it is UTF-8, else in hexadecimal. -/
def display (s : StreamId) : String :=
  match String.fromUTF8? ⟨s.bytes.toArray⟩ with
  | some text => text
  | none => String.ofList
    (s.bytes.flatMap (fun b => [hexDigit (b.toNat/16),hexDigit (b.toNat%16)]))

end StreamId

structure StreamChunk (PeerId : Type) where
  id : Nat
  streamId : StreamId
  data : List UInt8
  timestamp : Nat
  sequence : Nat
  contentType : String
  isKeyframe : Bool
  source : Option PeerId
  deriving DecidableEq

def defaultKeyframeBufferSize : Nat := 3

/-- The relay of one stream, with what it keeps for late joiners. Deques are lists with
their front first, and times are readings of one clock. -/
structure StreamRelay (PeerId : Type) where
  streamId : StreamId
  publisher : PeerId
  subscribers : Finset PeerId
  buffer : List (StreamChunk PeerId)
  lastActivity : Nat
  lastSequence : Nat
  initSegment : Option (StreamChunk PeerId)
  keyframeBuffer : List (StreamChunk PeerId)
  maxKeyframes : Nat

namespace StreamRelay

variable {PeerId : Type} [DecidableEq PeerId]

def withKeyframeBufferSize (streamId : StreamId) (publisher : PeerId) (maxKeyframes now : Nat) :
    StreamRelay PeerId :=
  ⟨streamId,publisher,∅,[],now,0,none,[],maxKeyframes⟩

def new (streamId : StreamId) (publisher : PeerId) (now : Nat) : StreamRelay PeerId :=
  withKeyframeBufferSize streamId publisher defaultKeyframeBufferSize now

/-- `while buffer.len() > max { buffer.pop_front(); }`. -/
def trim {α : Type} (max : Nat) (l : List α) : List α := l.drop (l.length-max)

def isInit (chunk : StreamChunk PeerId) : Bool :=
  chunk.contentType = "init" || chunk.contentType = "initialization"

def isVideo (chunk : StreamChunk PeerId) : Bool :=
  chunk.contentType = "video" || "video/".toList.isPrefixOf chunk.contentType.toList

def addChunk (s : StreamRelay PeerId) (chunk : StreamChunk PeerId) (maxBufferSize now : Nat) :
    StreamRelay PeerId :=
  let s := { s with
    lastActivity := now
    lastSequence := if chunk.sequence > s.lastSequence then chunk.sequence else s.lastSequence }
  let s :=
    if isInit chunk then { s with initSegment := some chunk }
    else if chunk.isKeyframe && isVideo chunk then
      { s with keyframeBuffer := trim s.maxKeyframes (s.keyframeBuffer++[chunk]) }
    else s
  { s with buffer := trim maxBufferSize (s.buffer++[chunk]) }

def getCatchupChunks (s : StreamRelay PeerId) : List (StreamChunk PeerId) :=
  s.initSegment.toList++
    (match s.keyframeBuffer.getLast? with
    | some keyframe => keyframe::s.buffer.filter (fun c => c.sequence > keyframe.sequence)
    | none => [])

def addSubscriber (s : StreamRelay PeerId) (p : PeerId) : StreamRelay PeerId × Bool :=
  ({ s with subscribers := insert p s.subscribers },decide (p ∉ s.subscribers))

def removeSubscriber (s : StreamRelay PeerId) (p : PeerId) : StreamRelay PeerId × Bool :=
  ({ s with subscribers := s.subscribers.erase p },decide (p ∈ s.subscribers))

def isInactive (s : StreamRelay PeerId) (timeout now : Nat) : Bool :=
  now-s.lastActivity > timeout

def getChunksSince (s : StreamRelay PeerId) (sequence : Nat) : List (StreamChunk PeerId) :=
  s.buffer.filter (fun c => c.sequence > sequence)

end StreamRelay

end OpenBroadcast.Relay
