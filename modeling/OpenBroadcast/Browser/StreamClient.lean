import OpenBroadcast.Framework.Collections
import OpenBroadcast.Framework.InsertionOrder

namespace OpenBroadcast.Browser

/-- What the client does with a buffer: it measures it, cuts it into slices and joins slices. -/
class ArrayBuffer (β : Type) where
  byteLength : β → Nat
  slice : β → Nat → Nat → β
  assembleChunks : List β → β
  assemble_slices : ∀ (n : Nat) (b : β), 0 < n → 0 < byteLength b →
    assembleChunks ((List.range ((byteLength b+n-1)/n)).map
      (fun i => slice b (i*n) (min (i*n+n) (byteLength b)))) = b

open ArrayBuffer

def maxChunkSize : Nat := 16000

def maxSegmentQueueSize : Nat := 30

def maxSeenSequences : Nat := 500

def maxRelayTTL : Int := 3

/-- A header is `typed` if it has the type `segment_header`, as those that a client creates; those
that it keeps of what it has received have no type. -/
structure SegmentHeader (PeerId : Type) where
  typed : Bool
  segmentType : String
  sequence : Int
  size : Nat
  isKeyframe : Bool
  timestamp : Nat
  ttl : Option Int
  fromPeer : Option PeerId
  deriving DecidableEq

/-- The JSON messages between peers. -/
inductive ControlMessage (PeerId ι : Type) where
  | chunkStart (size : Nat)
  | chunkEnd
  | streamInfo (data : ι)
  | header (h : SegmentHeader PeerId)
  | requestInit
  deriving DecidableEq

inductive Frame (PeerId ι β : Type) where
  | text (m : ControlMessage PeerId ι)
  | binary (data : β)
  deriving DecidableEq

/-- What a client sends at once. -/
inductive Item (PeerId ι β : Type) where
  | streamInfo (data : ι)
  | requestInit
  | segment (h : SegmentHeader PeerId) (buffer : β)
  deriving DecidableEq

structure ChunkState (β : Type) where
  chunks : List β
  totalSize : Nat
  expectedSize : Nat
  deriving DecidableEq

/-- Keys are equal if they have the same stream and sequence, as the strings are. -/
structure DedupKey where
  streamId : String
  sequence : Int
  deriving DecidableEq

/-- What a client does to the outside. `received` is a call of `processReceivedSegment` with the
header that it finds, which goes to `onSegmentReceived` or `onStreamData`. -/
inductive ClientEffect (PeerId ι β : Type) where
  | send (peer : PeerId) (item : Item PeerId ι β)
  | streamInfo (data : ι)
  | received (peer : PeerId) (header : Option (SegmentHeader PeerId)) (buffer : β)
  | relayReady
  deriving DecidableEq

/-- The streaming part of a `WebRtcStreamClient`. A data channel is mapped to whether it is open. -/
structure StreamClient (PeerId ι β : Type) where
  streamId : String
  isPublisher : Bool
  dataChannels : InsertionMap PeerId Bool
  incomingChunks : HashMap PeerId (ChunkState β)
  cachedStreamInfo : Option ι
  cachedInitSegment : Option β
  cachedKeyframe : Option (SegmentHeader PeerId × β)
  segmentQueue : List (SegmentHeader PeerId × β)
  segmentSequence : Nat
  pendingSegmentHeader : HashMap PeerId (SegmentHeader PeerId)
  canRelay : Bool
  seenSequences : List DedupKey

section Frames

variable {PeerId ι β : Type} [ArrayBuffer β]

def sendChunked (buffer : β) : List (Frame PeerId ι β) :=
  let numChunks := (byteLength buffer+maxChunkSize-1)/maxChunkSize
  [.text (.chunkStart (byteLength buffer))]++
  (List.range numChunks).map (fun i =>
    let start := i*maxChunkSize
    .binary (slice buffer start (min (start+maxChunkSize) (byteLength buffer))))++
  [.text .chunkEnd]

def sendSegmentToPeer (h : SegmentHeader PeerId) (buffer : β) : List (Frame PeerId ι β) :=
  .text (.header h)::
    if maxChunkSize < byteLength buffer then sendChunked buffer else [.binary buffer]

def Item.frames : Item PeerId ι β → List (Frame PeerId ι β)
  | .streamInfo data => [.text (.streamInfo data)]
  | .requestInit => [.text .requestInit]
  | .segment h buffer => sendSegmentToPeer h buffer

end Frames

/-- `initialization` or `init_video`. -/
def isInitType (segmentType : String) : Bool :=
  segmentType == "initialization" || segmentType == "init_video"

namespace SegmentHeader

variable {PeerId : Type}

/-- What is kept of a header from `peer` until its segment comes. -/
def pending (h : SegmentHeader PeerId) (peer : PeerId) : SegmentHeader PeerId :=
  { h with typed := false, ttl := some (h.ttl.getD maxRelayTTL), fromPeer := some peer }

def relayHeader (h : SegmentHeader PeerId) (size : Nat) (ttl : Int) : SegmentHeader PeerId where
  typed := true
  segmentType := h.segmentType
  sequence := h.sequence
  size := size
  isKeyframe := h.isKeyframe
  timestamp := h.timestamp
  ttl := some ttl
  fromPeer := none

end SegmentHeader

namespace StreamClient

variable {PeerId ι β : Type} [DecidableEq PeerId] [ArrayBuffer β]

omit [DecidableEq PeerId] [ArrayBuffer β] in
def new (streamId : String) (isPublisher : Bool) : StreamClient PeerId ι β where
  streamId := streamId
  isPublisher := isPublisher
  dataChannels := .empty
  incomingChunks := ∅
  cachedStreamInfo := none
  cachedInitSegment := none
  cachedKeyframe := none
  segmentQueue := []
  segmentSequence := 0
  pendingSegmentHeader := ∅
  canRelay := false
  seenSequences := []

/-- The peers whose channels are open, in the order of the channels. -/
def openPeers (c : StreamClient PeerId ι β) : List PeerId :=
  (c.dataChannels.entries.filter (fun e => e.2)).map Prod.fst

def checkRelayReady (c : StreamClient PeerId ι β) :
    StreamClient PeerId ι β × List (ClientEffect PeerId ι β) :=
  if !c.isPublisher && !c.canRelay && c.cachedStreamInfo.isSome && c.cachedInitSegment.isSome then
    ({ c with canRelay := true },[.relayReady])
  else (c,[])

/-- The oldest keys go when there are too many. -/
def addSeenSequence (c : StreamClient PeerId ι β) (key : DedupKey) : StreamClient PeerId ι β :=
  let seen := if key ∈ c.seenSequences then c.seenSequences else c.seenSequences++[key]
  { c with seenSequences := seen.rtake maxSeenSequences }

def pushSegment (c : StreamClient PeerId ι β) (h : SegmentHeader PeerId) (buffer : β) :
    StreamClient PeerId ι β :=
  { c with segmentQueue := (c.segmentQueue++[(h,buffer)]).rtake maxSegmentQueueSize }

def relaySegmentToPeers (c : StreamClient PeerId ι β) (h : SegmentHeader PeerId) (buffer : β)
    (fromPeer : PeerId) : List (ClientEffect PeerId ι β) :=
  let ttl := h.ttl.getD maxRelayTTL-1
  if ttl ≤ 0 then []
  else
    (c.openPeers.filter (fun peer => peer ≠ fromPeer)).map
      (fun peer => .send peer (.segment (h.relayHeader (byteLength buffer) ttl) buffer))

/-- The first part of `processReceivedSegment`: init segments and keyframes are cached. -/
def cacheReceived (c : StreamClient PeerId ι β) (h : SegmentHeader PeerId) (buffer : β) :
    StreamClient PeerId ι β × List (ClientEffect PeerId ι β) :=
  let (c,ready) :=
    if isInitType h.segmentType then
      { c with cachedInitSegment := some buffer }.checkRelayReady
    else (c,[])
  if h.isKeyframe then ({ c with cachedKeyframe := some (h,buffer) },ready) else (c,ready)

def dedupKey (c : StreamClient PeerId ι β) (h : SegmentHeader PeerId) : DedupKey :=
  ⟨c.streamId,h.sequence⟩

/-- Whether a segment that was received gets past the check for duplicates. -/
def relays (c : StreamClient PeerId ι β) (h : SegmentHeader PeerId) : Bool :=
  c.canRelay && !c.isPublisher && decide (c.dedupKey h ∉ c.seenSequences) &&
    decide (0 < h.ttl.getD maxRelayTTL)

/-- The last part of `processReceivedSegment`. -/
def relayReceived (c : StreamClient PeerId ι β) (h : SegmentHeader PeerId) (buffer : β)
    (peer : PeerId) : StreamClient PeerId ι β × List (ClientEffect PeerId ι β) :=
  if c.relays h then
    let c := (c.addSeenSequence (c.dedupKey h)).pushSegment h buffer
    (c,c.relaySegmentToPeers h buffer peer)
  else (c,[])

def takeHeader (c : StreamClient PeerId ι β) (peer : PeerId) : StreamClient PeerId ι β :=
  { c with pendingSegmentHeader := c.pendingSegmentHeader.erase peer }

def processReceivedSegment (c : StreamClient PeerId ι β) (peer : PeerId) (buffer : β) :
    StreamClient PeerId ι β × List (ClientEffect PeerId ι β) :=
  let header := c.pendingSegmentHeader.lookup peer
  let c := c.takeHeader peer
  match header with
  | some h =>
    let (c,ready) := c.cacheReceived h buffer
    let (c,relayed) := c.relayReceived h buffer peer
    (c,ready++.received peer header buffer::relayed)
  | none => (c,[.received peer header buffer])

section Received

variable {c : StreamClient PeerId ι β} {peer : PeerId} {h : SegmentHeader PeerId}

theorem processReceivedSegment_none (hheader : c.pendingSegmentHeader.lookup peer = none)
    (buffer : β) : c.processReceivedSegment peer buffer =
      (c.takeHeader peer,[.received peer none buffer]) := by
  simp [processReceivedSegment,hheader]

theorem processReceivedSegment_some (hheader : c.pendingSegmentHeader.lookup peer = some h)
    (buffer : β) : c.processReceivedSegment peer buffer =
      ((((c.takeHeader peer).cacheReceived h buffer).1.relayReceived h buffer peer).1,
        ((c.takeHeader peer).cacheReceived h buffer).2++.received peer (some h) buffer::
          (((c.takeHeader peer).cacheReceived h buffer).1.relayReceived h buffer peer).2) := by
  simp [processReceivedSegment,hheader]

end Received

/-- The header that `forwardSegmentToPeers` creates. -/
def createHeader (c : StreamClient PeerId ι β) (buffer : β) (chunkType : String)
    (isKeyframe : Bool) (now : Nat) : SegmentHeader PeerId where
  typed := true
  segmentType := chunkType
  sequence := c.segmentSequence
  size := byteLength buffer
  isKeyframe := isKeyframe
  timestamp := now
  ttl := some maxRelayTTL
  fromPeer := none

def forwardSegmentToPeers (c : StreamClient PeerId ι β) (buffer : β) (chunkType : String)
    (isKeyframe : Bool) (now : Nat) : StreamClient PeerId ι β × List (ClientEffect PeerId ι β) :=
  if !c.isPublisher && !c.canRelay then (c,[])
  else
    let header := c.createHeader buffer chunkType isKeyframe now
    let c := { c with segmentSequence := c.segmentSequence+1 }
    let c := if isInitType chunkType then { c with cachedInitSegment := some buffer } else c
    let c := if isKeyframe then { c with cachedKeyframe := some (header,buffer) } else c
    let c := c.pushSegment header buffer
    (c,c.openPeers.map (fun peer => .send peer (.segment header buffer)))

/-- The init segment is sent under a header of its own, without a `ttl`. -/
def initHeader (buffer : β) (now : Nat) : SegmentHeader PeerId where
  typed := true
  segmentType := "initialization"
  sequence := -1
  size := byteLength buffer
  isKeyframe := false
  timestamp := now
  ttl := none
  fromPeer := none

/-- The segments of the queue that come after the keyframe. -/
def laterSegments (c : StreamClient PeerId ι β) : List (SegmentHeader PeerId × β) :=
  match c.cachedKeyframe with
  | some (k,_) => c.segmentQueue.filter (fun seg => seg.1.sequence > k.sequence)
  | none => []

/-- The items that `sendCachedDataToPeer` sends, for a publisher or a relayer. -/
def cachedItems (c : StreamClient PeerId ι β) (now : Nat) : List (Item PeerId ι β) :=
  (c.cachedStreamInfo.map Item.streamInfo).toList++
  (c.cachedInitSegment.map (fun b => .segment (initHeader b now) b)).toList++
  (c.cachedKeyframe.toList++c.laterSegments).map (fun seg => .segment seg.1 seg.2)

def sendCachedDataToPeer (c : StreamClient PeerId ι β) (peer : PeerId) (now : Nat) :
    List (ClientEffect PeerId ι β) :=
  if !c.isPublisher && !c.canRelay then []
  else (c.cachedItems now).map (ClientEffect.send peer)

def handleControlMessage (c : StreamClient PeerId ι β) (peer : PeerId)
    (m : ControlMessage PeerId ι) (now : Nat) :
    StreamClient PeerId ι β × List (ClientEffect PeerId ι β) :=
  match m with
  | .chunkStart size =>
    ({ c with incomingChunks := c.incomingChunks.insert peer ⟨[],0,size⟩ },[])
  | .chunkEnd =>
    match c.incomingChunks.lookup peer with
    | some state =>
      let assembled := assembleChunks state.chunks
      { c with incomingChunks := c.incomingChunks.erase peer }.processReceivedSegment peer assembled
    | none => (c,[])
  | .streamInfo data =>
    let (c,ready) := { c with cachedStreamInfo := some data }.checkRelayReady
    (c,.streamInfo data::ready)
  | .header h =>
    if h.typed then
      ({ c with pendingSegmentHeader := c.pendingSegmentHeader.insert peer (h.pending peer) },[])
    else (c,[])
  | .requestInit =>
    if c.dataChannels.get peer = some true then (c,c.sendCachedDataToPeer peer now) else (c,[])

def handleDataChannelMessage (c : StreamClient PeerId ι β) (peer : PeerId)
    (data : Frame PeerId ι β) (now : Nat) :
    StreamClient PeerId ι β × List (ClientEffect PeerId ι β) :=
  match data with
  | .text m => c.handleControlMessage peer m now
  | .binary data =>
    match c.incomingChunks.lookup peer with
    | some state =>
      let state := ⟨state.chunks++[data],state.totalSize+byteLength data,state.expectedSize⟩
      ({ c with incomingChunks := c.incomingChunks.insert peer state },[])
    | none => c.processReceivedSegment peer data

/-- The `onopen` of a data channel. -/
def channelOpened (c : StreamClient PeerId ι β) (peer : PeerId) (now : Nat) :
    StreamClient PeerId ι β × List (ClientEffect PeerId ι β) :=
  let c := { c with dataChannels := c.dataChannels.set peer true }
  let cached :=
    if (c.isPublisher || c.canRelay) && c.cachedStreamInfo.isSome then
      c.sendCachedDataToPeer peer now
    else []
  let request := if !c.isPublisher && !c.canRelay then [.send peer .requestInit] else []
  (c,cached++request)

/-- The `onclose` of a data channel. -/
def channelClosed (c : StreamClient PeerId ι β) (peer : PeerId) : StreamClient PeerId ι β :=
  { c with
    dataChannels := c.dataChannels.delete peer
    pendingSegmentHeader := c.pendingSegmentHeader.erase peer }

def closePeerConnection (c : StreamClient PeerId ι β) (peer : PeerId) : StreamClient PeerId ι β :=
  { c with
    dataChannels := c.dataChannels.delete peer
    incomingChunks := c.incomingChunks.erase peer }

end StreamClient

/-- What a client is called with. -/
inductive StreamEvent (PeerId ι β : Type) where
  | setupDataChannel (peer : PeerId)
  | channelOpened (peer : PeerId)
  | channelClosed (peer : PeerId)
  | closePeerConnection (peer : PeerId)
  | message (peer : PeerId) (data : Frame PeerId ι β)
  | forward (buffer : β) (chunkType : String) (isKeyframe : Bool)
  | cacheStreamInfo (data : ι)
  | cacheInitSegment (buffer : β)
  | becomePublisher
  | disconnect
  deriving DecidableEq

namespace StreamClient

variable {PeerId ι β : Type} [DecidableEq PeerId] [ArrayBuffer β]

/-- One event, at the time `now`. -/
def step (c : StreamClient PeerId ι β) (now : Nat) :
    StreamEvent PeerId ι β → StreamClient PeerId ι β × List (ClientEffect PeerId ι β)
  | .setupDataChannel peer => ({ c with dataChannels := c.dataChannels.set peer false },[])
  | .channelOpened peer => c.channelOpened peer now
  | .channelClosed peer => (c.channelClosed peer,[])
  | .closePeerConnection peer => (c.closePeerConnection peer,[])
  | .message peer data => c.handleDataChannelMessage peer data now
  | .forward buffer chunkType isKeyframe => c.forwardSegmentToPeers buffer chunkType isKeyframe now
  | .cacheStreamInfo data => ({ c with cachedStreamInfo := some data },[])
  | .cacheInitSegment buffer => ({ c with cachedInitSegment := some buffer },[])
  | .becomePublisher => ({ c with isPublisher := true },[])
  | .disconnect => ({ c with dataChannels := .empty },[])

/-- The events, one after the other, and all that the client does. -/
def run (c : StreamClient PeerId ι β) :
    List (Nat × StreamEvent PeerId ι β) → StreamClient PeerId ι β × List (ClientEffect PeerId ι β)
  | [] => (c,[])
  | (now,e)::es =>
    let (c,effects) := c.step now e
    let (c,later) := c.run es
    (c,effects++later)

theorem run_cons (c : StreamClient PeerId ι β) (now : Nat) (e : StreamEvent PeerId ι β)
    (es : List (Nat × StreamEvent PeerId ι β)) :
    c.run ((now,e)::es) =
      (((c.step now e).1.run es).1,(c.step now e).2++((c.step now e).1.run es).2) := rfl

theorem step_message (c : StreamClient PeerId ι β) (now : Nat) (peer : PeerId)
    (data : Frame PeerId ι β) :
    c.step now (.message peer data) = c.handleDataChannelMessage peer data now := rfl

end StreamClient

end OpenBroadcast.Browser
