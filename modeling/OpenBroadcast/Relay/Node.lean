import OpenBroadcast.Framework.Run
import OpenBroadcast.Relay.Stream

namespace OpenBroadcast.Relay

inductive OverlayError (PeerId : Type) where
  | streamNotFound (id : StreamId)
  | streamAlreadyExists (id : StreamId)
  | peerNotFound (p : PeerId)
  | noChunkHandler
  deriving DecidableEq

/-- The fields of the relay configuration that the node reads, times in clock units. -/
structure RelayConfig where
  maxBufferSize : Nat
  maxChunkSize : Nat
  statsInterval : Nat
  cleanupInterval : Nat
  inactivityTimeout : Nat
  enableHopRemoval : Bool

def RelayConfig.default : RelayConfig := ⟨100,64*1024,5,30,60,true⟩

structure RelayStats where
  chunksRelayed : Nat
  bytesRelayed : Nat
  avgChunkSize : Nat
  activeStreams : Nat
  connectedPeers : Nat
  incomingBandwidth : Nat
  outgoingBandwidth : Nat
  periodStart : Nat
  perStreamChunks : HashMap String Nat

namespace RelayStats

def new (now : Nat) : RelayStats := ⟨0,0,0,0,0,0,0,now,∅⟩

def resetPeriod (s : RelayStats) (now : Nat) : RelayStats :=
  { s with periodStart := now, incomingBandwidth := 0, outgoingBandwidth := 0 }

def recordChunk (s : RelayStats) (chunkSize : Nat) : RelayStats :=
  let chunks := s.chunksRelayed+1
  let bytes := s.bytesRelayed+chunkSize
  { s with
    chunksRelayed := chunks
    bytesRelayed := bytes
    avgChunkSize := if chunks = 0 then s.avgChunkSize else bytes/chunks }

def recordChunkForStream (s : RelayStats) (chunkSize : Nat) (streamId : String) : RelayStats :=
  let s := s.recordChunk chunkSize
  { s with perStreamChunks :=
      s.perStreamChunks.insert streamId ((s.perStreamChunks.lookup streamId).getD 0+1) }

end RelayStats

inductive RelayMessage (PeerId : Type) where
  | chunk (chunk : StreamChunk PeerId)
  | addStream (id : StreamId) (publisher : PeerId)
  | removeStream (id : StreamId)
  | addSubscriber (id : StreamId) (p : PeerId)
  | removeSubscriber (id : StreamId) (p : PeerId)
  | requestChunks (id : StreamId) (p : PeerId) (sequence : Nat)
  | stop

/-- Where one of the two processor tasks stands between two of its await points: waiting
for its channel, with a chunk counted but not yet in the buffer, or sending. A replay gives
up at the first error of the handler, a fan-out does not. -/
inductive Work (PeerId : Type) where
  | idle
  | relay (chunk : StreamChunk PeerId)
  | send (givesUp : Bool) (queue : List (PeerId × StreamChunk PeerId))

/-- A task whose sections have failed waits for its channel again. -/
def Work.ofResult {PeerId : Type} (givesUp : Bool) :
    Except (OverlayError PeerId) (List (PeerId × StreamChunk PeerId)) → Work PeerId
  | .ok queue => .send givesUp queue
  | .error _ => .idle

structure RelayNode (PeerId : Type) where
  localPeerId : PeerId
  config : RelayConfig
  hasHandler : Bool
  streams : HashMap StreamId (StreamRelay PeerId)
  stats : RelayStats
  chunkWork : Work PeerId
  messageWork : Work PeerId
  /-- The streams that the cleanup task has found inactive and not removed yet. -/
  toRemove : List StreamId
  running : Bool
  /-- The message loop has ended. -/
  stopped : Bool
  /-- The calls of the chunk handler so far. -/
  calls : List (PeerId × StreamChunk PeerId)

namespace RelayNode

variable {PeerId : Type} [DecidableEq PeerId]

/-- A node that has been created, given a handler or not, and started. -/
def start (localPeerId : PeerId) (config : RelayConfig) (hasHandler : Bool) (now : Nat) :
    RelayNode PeerId :=
  ⟨localPeerId,config,hasHandler,∅,.new now,.idle,.idle,[],true,false,[]⟩

/-- `process_chunk_internal` up to its first await point: count the chunk. -/
def recordChunk (s : RelayNode PeerId) (chunk : StreamChunk PeerId) : RelayNode PeerId :=
  { s with stats := s.stats.recordChunkForStream chunk.data.length chunk.streamId.display }

/-- Hop removal: the chunk as it leaves the relay. -/
def relayChunk (s : RelayNode PeerId) (chunk : StreamChunk PeerId) : StreamChunk PeerId :=
  if s.config.enableHopRemoval then { chunk with source := some s.localPeerId } else chunk

/-- The rest of `process_chunk_internal`: buffer the chunk, and what is then to be sent. -/
def bufferChunk (order : HashOrder Unit PeerId) (s : RelayNode PeerId)
    (chunk : StreamChunk PeerId) (now : Nat) :
    RelayNode PeerId × Except (OverlayError PeerId) (List (PeerId × StreamChunk PeerId)) :=
  match s.streams.lookup chunk.streamId with
  | none => (s,.error (.streamNotFound chunk.streamId))
  | some stream =>
    let stream := stream.addChunk chunk s.config.maxBufferSize now
    let s := { s with streams := s.streams.insert chunk.streamId stream }
    if s.hasHandler then
      (s,.ok ((order.order () stream.subscribers).map (fun p => (p,s.relayChunk chunk))))
    else (s,.error .noChunkHandler)

def addStreamInternal (s : RelayNode PeerId) (id : StreamId) (publisher : PeerId) (now : Nat) :
    RelayNode PeerId × Except (OverlayError PeerId) Unit :=
  if id ∈ s.streams then (s,.error (.streamAlreadyExists id))
  else
    let streams := s.streams.insert id (StreamRelay.new id publisher now)
    ({ s with streams := streams, stats := { s.stats with activeStreams := streams.keys.card } },
      .ok ())

def removeStreamInternal (s : RelayNode PeerId) (id : StreamId) :
    RelayNode PeerId × Except (OverlayError PeerId) Unit :=
  if id ∈ s.streams then
    let streams := s.streams.erase id
    ({ s with streams := streams, stats := { s.stats with activeStreams := streams.keys.card } },
      .ok ())
  else (s,.error (.streamNotFound id))

def addSubscriberInternal (s : RelayNode PeerId) (id : StreamId) (p : PeerId) :
    RelayNode PeerId × Except (OverlayError PeerId) Unit :=
  match s.streams.lookup id with
  | none => (s,.error (.streamNotFound id))
  | some stream =>
    ({ s with
      streams := s.streams.insert id (stream.addSubscriber p).1
      stats := { s.stats with connectedPeers := s.stats.connectedPeers+1 } },.ok ())

def removeSubscriberInternal (s : RelayNode PeerId) (id : StreamId) (p : PeerId) :
    RelayNode PeerId × Except (OverlayError PeerId) Unit :=
  match s.streams.lookup id with
  | none => (s,.error (.streamNotFound id))
  | some stream =>
    let removed := stream.removeSubscriber p
    let s := { s with streams := s.streams.insert id removed.1 }
    if removed.2 then
      ({ s with stats := { s.stats with connectedPeers :=
          if s.stats.connectedPeers > 0 then s.stats.connectedPeers-1
          else s.stats.connectedPeers } },.ok ())
    else (s,.error (.peerNotFound p))

/-- `handle_request_chunks_internal`: what is to be sent to the peer. -/
def handleRequestChunksInternal (s : RelayNode PeerId) (id : StreamId) (p : PeerId)
    (sequence : Nat) : Except (OverlayError PeerId) (List (PeerId × StreamChunk PeerId)) :=
  match s.streams.lookup id with
  | none => .error (.streamNotFound id)
  | some stream =>
    if s.hasHandler then .ok ((stream.getChunksSince sequence).map (fun c => (p,c)))
    else .error .noChunkHandler

/-- The message processor takes one message off its channel. -/
def handleMessage (s : RelayNode PeerId) (now : Nat) : RelayMessage PeerId → RelayNode PeerId
  | .chunk chunk => { s.recordChunk chunk with messageWork := .relay chunk }
  | .addStream id publisher => (s.addStreamInternal id publisher now).1
  | .removeStream id => (s.removeStreamInternal id).1
  | .addSubscriber id p => (s.addSubscriberInternal id p).1
  | .removeSubscriber id p => (s.removeSubscriberInternal id p).1
  | .requestChunks id p sequence =>
    { s with messageWork := Work.ofResult true (s.handleRequestChunksInternal id p sequence) }
  | .stop => { s with stopped := true }

/-- One turn of the stats reporter. -/
def reportStats (s : RelayNode PeerId) (order : HashOrder Unit StreamId) (now : Nat) :
    RelayNode PeerId :=
  let peers := (order.iter () s.streams).foldl
    (fun peers e => insert e.2.publisher (peers ∪ e.2.subscribers)) ∅
  let stats := { s.stats with activeStreams := s.streams.keys.card, connectedPeers := peers.card }
  let elapsed := now-stats.periodStart
  let stats := if elapsed > 0 then
      { stats with outgoingBandwidth := stats.bytesRelayed/elapsed }
    else stats
  { s with stats := stats.resetPeriod now }

/-- The cleanup task looks for inactive streams. -/
def findInactive (s : RelayNode PeerId) (order : HashOrder Unit StreamId) (now : Nat) :
    RelayNode PeerId :=
  { s with toRemove := ((order.iter () s.streams).filter
      (fun e => e.2.isInactive s.config.inactivityTimeout now)).map Prod.fst }

/-- A task goes on to its next await point; `ok` is the answer of the handler if that is a
call of the handler. Returns the work left for the task. -/
def proceed (order : HashOrder Unit PeerId) (s : RelayNode PeerId) (now : Nat) (ok : Bool) :
    Work PeerId → RelayNode PeerId × Work PeerId
  | .idle => (s,.idle)
  | .relay chunk =>
    let r := bufferChunk order s chunk now
    (r.1,Work.ofResult false r.2)
  | .send _ [] => (s,.idle)
  | .send givesUp (call::queue) =>
    ({ s with calls := s.calls++[call] },
      if givesUp && !ok then .idle else .send givesUp queue)

end RelayNode

/-- What can happen at a started node. The tasks only interleave at their await points, and
which of them goes on is not determined. -/
inductive RelayEvent (PeerId : Type) where
  /-- The chunk processor receives a chunk that was passed to `publish_chunk`. -/
  | publish (chunk : StreamChunk PeerId)
  | message (msg : RelayMessage PeerId)
  | chunkTask (ok : Bool)
  | messageTask (ok : Bool)
  | report (order : HashOrder Unit StreamId)
  | findInactive (order : HashOrder Unit StreamId)
  | removeInactive
  | stop

namespace RelayNode

variable {PeerId : Type} [DecidableEq PeerId]

/-- The circumstances of an event: the order of the subscriber sets and the time. -/
structure Moment (PeerId : Type) where
  order : HashOrder Unit PeerId
  now : Nat

def step (s : RelayNode PeerId) (e : Moment PeerId × RelayEvent PeerId) : RelayNode PeerId :=
  if !s.running then s
  else
    match e.2 with
    | .publish chunk =>
      match s.chunkWork with
      | .idle =>
        if chunk.data.length > s.config.maxChunkSize then s
        else { s.recordChunk chunk with chunkWork := .relay chunk }
      | _ => s
    | .message msg =>
      match s.messageWork with
      | .idle => if s.stopped then s else s.handleMessage e.1.now msg
      | _ => s
    | .chunkTask ok =>
      let r := s.proceed e.1.order e.1.now ok s.chunkWork
      { r.1 with chunkWork := r.2 }
    | .messageTask ok =>
      let r := s.proceed e.1.order e.1.now ok s.messageWork
      { r.1 with messageWork := r.2 }
    | .report order => s.reportStats order e.1.now
    | .findInactive order =>
      match s.toRemove with
      | [] => s.findInactive order e.1.now
      | _::_ => s
    | .removeInactive =>
      match s.toRemove with
      | [] => s
      | id::rest => { (s.removeStreamInternal id).1 with toRemove := rest }
    | .stop => { s with running := false, chunkWork := .idle, messageWork := .idle }

end RelayNode

end OpenBroadcast.Relay
