import OpenBroadcast.Framework.Run
import OpenBroadcast.Framework.Utf8
import OpenBroadcast.Media.WireFormat

namespace OpenBroadcast.Media.StreamSegment

def initialization (streamId data : Sized UInt8) : StreamSegment :=
  ⟨⟨streamId.val⟩,0,0,0,.initialization,data.val,true,0,streamId.property,data.property⟩

end OpenBroadcast.Media.StreamSegment

namespace OpenBroadcast.Streaming

open Media

/-- Where the task stands that `start_streaming` spawns: before its first pause, before it joins the
topic, before the initialization segment, before the lock on the segments, in a pass over them,
between two passes, before it clears the flag, or at its end. -/
inductive TaskStage where
  | waiting
  | topic
  | initSegment
  | samples
  | segment (loaded rest : List StreamSegment)
  | repeatInit (loaded : List StreamSegment)
  | finishing
  | ended
  deriving DecidableEq

/-- The lock on the segments is held until the end of the task. -/
def TaskStage.holdsSamples : TaskStage → Bool
  | .segment _ _ => true
  | .repeatInit _ => true
  | .finishing => true
  | _ => false

/-- What a streaming task hands out. -/
inductive Output where
  | send (segment : StreamSegment)
  | publish (streamId : Bytes) (data : Bytes)
  deriving DecidableEq

inductive StartStage where
  | flag
  | spawn
  deriving DecidableEq, Repr

inductive StopStage where
  | flag
  | removal
  deriving DecidableEq, Repr

/-- The stream manager, with the calls and the streaming tasks under way. Recorded besides: what the
tasks have handed out so far, and whether `stop_streaming` has returned and `start_streaming` has
not been called since. -/
structure StreamManager where
  enableP2p : Bool
  hasOverlay : Bool
  streamId : Option (Sized UInt8)
  isStreaming : Bool
  videoSamples : Option (List StreamSegment)
  initializationSegment : Option (Sized UInt8)
  receiverCount : Nat
  starts : List StartStage
  stops : List StopStage
  tasks : List TaskStage
  handedOut : List Output
  stopped : Bool

inductive ManagerEvent where
  | startStreaming
  /-- The `k`th call of `start_streaming` goes on; `ok` tells whether what it waits for succeeds. -/
  | startProceeds (k : Nat) (ok : Bool)
  | stopStreaming
  | stopProceeds (k : Nat)
  | taskProceeds (k : Nat)
  | loadSamples (segments : List StreamSegment)
  | setInitialization (data : Sized UInt8)
  | subscribe
  | dropReceiver

namespace StreamManager

variable (blake3 : Bytes → Digest)

/-- `StreamManager::new`. -/
def new : StreamManager := ⟨false,false,none,false,none,none,0,[],[],[],[],false⟩

def withP2p (streamId : Sized UInt8) : StreamManager :=
  { new with enableP2p := true, hasOverlay := true, streamId := some streamId }

/-- `stream_id.as_str().unwrap_or_default()`. -/
def textId (streamId : Sized UInt8) : Sized UInt8 :=
  if (fromUtf8 streamId.val).isSome then streamId else ⟨[],Nat.two_pow_pos 64⟩

/-- The stream that the task publishes, if it publishes. -/
def target (m : StreamManager) : Option (Sized UInt8) :=
  if m.enableP2p && m.hasOverlay then m.streamId.map textId else none

def handOut (m : StreamManager) (outputs : List Output) : StreamManager :=
  { m with handedOut := m.handedOut++outputs }

/-- `to_wire_bytes` and `publish_stream_data`. -/
def publishData (m : StreamManager) (segment : StreamSegment) : List Output :=
  m.target.toList.map (fun id =>
    .publish id.val (WireSegment.codec.encode (WireSegment.ofSegment blake3 segment)))

def publishInit (m : StreamManager) : List Output :=
  m.target.toList.flatMap (fun id => m.initializationSegment.toList.flatMap (fun data =>
    m.publishData blake3 (StreamSegment.initialization id data)))

def sendSegment (m : StreamManager) (segment : StreamSegment) : List Output :=
  (if 0 < m.receiverCount then [.send segment] else [])++m.publishData blake3 segment

/-- The streaming task up to its next await point. It never looks at the flag. -/
def runTask (m : StreamManager) : TaskStage → StreamManager × TaskStage
  | .waiting => (m,.topic)
  | .topic => (m,.initSegment)
  | .initSegment => (m.handOut (m.publishInit blake3),.samples)
  | .samples =>
    if m.tasks.any TaskStage.holdsSamples then (m,.samples)
    else
      match m.videoSamples with
      | some loaded => (m,.segment loaded loaded)
      | none => (m,if m.enableP2p then .ended else .finishing)
  | .segment loaded [] => (m,if m.enableP2p then .repeatInit loaded else .finishing)
  | .segment loaded (segment::rest) =>
    if segment.isInit then (m,.segment loaded rest)
    else if m.receiverCount = 0 && !m.enableP2p then (m,.finishing)
    else (m.handOut (m.sendSegment blake3 segment),.segment loaded rest)
  | .repeatInit loaded => (m.handOut (m.publishInit blake3),.segment loaded loaded)
  | .finishing => ({ m with isStreaming := false },.ended)
  | .ended => (m,.ended)

/-- `start_streaming` goes on. It spawns the task last, once it has had the lock on the segments. -/
def startProceeds (m : StreamManager) (k : Nat) (ok : Bool) : StreamManager :=
  match m.starts[k]? with
  | none => m
  | some .flag =>
    if ok then { m with isStreaming := true, starts := m.starts.set k .spawn }
    else { m with starts := m.starts.eraseIdx k }
  | some .spawn =>
    if !ok then { m with starts := m.starts.eraseIdx k }
    else if m.tasks.any TaskStage.holdsSamples then m
    else { m with tasks := m.tasks++[.waiting], starts := m.starts.eraseIdx k }

/-- `stop_streaming` goes on: it clears the flag, and removes the announcement. -/
def stopProceeds (m : StreamManager) (k : Nat) : StreamManager :=
  match m.stops[k]? with
  | none => m
  | some .flag => { m with isStreaming := false, stops := m.stops.set k .removal }
  | some .removal => { m with stops := m.stops.eraseIdx k, stopped := true }

def taskProceeds (m : StreamManager) (k : Nat) : StreamManager :=
  match m.tasks[k]? with
  | none => m
  | some stage =>
    let (m,stage) := m.runTask blake3 stage
    { m with tasks := m.tasks.set k stage }

def step (m : StreamManager) : ManagerEvent → StreamManager
  | .startStreaming => { m with starts := m.starts++[.flag], stopped := false }
  | .startProceeds k ok => m.startProceeds k ok
  | .stopStreaming => { m with stops := m.stops++[.flag] }
  | .stopProceeds k => m.stopProceeds k
  | .taskProceeds k => m.taskProceeds blake3 k
  | .loadSamples segments =>
    if m.tasks.any TaskStage.holdsSamples then m else { m with videoSamples := some segments }
  | .setInitialization data => { m with initializationSegment := some data }
  | .subscribe => { m with receiverCount := m.receiverCount+1 }
  | .dropReceiver => { m with receiverCount := m.receiverCount-1 }

end StreamManager

end OpenBroadcast.Streaming
