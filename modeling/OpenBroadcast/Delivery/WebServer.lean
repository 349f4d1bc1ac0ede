import OpenBroadcast.Delivery.Integrity

namespace OpenBroadcast.Delivery

open Media

/-- `String::as_bytes`. -/
def utf8Bytes (text : String) : Bytes := text.toUTF8.toList

/-- The stream with this text for an id. -/
def streamOf (text : String) : StreamId := ⟨utf8Bytes text⟩

/-- `as_str().unwrap_or_default()`. -/
def asText (id : StreamId) : String := (fromUtf8 id.bytes).getD ""

/-- A binary frame for a viewer, with the stream that it was taken from. -/
structure Frame where
  origin : StreamId
  data : Bytes
  deriving DecidableEq, Repr

def maxChunkSize : Nat := 512*1024

/-- An initialization segment in pieces that browsers take. -/
def chunkFrames (origin : StreamId) (data : Bytes) : List Frame :=
  if maxChunkSize < data.length then (data.toChunks maxChunkSize).map (Frame.mk origin)
  else [⟨origin,data⟩]

/-- Where `handle_websocket` stands: before the dynamic subscription, before it subscribes to the
segments, before it reads the initialization segments, sending them, or in its `select!` loop. -/
inductive ViewerStage where
  | dynamic
  | receiver
  | init
  | sendInit (rest : List Frame)
  | forward
  deriving DecidableEq, Repr

/-- A connection to `/stream`, with the segments that wait in its receiver. Recorded besides: the
binary frames sent so far. -/
structure Viewer where
  requested : Option String
  stage : ViewerStage
  hasLoop : Bool
  pending : List StreamSegment
  frames : List Frame

/-- The task of a relay connection: it takes events of the overlay, or without an overlay the
segments of the node itself, of which it may have missed some. -/
inductive RelayTask where
  | overlay (target : String)
  | segments (pending : List StreamSegment) (lagged : Bool)

/-- A connection to `/ws/relay`, with the stream that its handler is about to subscribe to and the
frames that wait for the socket. Recorded besides: the stream of the last `Subscribe`, if there was
no `Unsubscribe` since, that of the last `Publish`, and the frames sent so far, each with the
subscription at the time. -/
structure RelaySocket where
  subscribed : Option String
  published : Option String
  subscribing : Option String
  task : Option RelayTask
  queue : List Bytes
  closed : Bool
  sent : List (Option String × Bytes)

inductive RelayMessage where
  | subscribe (streamId : String)
  | unsubscribe (streamId : String)
  | publish (streamId : String)
  | listStreams
  | binary (data : Bytes)
  deriving DecidableEq, Repr

/-- The web server of a node. The receive loops, the cached initialization segment and the number
of receivers of segments are those of `node`. Recorded besides: the stream of the segment that is
cached, and what has been published for relay clients. -/
structure WebServer (PeerId : Type) where
  node : Node PeerId
  hasOverlay : Bool
  streamId : Option StreamId
  segmentStreamId : StreamId
  initOrigin : StreamId
  videoInit : Option Bytes
  audioInit : Option Bytes
  viewers : List Viewer
  relays : List RelaySocket
  publishedData : List (Bytes × Bytes)

inductive WebEvent (PeerId : Type) where
  | gossip (c : Circumstances) (m : GossipMessage PeerId)
  | report (c : Circumstances)
  | startListener
  | stopListener
  /-- The listener for announcements of a node without a stream takes an event. -/
  | listenerTakes
  | loopTakes (k : Nat)
  | sendSegment (segment : StreamSegment)
  | loadContent (separate : Option (Bytes × Option Bytes)) (combined : Option Bytes)
  | connect (requested : Option String)
  | viewerProceeds (k : Nat)
  | viewerLeaves (k : Nat)
  | relayConnect
  | relayMessage (k : Nat) (msg : RelayMessage)
  /-- The overlay has answered the subscription of the handler. -/
  | relayProceeds (k : Nat)
  | relayTakes (k : Nat)
  | relayReceives (k : Nat)
  | relayForwards (k : Nat)
  | relayFails (k : Nat)
  | relayCloses (k : Nat)

def broadcastCapacity : Nat := 1024

/-- A receiver that lags behind misses the oldest segments. -/
def newest (pending : List StreamSegment) : List StreamSegment :=
  pending.drop (pending.length-broadcastCapacity)

namespace Viewer

def subscribed (v : Viewer) : Bool :=
  match v.stage with
  | .dynamic | .receiver => false
  | _ => true

def enqueue (v : Viewer) (segments : List StreamSegment) : Viewer :=
  if v.subscribed then { v with pending := newest (v.pending++segments) } else v

/-- The binary frame of a segment. Metadata goes as text. -/
def frameOf (segment : StreamSegment) : List Frame :=
  if segment.mediaType = .metadata then [] else [⟨segment.streamId,segment.data⟩]

end Viewer

namespace RelaySocket

def new : RelaySocket := ⟨none,none,none,none,[],false,[]⟩

def relayCapacity : Nat := 256

def hasRoom (r : RelaySocket) : Bool := !r.closed && r.queue.length < relayCapacity

def trySend (r : RelaySocket) (data : Bytes) : RelaySocket :=
  if r.hasRoom then { r with queue := r.queue++[data] } else r

/-- The receivers of segments that the task holds. -/
def receivers (r : RelaySocket) : Nat :=
  match r.task with
  | some (.segments _ _) => 1
  | _ => 0

def enqueue (r : RelaySocket) (segments : List StreamSegment) : RelaySocket :=
  match r.task with
  | some (.segments pending lagged) =>
    { r with task := some (.segments (newest (pending++segments))
        (lagged || broadcastCapacity < (pending++segments).length)) }
  | _ => r

/-- The task that cannot send ends. -/
def takeEvent {PeerId : Type} (r : RelaySocket) (target : String) :
    OverlayEvent PeerId → RelaySocket
  | .streamData id _ data =>
    if fromUtf8Lossy id.bytes ≠ target then r
    else if r.hasRoom then r.trySend data
    else { r with task := none }
  | _ => r

/-- A task that has missed segments ends too. -/
def receiveSegment (blake3 : Bytes → Digest) (r : RelaySocket) : RelaySocket :=
  match r.task with
  | some (.segments _ true) => { r with task := none }
  | some (.segments (segment::rest) false) =>
    if r.hasRoom then
      { r.trySend (WireSegment.codec.encode (WireSegment.ofSegment blake3 segment)) with
        task := some (.segments rest false) }
    else { r with task := none }
  | _ => r

def forward (r : RelaySocket) : RelaySocket :=
  match r.queue with
  | [] => r
  | frame::rest => { r with queue := rest, sent := r.sent++[(r.subscribed,frame)] }

end RelaySocket

namespace WebServer

variable {PeerId : Type}

def new (hasOverlay : Bool) (streamId : Option StreamId) (segmentStreamId : StreamId) :
    WebServer PeerId :=
  ⟨.new,hasOverlay,streamId,segmentStreamId,segmentStreamId,none,none,[],[],[]⟩

/-- A node with an overlay and without a stream of its own. -/
def browses (s : WebServer PeerId) : Bool := s.hasOverlay && s.streamId.isNone

def broadcast (s : WebServer PeerId) (segments : List StreamSegment) : WebServer PeerId :=
  { s with
    viewers := s.viewers.map (fun v => v.enqueue segments)
    relays := s.relays.map (fun r => r.enqueue segments) }

def countReceivers (s : WebServer PeerId) (count : Nat) : WebServer PeerId :=
  { s with node := { s.node with receiverCount := count } }

/-- What a receive loop makes of an event. -/
def accepted (target : StreamId) (event : OverlayEvent PeerId) : List StreamSegment :=
  received (fun id => fromUtf8Lossy id.bytes = asText target) event

/-- The stream of the cached initialization segment after a loop has taken these segments. -/
def originAfter (s : WebServer PeerId) (segments : List StreamSegment) : StreamId :=
  segments.foldl (fun origin segment =>
    if segment.mediaType = .initialization then segment.streamId else origin) s.initOrigin

/-- A receive loop takes an event; what it sends goes to all receivers. With an initialization
segment in hand it waits for the lock of the cached one; nothing is let in between here. -/
def loopTakes (s : WebServer PeerId) (k : Nat) : WebServer PeerId :=
  match s.node.targets[k]?,s.node.nextEvent with
  | some target,some ((m,event),node) =>
    let (node,segments) := node.receiveEvent target event
    { s with
      node := node.record m segments
      initOrigin := s.originAfter (accepted target event) }.broadcast segments
  | _,_ => s

def takeDown (s : WebServer PeerId) : WebServer PeerId :=
  match s.node.nextEvent with
  | some (_,node) => { s with node := node }
  | none => s

/-- A segment of the node's own content. -/
def sendSegment (s : WebServer PeerId) (segment : StreamSegment) : WebServer PeerId :=
  if 0 < s.node.receiverCount then s.broadcast [segment] else s

def loadContent (s : WebServer PeerId) (separate : Option (Bytes × Option Bytes))
    (combined : Option Bytes) : WebServer PeerId :=
  let s := match separate with
    | some (video,audio) => { s with videoInit := some video, audioInit := audio }
    | none => s
  match combined with
  | some data =>
    { s with node := { s.node with initSegment := some data }, initOrigin := s.segmentStreamId }
  | none => s

/-- The frames that a viewer gets first. The audio segment is not cut into pieces. -/
def initFrames (s : WebServer PeerId) : List Frame :=
  match s.videoInit with
  | some video =>
    chunkFrames s.segmentStreamId video++s.audioInit.toList.map (Frame.mk s.segmentStreamId)
  | none => s.node.initSegment.toList.flatMap (chunkFrames s.initOrigin)

def setViewer (s : WebServer PeerId) (k : Nat) (v : Viewer) : WebServer PeerId :=
  { s with viewers := s.viewers.set k v }

def setRelay (s : WebServer PeerId) (k : Nat) (r : RelaySocket) : WebServer PeerId :=
  { s with relays := s.relays.set k r }

/-- `handle_websocket` up to its next await point. -/
def viewerProceeds (s : WebServer PeerId) (k : Nat) : WebServer PeerId :=
  match s.viewers[k]? with
  | none => s
  | some v =>
    match v.stage with
    | .dynamic =>
      match v.requested with
      | some id =>
        if s.browses then
          { s with node := { s.node with targets := s.node.targets++[streamOf id] } }.setViewer k
            { v with hasLoop := true, stage := .receiver }
        else s.setViewer k { v with stage := .receiver }
      | none => s.setViewer k { v with stage := .receiver }
    | .receiver =>
      (s.countReceivers (s.node.receiverCount+1)).setViewer k { v with stage := .init }
    | .init => s.setViewer k { v with stage := .sendInit s.initFrames }
    | .sendInit [] => s.setViewer k { v with stage := .forward }
    | .sendInit (frame::rest) =>
      s.setViewer k { v with stage := .sendInit rest, frames := v.frames++[frame] }
    | .forward =>
      match v.pending with
      | [] => s
      | segment::rest =>
        s.setViewer k { v with pending := rest, frames := v.frames++Viewer.frameOf segment }

/-- The connection ends. A handler that cannot send before it comes to its loop returns without
aborting the receive loop that it has spawned. -/
def viewerLeaves (s : WebServer PeerId) (k : Nat) : WebServer PeerId :=
  match s.viewers[k]? with
  | none => s
  | some v =>
    if !v.subscribed then s
    else
      let targets := if v.hasLoop && v.stage = .forward then
          s.node.targets.erase (streamOf (v.requested.getD ""))
        else s.node.targets
      let s := { s with node := { s.node with targets := targets } }
      { s.countReceivers (s.node.receiverCount-1) with viewers := s.viewers.eraseIdx k }

/-- The message of a relay client. Whatever task it has is aborted by a new subscription. -/
def handleMessage (s : WebServer PeerId) (k : Nat) (r : RelaySocket) :
    RelayMessage → WebServer PeerId
  | .subscribe id =>
    let s := s.countReceivers (s.node.receiverCount-r.receivers)
    if s.hasOverlay then
      s.setRelay k { r with subscribed := some id, task := none, subscribing := some id }
    else
      (s.countReceivers (s.node.receiverCount+1)).setRelay k
        { r with subscribed := some id, task := some (.segments [] false) }
  | .unsubscribe _ =>
    (s.countReceivers (s.node.receiverCount-r.receivers)).setRelay k
      { r with subscribed := none, task := none }
  | .publish id => s.setRelay k { r with published := some id }
  | .listStreams => s
  | .binary data =>
    match s.streamId with
    | some id =>
      if s.hasOverlay then
        { s with publishedData := s.publishedData++[(utf8Bytes (asText id),data)] }
      else s
    | none => s

def relayMessage (s : WebServer PeerId) (k : Nat) (msg : RelayMessage) : WebServer PeerId :=
  match s.relays[k]? with
  | none => s
  | some r => if r.subscribing.isSome then s else s.handleMessage k r msg

/-- The handler sends the cached initialization segment as it is and spawns the task. -/
def relayProceeds (s : WebServer PeerId) (k : Nat) : WebServer PeerId :=
  match s.relays[k]? with
  | none => s
  | some r =>
    match r.subscribing with
    | none => s
    | some id =>
      let r := match s.node.initSegment with
        | some data => r.trySend data
        | none => r
      s.setRelay k { r with subscribing := none, task := some (.overlay id) }

def relayTakes (s : WebServer PeerId) (k : Nat) : WebServer PeerId :=
  match s.relays[k]? with
  | none => s
  | some r =>
    match r.task,s.node.nextEvent with
    | some (.overlay target),some ((_,event),node) =>
      { s with node := node }.setRelay k (r.takeEvent target event)
    | _,_ => s

def relayReceives (blake3 : Bytes → Digest) (s : WebServer PeerId) (k : Nat) :
    WebServer PeerId :=
  match s.relays[k]? with
  | none => s
  | some r =>
    let r' := r.receiveSegment blake3
    (s.countReceivers (s.node.receiverCount+r'.receivers-r.receivers)).setRelay k r'

def relayForwards (s : WebServer PeerId) (k : Nat) : WebServer PeerId :=
  match s.relays[k]? with
  | none => s
  | some r => s.setRelay k r.forward

def relayFails (s : WebServer PeerId) (k : Nat) : WebServer PeerId :=
  match s.relays[k]? with
  | none => s
  | some r => s.setRelay k { r with closed := true, queue := [] }

def relayCloses (s : WebServer PeerId) (k : Nat) : WebServer PeerId :=
  match s.relays[k]? with
  | none => s
  | some r =>
    { s.countReceivers (s.node.receiverCount-r.receivers) with relays := s.relays.eraseIdx k }

def step (blake3 : Bytes → Digest) (s : WebServer PeerId) : WebEvent PeerId → WebServer PeerId
  | .gossip c m =>
    { s with
      node := { s.node with overlay := (s.node.overlay.handleGossipsubEvent blake3 c m).1 } }
  | .report c => { s with node := { s.node with overlay := s.node.overlay.trySend c none .other } }
  | .startListener =>
    match s.streamId with
    | some id =>
      if s.hasOverlay then { s with node := { s.node with targets := s.node.targets++[id] } } else s
    | none => s
  | .stopListener =>
    match s.streamId with
    | some id => { s with node := { s.node with targets := s.node.targets.erase id } }
    | none => s
  | .listenerTakes => if s.browses then s.takeDown else s
  | .loopTakes k => s.loopTakes k
  | .sendSegment segment => s.sendSegment segment
  | .loadContent separate combined => s.loadContent separate combined
  | .connect requested => { s with viewers := s.viewers++[⟨requested,.dynamic,false,[],[]⟩] }
  | .viewerProceeds k => s.viewerProceeds k
  | .viewerLeaves k => s.viewerLeaves k
  | .relayConnect => { s with relays := s.relays++[.new] }
  | .relayMessage k msg => s.relayMessage k msg
  | .relayProceeds k => s.relayProceeds k
  | .relayTakes k => s.relayTakes k
  | .relayReceives k => s.relayReceives blake3 k
  | .relayForwards k => s.relayForwards k
  | .relayFails k => s.relayFails k
  | .relayCloses k => s.relayCloses k

section Listener

variable (blake3 : Bytes → Digest) (s : WebServer PeerId)

theorem startListener_frame : (s.step blake3 .startListener).viewers = s.viewers ∧
    (s.step blake3 .startListener).relays = s.relays := by
  simp only [step]
  cases s.streamId with
  | none => exact ⟨rfl,rfl⟩
  | some id => split_ifs <;> exact ⟨rfl,rfl⟩

theorem stopListener_frame : (s.step blake3 .stopListener).viewers = s.viewers ∧
    (s.step blake3 .stopListener).relays = s.relays := by
  simp only [step]
  cases s.streamId with
  | none => exact ⟨rfl,rfl⟩
  | some id => exact ⟨rfl,rfl⟩

theorem listenerTakes_frame : (s.step blake3 .listenerTakes).viewers = s.viewers ∧
    (s.step blake3 .listenerTakes).relays = s.relays := by
  simp only [step,takeDown]
  split_ifs
  · cases s.node.nextEvent with
    | none => exact ⟨rfl,rfl⟩
    | some event => exact ⟨rfl,rfl⟩
  · exact ⟨rfl,rfl⟩

end Listener

end WebServer

end OpenBroadcast.Delivery
