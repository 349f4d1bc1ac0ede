import OpenBroadcast.Relay.Node

namespace OpenBroadcast.Relay

/-- Where a spawned task stands: before it has made its ticker, before its next look at the running
flag, past it, or out of its loop. -/
inductive Loop where
  | begin
  | test
  | body
  | left
  deriving DecidableEq, Repr

/-- What `start` does next: it spawns the four tasks and sets the running flag. -/
inductive StartStage where
  | chunkProcessor
  | messageProcessor
  | statsReporter
  | streamCleanup
  | setRunning
  deriving DecidableEq, Repr

/-- What `stop` does next, after it has cleared the flag. -/
inductive StopStage where
  | abort
  | sendStop
  deriving DecidableEq, Repr

inductive ControlCall where
  | start (stage : StartStage)
  | stop (stage : StopStage)
  deriving DecidableEq, Repr

/-- A relay node from its creation on: its channels, whether it still has their receivers, its task
handles, and the call of `start` or `stop` under way. The flag is that of the node. Recorded
besides: whether `start` has returned `Ok` and `stop` has not been called since. -/
structure RelayService (PeerId : Type) where
  node : RelayNode PeerId
  chunkQueue : List (StreamChunk PeerId)
  messageQueue : List (RelayMessage PeerId)
  chunkReceiver : Bool
  messageReceiver : Bool
  chunkProcessor : Option Loop
  messageProcessor : Option Loop
  statsReporter : Option Loop
  streamCleanup : Option Loop
  call : Option ControlCall
  started : Bool

/-- What happens at a node: calls of `start` and `stop` one after the other, section by section,
calls that send something to a processor, and sections of the tasks, with the answer of the handler
if that is what they wait for. -/
inductive ServiceEvent (PeerId : Type) where
  | start
  | stop
  | callProceeds
  | publishChunk (chunk : StreamChunk PeerId)
  | addStream (id : StreamId) (publisher : PeerId)
  | removeStream (id : StreamId)
  | addSubscriber (id : StreamId) (p : PeerId)
  | removeSubscriber (id : StreamId) (p : PeerId)
  | requestChunks (id : StreamId) (p : PeerId) (sequence : Nat)
  | chunkTask (ok : Bool)
  | messageTask (ok : Bool)
  | statsTask (order : HashOrder Unit StreamId)
  | cleanupTask (order : HashOrder Unit StreamId)

def channelCapacity : Nat := 100

namespace RelayService

variable {PeerId : Type}

def new (localPeerId : PeerId) (config : RelayConfig) (hasHandler : Bool) (now : Nat) :
    RelayService PeerId where
  node := { RelayNode.start localPeerId config hasHandler now with running := false }
  chunkQueue := []
  messageQueue := []
  chunkReceiver := true
  messageReceiver := true
  chunkProcessor := none
  messageProcessor := none
  statsReporter := none
  streamCleanup := none
  call := none
  started := false

/-- A channel is open as long as its receiver is in the node or in a processor. -/
def chunkOpen (s : RelayService PeerId) : Bool :=
  s.chunkReceiver || s.chunkProcessor = some .test

def messageOpen (s : RelayService PeerId) : Bool :=
  s.messageReceiver || s.messageProcessor = some .test

/-- `publish_chunk`. A call that finds the channel full waits. -/
def publishChunk (s : RelayService PeerId) (chunk : StreamChunk PeerId) : RelayService PeerId :=
  if s.node.config.maxChunkSize < chunk.data.length then s
  else if s.chunkOpen && s.chunkQueue.length < channelCapacity then
    { s with chunkQueue := s.chunkQueue++[chunk] }
  else s

def sendMessage (s : RelayService PeerId) (msg : RelayMessage PeerId) : RelayService PeerId :=
  if s.messageOpen && s.messageQueue.length < channelCapacity then
    { s with messageQueue := s.messageQueue++[msg] }
  else s

/-- A section of `start`. The receivers can be taken only once; a processor without one is not
spawned. -/
def startProceeds (s : RelayService PeerId) : StartStage → RelayService PeerId
  | .chunkProcessor =>
    { s with
      chunkProcessor := if s.chunkReceiver then some .test else s.chunkProcessor
      chunkReceiver := false
      call := some (.start .messageProcessor) }
  | .messageProcessor =>
    { s with
      messageProcessor := if s.messageReceiver then some .test else s.messageProcessor
      messageReceiver := false
      call := some (.start .statsReporter) }
  | .statsReporter =>
    { s with statsReporter := some .begin, call := some (.start .streamCleanup) }
  | .streamCleanup => { s with streamCleanup := some .begin, call := some (.start .setRunning) }
  | .setRunning =>
    { s with node := { s.node with running := true }, call := none, started := true }

/-- A section of `stop`. A processor that is aborted takes its receiver with it. -/
def stopProceeds (s : RelayService PeerId) : StopStage → RelayService PeerId
  | .abort =>
    { s with
      node := { s.node with chunkWork := .idle, messageWork := .idle, toRemove := [] }
      chunkProcessor := none
      messageProcessor := none
      statsReporter := none
      streamCleanup := none
      call := some (.stop .sendStop) }
  | .sendStop => { s.sendMessage .stop with call := none }

def callProceeds (s : RelayService PeerId) : RelayService PeerId :=
  match s.call with
  | none => s
  | some (.start stage) => s.startProceeds stage
  | some (.stop stage) => s.stopProceeds stage

variable [DecidableEq PeerId]

/-- The chunk processor goes on: it takes a chunk and looks at the flag, or works on one. -/
def chunkTask (s : RelayService PeerId) (moment : RelayNode.Moment PeerId) (ok : Bool) :
    RelayService PeerId :=
  if s.chunkProcessor ≠ some .test then s
  else
    match s.node.chunkWork,s.chunkQueue with
    | .idle,[] => s
    | .idle,chunk::rest =>
      if !s.node.running then { s with chunkProcessor := some .left, chunkQueue := [] }
      else
        { s with
          node := { s.node.recordChunk chunk with chunkWork := .relay chunk }
          chunkQueue := rest }
    | work,_ =>
      let r := s.node.proceed moment.order moment.now ok work
      { s with node := { r.1 with chunkWork := r.2 } }

def messageTask (s : RelayService PeerId) (moment : RelayNode.Moment PeerId) (ok : Bool) :
    RelayService PeerId :=
  if s.messageProcessor ≠ some .test then s
  else
    match s.node.messageWork,s.messageQueue with
    | .idle,[] => s
    | .idle,msg::rest =>
      if !s.node.running then { s with messageProcessor := some .left, messageQueue := [] }
      else
        match msg with
        | .stop => { s with messageProcessor := some .left, messageQueue := [] }
        | _ => { s with node := s.node.handleMessage moment.now msg, messageQueue := rest }
    | work,_ =>
      let r := s.node.proceed moment.order moment.now ok work
      { s with node := { r.1 with messageWork := r.2 } }

/-- `tokio::time::interval` panics for a period of zero, which ends the task. -/
def ticker (interval : Nat) : Loop := if interval = 0 then .left else .test

def statsTask (s : RelayService PeerId) (moment : RelayNode.Moment PeerId)
    (order : HashOrder Unit StreamId) : RelayService PeerId :=
  match s.statsReporter with
  | some .begin => { s with statsReporter := some (ticker s.node.config.statsInterval) }
  | some .test => { s with statsReporter := some (if s.node.running then .body else .left) }
  | some .body =>
    { s with statsReporter := some .test, node := s.node.reportStats order moment.now }
  | _ => s

/-- The cleanup looks for inactive streams and removes them one by one. -/
def cleanupTask (s : RelayService PeerId) (moment : RelayNode.Moment PeerId)
    (order : HashOrder Unit StreamId) : RelayService PeerId :=
  match s.streamCleanup with
  | some .begin => { s with streamCleanup := some (ticker s.node.config.cleanupInterval) }
  | some .test =>
    { s with streamCleanup := some (if s.node.running then .body else .left) }
  | some .body =>
    match s.node.toRemove with
    | id::rest =>
      { s with
        node := { (s.node.removeStreamInternal id).1 with toRemove := rest }
        streamCleanup := some (if rest = [] then .test else .body) }
    | [] =>
      let node := s.node.findInactive order moment.now
      { s with node := node, streamCleanup := some (if node.toRemove = [] then .test else .body) }
  | _ => s

def step (s : RelayService PeerId) (e : RelayNode.Moment PeerId × ServiceEvent PeerId) :
    RelayService PeerId :=
  match e.2 with
  | .start =>
    if s.call ≠ none || s.node.running then s
    else { s with call := some (.start .chunkProcessor) }
  | .stop =>
    if s.call ≠ none || !s.node.running then s
    else
      { s with
        node := { s.node with running := false }
        call := some (.stop .abort)
        started := false }
  | .callProceeds => s.callProceeds
  | .publishChunk chunk => s.publishChunk chunk
  | .addStream id publisher => s.sendMessage (.addStream id publisher)
  | .removeStream id => s.sendMessage (.removeStream id)
  | .addSubscriber id p => s.sendMessage (.addSubscriber id p)
  | .removeSubscriber id p => s.sendMessage (.removeSubscriber id p)
  | .requestChunks id p sequence => s.sendMessage (.requestChunks id p sequence)
  | .chunkTask ok => s.chunkTask e.1 ok
  | .messageTask ok => s.messageTask e.1 ok
  | .statsTask order => s.statsTask e.1 order
  | .cleanupTask order => s.cleanupTask e.1 order

/-- A task that is still running. -/
def InLoop (task : Option Loop) : Prop :=
  task = some .begin ∨ task = some .test ∨ task = some .body

/-- The four tasks are all in their loops. -/
structure AllInLoop (s : RelayService PeerId) : Prop where
  chunk : s.chunkProcessor = some .test
  message : s.messageProcessor = some .test
  stats : InLoop s.statsReporter
  cleanup : InLoop s.streamCleanup

/-- The node still has the receivers when `start` comes to take them, the tickers get periods, and
until `start` has set the flag, no task looks at it: no chunk or message is received, and neither the
reporter nor the cleanup tests it. -/
def Steady (s : RelayService PeerId) (e : RelayNode.Moment PeerId × ServiceEvent PeerId) : Prop :=
  match e.2 with
  | .callProceeds => (s.call = some (.start .chunkProcessor) → s.chunkReceiver = true) ∧
    (s.call = some (.start .messageProcessor) → s.messageReceiver = true)
  | .chunkTask _ => ∀ stage, s.call = some (.start stage) → s.chunkProcessor = some .test →
    s.chunkQueue = [] ∨ s.node.chunkWork ≠ .idle
  | .messageTask _ => ∀ stage, s.call = some (.start stage) → s.messageProcessor = some .test →
    s.messageQueue = [] ∨ s.node.messageWork ≠ .idle
  | .statsTask _ => (∀ stage, s.call = some (.start stage) → s.statsReporter ≠ some .test) ∧
    (s.statsReporter = some .begin → 0 < s.node.config.statsInterval)
  | .cleanupTask _ => (∀ stage, s.call = some (.start stage) → s.streamCleanup ≠ some .test) ∧
    (s.streamCleanup = some .begin → 0 < s.node.config.cleanupInterval)
  | _ => True

/-- How many tasks the present start has spawned. -/
def spawned (s : RelayService PeerId) : Nat :=
  match s.call with
  | some (.start .chunkProcessor) => 0
  | some (.start .messageProcessor) => 1
  | some (.start .statsReporter) => 2
  | some (.start .streamCleanup) => 3
  | some (.start .setRunning) => 4
  | some (.stop _) => 0
  | none => if s.started then 4 else 0

/-- The invariant: the tasks spawned so far are in their loops, and no `Stop` is queued that the
message processor could receive. -/
structure Alive (s : RelayService PeerId) : Prop where
  chunk : 0 < s.spawned → s.chunkProcessor = some .test
  message : 1 < s.spawned → s.messageProcessor = some .test
  stats : 2 < s.spawned → InLoop s.statsReporter
  cleanup : 3 < s.spawned → InLoop s.streamCleanup
  flag : s.started = true → s.node.running = true ∧ s.call = none
  taken : 1 < s.spawned ∨ s.node.running = true ∨ (∃ stage, s.call = some (.stop stage)) →
    s.messageReceiver = false
  aborted : s.call = some (.stop .sendStop) → s.messageProcessor = none
  noStop : ∀ msg ∈ s.messageQueue, msg ≠ .stop

end RelayService

end OpenBroadcast.Relay
