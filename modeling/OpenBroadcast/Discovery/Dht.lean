import OpenBroadcast.Framework.Collections
import Mathlib.Data.List.Infix

namespace OpenBroadcast.Discovery.Dht

structure PeerInfo where
  id : List UInt8
  protocols : List String
  deriving DecidableEq, Repr

inductive DiscoveryError where
  | alreadyRunning
  | notRunning
  | other (text : String)
  deriving DecidableEq, Repr

inductive DiscoveryEvent where
  | peerDiscovered (info : PeerInfo)
  | peerUpdated (info : PeerInfo)
  | peerExpired (id : List UInt8)
  deriving DecidableEq, Repr

inductive QueryType where
  | findPeer (id : List UInt8)
  | findClosestPeers (criteria : String)
  | putRecord (key : String)
  deriving DecidableEq, Repr

/-- How the ids of peers are read and written. -/
structure PeerIds (PeerId : Type) where
  fromBytes : List UInt8 → Except String PeerId
  toBytes : PeerId → List UInt8
  toText : PeerId → String

/-- What the swarm reports. -/
inductive SwarmEvent (PeerId : Type) where
  | closestPeers (query : Nat) (peers : List PeerId)
  | queryProgressed (query : Nat)
  | routingUpdated (peer : PeerId)
  | connectionEstablished (peer : PeerId)
  | connectionClosed (peer : PeerId)
  | other
  deriving DecidableEq, Repr

/-- What the swarm task does with an event, one await point after the other. -/
inductive TaskAction where
  | storePeer (info : PeerInfo)
  | send (event : DiscoveryEvent)
  | removeQuery (query : Nat)
  deriving DecidableEq, Repr

def SwarmEvent.actions {PeerId : Type} (ids : PeerIds PeerId) : SwarmEvent PeerId → List TaskAction
  | .closestPeers query peers =>
    peers.flatMap (fun p => [.storePeer ⟨ids.toBytes p,[]⟩,
      .send (.peerDiscovered ⟨ids.toBytes p,[]⟩)])++[.removeQuery query]
  | .queryProgressed query => [.removeQuery query]
  | .routingUpdated peer =>
    [.storePeer ⟨ids.toBytes peer,[]⟩,.send (.peerUpdated ⟨ids.toBytes peer,[]⟩)]
  | .connectionEstablished peer =>
    [.storePeer ⟨ids.toBytes peer,[]⟩,.send (.peerDiscovered ⟨ids.toBytes peer,[]⟩)]
  | .connectionClosed peer => [.send (.peerExpired (ids.toBytes peer))]
  | .other => []

structure KademliaSwarm (PeerId : Type) where
  localPeerId : PeerId
  deriving DecidableEq, Repr

/-- Where the swarm task stands: at the test of its outer loop, before it takes the swarm out of
the slot, at the test of its inner loop, waiting for an event, in an event, before it puts the swarm
back, or at its end. -/
inductive SwarmTask (PeerId : Type) where
  | outer
  | take
  | inner (swarm : KademliaSwarm PeerId)
  | wait (swarm : KademliaSwarm PeerId)
  | handle (swarm : KademliaSwarm PeerId) (todo : List TaskAction)
  | putBack (swarm : KademliaSwarm PeerId)
  | left
  deriving DecidableEq, Repr

inductive StartStage where
  | initSwarm
  | spawn
  | setRunning
  deriving DecidableEq, Repr

inductive StopStage where
  | abort
  | clearSwarm
  deriving DecidableEq, Repr

/-- A call that has the service for itself; `announce` after it has cached the peer. -/
inductive ExclusiveCall (PeerId : Type) where
  | start (stage : StartStage)
  | stop (stage : StopStage)
  | announce (peer : PeerId)
  deriving DecidableEq, Repr

/-- A call that goes on with others at the same time, after it has looked at the cache. -/
inductive SharedCall where
  | lookupPeer (id : List UInt8)
  | findPeers (criteria : String) (known : List PeerInfo)
  deriving DecidableEq, Repr

inductive Reply where
  | announced
  | cached (info : PeerInfo)
  | notCached
  | found (known : List PeerInfo)
  | failed (e : DiscoveryError)
  deriving DecidableEq, Repr

/-- The replies for which the swarm is to be asked. -/
def Reply.asks : Reply → Bool
  | .announced | .notCached | .found _ => true
  | .cached _ | .failed _ => false

/-- The service with the calls under way. Recorded besides: what the calls have returned, with the
query that each has issued, and whether `start` has returned `Ok` and `stop` has not been called
since. -/
structure DhtDiscovery (PeerId : Type) where
  peers : HashMap (List UInt8) PeerInfo
  running : Bool
  ownInfo : Option PeerInfo
  activeQueries : HashMap Nat QueryType
  localPeerId : Option PeerId
  swarm : Option (KademliaSwarm PeerId)
  task : Option (SwarmTask PeerId)
  sent : List DiscoveryEvent
  call : Option (ExclusiveCall PeerId)
  shared : List SharedCall
  replies : List (Reply × Option Nat)
  started : Bool

/-- What happens at a service, with the answers of the swarm: whether it can be built, and the
queries that it issues. -/
inductive DhtEvent (PeerId : Type) where
  | start
  | startProceeds (peer : PeerId) (built : Except String Unit)
  | stop
  | stopProceeds
  | announce (info : PeerInfo)
  | announceProceeds (provided : Except String Nat)
  | lookupPeer (id : List UInt8)
  | findPeers (order : HashOrder Unit (List UInt8)) (criteria : String)
  | sharedProceeds (k : Nat) (query : Nat)
  | task (event : SwarmEvent PeerId)

namespace DhtDiscovery

variable {PeerId : Type}

def withConfig : DhtDiscovery PeerId where
  peers := ∅
  running := false
  ownInfo := none
  activeQueries := ∅
  localPeerId := none
  swarm := none
  task := none
  sent := []
  call := none
  shared := []
  replies := []
  started := false

/-- No call is under way. -/
def free (s : DhtDiscovery PeerId) : Bool := s.call.isNone && s.shared.isEmpty

def reply (s : DhtDiscovery PeerId) (r : Reply) (query : Option Nat) : DhtDiscovery PeerId :=
  { s with replies := s.replies++[(r,query)] }

/-- The query is tracked. -/
def track (s : DhtDiscovery PeerId) (query : Nat) (type : QueryType) : DhtDiscovery PeerId :=
  { s with activeQueries := s.activeQueries.insert query type }

/-- A section of `start`. The id of the peer is kept even if its swarm cannot be built; the text of
the error says at which step the building failed. -/
def startProceeds (s : DhtDiscovery PeerId) (peer : PeerId) (built : Except String Unit) :
    DhtDiscovery PeerId :=
  match s.call with
  | some (.start .initSwarm) =>
    match built with
    | .error e =>
      { s with localPeerId := some peer, call := none }.reply (.failed (.other e)) none
    | .ok () =>
      { s with localPeerId := some peer, swarm := some ⟨peer⟩, call := some (.start .spawn) }
  | some (.start .spawn) => { s with task := some .outer, call := some (.start .setRunning) }
  | some (.start .setRunning) => { s with running := true, call := none, started := true }
  | _ => s

def stopProceeds (s : DhtDiscovery PeerId) : DhtDiscovery PeerId :=
  match s.call with
  | some (.stop .abort) => { s with task := none, call := some (.stop .clearSwarm) }
  | some (.stop .clearSwarm) => { s with swarm := none, call := none }
  | _ => s

/-- `announce` up to the swarm. -/
def announce (s : DhtDiscovery PeerId) (ids : PeerIds PeerId) (info : PeerInfo) :
    DhtDiscovery PeerId :=
  match ids.fromBytes info.id with
  | .error e => s.reply (.failed (.other ("Invalid peer ID: "++e))) none
  | .ok peer =>
    { s with
      ownInfo := some info
      peers := s.peers.insert info.id info
      call := some (.announce peer) }

def announceProceeds (s : DhtDiscovery PeerId) (ids : PeerIds PeerId)
    (provided : Except String Nat) : DhtDiscovery PeerId :=
  match s.call with
  | some (.announce peer) =>
    let s := { s with call := none }
    match s.swarm with
    | none => s.reply .announced none
    | some _ =>
      match provided with
      | .error e => s.reply (.failed (.other ("Failed to start providing: "++e))) none
      | .ok query =>
        (s.track query (.putRecord ("peer:"++ids.toText peer))).reply .announced (some query)
  | _ => s

def lookupPeer (s : DhtDiscovery PeerId) (id : List UInt8) : DhtDiscovery PeerId :=
  match s.peers.lookup id with
  | some info => s.reply (.cached info) none
  | none => { s with shared := s.shared++[.lookupPeer id] }

/-- The peers of the cache that have a protocol with the criteria in its name. -/
def knownPeers (s : DhtDiscovery PeerId) (order : HashOrder Unit (List UInt8))
    (criteria : String) : List PeerInfo :=
  ((order.iter () s.peers).map Prod.snd).filter
    (fun info => criteria.isEmpty || info.protocols.any (fun p => criteria.toList <:+: p.toList))

/-- `lookup_peer` and `find_peers` at the swarm. -/
def sharedProceeds (s : DhtDiscovery PeerId) (ids : PeerIds PeerId) (k query : Nat) :
    DhtDiscovery PeerId :=
  match s.shared[k]? with
  | none => s
  | some call =>
    let s := { s with shared := s.shared.eraseIdx k }
    match call,s.swarm with
    | .lookupPeer _,none => s.reply .notCached none
    | .lookupPeer id,some _ =>
      match ids.fromBytes id with
      | .error e => s.reply (.failed (.other ("Invalid peer ID: "++e))) none
      | .ok _ => (s.track query (.findPeer id)).reply .notCached (some query)
    | .findPeers _ known,none => s.reply (.found known) none
    | .findPeers criteria known,some _ =>
      (s.track query (.findClosestPeers criteria)).reply (.found known) (some query)

/-- An announce under way holds the lock of the cache to its end. -/
def peersLocked (s : DhtDiscovery PeerId) : Bool :=
  match s.call with
  | some (.announce _) => true
  | _ => false

def perform (s : DhtDiscovery PeerId) : TaskAction → DhtDiscovery PeerId
  | .storePeer info => { s with peers := s.peers.insert info.id info }
  | .send event => { s with sent := s.sent++[event] }
  | .removeQuery query => { s with activeQueries := s.activeQueries.erase query }

def waitsForPeers (s : DhtDiscovery PeerId) : TaskAction → Bool
  | .storePeer _ => s.peersLocked
  | _ => false

/-- The swarm task goes on. An empty slot makes it wait and come back. -/
def runSwarmLoop (s : DhtDiscovery PeerId) (ids : PeerIds PeerId) (event : SwarmEvent PeerId) :
    DhtDiscovery PeerId :=
  match s.task with
  | none | some .left => s
  | some .outer => { s with task := some (if s.running then .take else .left) }
  | some .take =>
    match s.swarm with
    | some swarm => { s with swarm := none, task := some (.inner swarm) }
    | none => { s with task := some .outer }
  | some (.inner swarm) =>
    { s with task := some (if s.running then .wait swarm else .putBack swarm) }
  | some (.wait swarm) => { s with task := some (.handle swarm (event.actions ids)) }
  | some (.handle swarm []) => { s with task := some (.inner swarm) }
  | some (.handle swarm (action::rest)) =>
    if s.waitsForPeers action then s
    else { s.perform action with task := some (.handle swarm rest) }
  | some (.putBack swarm) => { s with swarm := some swarm, task := some .outer }

def step (ids : PeerIds PeerId) (s : DhtDiscovery PeerId) (e : DhtEvent PeerId) :
    DhtDiscovery PeerId :=
  match e with
  | .start =>
    if !s.free then s
    else if s.running then s.reply (.failed .alreadyRunning) none
    else { s with call := some (.start .initSwarm) }
  | .startProceeds peer built => s.startProceeds peer built
  | .stop =>
    if !s.free then s
    else if !s.running then s.reply (.failed .notRunning) none
    else { s with running := false, call := some (.stop .abort), started := false }
  | .stopProceeds => s.stopProceeds
  | .announce info => if !s.free then s else s.announce ids info
  | .announceProceeds provided => s.announceProceeds ids provided
  | .lookupPeer id => if s.call.isSome then s else s.lookupPeer id
  | .findPeers order criteria =>
    if s.call.isSome then s
    else { s with shared := s.shared++[.findPeers criteria (s.knownPeers order criteria)] }
  | .sharedProceeds k query => s.sharedProceeds ids k query
  | .task event => s.runSwarmLoop ids event

/-- The task is in its loop. -/
def InLoop (s : DhtDiscovery PeerId) : Prop := s.task ≠ none ∧ s.task ≠ some .left

/-- The task has not taken the swarm out of the slot. -/
def Untaken (s : DhtDiscovery PeerId) : Prop := s.task = some .outer ∨ s.task = some .take

/-- Whatever the service has answered from `s` on, other than an error or a peer of the cache, it
has issued a query for, which is among the active ones. -/
def Asked (s s' : DhtDiscovery PeerId) : Prop :=
  ∀ r ∈ s'.replies.drop s.replies.length, r.1.asks = true →
    ∃ query, r.2 = some query ∧ query ∈ s'.activeQueries

/-- What is answered while the service is started is asked for. -/
def Queried (ids : PeerIds PeerId) (s : DhtDiscovery PeerId) (e : DhtEvent PeerId) : Prop :=
  s.started = true → s.Asked (s.step ids e)

/-- The task does not look at the flag before `start` has set it. -/
def FlagFirst (s : DhtDiscovery PeerId) (e : DhtEvent PeerId) : Prop :=
  ∀ event, e = .task event → s.call ≠ some (.start .setRunning)

/-- A call comes to the swarm while the service is started. -/
def AtSwarm (s : DhtDiscovery PeerId) (e : DhtEvent PeerId) : Prop :=
  s.started = true ∧ match e with
  | .announceProceeds _ => s.peersLocked = true
  | .sharedProceeds k _ => k < s.shared.length
  | _ => False

/-- The calls that come to the swarm do so before the task has taken it. -/
def BeforeTaken (s : DhtDiscovery PeerId) (e : DhtEvent PeerId) : Prop := s.AtSwarm e → s.Untaken

end DhtDiscovery

end OpenBroadcast.Discovery.Dht
