import OpenBroadcast.Framework.Collections
import OpenBroadcast.Signaling.Message

namespace OpenBroadcast.Signaling

def isIdChar (c : Char) : Bool := c.isAlphanum || c == '-' || c == '_'

/-- The length is that of the UTF-8 text. -/
def validateId (id : Text) (maxLen : Nat) : Bool :=
  !id.isEmpty && decide ((id.map Char.utf8Size).sum ≤ maxLen) && id.all isIdChar

structure WebServerConfig where
  maxStreamRooms : Nat
  maxPeersPerStream : Nat
  idleCleanupSecs : Nat
  deriving DecidableEq, Repr

structure ModerationManager where
  whitelistOnly : Bool
  blockedPeers : Finset Text
  whitelist : Finset Text
  deriving DecidableEq

def ModerationManager.isPeerAllowed (m : ModerationManager) (p : Text) : Bool :=
  if p ∈ m.blockedPeers then false
  else if m.whitelistOnly then decide (p ∈ m.whitelist)
  else true

structure SignalingPeer where
  peerId : Text
  isPublisher : Bool
  canRelay : Bool
  deriving DecidableEq, Repr

/-- Where the handler of a connection stands: what it is about to do in the next section of
code that it runs under a lock. -/
inductive Handler where
  | idle
  | joining (streamId : Text) (isPublisher : Bool)
  | refused (message : String)
  | allowed (streamId : Text) (isPublisher : Bool)
  | entered (streamId : Text) (isPublisher : Bool)
  | stamped (streamId : Text) (isPublisher : Bool)
  | listed (streamId : Text) (isPublisher : Bool) (peers : List PeerInfo)
  | notifying (streamId : Text) (isPublisher : Bool)
  | offering (target : Option Text) (sdp : String)
  | relaying (target : Text) (message : SignalingMessage)
  | updating (isPublisher canRelay : Bool)
  | broadcasting (peers : List Text) (message : SignalingMessage)
  | leaving (closing : Bool)
  | leavingRoom (closing : Bool)
  | closed
  deriving DecidableEq, Repr

/-- `receiving` until the task that forwards the channel to the socket has ended; `socket` has
what is under way to the client. -/
structure Connection where
  peerId : Uuid
  currentStreamId : Option Text
  handler : Handler
  receiving : Bool
  channel : List SignalingMessage
  socket : List SignalingMessage

def channelCapacity : Nat := 64

def Connection.trySend (c : Connection) (m : SignalingMessage) : Connection :=
  if c.receiving && decide (c.channel.length < channelCapacity) then
    { c with channel := c.channel++[m] }
  else c

def Connection.forward (c : Connection) : Connection :=
  { c with channel := c.channel.tail, socket := c.socket++c.channel.head?.toList }

/-- The stages of a request to block a peer. -/
inductive Kick where
  | blocked (peerId : Text)
  | evicted (peerId : Text) (streamsToNotify : List (Text × List Text))
  | notified (peerId : Text)
  | done
  deriving DecidableEq, Repr

/-- Connections are numbered in the order in which they came in, and `peer_senders` maps a
peer id to the number of the connection whose channel it sends to. Times are in nanoseconds. -/
structure Server where
  streams : HashMap Text (List SignalingPeer)
  peerSenders : HashMap Text Nat
  streamLastActive : HashMap Text Nat
  moderation : Option ModerationManager
  connections : List Connection
  kicks : List Kick
  clock : Nat
  cleanupNow : Option Nat

namespace Server

def new (moderation : Option ModerationManager) : Server where
  streams := ∅
  peerSenders := ∅
  streamLastActive := ∅
  moderation := moderation
  connections := []
  kicks := []
  clock := 0
  cleanupNow := none

def isPeerAllowed (s : Server) (p : Text) : Bool :=
  match s.moderation with
  | some m => m.isPeerAllowed p
  | none => true

def modifyConnection (s : Server) (k : Nat) (f : Connection → Connection) : Server :=
  { s with connections := s.connections.modify k f }

def setHandler (s : Server) (k : Nat) (h : Handler) : Server :=
  s.modifyConnection k (fun c => { c with handler := h })

/-- `if let Some(sender) = senders.get(p) { let _ = sender.try_send(m); }`. -/
def send (s : Server) (m : SignalingMessage) (p : Text) : Server :=
  match s.peerSenders.lookup p with
  | some k => s.modifyConnection k (fun c => c.trySend m)
  | none => s

def sendAll (s : Server) (m : SignalingMessage) (ps : List Text) : Server :=
  ps.foldl (fun s p => s.send m p) s

/-- A handler keeps `peer_senders` for reading from when it sends the list of peers until it
has sent the notifications. -/
def sendersHeld (s : Server) : Bool :=
  s.connections.any (fun c => match c.handler with
    | .notifying _ _ => true
    | _ => false)

def others (peers : List SignalingPeer) (p : Text) : List SignalingPeer :=
  peers.filter (fun q => q.peerId ≠ p)

def peerIds (peers : List SignalingPeer) : List Text := peers.map SignalingPeer.peerId

/-- The section of a join under the lock of the streams. -/
def enterRoom (cfg : WebServerConfig) (s : Server) (k : Nat) (p sid : Text) (pub : Bool) :
    Server :=
  if sid ∉ s.streams ∧ cfg.maxStreamRooms ≤ s.streams.keys.card then
    (s.send (.error "Max stream rooms reached") p).setHandler k .idle
  else
    let peers := (s.streams.lookup sid).getD []
    if sid ∈ s.streams ∧ (∀ q ∈ peers, q.peerId ≠ p) ∧ cfg.maxPeersPerStream ≤ peers.length then
      (s.send (.error "Stream room is full") p).setHandler k .idle
    else
      { s with streams := s.streams.insert sid (others peers p++[SignalingPeer.mk p pub false]) }.setHandler k
        (.entered sid pub)

/-- The others of the room at the time of the join. -/
def peerList (s : Server) (p sid : Text) : List PeerInfo :=
  match s.streams.lookup sid with
  | some peers => (others peers p).map (fun q => ⟨q.peerId,q.isPublisher,q.canRelay⟩)
  | none => []

def notifyJoin (s : Server) (p sid : Text) (pub : Bool) : Server :=
  match s.streams.lookup sid with
  | some peers => s.sendAll (.peerJoin p sid pub) (peerIds (others peers p))
  | none => s

/-- `if let Some(p) = peers.iter_mut().find(..)`: the first entry only. -/
def updatePeer (p : Text) (pub relay : Bool) : List SignalingPeer → List SignalingPeer
  | [] => []
  | q::peers =>
    if q.peerId = p then { q with isPublisher := pub, canRelay := relay }::peers
    else q::updatePeer p pub relay peers

def updateRoom (s : Server) (k : Nat) (p : Text) (current : Option Text) (pub relay : Bool) :
    Server :=
  match current with
  | none => s.setHandler k .idle
  | some sid =>
    match s.streams.lookup sid with
    | none => s.setHandler k .idle
    | some peers =>
      let peers := updatePeer p pub relay peers
      let toNotify := peerIds (others peers p)
      { s with streams := s.streams.insert sid peers }.setHandler k
        (if toNotify.isEmpty then .idle
          else .broadcasting toNotify (.peerUpdate p current pub relay))

/-- The section of `cleanup_signaling_peer` under the lock of the streams. -/
def leaveRoom (s : Server) (p : Text) (current : Option Text) : Server :=
  match current with
  | none => s
  | some sid =>
    match s.streams.lookup sid with
    | none => s
    | some peers =>
      let peers := others peers p
      let s := { s with streams := s.streams.insert sid peers }
      let s := s.sendAll (.peerLeave p) (peerIds peers)
      if peers.isEmpty then { s with streams := s.streams.erase sid } else s

def leaveDone (closing : Bool) (c : Connection) : Connection :=
  if closing then { c with handler := .closed }
  else { c with handler := .idle, currentStreamId := none }

/-- One section of the handler of connection `k`. -/
def advance (cfg : WebServerConfig) (s : Server) (k : Nat) : Server :=
  match s.connections[k]? with
  | none => s
  | some c =>
    let p := c.peerId.toText
    match c.handler with
    | .idle => s
    | .closed => s
    | .joining sid pub =>
      if !validateId sid 128 then s.setHandler k (.refused "Invalid stream ID")
      else if !s.isPeerAllowed p then
        s.setHandler k (.refused "You have been blocked from this node")
      else s.setHandler k (.allowed sid pub)
    | .refused message => (s.send (.error message) p).setHandler k .idle
    | .allowed sid pub => s.enterRoom cfg k p sid pub
    | .entered sid pub =>
      { s with streamLastActive := s.streamLastActive.insert sid s.clock }.setHandler k
        (.stamped sid pub)
    | .stamped sid pub =>
      s.modifyConnection k (fun c =>
        { c with currentStreamId := some sid, handler := .listed sid pub (s.peerList p sid) })
    | .listed sid pub peers => (s.send (.peerList peers) p).setHandler k (.notifying sid pub)
    | .notifying sid pub => (s.notifyJoin p sid pub).setHandler k .idle
    | .offering target sdp =>
      match s.isPeerAllowed p,target with
      | true,some t => s.setHandler k (.relaying t (.offer p (some t) sdp))
      | _,_ => s.setHandler k .idle
    | .relaying t m => (s.send m t).setHandler k .idle
    | .updating pub relay => s.updateRoom k p c.currentStreamId pub relay
    | .broadcasting ps m => (s.sendAll m ps).setHandler k .idle
    | .leaving closing =>
      if s.sendersHeld then s
      else { s with peerSenders := s.peerSenders.erase p }.setHandler k (.leavingRoom closing)
    | .leavingRoom closing =>
      (s.leaveRoom p c.currentStreamId).modifyConnection k (leaveDone closing)

/-- `handle_signaling_message` up to its first section. The ids that the client gives itself
are ignored. -/
def received (p : Text) : SignalingMessage → Handler
  | .peerJoin _ sid pub => .joining sid pub
  | .peerLeave _ => .leaving false
  | .offer _ target sdp => .offering target sdp
  | .answer _ target sdp => .relaying target (.answer p target sdp)
  | .iceCandidate _ target candidate mid index =>
    .relaying target (.iceCandidate p target candidate mid index)
  | .peerUpdate _ _ pub relay => .updating pub relay
  | .peerList _ => .idle
  | .error _ => .idle

/-- The handler of a connection, if it waits for the next message, takes up `h`. -/
def begin (s : Server) (k : Nat) (h : Text → Handler) : Server :=
  s.modifyConnection k (fun c =>
    if c.handler = .idle then { c with handler := h c.peerId.toText } else c)

def isMember (p : Text) (peers : List SignalingPeer) : Bool := peers.any (fun q => q.peerId = p)

/-- One section of `kick_peer_from_signaling`; the rooms are visited in the order `H`. -/
def advanceKick (H : HashOrder Unit Text) (s : Server) (i : Nat) : Server :=
  match s.kicks[i]? with
  | none => s
  | some .done => s
  | some (.blocked p) =>
    let toNotify := ((H.iter () s.streams).filter (fun e => isMember p e.2)).map
      (fun e => (e.1,peerIds (others e.2 p)))
    let streams := s.streams.mapValues (fun peers => others peers p)
    { s with
      streams := streams.retain (fun _ peers => !peers.isEmpty)
      kicks := s.kicks.set i (.evicted p toNotify) }
  | some (.evicted p toNotify) =>
    { s.sendAll (.peerLeave p) (toNotify.flatMap Prod.snd) with
      kicks := s.kicks.set i (.notified p) }
  | some (.notified p) =>
    if s.sendersHeld then s
    else { s with peerSenders := s.peerSenders.erase p, kicks := s.kicks.set i .done }

def moderate (s : Server) (f : ModerationManager → ModerationManager) : Server :=
  { s with moderation := s.moderation.map f }

/-- A room goes when it is empty or has not been active for too long. -/
def isStale (cfg : WebServerConfig) (s : Server) (now : Nat) (sid : Text)
    (peers : List SignalingPeer) : Bool :=
  peers.isEmpty || match s.streamLastActive.lookup sid with
    | some last => decide (cfg.idleCleanupSecs < (now-last)/10^9)
    | none => false

def idleCleanup (cfg : WebServerConfig) (s : Server) (now : Nat) : Server :=
  { s with
    streams := s.streams.retain (fun sid peers => !s.isStale cfg now sid peers)
    streamLastActive := s.streamLastActive.retain (fun sid _ =>
      match s.streams.lookup sid with
      | some peers => !s.isStale cfg now sid peers
      | none => true) }

end Server

inductive ServerEvent where
  | connect (peerId : Uuid)
  | receive (k : Nat) (message : SignalingMessage)
  | invalid (k : Nat) (error : String)
  | advance (k : Nat)
  | forward (k : Nat)
  | deliver (k : Nat)
  | forwarderEnds (k : Nat)
  | disconnect (k : Nat)
  | block (p : Text)
  | kick (i : Nat) (H : HashOrder Unit Text)
  | unblock (p : Text)
  | whitelist (p : Text)
  | removeWhitelist (p : Text)
  | tick (nanos : Nat)
  | cleanupTick
  | cleanup

open Server in
def Server.step (cfg : WebServerConfig) (s : Server) : ServerEvent → Server
  | .connect u =>
    if s.sendersHeld then s
    else
      { s with
        peerSenders := s.peerSenders.insert u.toText s.connections.length
        connections := s.connections++[⟨u,none,.idle,true,[],[]⟩] }
  | .receive k m => s.begin k (fun p => received p m)
  | .invalid k e => s.begin k (fun _ => .refused ("Invalid message format: "++e))
  | .advance k => s.advance cfg k
  | .forward k => s.modifyConnection k Connection.forward
  | .deliver k => s.modifyConnection k (fun c => { c with socket := c.socket.tail })
  | .forwarderEnds k => s.modifyConnection k (fun c => { c with receiving := false })
  | .disconnect k =>
    s.modifyConnection k (fun c =>
      if c.handler = .idle then { c with receiving := false, handler := .leaving true } else c)
  | .block p =>
    match s.moderation with
    | some _ =>
      { s.moderate (fun m => { m with blockedPeers := insert p m.blockedPeers }) with
        kicks := s.kicks++[.blocked p] }
    | none => s
  | .kick i H => s.advanceKick H i
  | .unblock p => s.moderate (fun m => { m with blockedPeers := m.blockedPeers.erase p })
  | .whitelist p => s.moderate (fun m => { m with whitelist := insert p m.whitelist })
  | .removeWhitelist p => s.moderate (fun m => { m with whitelist := m.whitelist.erase p })
  | .tick n => { s with clock := s.clock+n }
  | .cleanupTick =>
    if 0 < cfg.idleCleanupSecs then { s with cleanupNow := s.cleanupNow.or (some s.clock) } else s
  | .cleanup =>
    match s.cleanupNow with
    | some now => { s.idleCleanup cfg now with cleanupNow := none }
    | none => s

end OpenBroadcast.Signaling
