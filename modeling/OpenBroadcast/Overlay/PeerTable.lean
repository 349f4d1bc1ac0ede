import Mathlib.Data.UInt
import OpenBroadcast.Framework.Fifo
import OpenBroadcast.Framework.Since
import OpenBroadcast.Moderation.Import

namespace OpenBroadcast.Overlay.Libp2p

open Moderation

inductive PeerRole where
  | publisher
  | relay
  | consumer
  | hybridRelay
  | gateway
  | unknown
  deriving DecidableEq, Repr

inductive ConnectionStatus where
  | connected
  | connecting
  | disconnected
  | error
  deriving DecidableEq, Repr

structure PeerInfo (PeerId : Type) where
  id : PeerId
  addresses : List String
  role : PeerRole
  status : ConnectionStatus
  lastSeen : Nat
  protocols : List String
  metadata : HashMap String String
  latencyMs : Option UInt64
  region : Option String
  bandwidthCapacity : Option UInt64

structure PeerConnection (PeerId : Type) where
  peerId : PeerId
  isOutbound : Bool
  status : ConnectionStatus
  connectedAt : Option Nat
  lastActivity : Nat

/-- The fields that the overlay sets; the others keep what they start with. -/
structure Peer (PeerId : Type) where
  id : PeerId
  info : PeerInfo PeerId
  connection : Option (PeerConnection PeerId)
  lastConnected : Option Nat

namespace Peer

variable {PeerId : Type}

def new (id : PeerId) (info : PeerInfo PeerId) : Peer PeerId := ⟨id,info,none,none⟩

def setConnecting (p : Peer PeerId) : Peer PeerId :=
  { p with info := { p.info with status := .connecting } }

def setConnected (p : Peer PeerId) (connection : PeerConnection PeerId) (now : Nat) :
    Peer PeerId :=
  { p with
    info := { p.info with status := .connected }
    lastConnected := some now
    connection := some connection }

def setDisconnected (p : Peer PeerId) : Peer PeerId :=
  { p with info := { p.info with status := .disconnected }, connection := none }

end Peer

inductive OverlayEvent (PeerId : Type) where
  | peerConnected (peerId : PeerId) (info : PeerInfo PeerId)
  | peerDisconnected (peerId : PeerId) (reason : String)

inductive OverlayError where
  | connectionError (text : String)
  | notRunning
  | other (text : String)
  deriving DecidableEq, Repr

/-- The peers of an overlay, with the moderation that it asks, if any. -/
structure Libp2pOverlay (PeerId : Type) where
  peers : HashMap PeerId (Peer PeerId)
  moderation : Option Lists

/-- What happens to an overlay: events of its swarm, calls, and calls of its moderation, each of
them as one step. An event that is sent finds room in the channel or is dropped. -/
inductive Happening (PeerId : Type) where
  | connectionEstablished (peerId : PeerId) (room : Bool)
  | connectionClosed (peerId : PeerId) (room : Bool)
  | identifyReceived (peerId : PeerId) (listenAddrs protocols : List String)
      (agentVersion protocolVersion : String)
  | otherEvent
  | connectPeerImpl (addr : String) (parsed : Except String (String × Option PeerId))
      (dialed : Option (Except String Unit)) (random : PeerId)
  | disconnectPeerImpl (peerId : PeerId)
  | connectPeer (peerId : PeerId) (running : Bool) (dial : String → Option Bool)
  | disconnectPeer (peerId : PeerId) (running : Bool)
  | moderate (call : Call)

namespace Libp2pOverlay

variable {PeerId : Type} [DecidableEq PeerId] (cfg : AccessConfig) (toText : PeerId → String)

def new (moderation : Option Lists) : Libp2pOverlay PeerId := ⟨∅,moderation⟩

def isAllowed (s : Libp2pOverlay PeerId) (peerId : PeerId) : Bool :=
  match s.moderation with
  | some l => l.isPeerAllowed cfg (toText peerId)
  | none => true

def inbound (peerId : PeerId) (now : Nat) : PeerConnection PeerId :=
  ⟨peerId,false,.connected,some now,now⟩

def newPeer (peerId : PeerId) (now : Nat) : Peer PeerId :=
  .new peerId ⟨peerId,[],.unknown,.connected,now,[],∅,none,none,none⟩

/-- The peer that an established connection leaves in the table. -/
def established (s : Libp2pOverlay PeerId) (peerId : PeerId) (now : Nat) : Peer PeerId :=
  ((s.peers.lookup peerId).getD (newPeer peerId now)).setConnected (inbound peerId now) now

/-- A connection that is refused is only not taken note of. -/
def connectionEstablished (s : Libp2pOverlay PeerId) (peerId : PeerId) (now : Nat) :
    Libp2pOverlay PeerId :=
  if !s.isAllowed cfg toText peerId then s
  else { s with peers := s.peers.insert peerId (s.established peerId now) }

def connectionClosed (s : Libp2pOverlay PeerId) (peerId : PeerId) : Libp2pOverlay PeerId :=
  { s with peers := s.peers.modify peerId Peer.setDisconnected }

def handleIdentifyEvent (s : Libp2pOverlay PeerId) (peerId : PeerId)
    (listenAddrs protocols : List String) (agentVersion protocolVersion : String) :
    Libp2pOverlay PeerId :=
  { s with peers := s.peers.modify peerId (fun p =>
    { p with info := { p.info with
      addresses := p.info.addresses++listenAddrs
      protocols := protocols
      metadata := (p.info.metadata.insert "agent_version" agentVersion).insert "protocol_version"
        protocolVersion } }) }

/-- The address is looked at, dialled and then noted; a peer that it does not name gets a random
id. Without a swarm there is nothing to dial with. -/
def connectPeerImpl (s : Libp2pOverlay PeerId) (addr : String)
    (parsed : Except String (String × Option PeerId)) (dialed : Option (Except String Unit))
    (random : PeerId) (now : Nat) : Except OverlayError (PeerInfo PeerId) × Libp2pOverlay PeerId :=
  match parsed with
  | .error e => (.error (.connectionError s!"Invalid address '{addr}': {e}"),s)
  | .ok (multiaddr,named) =>
    match dialed with
    | none => (.error .notRunning,s)
    | some (.error e) => (.error (.connectionError s!"Failed to dial: {e}"),s)
    | some (.ok ()) =>
      let id := named.getD random
      let info : PeerInfo PeerId :=
        ⟨id,[multiaddr],.unknown,.connecting,now,["ipfs/ping/1.0.0"],∅,none,none,none⟩
      (.ok info,{ s with peers := s.peers.insert id (.new id info) })

def disconnectPeerImpl (s : Libp2pOverlay PeerId) (peerId : PeerId) : Libp2pOverlay PeerId :=
  { s with peers := s.peers.erase peerId }

/-- What dialling does at the addresses of a peer that can be read. The first one that is dialled
is the last. -/
def tried (s : Libp2pOverlay PeerId) (peerId : PeerId) (dial : String → Option Bool) : List Bool :=
  (((s.peers.lookup peerId).map (·.info.addresses)).getD []).filterMap dial

/-- Looks for a peer none of whose addresses can be read. -/
def connectPeer (s : Libp2pOverlay PeerId) (peerId : PeerId) (running : Bool)
    (dial : String → Option Bool) (now : Nat) : Except OverlayError Unit × Libp2pOverlay PeerId :=
  if !running then (.error (.other "Swarm not initialized"),s)
  else
    if true ∈ s.tried peerId dial then (.ok (),s)
    else if s.tried peerId dial ≠ [] then (.error (.other s!"Failed to connect to peer {toText peerId}"),s)
    else
      let peer := (s.peers.lookup peerId).getD
        (.new peerId ⟨peerId,[],.relay,.connecting,now,[],∅,none,none,none⟩)
      (.ok (),{ s with peers := s.peers.insert peerId peer.setConnecting })

def disconnectPeer (s : Libp2pOverlay PeerId) (peerId : PeerId) (running : Bool) :
    Except OverlayError Unit × Libp2pOverlay PeerId :=
  if !running then (.error (.other "Swarm not initialized"),s)
  else (.ok (),{ s with peers := s.peers.modify peerId Peer.setDisconnected })

def moderate (s : Libp2pOverlay PeerId) (call : Call) : Libp2pOverlay PeerId :=
  { s with moderation := s.moderation.map (fun l =>
    match call with
    | .importList list => l.importList list
    | call => (l.mutate call).1) }

def connectedPeers (order : HashOrder Unit PeerId) (s : Libp2pOverlay PeerId) :
    List (PeerInfo PeerId) :=
  ((order.iter () s.peers).filter (fun e => e.2.info.status = .connected)).map (·.2.info)

def step (s : Libp2pOverlay PeerId) (e : Nat × Happening PeerId) : Libp2pOverlay PeerId :=
  match e.2 with
  | .connectionEstablished peerId _ => s.connectionEstablished cfg toText peerId e.1
  | .connectionClosed peerId _ => s.connectionClosed peerId
  | .identifyReceived peerId listenAddrs protocols agentVersion protocolVersion =>
    s.handleIdentifyEvent peerId listenAddrs protocols agentVersion protocolVersion
  | .otherEvent => s
  | .connectPeerImpl addr parsed dialed random => (s.connectPeerImpl addr parsed dialed random e.1).2
  | .disconnectPeerImpl peerId => s.disconnectPeerImpl peerId
  | .connectPeer peerId running dial => (s.connectPeer toText peerId running dial e.1).2
  | .disconnectPeer peerId running => (s.disconnectPeer peerId running).2
  | .moderate call => s.moderate call

/-- The events that are sent. A connection that was refused is reported as lost when it closes. -/
def sent (s : Libp2pOverlay PeerId) (e : Nat × Happening PeerId) : List (OverlayEvent PeerId) :=
  match e.2 with
  | .connectionEstablished peerId true =>
    if !s.isAllowed cfg toText peerId then []
    else [.peerConnected peerId (s.established peerId e.1).info]
  | .connectionClosed peerId true => [.peerDisconnected peerId "Connection closed"]
  | _ => []

section Connected

/-- The peer whose connection a step takes note of. -/
def admitted (s : Libp2pOverlay PeerId) (e : Nat × Happening PeerId) : Option PeerId :=
  match e.2 with
  | .connectionEstablished peerId _ =>
    if s.isAllowed cfg toText peerId then some peerId else none
  | _ => none

/-- The peer that a call has dialled, with its address. -/
def dialled (e : Nat × Happening PeerId) : Option (PeerId × String) :=
  match e.2 with
  | .connectPeerImpl _ (.ok (multiaddr,named)) (some (.ok ())) random =>
    some (named.getD random,multiaddr)
  | _ => none

/-- The peer that a call looks for, with no address of it to dial. -/
def sought (s : Libp2pOverlay PeerId) (e : Nat × Happening PeerId) : Option PeerId :=
  match e.2 with
  | .connectPeer peerId true dial =>
    if s.tried peerId dial = [] then some peerId else none
  | _ => none

/-- The addresses that a peer tells. -/
def told (peerId : PeerId) (e : Nat × Happening PeerId) : List String :=
  match e.2 with
  | .identifyReceived other listenAddrs _ _ _ => if other = peerId then listenAddrs else []
  | _ => []

/-- The connection to the peer is lost or given up, or another one is begun. -/
def Leaves (peerId : PeerId) (s : Libp2pOverlay PeerId) (e : Nat × Happening PeerId) : Prop :=
  (∃ room, e.2 = .connectionClosed peerId room) ∨ e.2 = .disconnectPeerImpl peerId ∨
    e.2 = .disconnectPeer peerId true ∨ s.sought e = some peerId ∨
    ∃ multiaddr, dialled e = some (peerId,multiaddr)

omit cfg in
theorem connectPeer_snd (s : Libp2pOverlay PeerId) (peerId : PeerId) (running : Bool)
    (dial : String → Option Bool) (now : Nat) :
    (s.connectPeer toText peerId running dial now).2 =
      if s.sought (now,.connectPeer peerId running dial) = some peerId then
        { s with peers := s.peers.insert peerId ((s.peers.lookup peerId).getD
          (.new peerId ⟨peerId,[],.relay,.connecting,now,[],∅,none,none,none⟩)).setConnecting }
      else s := by
  cases running with
  | false => simp [connectPeer,sought]
  | true =>
    by_cases htried : s.tried peerId dial = []
    · simp [connectPeer,sought,htried]
    · by_cases hdialled : true ∈ s.tried peerId dial <;>
        simp [connectPeer,sought,htried,hdialled]

omit cfg toText in
theorem sought_eq_some {s : Libp2pOverlay PeerId} {now : Nat} {peerId p : PeerId} {running : Bool}
    {dial : String → Option Bool}
    (h : s.sought (now,.connectPeer peerId running dial) = some p) : peerId = p := by
  cases running with
  | false => cases h
  | true =>
    simp only [sought] at h
    split_ifs at h
    exact Option.some.inj h

/-- What a step does to the entry of a peer. -/
theorem lookup_step (s : Libp2pOverlay PeerId) (e : Nat × Happening PeerId) (p : PeerId) :
    (s.step cfg toText e).peers.lookup p =
      match e.2 with
      | .connectionEstablished peerId _ =>
        if peerId = p ∧ s.isAllowed cfg toText p = true then some (s.established p e.1)
        else s.peers.lookup p
      | .connectionClosed peerId _ =>
        if peerId = p then (s.peers.lookup p).map Peer.setDisconnected else s.peers.lookup p
      | .identifyReceived peerId listenAddrs protocols agentVersion protocolVersion =>
        if peerId = p then (s.peers.lookup p).map (fun peer =>
          { peer with info := { peer.info with
            addresses := peer.info.addresses++listenAddrs
            protocols := protocols
            metadata := (peer.info.metadata.insert "agent_version" agentVersion).insert
              "protocol_version" protocolVersion } })
        else s.peers.lookup p
      | .connectPeerImpl _ _ _ _ =>
        match dialled e with
        | some (id,multiaddr) =>
          if id = p then some (.new p ⟨p,[multiaddr],.unknown,.connecting,e.1,
            ["ipfs/ping/1.0.0"],∅,none,none,none⟩)
          else s.peers.lookup p
        | none => s.peers.lookup p
      | .disconnectPeerImpl peerId => if peerId = p then none else s.peers.lookup p
      | .connectPeer _ _ _ =>
        if s.sought e = some p then
          some ((s.peers.lookup p).getD
            (.new p ⟨p,[],.relay,.connecting,e.1,[],∅,none,none,none⟩)).setConnecting
        else s.peers.lookup p
      | .disconnectPeer peerId running =>
        if peerId = p ∧ running = true then (s.peers.lookup p).map Peer.setDisconnected
        else s.peers.lookup p
      | _ => s.peers.lookup p := by
  obtain ⟨now,happening⟩ := e
  cases happening with
  | connectionEstablished peerId room =>
    cases hallowed : s.isAllowed cfg toText peerId with
    | false =>
      have hnot : ¬ (peerId = p ∧ s.isAllowed cfg toText p = true) := by
        rintro ⟨rfl,hp⟩
        rw [hp] at hallowed
        cases hallowed
      simp [step,connectionEstablished,hallowed,hnot]
    | true =>
      by_cases hp : peerId = p
      · subst hp
        simp [step,connectionEstablished,hallowed]
      · simp [step,connectionEstablished,hallowed,hp,Finmap.lookup_insert_of_ne _ (Ne.symm hp)]
  | connectionClosed peerId room =>
    by_cases hp : peerId = p
    · subst hp
      simp [step,connectionClosed]
    · simp [step,connectionClosed,hp,HashMap.lookup_modify_ne _ _ (Ne.symm hp)]
  | identifyReceived peerId listenAddrs protocols agentVersion protocolVersion =>
    by_cases hp : peerId = p
    · subst hp
      simp [step,handleIdentifyEvent]
    · simp [step,handleIdentifyEvent,hp,HashMap.lookup_modify_ne _ _ (Ne.symm hp)]
  | otherEvent => rfl
  | connectPeerImpl addr parsed dialed random =>
    cases parsed with
    | error e => rfl
    | ok parsed =>
      obtain ⟨multiaddr,named⟩ := parsed
      cases dialed with
      | none => rfl
      | some dialed =>
        cases dialed with
        | error e => rfl
        | ok u =>
          by_cases hp : named.getD random = p
          · subst hp
            simp [step,connectPeerImpl,dialled]
          · simp [step,connectPeerImpl,dialled,hp,Finmap.lookup_insert_of_ne _ (Ne.symm hp)]
  | disconnectPeerImpl peerId =>
    by_cases hp : peerId = p
    · subst hp
      simp [step,disconnectPeerImpl]
    · simp [step,disconnectPeerImpl,hp,Finmap.lookup_erase_ne (Ne.symm hp)]
  | connectPeer peerId running dial =>
    simp only [step,connectPeer_snd]
    by_cases hp : peerId = p
    · subst hp
      split_ifs <;> simp
    · have hnot : s.sought (now,.connectPeer peerId running dial) ≠ some p :=
        fun h => hp (sought_eq_some h)
      rw [if_neg hnot]
      split_ifs <;> simp [Finmap.lookup_insert_of_ne _ (Ne.symm hp)]
  | disconnectPeer peerId running =>
    by_cases hp : peerId = p
    · subst hp
      cases running <;> simp [step,disconnectPeer]
    · cases running <;> simp [step,disconnectPeer,hp,HashMap.lookup_modify_ne _ _ (Ne.symm hp)]
  | moderate call => rfl

/-- Every entry is under its own id. -/
def Keyed (s : Libp2pOverlay PeerId) : Prop :=
  ∀ p peer, s.peers.lookup p = some peer → peer.info.id = p

theorem keyed_step {s : Libp2pOverlay PeerId} (h : Keyed s) (e : Nat × Happening PeerId) :
    Keyed (s.step cfg toText e) := by
  intro p peer hpeer
  rw [lookup_step] at hpeer
  have hmap : ∀ f : Peer PeerId → Peer PeerId, (s.peers.lookup p).map f = some peer →
      (∀ x, (f x).info.id = x.info.id) → peer.info.id = p := by
    intro f hsome hf
    obtain ⟨x,hx,rfl⟩ := Option.map_eq_some_iff.mp hsome
    exact (hf x).trans (h p x hx)
  obtain ⟨now,happening⟩ := e
  cases happening with
  | connectionEstablished peerId room =>
    dsimp only at hpeer
    split_ifs at hpeer
    · cases hpeer
      cases hknown : s.peers.lookup p with
      | none => simp [established,hknown,newPeer,Peer.new,Peer.setConnected]
      | some x => simpa [established,hknown,Peer.setConnected] using h p x hknown
    · exact h p peer hpeer
  | connectionClosed peerId room =>
    dsimp only at hpeer
    split_ifs at hpeer
    · exact hmap _ hpeer (fun _ => rfl)
    · exact h p peer hpeer
  | identifyReceived peerId listenAddrs protocols agentVersion protocolVersion =>
    dsimp only at hpeer
    split_ifs at hpeer
    · exact hmap _ hpeer (fun _ => rfl)
    · exact h p peer hpeer
  | connectPeerImpl addr parsed dialed random =>
    dsimp only at hpeer
    split at hpeer
    · split_ifs at hpeer
      · cases hpeer
        rfl
      · exact h p peer hpeer
    · exact h p peer hpeer
  | disconnectPeerImpl peerId =>
    dsimp only at hpeer
    split_ifs at hpeer
    exact h p peer hpeer
  | connectPeer peerId running dial =>
    dsimp only at hpeer
    split_ifs at hpeer
    · cases hpeer
      cases hknown : s.peers.lookup p with
      | none => rfl
      | some x => exact h p x hknown
    · exact h p peer hpeer
  | disconnectPeer peerId running =>
    dsimp only at hpeer
    split_ifs at hpeer
    · exact hmap _ hpeer (fun _ => rfl)
    · exact h p peer hpeer
  | otherEvent => exact h p peer hpeer
  | moderate call => exact h p peer hpeer

def isConnected (s : Libp2pOverlay PeerId) (p : PeerId) : Prop :=
  ∃ peer, s.peers.lookup p = some peer ∧ peer.info.status = .connected

theorem isConnected_step (p : PeerId) (s : Libp2pOverlay PeerId) (e : Nat × Happening PeerId) :
    (s.step cfg toText e).isConnected p ↔
      s.admitted cfg toText e = some p ∨ s.isConnected p ∧ ¬ Leaves p s e := by
  obtain ⟨now,happening⟩ := e
  unfold isConnected
  simp only [lookup_step]
  cases happening with
  | connectionEstablished peerId room =>
    by_cases hp : peerId = p
    · subst hp
      cases hallowed : s.isAllowed cfg toText peerId <;>
        simp [admitted,hallowed,Leaves,sought,dialled,established,Peer.setConnected]
    · have hnot : s.admitted cfg toText (now,.connectionEstablished peerId room) ≠ some p := by
        simp only [admitted]
        split_ifs <;> simp [hp]
      simp [hp,hnot,Leaves,sought,dialled]
  | connectionClosed peerId room =>
    by_cases hp : peerId = p
    · subst hp
      simp [admitted,Leaves,Peer.setDisconnected]
    · simp [hp,admitted,Leaves,sought,dialled]
  | identifyReceived peerId listenAddrs protocols agentVersion protocolVersion =>
    by_cases hp : peerId = p
    · subst hp
      simp [admitted,Leaves,sought,dialled]
    · simp [hp,admitted,Leaves,sought,dialled]
  | otherEvent => simp [admitted,Leaves,sought,dialled]
  | connectPeerImpl addr parsed dialed random =>
    cases hdialled : dialled (now,.connectPeerImpl addr parsed dialed random) with
    | none => simp [admitted,Leaves,sought,hdialled]
    | some x =>
      by_cases hp : x.1 = p
      · subst hp
        have hleaves : Leaves x.1 s (now,.connectPeerImpl addr parsed dialed random) :=
          .inr (.inr (.inr (.inr ⟨x.2,hdialled⟩)))
        simp [admitted,hleaves,Peer.new]
      · have hstays : ¬ Leaves p s (now,.connectPeerImpl addr parsed dialed random) := by
          rintro (⟨room,h⟩ | h | h | h | ⟨multiaddr,h⟩)
          · cases h
          · cases h
          · cases h
          · cases h
          · rw [hdialled,Option.some.injEq] at h
            exact hp (congrArg Prod.fst h)
        simp [hp,admitted,hstays]
  | disconnectPeerImpl peerId =>
    by_cases hp : peerId = p
    · subst hp
      simp [admitted,Leaves]
    · simp [hp,admitted,Leaves,sought,dialled]
  | connectPeer peerId running dial =>
    by_cases hsought : s.sought (now,.connectPeer peerId running dial) = some p
    · simp [hsought,admitted,Leaves,Peer.setConnecting]
    · simp [hsought,admitted,Leaves,dialled]
  | disconnectPeer peerId running =>
    by_cases hp : peerId = p ∧ running = true
    · obtain ⟨rfl,rfl⟩ := hp
      simp [admitted,Leaves,Peer.setDisconnected]
    · simp [hp,admitted,Leaves,sought,dialled]
  | moderate call => simp [admitted,Leaves,sought,dialled]

omit cfg toText in
theorem mem_connectedPeers (order : HashOrder Unit PeerId) {s : Libp2pOverlay PeerId}
    (h : Keyed s) (p : PeerId) :
    p ∈ (s.connectedPeers order).map (·.id) ↔ s.isConnected p := by
  simp only [connectedPeers,List.map_map,List.mem_map,List.mem_filter,decide_eq_true_eq,
    Function.comp_apply]
  constructor
  · rintro ⟨⟨q,peer⟩,⟨hentry,hconnected⟩,rfl⟩
    have hlookup := (order.mem_iter () s.peers _).mp hentry
    have hkey := h q peer hlookup
    exact ⟨peer,by rw [hkey]; exact hlookup,hconnected⟩
  · rintro ⟨peer,hlookup,hconnected⟩
    exact ⟨(p,peer),⟨(order.mem_iter () s.peers _).mpr hlookup,hconnected⟩,h p peer hlookup⟩

/-- Whatever happens, the peers that count as connected are those of which a connection has come at
a time when moderation let it, and has not closed, been given up, been dialled anew or been looked
for since. A peer that is blocked later stays. -/
theorem connected_run (moderation : Option Lists) (es : List (Nat × Happening PeerId))
    (order : HashOrder Unit PeerId) (p : PeerId) :
    p ∈ ((es.foldl (step cfg toText) (new moderation)).connectedPeers order).map (·.id) ↔
      Since (step cfg toText) (fun s e => s.admitted cfg toText e = some p) (Leaves p)
        (new moderation) es := by
  have hkeyed : Keyed (es.foldl (step cfg toText) (new moderation)) :=
    (along_true (step cfg toText) (new moderation) es).invariant Keyed
      (by simp [Keyed,new]) (fun s e h _ => keyed_step cfg toText h e)
  rw [mem_connectedPeers order hkeyed]
  exact holds_iff_since_of_not (P := fun s : Libp2pOverlay PeerId => s.isConnected p)
    (isConnected_step cfg toText p) (by simp [isConnected,new]) es

/-- The addresses that a peer is entered with: the one that is dialled, also if the peer is there
already, or none where a peer that is not there connects or is looked for. -/
def entered (p : PeerId) (s : Libp2pOverlay PeerId) (e : Nat × Happening PeerId) :
    Option (List String) :=
  match dialled e with
  | some (id,multiaddr) => if id = p then some [multiaddr] else none
  | none =>
    if (s.admitted cfg toText e = some p ∨ s.sought e = some p) ∧ p ∉ s.peers then some []
    else none

def addresses (p : PeerId) (s : Libp2pOverlay PeerId) : Option (List String) :=
  (s.peers.lookup p).map (·.info.addresses)

theorem addresses_step (p : PeerId) (s : Libp2pOverlay PeerId) (e : Nat × Happening PeerId)
    (l : List String) :
    (s.step cfg toText e).addresses p = some l ↔ s.entered cfg toText p e = some l ∨
      (s.entered cfg toText p e = none ∧ ¬ e.2 = .disconnectPeerImpl p) ∧
        ∃ l₀, s.addresses p = some l₀ ∧ l = l₀++told p e := by
  have hkept : (s.step cfg toText e).addresses p = s.addresses p →
      s.entered cfg toText p e = none → e.2 ≠ .disconnectPeerImpl p → told p e = [] →
      ((s.step cfg toText e).addresses p = some l ↔ s.entered cfg toText p e = some l ∨
        (s.entered cfg toText p e = none ∧ ¬ e.2 = .disconnectPeerImpl p) ∧
          ∃ l₀, s.addresses p = some l₀ ∧ l = l₀++told p e) := by
    intro hsame hnone hstays htold
    simp [hsame,hnone,hstays,htold,eq_comm]
  have hlookup := lookup_step cfg toText s e p
  obtain ⟨now,happening⟩ := e
  cases happening with
  | connectionEstablished peerId room =>
    dsimp only at hlookup
    by_cases hadmitted : peerId = p ∧ s.isAllowed cfg toText p = true
    · obtain ⟨rfl,hallowed⟩ := hadmitted
      simp only [hallowed,and_self,if_true] at hlookup
      cases hknown : s.peers.lookup peerId with
      | none =>
        have hnew : peerId ∉ s.peers := Finmap.lookup_eq_none.mp hknown
        simp [addresses,hlookup,entered,dialled,admitted,sought,hallowed,hnew,established,hknown,newPeer,
          Peer.new,Peer.setConnected]
      | some peer =>
        have hold : peerId ∈ s.peers := Finmap.mem_of_lookup_eq_some hknown
        simp [addresses,hlookup,entered,dialled,admitted,sought,hallowed,hold,established,hknown,
          Peer.setConnected,told,eq_comm]
    · rw [if_neg hadmitted] at hlookup
      have hsame : (s.step cfg toText (now,.connectionEstablished peerId room)).addresses p =
          s.addresses p := by
        rw [addresses,hlookup,addresses]
      have hnot : s.admitted cfg toText (now,.connectionEstablished peerId room) ≠ some p := by
        simp only [admitted]
        split_ifs with hallowed
        · rintro h
          cases h
          exact hadmitted ⟨rfl,hallowed⟩
        · simp
      exact hkept hsame (by simp [entered,dialled,sought,hnot]) (by simp) rfl
  | connectionClosed peerId room =>
    have hsame : (s.step cfg toText (now,.connectionClosed peerId room)).addresses p =
        s.addresses p := by
      rw [addresses,hlookup,addresses]
      dsimp only
      split_ifs
      · rw [Option.map_map]
        rfl
      · rfl
    exact hkept hsame (by simp [entered,dialled,admitted,sought]) (by simp) rfl
  | identifyReceived peerId listenAddrs protocols agentVersion protocolVersion =>
    have hnone : s.entered cfg toText p (now,.identifyReceived peerId listenAddrs protocols
        agentVersion protocolVersion) = none := by
      simp [entered,dialled,admitted,sought]
    rw [hnone,addresses,addresses,hlookup]
    by_cases hp : peerId = p
    · subst hp
      cases s.peers.lookup peerId <;> simp [told,eq_comm]
    · simp [told,hp,eq_comm]
  | otherEvent => exact hkept rfl (by simp [entered,dialled,admitted,sought]) (by simp) rfl
  | connectPeerImpl addr parsed dialed random =>
    cases hdialled : dialled (now,.connectPeerImpl addr parsed dialed random) with
    | none =>
      have hsame : (s.step cfg toText (now,.connectPeerImpl addr parsed dialed random)).addresses p =
          s.addresses p := by
        rw [addresses,hlookup,addresses]
        simp [hdialled]
      exact hkept hsame (by simp [entered,hdialled,admitted,sought]) (by simp) rfl
    | some x =>
      obtain ⟨id,multiaddr⟩ := x
      by_cases hp : id = p
      · subst hp
        simp [addresses,hlookup,entered,hdialled,Peer.new]
      · have hsame : (s.step cfg toText (now,.connectPeerImpl addr parsed dialed random)).addresses p =
            s.addresses p := by
          rw [addresses,hlookup,addresses]
          simp [hdialled,hp]
        exact hkept hsame (by simp [entered,hdialled,hp]) (by simp) rfl
  | disconnectPeerImpl peerId =>
    by_cases hp : peerId = p
    · subst hp
      simp [addresses,hlookup,entered,dialled,admitted,sought]
    · have hsame : (s.step cfg toText (now,.disconnectPeerImpl peerId)).addresses p =
          s.addresses p := by
        rw [addresses,hlookup,addresses]
        simp [hp]
      exact hkept hsame (by simp [entered,dialled,admitted,sought]) (by simp [hp]) rfl
  | connectPeer peerId running dial =>
    by_cases hsought : s.sought (now,.connectPeer peerId running dial) = some p
    · rw [if_pos hsought] at hlookup
      cases hknown : s.peers.lookup p with
      | none =>
        have hnew : p ∉ s.peers := Finmap.lookup_eq_none.mp hknown
        simp [addresses,hlookup,entered,dialled,hsought,hnew,hknown,Peer.new,Peer.setConnecting]
      | some peer =>
        have hold : p ∈ s.peers := Finmap.mem_of_lookup_eq_some hknown
        simp [addresses,hlookup,entered,dialled,admitted,hold,hknown,Peer.setConnecting,told,
          eq_comm]
    · have hsame : (s.step cfg toText (now,.connectPeer peerId running dial)).addresses p =
          s.addresses p := by
        rw [addresses,hlookup,addresses]
        simp [hsought]
      exact hkept hsame (by simp [entered,dialled,admitted,hsought]) (by simp) rfl
  | disconnectPeer peerId running =>
    have hsame : (s.step cfg toText (now,.disconnectPeer peerId running)).addresses p =
        s.addresses p := by
      rw [addresses,hlookup,addresses]
      dsimp only
      split_ifs
      · rw [Option.map_map]
        rfl
      · rfl
    exact hkept hsame (by simp [entered,dialled,admitted,sought]) (by simp) rfl
  | moderate call => exact hkept rfl (by simp [entered,dialled,admitted,sought]) (by simp) rfl

/-- The addresses of a peer are those that it was entered with and all that it has told since, as
often as it has told them. -/
theorem addresses_run (moderation : Option Lists) (es : List (Nat × Happening PeerId))
    (p : PeerId) (l : List String) :
    (es.foldl (step cfg toText) (new moderation)).addresses p = some l ↔
      ∃ pre e post base, es = pre++e::post ∧
        (pre.foldl (step cfg toText) (new moderation)).entered cfg toText p e = some base ∧
        Along (step cfg toText)
          (fun s e => s.entered cfg toText p e = none ∧ ¬ e.2 = .disconnectPeerImpl p)
          ((pre++[e]).foldl (step cfg toText) (new moderation)) post ∧
        l = base++post.flatMap (told p) :=
  gathered_iff (addresses_step cfg toText p) (by simp [addresses,new]) es l

end Connected

end Libp2pOverlay

end OpenBroadcast.Overlay.Libp2p
