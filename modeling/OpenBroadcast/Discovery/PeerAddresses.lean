import OpenBroadcast.Discovery.Dht
import OpenBroadcast.Framework.Run

namespace OpenBroadcast.Discovery.Addresses

inductive IpAddr where
  | v4 (addr : BitVec 32)
  | v6 (addr : BitVec 128)
  deriving DecidableEq, Repr

structure SocketAddr where
  ip : IpAddr
  port : UInt16
  deriving DecidableEq, Repr

/-- The components of a multiaddress; those that no socket address is made of have only their
text. -/
inductive Protocol where
  | ip4 (addr : BitVec 32)
  | ip6 (addr : BitVec 128)
  | tcp (port : UInt16)
  | other (text : String)
  deriving DecidableEq, Repr

abbrev Multiaddr := List Protocol

/-- The last address and the last port count. -/
def extractSocketAddr (addr : Multiaddr) : Option SocketAddr :=
  let found := addr.foldl (fun (found : Option IpAddr × Option UInt16) component =>
    match component with
    | .ip4 addr => (some (.v4 addr),found.2)
    | .ip6 addr => (some (.v6 addr),found.2)
    | .tcp port => (found.1,some port)
    | .other _ => found) (none,none)
  match found with
  | (some ip,some port) => some ⟨ip,port⟩
  | _ => none

inductive ConnectionStatus where
  | disconnected
  | connected
  deriving DecidableEq, Repr

structure PeerInfo where
  id : List UInt8
  addresses : List SocketAddr
  protocols : List String
  firstSeen : Option Nat
  lastSeen : Option Nat
  connectionStatus : ConnectionStatus
  deriving DecidableEq, Repr

def PeerInfo.forget (info : PeerInfo) : Dht.PeerInfo := ⟨info.id,info.protocols⟩

/-- The events of the swarm and of Kademlia, with the addresses of the routing table. -/
inductive SwarmEvent (PeerId : Type) where
  | closestPeers (query : Nat) (peers : List PeerId)
  | queryProgressed (query : Nat)
  | routingUpdated (peer : PeerId) (addresses : List Multiaddr)
  | connectionEstablished (peer : PeerId)
  | connectionClosed (peer : PeerId)
  | other
  deriving DecidableEq, Repr

def SwarmEvent.forget {PeerId : Type} : SwarmEvent PeerId → Dht.SwarmEvent PeerId
  | .closestPeers query peers => .closestPeers query peers
  | .queryProgressed query => .queryProgressed query
  | .routingUpdated peer _ => .routingUpdated peer
  | .connectionEstablished peer => .connectionEstablished peer
  | .connectionClosed peer => .connectionClosed peer
  | .other => .other

/-- Peers are told apart by their bytes. -/
structure PeerKeys (PeerId : Type) extends Dht.PeerIds PeerId where
  toBytes_injective : Function.Injective toBytes

/-- The cache of a `DhtDiscovery`. Recorded besides: the socket addresses in the last
`RoutingUpdated` event of each peer. -/
structure PeerCache (PeerId : Type) where
  peers : HashMap (List UInt8) PeerInfo
  routed : HashMap PeerId (List SocketAddr)

namespace PeerCache

variable {PeerId : Type} [DecidableEq PeerId] (keys : PeerKeys PeerId)

omit [DecidableEq PeerId] in
def new : PeerCache PeerId := ⟨∅,∅⟩

omit [DecidableEq PeerId] in
def storePeer (s : PeerCache PeerId) (peer : PeerId) (addresses : List SocketAddr)
    (status : ConnectionStatus) (now : Nat) : PeerCache PeerId :=
  let info : PeerInfo := ⟨keys.toBytes peer,addresses,[],some now,some now,status⟩
  { s with peers := s.peers.insert info.id info }

/-- Only `RoutingUpdated` comes with addresses. -/
def step (s : PeerCache PeerId) : Nat × SwarmEvent PeerId → PeerCache PeerId
  | (now,.closestPeers _ peers) =>
    peers.foldl (fun s peer => s.storePeer keys peer [] .disconnected now) s
  | (now,.routingUpdated peer addresses) =>
    let socketAddrs := addresses.filterMap extractSocketAddr
    { s.storePeer keys peer socketAddrs .disconnected now with
      routed := s.routed.insert peer socketAddrs }
  | (now,.connectionEstablished peer) => s.storePeer keys peer [] .connected now
  | (_,.queryProgressed _) | (_,.connectionClosed _) | (_,.other) => s

/-- The cached entry of each peer has the socket addresses of its last `RoutingUpdated` event. -/
def Remembers (s : PeerCache PeerId) : Prop :=
  ∀ peer addresses, s.routed.lookup peer = some addresses →
    ∃ info, s.peers.lookup (keys.toBytes peer) = some info ∧ ∀ a ∈ addresses, a ∈ info.addresses

end PeerCache

/-- The peers that an event stores without addresses. -/
def SwarmEvent.bare {PeerId : Type} : SwarmEvent PeerId → List PeerId
  | .closestPeers _ peers => peers
  | .connectionEstablished peer => [peer]
  | .queryProgressed _ | .routingUpdated _ _ | .connectionClosed _ | .other => []

namespace PeerCache

variable {PeerId : Type} [DecidableEq PeerId] {keys : PeerKeys PeerId} {s : PeerCache PeerId}

/-- No peer that is stored without addresses has had one in its last `RoutingUpdated` event. -/
def NothingToForget (s : PeerCache PeerId) (e : Nat × SwarmEvent PeerId) : Prop :=
  ∀ peer ∈ e.2.bare, ∀ addresses, s.routed.lookup peer = some addresses → addresses = []

section Stores

variable {now : Nat} {status : ConnectionStatus}

theorem lookup_storePeer (peer p : PeerId) (addresses : List SocketAddr) :
    (s.storePeer keys peer addresses status now).peers.lookup (keys.toBytes p) =
      if p = peer then some ⟨keys.toBytes peer,addresses,[],some now,some now,status⟩
      else s.peers.lookup (keys.toBytes p) := by
  split_ifs with hp
  · rw [hp]
    exact Finmap.lookup_insert _
  · exact Finmap.lookup_insert_of_ne _ (fun h => hp (keys.toBytes_injective h))

omit [DecidableEq PeerId] in
@[simp] theorem routed_storePeers (peers : List PeerId) :
    (peers.foldl (fun s peer => s.storePeer keys peer [] status now) s).routed = s.routed := by
  induction peers generalizing s with
  | nil => rfl
  | cons peer peers ih =>
    rw [List.foldl_cons,ih]
    rfl

theorem lookup_storePeers (peers : List PeerId) (p : PeerId) :
    (peers.foldl (fun s peer => s.storePeer keys peer [] status now) s).peers.lookup
      (keys.toBytes p) =
      if p ∈ peers then some ⟨keys.toBytes p,[],[],some now,some now,status⟩
      else s.peers.lookup (keys.toBytes p) := by
  induction peers generalizing s with
  | nil => simp
  | cons peer peers ih =>
    rw [List.foldl_cons,ih,lookup_storePeer]
    by_cases hin : p ∈ peers
    · simp [hin]
    · by_cases hp : p = peer
      · simp [hp]
      · simp [hin,hp]

/-- Storing peers without addresses keeps what is remembered exactly if there was nothing. -/
theorem remembers_storePeers_iff (h : s.Remembers keys) (peers : List PeerId) :
    (∀ peer ∈ peers, ∀ addresses, s.routed.lookup peer = some addresses → addresses = []) ↔
      (peers.foldl (fun s peer => s.storePeer keys peer [] status now) s).Remembers keys := by
  constructor
  · intro hnothing peer addresses hrouted
    rw [routed_storePeers] at hrouted
    rw [lookup_storePeers]
    by_cases hpeer : peer ∈ peers
    · rw [if_pos hpeer,hnothing peer hpeer addresses hrouted]
      exact ⟨_,rfl,List.forall_mem_nil _⟩
    · rw [if_neg hpeer]
      exact h peer addresses hrouted
  · intro hkept peer hpeer addresses hrouted
    have hlost := hkept peer addresses (by rw [routed_storePeers]; exact hrouted)
    rw [lookup_storePeers,if_pos hpeer] at hlost
    obtain ⟨info,hinfo,hall⟩ := hlost
    cases hinfo
    exact List.eq_nil_iff_forall_not_mem.mpr (fun a ha => List.not_mem_nil (hall a ha))

end Stores

theorem remembers_routingUpdated (h : s.Remembers keys) (now : Nat) (peer : PeerId)
    (addresses : List Multiaddr) :
    (s.step keys (now,.routingUpdated peer addresses)).Remembers keys := by
  intro p known hrouted
  have hlookup : (s.storePeer keys peer (addresses.filterMap extractSocketAddr) .disconnected
      now).peers.lookup (keys.toBytes p) = _ :=
    lookup_storePeer peer p (addresses.filterMap extractSocketAddr)
  simp only [step] at hrouted ⊢
  rw [hlookup]
  by_cases hp : p = peer
  · subst hp
    rw [Finmap.lookup_insert] at hrouted
    cases hrouted
    rw [if_pos rfl]
    exact ⟨_,rfl,fun a ha => ha⟩
  · rw [Finmap.lookup_insert_of_ne _ hp] at hrouted
    rw [if_neg hp]
    exact h p known hrouted

/-- An event keeps what is remembered exactly if it stores no peer over its addresses. -/
theorem step_remembers_iff (h : s.Remembers keys) (e : Nat × SwarmEvent PeerId) :
    s.NothingToForget e ↔ (s.step keys e).Remembers keys := by
  obtain ⟨now,e⟩ := e
  have hnone : ∀ e : SwarmEvent PeerId, e.bare = [] → s.NothingToForget (now,e) := by
    intro e he peer hpeer
    rw [he] at hpeer
    cases hpeer
  cases e with
  | closestPeers query peers => exact remembers_storePeers_iff h peers
  | connectionEstablished peer =>
    show _ ↔ ([peer].foldl (fun s peer => s.storePeer keys peer [] .connected now) s).Remembers keys
    exact remembers_storePeers_iff h [peer]
  | routingUpdated peer addresses =>
    exact iff_of_true (hnone _ rfl) (remembers_routingUpdated h now peer addresses)
  | queryProgressed query => exact iff_of_true (hnone _ rfl) h
  | connectionClosed peer => exact iff_of_true (hnone _ rfl) h
  | other => exact iff_of_true (hnone _ rfl) h

/-- All along the events of a service the addresses are remembered exactly if no event stores a
peer over them. -/
theorem addresses_remembered_iff (keys : PeerKeys PeerId) (es : List (Nat × SwarmEvent PeerId)) :
    (∀ pre, pre <+: es → (pre.foldl (step keys) new).Remembers keys) ↔
      Along (step keys) NothingToForget new es := by
  refine (along_iff_prefixes (Remembers keys) ?_ ?_).symm
  · intro peer addresses hrouted
    rw [new,Finmap.lookup_empty] at hrouted
    cases hrouted
  · exact fun s e h => step_remembers_iff h e

/-- Peers whose ids are single bytes. -/
def byteKeys : PeerKeys UInt8 where
  fromBytes b := match b with
    | [x] => .ok x
    | _ => .error "Invalid length"
  toBytes x := [x]
  toText x := toString x.toNat
  toBytes_injective _ _ h := (List.cons.inj h).1

/-- A connection to a peer is established after its address is known. -/
theorem connection_forgets_address :
    let es : List (Nat × SwarmEvent UInt8) :=
      [(0,.routingUpdated 7 [[.ip4 0x7f000001#32,.tcp 4001]]),(1,.connectionEstablished 7)]
    let s := es.foldl (step byteKeys) new
    s.routed.lookup 7 = some [⟨.v4 0x7f000001#32,4001⟩] ∧
    s.peers.lookup [7] = some ⟨[7],[],[],some 1,some 1,.connected⟩ ∧ ¬ s.Remembers byteKeys := by
  intro es s
  have hrouted : s.routed.lookup 7 = some [⟨.v4 0x7f000001#32,4001⟩] := rfl
  have hstored : s.peers.lookup [7] = some ⟨[7],[],[],some 1,some 1,.connected⟩ := rfl
  refine ⟨hrouted,hstored,?_⟩
  intro h
  obtain ⟨info,hinfo,hall⟩ := h 7 _ hrouted
  have hkey : byteKeys.toBytes 7 = [7] := rfl
  rw [hkey,hstored] at hinfo
  cases hinfo
  exact List.not_mem_nil (hall _ List.mem_cons_self)

end PeerCache

section Service

open Dht

variable {PeerId : Type} [DecidableEq PeerId] {keys : PeerKeys PeerId} {s : PeerCache PeerId}
  {t : DhtDiscovery PeerId}

/-- The cache of a service is this cache without what is not looked at there. -/
def Abstracts (t : DhtDiscovery PeerId) (s : PeerCache PeerId) : Prop :=
  ∀ id, t.peers.lookup id = (s.peers.lookup id).map PeerInfo.forget

omit [DecidableEq PeerId] in
theorem Abstracts.storePeer (h : Abstracts t s) (peer : PeerId) (addresses : List SocketAddr)
    (status : ConnectionStatus) (now : Nat) (event : DiscoveryEvent) :
    Abstracts ([.storePeer ⟨keys.toBytes peer,[]⟩,.send event].foldl DhtDiscovery.perform t)
      (s.storePeer keys peer addresses status now) := by
  intro id
  show (t.peers.insert (keys.toBytes peer) ⟨keys.toBytes peer,[]⟩).lookup id =
    ((s.peers.insert (keys.toBytes peer) _).lookup id).map PeerInfo.forget
  by_cases hid : id = keys.toBytes peer
  · rw [hid,Finmap.lookup_insert,Finmap.lookup_insert]
    rfl
  · rw [Finmap.lookup_insert_of_ne _ hid,Finmap.lookup_insert_of_ne _ hid]
    exact h id

/-- The swarm task of a service does to its cache what the event does here. -/
theorem Abstracts.step (h : Abstracts t s) (e : Nat × SwarmEvent PeerId) :
    Abstracts ((e.2.forget.actions keys.toPeerIds).foldl DhtDiscovery.perform t)
      (s.step keys e) := by
  obtain ⟨now,e⟩ := e
  cases e with
  | closestPeers query peers =>
    simp only [SwarmEvent.forget,Dht.SwarmEvent.actions,List.foldl_append]
    suffices hstored : Abstracts ((peers.flatMap (fun p => [.storePeer ⟨keys.toBytes p,[]⟩,
        .send (.peerDiscovered ⟨keys.toBytes p,[]⟩)])).foldl DhtDiscovery.perform t)
        (s.step keys (now,.closestPeers query peers)) from hstored
    induction peers generalizing s t with
    | nil => exact h
    | cons peer peers ih =>
      rw [List.flatMap_cons,List.foldl_append]
      exact ih (h.storePeer peer [] .disconnected now (.peerDiscovered ⟨keys.toBytes peer,[]⟩))
  | routingUpdated peer addresses =>
    exact h.storePeer peer (addresses.filterMap extractSocketAddr) .disconnected now
      (.peerUpdated ⟨keys.toBytes peer,[]⟩)
  | connectionEstablished peer =>
    exact h.storePeer peer [] .connected now (.peerDiscovered ⟨keys.toBytes peer,[]⟩)
  | queryProgressed query => exact h
  | connectionClosed peer => exact h
  | other => exact h

end Service

end OpenBroadcast.Discovery.Addresses
