import OpenBroadcast.Framework.Fifo
import OpenBroadcast.Framework.MapSizes
import OpenBroadcast.Framework.Since
import Mathlib.Data.List.Infix

namespace OpenBroadcast.Discovery.Bootstrap

/-- Times are in nanoseconds. -/
structure BootstrapServerConfig where
  listenAddr : String
  port : UInt16
  maxPeers : Nat
  peerExpiration : Nat
  enableRelay : Bool
  maxReservations : Nat
  maxCircuits : Nat

def BootstrapServerConfig.default : BootstrapServerConfig where
  listenAddr := "0.0.0.0"
  port := 9000
  maxPeers := 1000
  peerExpiration := 3600*10^9
  enableRelay := true
  maxReservations := 128
  maxCircuits := 512

/-- The events of the swarm that the server acts on, and the tick of its timer. With a subscription
comes whether gossipsub would let the server subscribe, too. -/
inductive ServerEvent (PeerId Addr : Type) where
  | connectionEstablished (peer : PeerId) (remote : Addr)
  | identifyReceived (peer : PeerId) (listenAddrs : List Addr)
  | subscribed (peer : PeerId) (topic : String) (allowed : Bool)
  | other
  | cleanupTick

/-- What the server asks of its behaviours. -/
inductive SwarmCall (PeerId Addr : Type) where
  | addAddress (peer : PeerId) (addr : Addr)
  | subscribe (topic : String) (allowed : Bool)
  deriving DecidableEq

structure BootstrapServer (PeerId : Type) where
  config : BootstrapServerConfig
  peers : HashMap PeerId Nat
  subscribedStreamTopics : Finset String

namespace BootstrapServer

variable {PeerId Addr : Type} [DecidableEq PeerId]

def new (config : BootstrapServerConfig) : BootstrapServer PeerId := ⟨config,∅,∅⟩

def isStreamTopic (topic : String) : Bool := "stream/".toList.isPrefixOf topic.toList

/-- There is room for the peer, or it is tracked already. -/
def admits (s : BootstrapServer PeerId) (peer : PeerId) : Bool :=
  s.peers.keys.card < s.config.maxPeers || peer ∈ s.peers

def cleanupExpiredPeers (s : BootstrapServer PeerId) (now : Nat) : BootstrapServer PeerId :=
  { s with peers := s.peers.retain (fun _ lastSeen => !(s.config.peerExpiration ≤ now-lastSeen)) }

/-- Whether a subscription is news to the server. -/
def wants (s : BootstrapServer PeerId) (topic : String) : Bool :=
  isStreamTopic topic && topic ∉ s.subscribedStreamTopics

def handleEvent (s : BootstrapServer PeerId) (e : Nat × ServerEvent PeerId Addr) :
    BootstrapServer PeerId :=
  match e.2 with
  | .connectionEstablished _ _ => s
  | .identifyReceived peer _ =>
    if s.admits peer then { s with peers := s.peers.insert peer e.1 } else s
  | .subscribed _ topic allowed =>
    if s.wants topic && allowed then
      { s with subscribedStreamTopics := insert topic s.subscribedStreamTopics }
    else s
  | .other => s
  | .cleanupTick => s.cleanupExpiredPeers e.1

def calls (s : BootstrapServer PeerId) (e : Nat × ServerEvent PeerId Addr) :
    List (SwarmCall PeerId Addr) :=
  match e.2 with
  | .connectionEstablished peer remote => [.addAddress peer remote]
  | .identifyReceived peer listenAddrs => listenAddrs.map (.addAddress peer)
  | .subscribed _ topic allowed => if s.wants topic then [.subscribe topic allowed] else []
  | .other => []
  | .cleanupTick => []

section Tracking

/-- The peer is heard of at that time and there is room for it. -/
def Tracks (peer : PeerId) (t : Nat) (s : BootstrapServer PeerId)
    (e : Nat × ServerEvent PeerId Addr) : Prop :=
  (∃ listenAddrs, e = (t,.identifyReceived peer listenAddrs)) ∧ s.admits peer = true

/-- The peer is heard of once more, or is found silent for too long. -/
def Forgets (config : BootstrapServerConfig) (peer : PeerId) (t : Nat)
    (e : Nat × ServerEvent PeerId Addr) : Prop :=
  (∃ listenAddrs, e.2 = .identifyReceived peer listenAddrs) ∨
    e.2 = .cleanupTick ∧ config.peerExpiration ≤ e.1-t

theorem lookup_handleEvent (peer : PeerId) (t : Nat) (s : BootstrapServer PeerId)
    (e : Nat × ServerEvent PeerId Addr) :
    (s.handleEvent e).peers.lookup peer = some t ↔
      Tracks peer t s e ∨ s.peers.lookup peer = some t ∧ ¬ Forgets s.config peer t e := by
  obtain ⟨now,event⟩ := e
  cases event with
  | connectionEstablished other remote => simp [handleEvent,Tracks,Forgets]
  | identifyReceived other listenAddrs =>
    by_cases hpeer : peer = other
    · subst hpeer
      cases hroom : s.admits peer with
      | true => simp [handleEvent,hroom,Tracks,Forgets]
      | false =>
        have hnone : s.peers.lookup peer = none := by
          rw [admits,Bool.or_eq_false_iff] at hroom
          exact Finmap.lookup_eq_none.mpr (by simpa using hroom.2)
        simp [handleEvent,hroom,Tracks,Forgets,hnone]
    · have hother : (s.handleEvent (now,(.identifyReceived other listenAddrs :
          ServerEvent PeerId Addr))).peers.lookup peer = s.peers.lookup peer := by
        unfold handleEvent
        dsimp only
        split_ifs
        · exact Finmap.lookup_insert_of_ne _ hpeer
        · rfl
      simp [hother,Tracks,Forgets,Ne.symm hpeer]
  | subscribed other topic allowed =>
    have hsame : (s.handleEvent (now,(.subscribed other topic allowed :
        ServerEvent PeerId Addr))).peers = s.peers := by
      unfold handleEvent
      dsimp only
      split_ifs <;> rfl
    simp [hsame,Tracks,Forgets]
  | other => simp [handleEvent,Tracks,Forgets]
  | cleanupTick =>
    simp [handleEvent,cleanupExpiredPeers,HashMap.lookup_retain,Option.filter_eq_some_iff,Tracks,
      Forgets]

/-- The settings stay and the limit is kept. -/
def Within (config : BootstrapServerConfig) (s : BootstrapServer PeerId) : Prop :=
  s.config = config ∧ s.peers.keys.card ≤ config.maxPeers

theorem within_handleEvent {config : BootstrapServerConfig} {s : BootstrapServer PeerId}
    (h : Within config s) (e : Nat × ServerEvent PeerId Addr) :
    Within config (s.handleEvent e) := by
  obtain ⟨rfl,hcard⟩ := h
  obtain ⟨now,event⟩ := e
  cases event with
  | connectionEstablished peer remote => exact ⟨rfl,hcard⟩
  | identifyReceived peer listenAddrs =>
    unfold handleEvent
    dsimp only
    split_ifs with hroom
    · refine ⟨rfl,?_⟩
      show (s.peers.insert peer now).keys.card ≤ s.config.maxPeers
      by_cases hknown : peer ∈ s.peers
      · rwa [HashMap.card_insert_of_mem hknown]
      · have hfree : s.peers.keys.card < s.config.maxPeers := by
          simpa [admits,hknown] using hroom
        rw [HashMap.card_insert_of_notMem hknown]
        exact hfree
    · exact ⟨rfl,hcard⟩
  | subscribed peer topic allowed =>
    unfold handleEvent
    dsimp only
    split_ifs <;> exact ⟨rfl,hcard⟩
  | other => exact ⟨rfl,hcard⟩
  | cleanupTick =>
    refine ⟨rfl,?_⟩
    have hretained := HashMap.card_retain s.peers
      (fun _ lastSeen => !(decide (s.config.peerExpiration ≤ now-lastSeen)))
    have hfewer := hretained.le.trans' (Nat.le_add_right _ _)
    exact hfewer.trans hcard

/-- A peer is tracked with the time it was last heard of, if there was room for it then and no
cleanup has found it silent for too long since. There are never more peers than the limit, and only
a new one finds no room, when there are as many. -/
theorem tracked_run (config : BootstrapServerConfig) (es : List (Nat × ServerEvent PeerId Addr)) :
    let s := es.foldl handleEvent (new config : BootstrapServer PeerId)
    (∀ peer t, s.peers.lookup peer = some t ↔ ∃ pre listenAddrs post,
      es = pre++(t,.identifyReceived peer listenAddrs)::post ∧
      (pre.foldl handleEvent (new config)).admits peer = true ∧
      ∀ e ∈ post, ¬ Forgets config peer t e) ∧
    s.peers.keys.card ≤ config.maxPeers ∧
    ∀ peer, s.admits peer = false ↔ peer ∉ s.peers ∧ s.peers.keys.card = config.maxPeers := by
  intro s
  have hruns : ∀ es : List (Nat × ServerEvent PeerId Addr),
      Within config (es.foldl handleEvent (new config)) := by
    intro es
    exact (along_true handleEvent (new config) es).invariant (Within config)
      ⟨rfl,Nat.zero_le _⟩ (fun s e h _ => within_handleEvent h e)
  obtain ⟨hconfig,hcard⟩ := hruns es
  refine ⟨?_,hcard,?_⟩
  · intro peer t
    have hsince := holds_iff_since_of_not
      (P := fun s : BootstrapServer PeerId => s.peers.lookup peer = some t)
      (fun s (e : Nat × ServerEvent PeerId Addr) => lookup_handleEvent peer t s e)
      (show ¬ (new config : BootstrapServer PeerId).peers.lookup peer = some t by simp [new]) es
    have hkept : ∀ pre post : List (Nat × ServerEvent PeerId Addr),
        Along handleEvent (fun s e => ¬ Forgets s.config peer t e)
          (pre.foldl handleEvent (new config)) post ↔ ∀ e ∈ post, ¬ Forgets config peer t e := by
      intro pre post
      apply along_iff_forall (Within config) (hruns pre) (fun s e h => within_handleEvent h e)
      intro s e h
      rw [h.1]
    refine hsince.trans ?_
    constructor
    · rintro ⟨pre,e,post,rfl,⟨⟨listenAddrs,rfl⟩,hroom⟩,hlater⟩
      exact ⟨pre,listenAddrs,post,rfl,hroom,(hkept _ _).mp hlater⟩
    · rintro ⟨pre,listenAddrs,post,rfl,hroom,hlater⟩
      exact ⟨pre,_,post,rfl,⟨⟨listenAddrs,rfl⟩,hroom⟩,(hkept _ _).mpr hlater⟩
  · intro peer
    have hfull : ¬ s.peers.keys.card < config.maxPeers ↔ s.peers.keys.card = config.maxPeers :=
      ⟨fun h => le_antisymm hcard (not_lt.mp h),fun h => by omega⟩
    rw [admits,hconfig,Bool.or_eq_false_iff,decide_eq_false_iff_not,decide_eq_false_iff_not,hfull]
    exact and_comm

end Tracking

section Hub

/-- How the joins of a topic by peers would go for the server, one after the other. -/
def join (t : String) (e : Nat × ServerEvent PeerId Addr) : Option Bool :=
  match e.2 with
  | .subscribed _ topic allowed => if topic = t then some allowed else none
  | _ => none

def attempt (t : String) : SwarmCall PeerId Addr → Option Bool
  | .subscribe topic allowed => if topic = t then some allowed else none
  | .addAddress _ _ => none

def address : SwarmCall PeerId Addr → Option (PeerId × Addr)
  | .subscribe _ _ => none
  | .addAddress peer addr => some (peer,addr)

/-- The addresses that an event tells. -/
def learned (e : Nat × ServerEvent PeerId Addr) : List (PeerId × Addr) :=
  match e.2 with
  | .connectionEstablished peer remote => [(peer,remote)]
  | .identifyReceived peer listenAddrs => listenAddrs.map (fun addr => (peer,addr))
  | _ => []

def untilAllowed : List Bool → List Bool
  | [] => []
  | true::_ => [true]
  | false::rest => false::untilAllowed rest

theorem mem_handleEvent (t : String) (s : BootstrapServer PeerId)
    (e : Nat × ServerEvent PeerId Addr) : t ∈ (s.handleEvent e).subscribedStreamTopics ↔
      t ∈ s.subscribedStreamTopics ∨ isStreamTopic t = true ∧ join t e = some true := by
  obtain ⟨now,event⟩ := e
  cases event with
  | identifyReceived peer listenAddrs =>
    have hsame : (s.handleEvent (now,(.identifyReceived peer listenAddrs :
        ServerEvent PeerId Addr))).subscribedStreamTopics = s.subscribedStreamTopics := by
      unfold handleEvent
      dsimp only
      split_ifs <;> rfl
    simp [hsame,join]
  | subscribed peer topic allowed =>
    by_cases htopic : topic = t
    · subst htopic
      by_cases hknown : topic ∈ s.subscribedStreamTopics
      · simp [handleEvent,wants,hknown]
      · cases hstream : isStreamTopic topic <;> cases allowed <;>
          simp [handleEvent,wants,hknown,hstream,join]
    · have hother : t ∈ (s.handleEvent (now,(.subscribed peer topic allowed :
          ServerEvent PeerId Addr))).subscribedStreamTopics ↔ t ∈ s.subscribedStreamTopics := by
        unfold handleEvent
        dsimp only
        split_ifs
        · simp [Ne.symm htopic]
        · rfl
      simp [hother,join,htopic]
  | _ => simp [handleEvent,cleanupExpiredPeers,join]

omit [DecidableEq PeerId] in
theorem attempt_calls (t : String) (s : BootstrapServer PeerId)
    (e : Nat × ServerEvent PeerId Addr) : (s.calls e).filterMap (attempt t) =
      if isStreamTopic t = true ∧ t ∉ s.subscribedStreamTopics then (join t e).toList else [] := by
  obtain ⟨now,event⟩ := e
  cases event with
  | identifyReceived peer listenAddrs => simp [calls,attempt,join,List.filterMap_map]
  | subscribed peer topic allowed =>
    by_cases htopic : topic = t
    · subst htopic
      by_cases hwanted : s.wants topic = true
      · have hboth : isStreamTopic topic = true ∧ topic ∉ s.subscribedStreamTopics := by
          simpa [wants] using hwanted
        simp [calls,attempt,join,hwanted,hboth]
      · have hnot : ¬ (isStreamTopic topic = true ∧ topic ∉ s.subscribedStreamTopics) := by
          simpa [wants] using hwanted
        simp [calls,hwanted,hnot]
    · simp only [calls,join,htopic,if_false,Option.toList_none,ite_self]
      split_ifs <;> simp [attempt,htopic]
  | _ => simp [calls,attempt,join]

theorem attempts_run (t : String) (s : BootstrapServer PeerId)
    (es : List (Nat × ServerEvent PeerId Addr)) :
    (collect handleEvent calls s es).filterMap (attempt t) =
      if isStreamTopic t = true ∧ t ∉ s.subscribedStreamTopics then
        untilAllowed (es.filterMap (join t)) else [] := by
  induction es generalizing s with
  | nil => simp [untilAllowed]
  | cons e es ih =>
    rw [collect_cons,List.filterMap_append,attempt_calls,ih (s.handleEvent e),List.filterMap_cons]
    simp only [mem_handleEvent]
    by_cases hwanted : isStreamTopic t = true ∧ t ∉ s.subscribedStreamTopics
    · obtain ⟨hstream,hnew⟩ := hwanted
      cases hjoin : join t e with
      | none => simp [hstream,hnew]
      | some allowed => cases allowed <;> simp [hstream,hnew,untilAllowed]
    · have hlater : ¬ (isStreamTopic t = true ∧
          ¬ (t ∈ s.subscribedStreamTopics ∨ isStreamTopic t = true ∧ join t e = some true)) :=
        fun h => hwanted ⟨h.1,fun hknown => h.2 (.inl hknown)⟩
      rw [if_neg hwanted,if_neg hwanted,if_neg hlater]
      rfl

theorem subscribed_run (t : String) (s : BootstrapServer PeerId)
    (es : List (Nat × ServerEvent PeerId Addr)) :
    t ∈ (es.foldl handleEvent s).subscribedStreamTopics ↔
      t ∈ s.subscribedStreamTopics ∨ isStreamTopic t = true ∧ true ∈ es.filterMap (join t) := by
  induction es generalizing s with
  | nil => simp
  | cons e es ih =>
    rw [List.foldl_cons,ih,mem_handleEvent,List.filterMap_cons,or_assoc,← and_or_left]
    cases join t e with
    | none => simp
    | some allowed => cases allowed <;> simp

omit [DecidableEq PeerId] in
theorem address_calls (s : BootstrapServer PeerId) (e : Nat × ServerEvent PeerId Addr) :
    (s.calls e).filterMap address = learned e := by
  obtain ⟨now,event⟩ := e
  cases event with
  | identifyReceived peer listenAddrs =>
    simp [calls,learned,List.filterMap_map,Function.comp_def,address]
  | subscribed peer topic allowed =>
    simp only [calls,learned]
    split_ifs <;> rfl
  | _ => rfl

/-- The server asks to be let into a stream topic each time that a peer joins it, until it is, and
never again; it has never asked for another topic, and stays in those it is in. What addresses it
hands on to the routing table does not depend on whether it tracks their peers. -/
theorem hub_run (config : BootstrapServerConfig) (es : List (Nat × ServerEvent PeerId Addr)) :
    let s := es.foldl handleEvent (new config : BootstrapServer PeerId)
    let asked := collect handleEvent calls (new config) es
    (∀ t, asked.filterMap (attempt t) =
      if isStreamTopic t = true then untilAllowed (es.filterMap (join t)) else []) ∧
    (∀ t, t ∈ s.subscribedStreamTopics ↔
      isStreamTopic t = true ∧ true ∈ es.filterMap (join t)) ∧
    asked.filterMap address = es.flatMap learned := by
  intro s asked
  refine ⟨?_,?_,?_⟩
  · intro t
    have hnew : t ∉ (new config : BootstrapServer PeerId).subscribedStreamTopics := by simp [new]
    have hattempts := attempts_run t (new config) es
    simpa only [hnew,not_false_eq_true,and_true] using hattempts
  · intro t
    have hnew : t ∉ (new config : BootstrapServer PeerId).subscribedStreamTopics := by simp [new]
    exact (subscribed_run t (new config) es).trans (or_iff_right hnew)
  · have haddresses := collect_filterMap handleEvent calls address (new config) es
    simp only [address_calls] at haddresses
    exact haddresses.trans (collect_eq_flatMap handleEvent learned (new config) es)

end Hub

end BootstrapServer

end OpenBroadcast.Discovery.Bootstrap
