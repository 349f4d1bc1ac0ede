import Mathlib.Algebra.Order.BigOperators.Group.Finset
import OpenBroadcast.Framework.MapSizes
import OpenBroadcast.Signaling.Membership

namespace OpenBroadcast.Signaling
namespace Server

section Rooms

/-- A room is within its limit and lists somebody, and nobody twice. -/
structure RoomOk (cfg : WebServerConfig) (peers : List SignalingPeer) : Prop where
  nonempty : peers ≠ []
  length : peers.length ≤ cfg.maxPeersPerStream
  nodup : (peerIds peers).Nodup

structure RoomsOk (cfg : WebServerConfig) (streams : HashMap Text (List SignalingPeer)) : Prop where
  rooms : streams.keys.card ≤ cfg.maxStreamRooms
  room : ∀ sid peers, streams.lookup sid = some peers → RoomOk cfg peers

variable {cfg : WebServerConfig} {streams streams' : HashMap Text (List SignalingPeer)}

theorem length_peerIds (peers : List SignalingPeer) : (peerIds peers).length = peers.length :=
  List.length_map _

theorem peerIds_others_sublist (peers : List SignalingPeer) (p : Text) :
    (peerIds (others peers p)).Sublist (peerIds peers) :=
  List.filter_sublist.map _

theorem length_others_lt {peers : List SignalingPeer} {p : Text} (hp : p ∈ peerIds peers) :
    (others peers p).length < peers.length := by
  obtain ⟨q,hq,hqp⟩ := mem_peerIds.mp hp
  apply List.length_filter_lt_length_iff_exists.mpr
  exact ⟨q,hq,by simp [hqp]⟩

/-- Rooms that were emptied are gone, and from the others peers were only taken. -/
theorem RoomsOk.fewer (h : RoomsOk cfg streams)
    (hfewer : ∀ sid peers, streams'.lookup sid = some peers → peers ≠ [] ∧
      ∃ old, streams.lookup sid = some old ∧ (peerIds peers).Sublist (peerIds old)) :
    RoomsOk cfg streams' := by
  constructor
  · have hsub : streams'.keys ⊆ streams.keys := by
      intro sid hsid
      obtain ⟨peers,hpeers⟩ := Finmap.mem_iff.mp (Finmap.mem_keys.mp hsid)
      obtain ⟨_,old,hold,_⟩ := hfewer sid peers hpeers
      exact Finmap.mem_keys.mpr (Finmap.mem_of_lookup_eq_some hold)
    exact (Finset.card_le_card hsub).trans h.rooms
  · intro sid peers hpeers
    obtain ⟨hne,old,hold,hids⟩ := hfewer sid peers hpeers
    have hok := h.room sid old hold
    have hlength := hids.length_le
    rw [length_peerIds,length_peerIds] at hlength
    exact ⟨hne,hlength.trans hok.length,hids.nodup hok.nodup⟩

theorem keys_insert_of_lookup {sid : Text} {old : List SignalingPeer}
    (hsid : streams.lookup sid = some old) (peers : List SignalingPeer) :
    (streams.insert sid peers).keys = streams.keys :=
  HashMap.keys_insert_of_mem (Finmap.mem_of_lookup_eq_some hsid) peers

theorem card_rooms_enter (h : streams.keys.card ≤ cfg.maxStreamRooms) {p sid : Text}
    (room : Admits cfg streams p sid) (peers : List SignalingPeer) :
    (streams.insert sid peers).keys.card ≤ cfg.maxStreamRooms := by
  unfold Admits at room
  cases hsid : streams.lookup sid with
  | none =>
    rw [hsid] at room
    rw [HashMap.keys_insert]
    exact (Finset.card_insert_le _ _).trans room
  | some old =>
    rw [keys_insert_of_lookup hsid]
    exact h

/-- The check and the insertion of a join are one section, so a room that had a place has one
for the peer. -/
theorem RoomsOk.enter (h : RoomsOk cfg streams) {p sid : Text} (pub : Bool)
    (hone : 1 ≤ cfg.maxPeersPerStream) (room : Admits cfg streams p sid) :
    RoomsOk cfg (streams.insert sid
      (others ((streams.lookup sid).getD []) p++[SignalingPeer.mk p pub false])) := by
  constructor
  · exact card_rooms_enter h.rooms room _
  · unfold Admits at room
    intro x peers hpeers
    by_cases hx : x = sid
    · subst hx
      rw [Finmap.lookup_insert] at hpeers
      cases hpeers
      have hids : peerIds (others ((streams.lookup x).getD []) p++[SignalingPeer.mk p pub false]) =
          peerIds (others ((streams.lookup x).getD []) p)++[p] := by simp [peerIds]
      have hnew : p ∉ peerIds (others ((streams.lookup x).getD []) p) := by
        intro hp
        exact ((mem_peerIds_others p p).mp hp).2 rfl
      refine ⟨by simp,?_,?_⟩
      · rw [List.length_append,List.length_singleton]
        cases hsid : streams.lookup x with
        | none => exact hone
        | some old =>
          rw [hsid] at room
          rw [Option.getD_some]
          have hle : (others old p).length ≤ old.length := List.length_filter_le _ _
          rcases room with hp | hlt
          · have := length_others_lt hp
            have := (h.room x old hsid).length
            omega
          · omega
      · rw [hids]
        have hold : (peerIds (others ((streams.lookup x).getD []) p)).Nodup := by
          cases hsid : streams.lookup x with
          | none => exact List.nodup_nil
          | some old => exact (peerIds_others_sublist old p).nodup (h.room x old hsid).nodup
        apply List.Nodup.append hold (List.nodup_singleton _)
        intro q hq hq'
        rw [List.mem_singleton] at hq'
        rw [hq'] at hq
        exact hnew hq
    · rw [Finmap.lookup_insert_of_ne _ hx] at hpeers
      exact h.room x peers hpeers

theorem RoomsOk.update (h : RoomsOk cfg streams) {sid : Text} {peers : List SignalingPeer}
    (hsid : streams.lookup sid = some peers) (p : Text) (pub relay : Bool) :
    RoomsOk cfg (streams.insert sid (updatePeer p pub relay peers)) := by
  have hids := peerIds_updatePeer p pub relay peers
  have hlength : (updatePeer p pub relay peers).length = peers.length := by
    rw [← length_peerIds,hids,length_peerIds]
  have hok := h.room sid peers hsid
  constructor
  · rw [keys_insert_of_lookup hsid]
    exact h.rooms
  · intro x new hnew
    by_cases hx : x = sid
    · subst hx
      rw [Finmap.lookup_insert] at hnew
      cases hnew
      refine ⟨?_,by rw [hlength]; exact hok.length,by rw [hids]; exact hok.nodup⟩
      intro hnil
      rw [hnil,List.length_nil] at hlength
      exact hok.nonempty (List.length_eq_zero_iff.mp hlength.symm)
    · rw [Finmap.lookup_insert_of_ne _ hx] at hnew
      exact h.room x new hnew

/-- Taking a peer out of a room, which goes if it is then empty. -/
theorem sublist_of_filter {room : Option (List SignalingPeer)} {peers : List SignalingPeer}
    {p : Text} (h : (room.map (fun peers => others peers p)).filter (fun peers => !peers.isEmpty) =
      some peers) :
    peers ≠ [] ∧ ∃ old, room = some old ∧ (peerIds peers).Sublist (peerIds old) := by
  obtain ⟨hmap,hne⟩ := Option.filter_eq_some_iff.mp h
  obtain ⟨old,hold,rfl⟩ := Option.map_eq_some_iff.mp hmap
  exact ⟨by simpa using hne,old,hold,peerIds_others_sublist old p⟩

theorem step_roomsOk {s : Server} (hone : 1 ≤ cfg.maxPeersPerStream) (h : RoomsOk cfg s.streams)
    (e : ServerEvent) : RoomsOk cfg (s.step cfg e).streams := by
  have hchange := step_change cfg s e
  change RoomsOk cfg (s.step cfg e).registry.streams
  generalize (s.step cfg e).registry = r at hchange ⊢
  cases hchange with
  | enter _ _ room => exact h.enter _ hone room
  | @update k c sid peers pub relay _ _ _ _ hsid _ => exact h.update hsid c.peerId pub relay
  | @leave k c _ _ _ _ _ =>
    apply h.fewer
    intro x peers hpeers
    rw [lookup_withoutPeer] at hpeers
    split_ifs at hpeers
    · exact sublist_of_filter hpeers
    · exact ⟨(h.room x peers hpeers).nonempty,peers,hpeers,List.Sublist.refl _⟩
  | evict =>
    apply h.fewer
    intro x peers hpeers
    rw [lookup_evicted] at hpeers
    exact sublist_of_filter hpeers
  | sweep =>
    apply h.fewer
    intro x peers hpeers
    rw [lookup_idleCleanup] at hpeers
    have hold := (Option.filter_eq_some_iff.mp hpeers).1
    exact ⟨(h.room x peers hold).nonempty,peers,hold,List.Sublist.refl _⟩
  | _ => exact h

theorem run_roomsOk (cfg : WebServerConfig) (hone : 1 ≤ cfg.maxPeersPerStream)
    (moderation : Option ModerationManager) (es : List ServerEvent) :
    RoomsOk cfg (run cfg moderation es).streams := by
  apply (along_true (step cfg) (new moderation) es).invariant (fun s => RoomsOk cfg s.streams)
  · exact ⟨Nat.zero_le _,by simp [new]⟩
  · exact fun s e h _ => step_roomsOk hone h e

/-- The limits of the rooms hold in every run. -/
theorem run_rooms_ok (cfg : WebServerConfig) (hone : 1 ≤ cfg.maxPeersPerStream)
    (moderation : Option ModerationManager) (es : List ServerEvent) :
    (run cfg moderation es).streams.keys.card ≤ cfg.maxStreamRooms ∧
    ∀ sid peers, (run cfg moderation es).streams.lookup sid = some peers →
      peers ≠ [] ∧ peers.length ≤ cfg.maxPeersPerStream ∧ (peerIds peers).Nodup := by
  have h := run_roomsOk cfg hone moderation es
  exact ⟨h.rooms,fun sid peers hsid =>
    ⟨(h.room sid peers hsid).nonempty,(h.room sid peers hsid).length,(h.room sid peers hsid).nodup⟩⟩

theorem run_rooms_ok_joinTwice :
    1 ≤ Network.sampleConfig.maxPeersPerStream ∧
    (run Network.sampleConfig none joinTwice).streams.keys.card ≤ 20 ∧
    ∀ sid peers, (run Network.sampleConfig none joinTwice).streams.lookup sid = some peers →
      peers ≠ [] ∧ peers.length ≤ 50 ∧ (peerIds peers).Nodup :=
  ⟨by decide,run_rooms_ok Network.sampleConfig (by decide) none joinTwice⟩

end Rooms

section Total

/-- The peers in all rooms. -/
def listedPeers (streams : HashMap Text (List SignalingPeer)) : Finset Text :=
  streams.keys.biUnion (fun sid => ((streams.lookup sid).elim [] peerIds).toFinset)

theorem mem_listedPeers {streams : HashMap Text (List SignalingPeer)} {p : Text} :
    p ∈ listedPeers streams ↔ ∃ sid, Listed streams p sid := by
  unfold listedPeers
  rw [Finset.mem_biUnion]
  constructor
  · intro hyp
    obtain ⟨sid,hsid,hp⟩ := hyp
    obtain ⟨peers,hpeers⟩ := Finmap.mem_iff.mp (Finmap.mem_keys.mp hsid)
    rw [hpeers,List.mem_toFinset] at hp
    exact ⟨sid,peers,hpeers,hp⟩
  · intro hyp
    obtain ⟨sid,hl⟩ := hyp
    refine ⟨sid,hl.mem_keys,?_⟩
    obtain ⟨peers,hpeers,hp⟩ := hl
    rw [hpeers,List.mem_toFinset]
    exact hp

variable {cfg : WebServerConfig} {s : Server} {maxSignalingPeers : Nat}

/-- A join that brings a new peer into the rooms finds fewer than `max_signaling_peers` there. No
part of the server reads this limit. -/
def BelowCap (cfg : WebServerConfig) (maxSignalingPeers : Nat) (s : Server) : ServerEvent → Prop
  | .advance k => ∀ c ∈ s.seats[k]?, ∀ sid ∈ c.handler.joins, Admits cfg s.streams c.peerId sid →
      c.peerId ∉ listedPeers s.streams → (listedPeers s.streams).card < maxSignalingPeers
  | _ => True

theorem listedPeers_enter (streams : HashMap Text (List SignalingPeer)) (p sid : Text) (pub : Bool) :
    listedPeers (streams.insert sid
      (others ((streams.lookup sid).getD []) p++[SignalingPeer.mk p pub false])) =
      insert p (listedPeers streams) := by
  ext q
  rw [mem_listedPeers,Finset.mem_insert,mem_listedPeers]
  constructor
  · intro hyp
    obtain ⟨x,hx⟩ := hyp
    rcases (listed_enter streams p q sid x pub).mp hx with hx | ⟨hq,_⟩
    · exact Or.inr ⟨x,hx⟩
    · exact Or.inl hq
  · intro hyp
    rcases hyp with hq | ⟨x,hx⟩
    · exact ⟨sid,(listed_enter streams p q sid sid pub).mpr (Or.inr ⟨hq,rfl⟩)⟩
    · exact ⟨x,(listed_enter streams p q sid x pub).mpr (Or.inl hx)⟩

theorem card_listedPeers_le {streams streams' : HashMap Text (List SignalingPeer)}
    (h : ∀ q x, Listed streams' q x → Listed streams q x) :
    (listedPeers streams').card ≤ (listedPeers streams).card := by
  apply Finset.card_le_card
  intro q hq
  obtain ⟨x,hx⟩ := mem_listedPeers.mp hq
  exact mem_listedPeers.mpr ⟨x,h q x hx⟩

/-- One step keeps the number of peers within the limit exactly if it meets the condition. -/
theorem belowCap_iff_step (h : (listedPeers s.streams).card ≤ maxSignalingPeers)
    (e : ServerEvent) :
    BelowCap cfg maxSignalingPeers s e ↔
      (listedPeers (s.step cfg e).streams).card ≤ maxSignalingPeers := by
  constructor
  · intro below
    have hchange := step_change cfg s e
    change (listedPeers (s.step cfg e).registry.streams).card ≤ maxSignalingPeers
    generalize (s.step cfg e).registry = r at hchange ⊢
    cases hchange with
    | @enter k c sid pub hk hh room =>
      have hjoins : sid ∈ c.handler.joins := by rw [hh]; rfl
      dsimp only
      rw [listedPeers_enter]
      by_cases hp : c.peerId ∈ listedPeers s.streams
      · rw [Finset.insert_eq_of_mem hp]
        exact h
      · rw [Finset.card_insert_of_notMem hp]
        exact below c hk sid hjoins room hp
    | @update k c sid peers pub relay _ _ _ _ hsid _ =>
      exact (card_listedPeers_le (fun q x hq =>
        (listed_update s.streams c.peerId q sid x hsid pub relay).mp hq)).trans h
    | @leave k c _ _ _ _ _ =>
      exact (card_listedPeers_le (fun q x hq =>
        ((listed_withoutPeer s.streams c.peerId q x c.currentStreamId).mp hq).1)).trans h
    | evict =>
      exact (card_listedPeers_le (fun q x hq => ((listed_evicted s.streams _ q x).mp hq).1)).trans h
    | sweep => exact (card_listedPeers_le (fun q x hq => listed_idleCleanup q x cfg s _ hq)).trans h
    | _ => exact h
  · intro hcap
    cases e with
    | advance k =>
      intro c hk sid hjoins room hp
      obtain ⟨pub,hh⟩ : ∃ pub, c.handler = .allowed sid pub := by
        cases hc : c.handler <;> rw [hc] at hjoins <;> cases hjoins
        exact ⟨_,rfl⟩
      have hstreams := congrArg Registry.streams (registry_enter hk hh room)
      change (s.step cfg (.advance k)).streams = _ at hstreams
      rw [hstreams,listedPeers_enter,Finset.card_insert_of_notMem hp] at hcap
      exact hcap
    | _ => trivial

/-- The number of peers in the rooms stays within `max_signaling_peers` exactly in the runs in
which every join of a new peer finds fewer than this. -/
theorem peers_capped_iff (cfg : WebServerConfig) (maxSignalingPeers : Nat)
    (moderation : Option ModerationManager) (es : List ServerEvent) :
    (∀ pre, pre <+: es → (listedPeers (run cfg moderation pre).streams).card ≤ maxSignalingPeers) ↔
      Along (step cfg) (BelowCap cfg maxSignalingPeers) (new moderation) es := by
  have h0 : (listedPeers (new moderation).streams).card ≤ maxSignalingPeers := by
    have hempty : listedPeers (new moderation).streams = ∅ := by simp [listedPeers,new]
    rw [hempty,Finset.card_empty]
    exact Nat.zero_le _
  symm
  apply along_iff_prefixes (fun s : Server => (listedPeers s.streams).card ≤ maxSignalingPeers) h0
  exact fun s e h => belowCap_iff_step h e

/-- The limits that the server does check keep the total within their product. -/
theorem card_listedPeers_le_limits (cfg : WebServerConfig) (hone : 1 ≤ cfg.maxPeersPerStream)
    (moderation : Option ModerationManager) (es : List ServerEvent) :
    (listedPeers (run cfg moderation es).streams).card ≤
      cfg.maxStreamRooms*cfg.maxPeersPerStream := by
  have hok := run_roomsOk cfg hone moderation es
  have hroom : ∀ sid ∈ (run cfg moderation es).streams.keys,
      (((run cfg moderation es).streams.lookup sid).elim [] peerIds).toFinset.card ≤
        cfg.maxPeersPerStream := by
    intro sid hsid
    obtain ⟨peers,hpeers⟩ := Finmap.mem_iff.mp (Finmap.mem_keys.mp hsid)
    have hlen := (hok.room sid peers hpeers).length
    rw [hpeers]
    rw [← length_peerIds] at hlen
    exact (List.toFinset_card_le _).trans hlen
  exact (Finset.card_biUnion_le_card_mul _ _ _ hroom).trans (Nat.mul_le_mul_right _ hok.rooms)

/-- Two peers that join are more than a limit of one. -/
theorem join_exceeds_cap :
    ¬ (listedPeers (run Network.sampleConfig none
      ([.connect (Network.sampleUuid 1),.connect (Network.sampleUuid 2)]++
        joinRoom 0 ['a']++joinRoom 1 ['a'])).streams).card ≤ 1 := by
  decide +kernel

end Total

end Server
end OpenBroadcast.Signaling
