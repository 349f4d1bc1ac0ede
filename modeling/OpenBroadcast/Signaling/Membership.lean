import Mathlib.Data.Char
import Mathlib.Data.List.Lex
import OpenBroadcast.Signaling.Network
import OpenBroadcast.Signaling.Registry

namespace OpenBroadcast.Signaling

/-- Where the connection stands: the room it has just entered, and otherwise the one in
`current_stream_id`. -/
def Seat.In (c : Seat) (sid : Text) : Prop :=
  match c.handler with
  | .entered joined _ => joined = sid
  | .stamped joined _ => joined = sid
  | .closed => False
  | _ => c.currentStreamId = some sid

theorem Seat.In.at_handler {c : Seat} {h : Handler} {sid : Text} (hin : c.In sid)
    (hh : c.handler = h) : Seat.In { c with handler := h } sid := by
  rw [← hh]
  exact hin

theorem Seat.In.unique {c : Seat} {x y : Text} (hx : c.In x) (hy : c.In y) : x = y := by
  unfold In at hx hy
  split at hx <;> simp_all

/-- Outside of the joins and after the end, the room is the one in `current_stream_id`. -/
theorem Handler.Moves.in_iff {ok : Bool} {c : Seat} {h : Handler} {sid : Text}
    (hm : Handler.Moves ok c.peerId c.handler h) : Seat.In { c with handler := h } sid ↔ c.In sid := by
  obtain ⟨p,current,handler⟩ := c
  cases hm with
  | receive m => cases m <;> exact Iff.rfl
  | _ => exact Iff.rfl

/-- The connection is open: it has not ended, and it is not in the middle of its end either. -/
def Seat.Stays (c : Seat) : Prop := c.handler ≠ .closed ∧ c.handler ≠ .leavingRoom true

instance (c : Seat) : Decidable c.Stays :=
  inferInstanceAs (Decidable (c.handler ≠ .closed ∧ c.handler ≠ .leavingRoom true))

theorem Handler.Moves.stays {ok : Bool} {c : Seat} {h : Handler}
    (hm : Handler.Moves ok c.peerId c.handler h) : c.Stays := by
  obtain ⟨p,current,handler⟩ := c
  cases hm <;> exact ⟨nofun,nofun⟩

/-- The room that the handler is about to enter. -/
def Handler.joins : Handler → Option Text
  | .allowed sid _ => some sid
  | _ => none

/-- The peer that the next section of a kick throws out of the rooms. -/
def Kick.evicts : Kick → Option Text
  | .blocked p => some p
  | _ => none

/-- The peer whose sender the next section of a kick removes. -/
def Kick.mutes : Kick → Option Text
  | .notified p => some p
  | _ => none

namespace Server

/-- Every listed peer has a connection, and it is listed in the room of its connection only. -/
structure Placed (streams : HashMap Text (List SignalingPeer)) (seats : List Seat) : Prop where
  distinct : (seats.map Seat.peerId).Nodup
  known : ∀ p sid, Listed streams p sid → p ∈ seats.map Seat.peerId
  place : ∀ c ∈ seats, ∀ sid, Listed streams c.peerId sid → c.In sid

section Seats

variable {l : List Seat} {k : Nat} {c c' x : Seat}

theorem peerIds_set (hk : l[k]? = some c) (hid : c'.peerId = c.peerId) :
    (l.set k c').map Seat.peerId = l.map Seat.peerId := by
  have hold : (l.map Seat.peerId)[k]? = some c.peerId := by rw [List.getElem?_map,hk]; rfl
  obtain ⟨hlt,hget⟩ := List.getElem?_eq_some_iff.mp hold
  rw [List.map_set,hid,← hget,List.set_getElem_self]

/-- The seats other than the changed one belong to other peers. -/
theorem mem_set_seats (hnodup : (l.map Seat.peerId).Nodup) (hk : l[k]? = some c)
    (hx : x ∈ l.set k c') : x = c' ∨ (x ∈ l ∧ x.peerId ≠ c.peerId) := by
  obtain ⟨i,hi⟩ := List.mem_iff_getElem?.mp hx
  rw [List.getElem?_set] at hi
  by_cases hki : k = i
  · rw [if_pos hki] at hi
    split_ifs at hi
    exact Or.inl (Option.some.inj hi).symm
  · rw [if_neg hki] at hi
    refine Or.inr ⟨List.mem_of_getElem? hi,?_⟩
    intro hid
    apply hki
    have hkp : (l.map Seat.peerId)[k]? = some c.peerId := by rw [List.getElem?_map,hk]; rfl
    have hip : (l.map Seat.peerId)[i]? = some c.peerId := by
      rw [List.getElem?_map,hi,← hid]
      rfl
    obtain ⟨hklt,_⟩ := List.getElem?_eq_some_iff.mp hkp
    exact (List.getElem?_inj hklt hnodup).mp (hkp.trans hip.symm)

end Seats

section Step

variable {cfg : WebServerConfig} {s : Server}

/-- A connection gets an id that no other one has. -/
def FreshId (s : Server) : ServerEvent → Prop
  | .connect u => ∀ c ∈ s.connections, c.peerId.toText ≠ u.toText
  | _ => True

/-- A join that is let in finds its peer in no other room, namely not in the one that its
connection has in `current_stream_id`. -/
def JoinsAlone (cfg : WebServerConfig) (s : Server) : ServerEvent → Prop
  | .advance k => ∀ c ∈ s.seats[k]?, ∀ sid ∈ c.handler.joins, Admits cfg s.streams c.peerId sid →
      ∀ old ∈ c.currentStreamId, old ≠ sid → ¬ Listed s.streams c.peerId old
  | _ => True

theorem FreshId.not_mem {u : Uuid} (h : FreshId s (.connect u)) :
    u.toText ∉ s.seats.map Seat.peerId := by
  intro hmem
  rw [seats,List.map_map] at hmem
  obtain ⟨c,hc,heq⟩ := List.mem_map.mp hmem
  exact h c hc heq

theorem distinct_append {seats : List Seat} {c : Seat} (h : (seats.map Seat.peerId).Nodup)
    (hc : c.peerId ∉ seats.map Seat.peerId) : ((seats++[c]).map Seat.peerId).Nodup := by
  rw [List.map_append]
  apply List.Nodup.append h (List.nodup_singleton _)
  intro x hx hx'
  rw [List.mem_singleton] at hx'
  rw [hx'] at hx
  exact hc hx

theorem Placed.set {streams streams' : HashMap Text (List SignalingPeer)} {seats : List Seat}
    {k : Nat} {c c' : Seat} (h : Placed streams seats) (hk : seats[k]? = some c)
    (hid : c'.peerId = c.peerId)
    (hlisted : ∀ q sid, Listed streams' q sid → Listed streams q sid ∨ q = c.peerId)
    (hplace : ∀ sid, Listed streams' c.peerId sid → c'.In sid) :
    Placed streams' (seats.set k c') := by
  have hids := peerIds_set hk hid
  refine ⟨by rw [hids]; exact h.distinct,?_,?_⟩
  · intro p sid hp
    rw [hids]
    rcases hlisted p sid hp with hp | hp
    · exact h.known p sid hp
    · rw [hp]
      exact List.mem_map_of_mem (List.mem_of_getElem? hk)
  · intro x hx sid hp
    rcases mem_set_seats h.distinct hk hx with rfl | ⟨hx,hne⟩
    · rw [hid] at hp
      exact hplace sid hp
    · rcases hlisted _ sid hp with hp | hp
      · exact h.place x hx sid hp
      · exact absurd hp hne

theorem Placed.fewer {streams streams' : HashMap Text (List SignalingPeer)} {seats : List Seat}
    (h : Placed streams seats)
    (hlisted : ∀ q sid, Listed streams' q sid → Listed streams q sid) : Placed streams' seats :=
  ⟨h.distinct,fun p sid hp => h.known p sid (hlisted p sid hp),
    fun c hc sid hp => h.place c hc sid (hlisted _ sid hp)⟩

/-- A handler that goes on outside of the joins leaves its connection where it is. -/
theorem Placed.setHandler {streams streams' : HashMap Text (List SignalingPeer)}
    {seats : List Seat} {k : Nat} {c : Seat} {h' : Handler} (h : Placed streams seats)
    (hk : seats[k]? = some c)
    (hlisted : ∀ q sid, Listed streams' q sid → Listed streams q sid)
    (hin : ∀ sid, c.In sid → Seat.In { c with handler := h' } sid) :
    Placed streams' (seats.set k { c with handler := h' }) := by
  apply h.set hk
  · rfl
  · exact fun q sid hq => Or.inl (hlisted q sid hq)
  · exact fun sid hp => hin sid (h.place c (List.mem_of_getElem? hk) sid (hlisted _ sid hp))

theorem Placed.append {streams : HashMap Text (List SignalingPeer)} {seats : List Seat} {c : Seat}
    (h : Placed streams seats) (hc : c.peerId ∉ seats.map Seat.peerId) :
    Placed streams (seats++[c]) := by
  refine ⟨distinct_append h.distinct hc,?_,?_⟩
  · intro p sid hp
    have hold := h.known p sid hp
    rw [List.map_append]
    exact List.mem_append_left _ hold
  · intro x hx sid hp
    rcases List.mem_append.mp hx with hx | hx
    · exact h.place x hx sid hp
    · rw [List.mem_singleton] at hx
      subst hx
      exact absurd (h.known _ sid hp) hc

theorem step_placed (h : Placed s.streams s.seats) (e : ServerEvent) (fresh : FreshId s e)
    (alone : JoinsAlone cfg s e) : Placed (s.step cfg e).streams (s.step cfg e).seats := by
  have hplace {k : Nat} {c : Seat} (hk : s.seats[k]? = some c) (sid : Text) :
      Listed s.streams c.peerId sid → c.In sid :=
    h.place c (List.mem_of_getElem? hk) sid
  have hchange := step_change cfg s e
  change Placed (s.step cfg e).registry.streams (s.step cfg e).registry.seats
  generalize (s.step cfg e).registry = r at hchange ⊢
  cases hchange with
  | stay => exact h
  | connect u =>
    have hnew : u.toText ∉ s.seats.map Seat.peerId := fresh.not_mem
    exact h.append hnew
  | move _ hk hm =>
    exact h.setHandler hk (fun q sid hq => hq) (fun sid hin => hm.in_iff.mpr hin)
  | @enter k c sid pub hk hh room =>
    apply h.set hk
    · rfl
    · intro q x hq
      rcases (listed_enter s.streams c.peerId q sid x pub).mp hq with hq | ⟨hq,_⟩
      · exact Or.inl hq
      · exact Or.inr hq
    · intro x hq
      change sid = x
      rcases (listed_enter s.streams c.peerId c.peerId sid x pub).mp hq with hq | ⟨_,hx⟩
      · -- The peer was in `x` before, so `x` is the room in `current_stream_id`.
        have hcurrent : c.currentStreamId = some x := (hplace hk x hq).at_handler hh
        by_contra hne
        have hjoins : sid ∈ c.handler.joins := by rw [hh]; rfl
        exact alone c hk sid hjoins room x hcurrent (fun h => hne h.symm) hq
      · exact hx.symm
  | stamp hk hh =>
    apply h.setHandler hk (fun q sid hq => hq)
    intro x hin
    have hbefore := hin.at_handler hh
    exact hbefore
  | sit peers hk hh =>
    apply h.set hk
    · rfl
    · exact fun q sid hq => Or.inl hq
    · exact fun x hp => congrArg some ((hplace hk x hp).at_handler hh)
  | @update k c sid peers pub relay h' hk hh hcurrent hsid hh' =>
    apply h.setHandler hk
    · exact fun q x hq => (listed_update s.streams c.peerId q sid x hsid pub relay).mp hq
    · intro x hin
      have hbefore := hin.at_handler hh
      rcases hh' with rfl | ⟨_,m,rfl⟩
      · exact hbefore
      · exact hbefore
  | resign hk hh =>
    apply h.setHandler hk (fun q sid hq => hq)
    intro x hin
    have hbefore := hin.at_handler hh
    exact hbefore
  | @leave k c c' closing hk hh hc' =>
    have hleft := fun q x => listed_withoutPeer s.streams c.peerId q x c.currentStreamId
    apply h.set hk
    · rw [hc']
      split_ifs <;> rfl
    · exact fun q x hq => Or.inl ((hleft q x).mp hq).1
    · intro x hp
      obtain ⟨hold,hnot⟩ := (hleft _ x).mp hp
      exact absurd ⟨rfl,(hplace hk x hold).at_handler hh⟩ hnot
  | evict H hi => exact h.fewer (fun q x hq => ((listed_evicted s.streams _ q x).mp hq).1)
  | mute => exact h
  | sweep hnow => exact h.fewer (fun q x hq => listed_idleCleanup q x cfg s _ hq)

end Step

section Runs

instance (s : Server) (e : ServerEvent) : Decidable (FreshId s e) :=
  match e with
  | .connect u => inferInstanceAs (Decidable (∀ c ∈ s.connections, c.peerId.toText ≠ u.toText))
  | .receive _ _ | .invalid _ _ | .advance _ | .forward _ | .deliver _ | .forwarderEnds _
  | .disconnect _ | .block _ | .kick _ _ | .unblock _ | .whitelist _ | .removeWhitelist _
  | .tick _ | .cleanupTick | .cleanup => .isTrue trivial

instance (cfg : WebServerConfig) (s : Server) (e : ServerEvent) : Decidable (JoinsAlone cfg s e) :=
  match e with
  | .advance k => inferInstanceAs (Decidable (∀ c ∈ s.seats[k]?, ∀ sid ∈ c.handler.joins,
      Admits cfg s.streams c.peerId sid →
        ∀ old ∈ c.currentStreamId, old ≠ sid → ¬ Listed s.streams c.peerId old))
  | .connect _ | .receive _ _ | .invalid _ _ | .forward _ | .deliver _ | .forwarderEnds _
  | .disconnect _ | .block _ | .kick _ _ | .unblock _ | .whitelist _ | .removeWhitelist _
  | .tick _ | .cleanupTick | .cleanup => .isTrue trivial

/-- A peer is listed in at most one room; outside of the few steps of a join this is the room in
`current_stream_id`, and there is none once the cleanup of its connection is complete. -/
structure MembersOk (s : Server) : Prop where
  single : ∀ c ∈ s.connections, ∀ x y, Listed s.streams c.peerId.toText x →
    Listed s.streams c.peerId.toText y → x = y
  current : ∀ c ∈ s.connections, (∀ sid pub, c.handler ≠ .entered sid pub) →
    (∀ sid pub, c.handler ≠ .stamped sid pub) → ∀ x, Listed s.streams c.peerId.toText x →
      c.currentStreamId = some x
  gone : ∀ c ∈ s.connections, c.handler = .closed → ∀ x, ¬ Listed s.streams c.peerId.toText x

theorem Placed.membersOk {s : Server} (h : Placed s.streams s.seats) : s.MembersOk := by
  have hplace (c : Connection) (hc : c ∈ s.connections) (x : Text)
      (hx : Listed s.streams c.peerId.toText x) : c.seat.In x :=
    h.place c.seat (List.mem_map_of_mem hc) x hx
  constructor
  · intro c hc x y hx hy
    exact (hplace c hc x hx).unique (hplace c hc y hy)
  · intro c hc hentered hstamped x hx
    have hin := hplace c hc x hx
    unfold Seat.In at hin
    split at hin
    · next heq => exact absurd heq (hentered _ _)
    · next heq => exact absurd heq (hstamped _ _)
    · exact hin.elim
    · exact hin
  · intro c hc hclosed x hx
    have hin := hplace c hc x hx
    unfold Seat.In at hin
    rw [show c.seat.handler = .closed from hclosed] at hin
    exact hin

theorem run_placed (cfg : WebServerConfig) (moderation : Option ModerationManager)
    (es : List ServerEvent) (fresh : Along (step cfg) FreshId (new moderation) es)
    (alone : Along (step cfg) (JoinsAlone cfg) (new moderation) es) :
    Placed (run cfg moderation es).streams (run cfg moderation es).seats := by
  apply (fresh.and alone).invariant (fun s => Placed s.streams s.seats)
  · exact ⟨List.nodup_nil,by simp [new,Listed],by simp [new,seats]⟩
  · exact fun s e h hok => step_placed h e hok.1 hok.2

/-- In every run in which ids are unique and no peer joins a room while it is listed in the one
that it joined before, rooms and connections agree. -/
theorem run_members_ok (cfg : WebServerConfig) (moderation : Option ModerationManager)
    (es : List ServerEvent) (fresh : Along (step cfg) FreshId (new moderation) es)
    (alone : Along (step cfg) (JoinsAlone cfg) (new moderation) es) :
    (run cfg moderation es).MembersOk :=
  (run_placed cfg moderation es fresh alone).membersOk

/-- The client of connection `k` asks to join a room, and its handler deals with this. -/
def joinRoom (k : Nat) (sid : Text) : List ServerEvent :=
  .receive k (.peerJoin [] sid false)::List.replicate 6 (.advance k)

/-- The client of connection `k` leaves its room. -/
def quitRoom (k : Nat) : List ServerEvent := [.receive k (.peerLeave []),.advance k,.advance k]

def moveRooms : List ServerEvent :=
  .connect (Network.sampleUuid 1)::joinRoom 0 ['a']++quitRoom 0++joinRoom 0 ['b']++
    [.disconnect 0,.advance 0,.advance 0]

theorem run_members_ok_moveRooms :
    (Along (step Network.sampleConfig) FreshId (new none) moveRooms ∧
      Along (step Network.sampleConfig) (JoinsAlone Network.sampleConfig) (new none) moveRooms) ∧
    (run Network.sampleConfig none moveRooms).MembersOk := by
  have fresh : Along (step Network.sampleConfig) FreshId (new none) moveRooms := by decide +kernel
  have alone : Along (step Network.sampleConfig) (JoinsAlone Network.sampleConfig) (new none)
      moveRooms := by decide +kernel
  exact ⟨⟨fresh,alone⟩,run_members_ok Network.sampleConfig none moveRooms fresh alone⟩

def joinTwice : List ServerEvent :=
  .connect (Network.sampleUuid 1)::joinRoom 0 ['a']++joinRoom 0 ['b']

/-- A second join leaves the peer in the first room, also when its connection is gone. -/
theorem second_join_leaves_ghost :
    Along (step Network.sampleConfig) FreshId (new none) joinTwice ∧
    ¬ (run Network.sampleConfig none joinTwice).MembersOk ∧
    ¬ (run Network.sampleConfig none (joinTwice++[.disconnect 0,.advance 0,.advance 0])).MembersOk := by
  have both : ∃ c ∈ (run Network.sampleConfig none joinTwice).connections,
      Listed (run Network.sampleConfig none joinTwice).streams c.peerId.toText ['a'] ∧
        Listed (run Network.sampleConfig none joinTwice).streams c.peerId.toText ['b'] := by
    decide +kernel
  have ghost : ∃ c ∈ (run Network.sampleConfig none
      (joinTwice++[.disconnect 0,.advance 0,.advance 0])).connections, c.handler = .closed ∧
      Listed (run Network.sampleConfig none
        (joinTwice++[.disconnect 0,.advance 0,.advance 0])).streams c.peerId.toText ['a'] := by
    decide +kernel
  refine ⟨by decide +kernel,?_,?_⟩
  · intro h
    obtain ⟨c,hc,ha,hb⟩ := both
    have := h.single c hc _ _ ha hb
    simp at this
  · intro h
    obtain ⟨c,hc,hclosed,ha⟩ := ghost
    exact h.gone c hc hclosed _ ha

end Runs

section Senders

/-- A listed peer has a sender. -/
structure Reachable (streams : HashMap Text (List SignalingPeer)) (senders : HashMap Text Nat)
    (seats : List Seat) : Prop where
  distinct : (seats.map Seat.peerId).Nodup
  sender : ∀ c ∈ seats, c.Stays → ∀ sid, Listed streams c.peerId sid → c.peerId ∈ senders

/-- A join that is let in is that of a peer with a sender, and a `PeerLeave` and a kick remove the
sender of a peer that is in no room. -/
def KeepsReachable (cfg : WebServerConfig) (s : Server) : ServerEvent → Prop
  | .advance k => ∀ c ∈ s.seats[k]?,
      (∀ sid ∈ c.handler.joins, Admits cfg s.streams c.peerId sid → c.peerId ∈ s.peerSenders) ∧
      (c.handler = .leaving false → ¬ s.sendersHeld →
        ∀ sid ∈ s.streams.keys, ¬ Listed s.streams c.peerId sid)
  | .kick i _ => ∀ kick ∈ s.kicks[i]?, ∀ p ∈ kick.mutes, ¬ s.sendersHeld →
      ∀ c ∈ s.seats, c.peerId = p → c.Stays → ∀ sid ∈ s.streams.keys, ¬ Listed s.streams p sid
  | _ => True

variable {cfg : WebServerConfig} {s : Server}

theorem Reachable.set {streams streams' : HashMap Text (List SignalingPeer)}
    {senders senders' : HashMap Text Nat} {seats : List Seat} {k : Nat} {c c' : Seat}
    (h : Reachable streams senders seats) (hk : seats[k]? = some c) (hid : c'.peerId = c.peerId)
    (hlisted : ∀ q sid, q ≠ c.peerId → Listed streams' q sid → Listed streams q sid)
    (hsenders : ∀ q, q ≠ c.peerId → q ∈ senders → q ∈ senders')
    (hself : c'.Stays → ∀ sid, Listed streams' c.peerId sid → c.peerId ∈ senders') :
    Reachable streams' senders' (seats.set k c') := by
  refine ⟨by rw [peerIds_set hk hid]; exact h.distinct,?_⟩
  intro x hx hstays sid hlist
  rcases mem_set_seats h.distinct hk hx with rfl | ⟨hx,hne⟩
  · rw [hid] at hlist ⊢
    exact hself hstays sid hlist
  · exact hsenders _ hne (h.sender x hx hstays sid (hlisted _ sid hne hlist))

theorem step_reachable (h : Reachable s.streams s.peerSenders s.seats) (e : ServerEvent)
    (fresh : FreshId s e) (keeps : KeepsReachable cfg s e) :
    Reachable (s.step cfg e).streams (s.step cfg e).peerSenders (s.step cfg e).seats := by
  have hsender {k : Nat} {c : Seat} (hk : s.seats[k]? = some c) (hstays : c.Stays) (sid : Text) :
      Listed s.streams c.peerId sid → c.peerId ∈ s.peerSenders :=
    h.sender c (List.mem_of_getElem? hk) hstays sid
  -- The connection goes on with the same rooms and senders.
  have same {k : Nat} {c c' : Seat} (hk : s.seats[k]? = some c) (hid : c'.peerId = c.peerId)
      (hstays : c.Stays) : Reachable s.streams s.peerSenders (s.seats.set k c') :=
    h.set hk hid (fun _ _ _ hq => hq) (fun _ _ hq => hq) (fun _ sid hl => hsender hk hstays sid hl)
  have hchange := step_change cfg s e
  change Reachable (s.step cfg e).registry.streams (s.step cfg e).registry.peerSenders
    (s.step cfg e).registry.seats
  generalize (s.step cfg e).registry = r at hchange ⊢
  cases hchange with
  | stay => exact h
  | connect u =>
    have hnew : u.toText ∉ s.seats.map Seat.peerId := fresh.not_mem
    refine ⟨distinct_append h.distinct hnew,?_⟩
    intro c hc hstays sid hl
    dsimp only
    rw [Finmap.mem_insert]
    rcases List.mem_append.mp hc with hc | hc
    · exact Or.inr (h.sender c hc hstays sid hl)
    · rw [List.mem_singleton] at hc
      subst hc
      exact Or.inl rfl
  | move _ hk hm => exact same hk rfl hm.stays
  | @enter k c sid pub hk hh room =>
    have hjoins : sid ∈ c.handler.joins := by rw [hh]; rfl
    have hhas : c.peerId ∈ s.peerSenders := (keeps c hk).1 sid hjoins room
    refine h.set hk (by rfl) ?_ (fun _ _ hq => hq) (fun _ _ _ => hhas)
    intro q x hne hq
    rcases (listed_enter s.streams c.peerId q sid x pub).mp hq with hq | ⟨hq,_⟩
    · exact hq
    · exact absurd hq hne
  | stamp hk hh => exact same hk rfl ⟨by rw [hh]; nofun,by rw [hh]; nofun⟩
  | sit peers hk hh => exact same hk rfl ⟨by rw [hh]; nofun,by rw [hh]; nofun⟩
  | @update k c sid peers pub relay h' hk hh hcurrent hsid hh' =>
    have hsame := fun q x => listed_update s.streams c.peerId q sid x hsid pub relay
    have hstays : c.Stays := ⟨by rw [hh]; nofun,by rw [hh]; nofun⟩
    refine h.set hk (by rfl) ?_ (fun _ _ hq => hq) ?_
    · exact fun q x _ hq => (hsame q x).mp hq
    · exact fun _ x hl => hsender hk hstays x ((hsame _ x).mp hl)
  | @resign k c closing hk hh free =>
    refine h.set hk (by rfl) (fun _ _ _ hq => hq) ?_ ?_
    · intro q hne hq
      exact Finmap.mem_erase.mpr ⟨hne,hq⟩
    · intro hstays x hl
      cases closing with
      | true => exact absurd rfl hstays.2
      | false => exact absurd hl ((keeps c hk).2 hh free x (Listed.mem_keys hl))
  | @leave k c c' closing hk hh hc' =>
    have hleft := fun q x => listed_withoutPeer s.streams c.peerId q x c.currentStreamId
    refine h.set hk ?_ ?_ (fun _ _ hq => hq) ?_
    · rw [hc']
      split_ifs <;> rfl
    · exact fun q x _ hq => ((hleft q x).mp hq).1
    · intro hstays x hl
      have hl := ((hleft _ x).mp hl).1
      cases closing with
      | true =>
        rw [hc'] at hstays
        exact absurd rfl hstays.1
      | false => exact hsender hk ⟨by rw [hh]; nofun,by rw [hh]; nofun⟩ x hl
  | @evict i p H hi =>
    exact ⟨h.distinct,fun c hc hstays x hl =>
      h.sender c hc hstays x ((listed_evicted s.streams p _ x).mp hl).1⟩
  | @mute i p H hi free =>
    refine ⟨h.distinct,?_⟩
    intro c hc hstays x hl
    have hl : Listed s.streams c.peerId x := hl
    have hne : c.peerId ≠ p := by
      intro hp
      have hnot := keeps _ hi p rfl free c hc hp hstays x hl.mem_keys
      rw [← hp] at hnot
      exact hnot hl
    exact Finmap.mem_erase.mpr ⟨hne,h.sender c hc hstays x hl⟩
  | sweep hnow =>
    exact ⟨h.distinct,fun c hc hstays x hl =>
      h.sender c hc hstays x (listed_idleCleanup c.peerId x cfg s _ hl)⟩

/-- The peers in the rooms can be sent messages, as long as their connections are open. -/
def MembersReachable (s : Server) : Prop :=
  ∀ c ∈ s.connections, c.seat.Stays → ∀ sid, Listed s.streams c.peerId.toText sid →
    c.peerId.toText ∈ s.peerSenders

/-- In every run in which ids are unique and whose steps meet the condition, every room member
with an open connection has a sender. -/
theorem run_members_reachable (cfg : WebServerConfig) (moderation : Option ModerationManager)
    (es : List ServerEvent) (fresh : Along (step cfg) FreshId (new moderation) es)
    (keeps : Along (step cfg) (KeepsReachable cfg) (new moderation) es) :
    (run cfg moderation es).MembersReachable := by
  have h : Reachable (run cfg moderation es).streams (run cfg moderation es).peerSenders
      (run cfg moderation es).seats := by
    apply (fresh.and keeps).invariant (fun s => Reachable s.streams s.peerSenders s.seats)
    · exact ⟨List.nodup_nil,by simp [new,seats]⟩
    · exact fun s e h hok => step_reachable h e hok.1 hok.2
  intro c hc hstays sid hl
  exact h.sender c.seat (List.mem_map_of_mem hc) hstays sid hl

instance (cfg : WebServerConfig) (s : Server) (e : ServerEvent) :
    Decidable (KeepsReachable cfg s e) :=
  match e with
  | .advance k => inferInstanceAs (Decidable (∀ c ∈ s.seats[k]?,
      (∀ sid ∈ c.handler.joins, Admits cfg s.streams c.peerId sid → c.peerId ∈ s.peerSenders) ∧
      (c.handler = .leaving false → ¬ s.sendersHeld →
        ∀ sid ∈ s.streams.keys, ¬ Listed s.streams c.peerId sid)))
  | .kick i _ => inferInstanceAs (Decidable (∀ kick ∈ s.kicks[i]?, ∀ p ∈ kick.mutes,
      ¬ s.sendersHeld → ∀ c ∈ s.seats, c.peerId = p → c.Stays →
        ∀ sid ∈ s.streams.keys, ¬ Listed s.streams p sid))
  | .connect _ | .receive _ _ | .invalid _ _ | .forward _ | .deliver _ | .forwarderEnds _
  | .disconnect _ | .block _ | .unblock _ | .whitelist _ | .removeWhitelist _
  | .tick _ | .cleanupTick | .cleanup => .isTrue trivial

def joinAndLeave : List ServerEvent :=
  .connect (Network.sampleUuid 1)::joinRoom 0 ['a']++quitRoom 0

/-- Two peers join a room, a third leaves without having joined, one of the two is kicked, and the
other is about to go. -/
def leaveKickAndClose : List ServerEvent :=
  [.connect (Network.sampleUuid 1),.connect (Network.sampleUuid 2),.connect (Network.sampleUuid 3)]++
    joinRoom 0 ['a']++joinRoom 1 ['a']++quitRoom 2++.block (Network.sampleUuid 1).toText::
      List.replicate 3 (.kick 0 .sorted)++[.disconnect 1,.advance 1]

def moderator : ModerationManager := ⟨false,∅,∅⟩

theorem run_members_reachable_leaveKickAndClose :
    (Along (step Network.sampleConfig) FreshId (new (some moderator)) leaveKickAndClose ∧
      Along (step Network.sampleConfig) (KeepsReachable Network.sampleConfig) (new (some moderator))
        leaveKickAndClose) ∧
    (run Network.sampleConfig (some moderator) leaveKickAndClose).MembersReachable := by
  have fresh : Along (step Network.sampleConfig) FreshId (new (some moderator))
      leaveKickAndClose := by decide +kernel
  have keeps : Along (step Network.sampleConfig) (KeepsReachable Network.sampleConfig)
      (new (some moderator)) leaveKickAndClose := by decide +kernel
  exact ⟨⟨fresh,keeps⟩,
    run_members_reachable Network.sampleConfig (some moderator) leaveKickAndClose fresh keeps⟩

/-- A peer that leaves and joins again has no sender any more. -/
theorem rejoined_peer_unreachable :
    Along (step Network.sampleConfig) FreshId (new none) (joinAndLeave++joinRoom 0 ['a']) ∧
    ¬ (run Network.sampleConfig none (joinAndLeave++joinRoom 0 ['a'])).MembersReachable := by
  have lost : ∃ c ∈ (run Network.sampleConfig none (joinAndLeave++joinRoom 0 ['a'])).connections,
      c.handler = .idle ∧
      Listed (run Network.sampleConfig none (joinAndLeave++joinRoom 0 ['a'])).streams
        c.peerId.toText ['a'] ∧
      c.peerId.toText ∉
        (run Network.sampleConfig none (joinAndLeave++joinRoom 0 ['a'])).peerSenders := by
    decide +kernel
  refine ⟨by decide +kernel,?_⟩
  intro h
  obtain ⟨c,hc,hidle,hl,hnot⟩ := lost
  have hstays : c.seat.Stays := by
    unfold Seat.Stays
    rw [show c.seat.handler = .idle from hidle]
    exact ⟨nofun,nofun⟩
  exact hnot (h c hc hstays _ hl)

end Senders

end Server

end OpenBroadcast.Signaling
