import OpenBroadcast.Signaling.Server

namespace OpenBroadcast.Signaling

/-- The handler is about to send a directed message only to the peer that it is meant for. -/
def Handler.Routed : Handler → Prop
  | .relaying t m => m.directed → m.target = some t
  | .broadcasting _ m => ¬ m.directed
  | _ => True

structure Connection.Routed (c : Connection) : Prop where
  handler : c.handler.Routed
  channel : ∀ m ∈ c.channel, m.directed → m.target = some c.peerId.toText
  socket : ∀ m ∈ c.socket, m.directed → m.target = some c.peerId.toText

namespace Server

/-- The ids of the connections, in the order in which they came in. -/
def ids (s : Server) : List Uuid := s.connections.map Connection.peerId

/-- Senders go to the connection of their id, and a directed message is only ever on its way
to the connection whose id is its target. -/
structure Routed (s : Server) : Prop where
  senders : ∀ p k, s.peerSenders.lookup p = some k → ∃ u, s.ids[k]? = some u ∧ u.toText = p
  routed : ∀ c ∈ s.connections, c.Routed

variable {s : Server}

theorem ids_modifyConnection (s : Server) (k : Nat) {f : Connection → Connection}
    (hf : ∀ c, (f c).peerId = c.peerId) : (s.modifyConnection k f).ids = s.ids := by
  apply List.ext_getElem?
  intro i
  simp only [ids,modifyConnection,List.getElem?_map,List.getElem?_modify]
  cases s.connections[i]? with
  | none => rfl
  | some c =>
    by_cases hi : k = i
    · simp [hi,hf c]
    · simp [hi]

theorem trySend_peerId (c : Connection) (m : SignalingMessage) :
    (c.trySend m).peerId = c.peerId := by
  unfold Connection.trySend
  split_ifs <;> rfl

theorem Routed.modifyConnection (h : s.Routed) (k : Nat) {f : Connection → Connection}
    (hid : ∀ c, (f c).peerId = c.peerId)
    (hf : ∀ c, s.connections[k]? = some c → c.Routed → (f c).Routed) :
    (s.modifyConnection k f).Routed := by
  constructor
  · rw [ids_modifyConnection s k hid]
    exact h.senders
  · intro c hc
    rcases mem_modify hc with hc | ⟨c',hc',rfl⟩
    · exact h.routed c hc
    · exact hf c' hc' (h.routed c' (List.mem_of_getElem? hc'))

theorem Routed.setHandler (h : s.Routed) (k : Nat) {x : Handler} (hx : x.Routed) :
    (s.setHandler k x).Routed :=
  h.modifyConnection k (fun _ => rfl) (fun _ _ hc => ⟨hx,hc.channel,hc.socket⟩)

theorem Routed.send (h : s.Routed) {m : SignalingMessage} {p : Text}
    (hm : m.directed → m.target = some p) : (s.send m p).Routed := by
  unfold Server.send
  split
  · next k hk =>
    apply h.modifyConnection k (fun c => trySend_peerId c m)
    intro c hc hrouted
    -- The sender that was found under `p` is that of a connection with the id `p`.
    obtain ⟨u,hu,hp⟩ := h.senders p k hk
    have hid : c.peerId.toText = p := by
      rw [ids,List.getElem?_map,hc] at hu
      cases hu
      exact hp
    unfold Connection.trySend
    split_ifs
    · refine ⟨hrouted.handler,?_,hrouted.socket⟩
      intro m' hm' hdir
      rcases List.mem_append.mp hm' with hm' | hm'
      · exact hrouted.channel m' hm' hdir
      · rw [List.mem_singleton] at hm'
        subst hm'
        exact (hm hdir).trans (congrArg some hid.symm)
    · exact hrouted
  · exact h

theorem Routed.sendAll (h : s.Routed) {m : SignalingMessage} (hm : ¬ m.directed)
    (ps : List Text) : (s.sendAll m ps).Routed := by
  unfold Server.sendAll
  induction ps generalizing s with
  | nil => exact h
  | cons p ps ih => exact ih (h.send (fun hdir => absurd hdir hm))

theorem Routed.erase (h : s.Routed) (p : Text) :
    ({ s with peerSenders := s.peerSenders.erase p } : Server).Routed := by
  refine ⟨?_,h.routed⟩
  intro q k hk
  by_cases hq : q = p
  · subst hq
    dsimp only at hk
    rw [Finmap.lookup_erase] at hk
    cases hk
  · dsimp only at hk
    rw [Finmap.lookup_erase_ne hq] at hk
    exact h.senders q k hk

/-- Only the connections and the senders count. -/
theorem Routed.congr {s' : Server} (h : s.Routed) (hs : s'.peerSenders = s.peerSenders)
    (hc : s'.connections = s.connections) : s'.Routed := by
  obtain ⟨_,_,_,_,_,_,_,_⟩ := s'
  subst hs hc
  exact ⟨h.senders,h.routed⟩

theorem Routed.withStreams (h : s.Routed) (streams : HashMap Text (List SignalingPeer)) :
    Routed { s with streams := streams } :=
  h.congr rfl rfl

theorem enterRoom_routed (h : s.Routed) (cfg : WebServerConfig) (k : Nat) (p sid : Text)
    (pub : Bool) : (s.enterRoom cfg k p sid pub).Routed := by
  simp only [enterRoom]
  split_ifs
  · exact (h.send (by simp [SignalingMessage.directed])).setHandler k trivial
  · exact (h.send (by simp [SignalingMessage.directed])).setHandler k trivial
  · exact (h.withStreams _).setHandler k trivial

theorem updateRoom_routed (h : s.Routed) (k : Nat) (p : Text) (current : Option Text)
    (pub relay : Bool) : (s.updateRoom k p current pub relay).Routed := by
  unfold updateRoom
  split
  · exact h.setHandler k trivial
  · split
    · exact h.setHandler k trivial
    · apply (h.withStreams _).setHandler k
      split_ifs
      · trivial
      · simp [Handler.Routed,SignalingMessage.directed]

theorem leaveRoom_routed (h : s.Routed) (p : Text) (current : Option Text) :
    (s.leaveRoom p current).Routed := by
  unfold leaveRoom
  split
  · exact h
  · split
    · exact h
    · next sid _ peers _ =>
      have left := (h.withStreams (s.streams.insert sid (others peers p))).sendAll
        (m := .peerLeave p) (by simp [SignalingMessage.directed]) (peerIds (others peers p))
      dsimp only
      split_ifs
      · exact left.withStreams _
      · exact left

theorem notifyJoin_routed (h : s.Routed) (p sid : Text) (pub : Bool) :
    (s.notifyJoin p sid pub).Routed := by
  unfold notifyJoin
  split
  · exact h.sendAll (by simp [SignalingMessage.directed]) _
  · exact h

theorem advance_routed (h : s.Routed) (cfg : WebServerConfig) (k : Nat) :
    (s.advance cfg k).Routed := by
  unfold advance
  cases hk : s.connections[k]? with
  | none => exact h
  | some c =>
    have hc := h.routed c (List.mem_of_getElem? hk)
    dsimp only
    cases hh : c.handler with
    | idle => exact h
    | closed => exact h
    | joining sid pub =>
      dsimp only
      split_ifs <;> exact h.setHandler k trivial
    | refused message =>
      exact (h.send (by simp [SignalingMessage.directed])).setHandler k trivial
    | allowed sid pub => exact enterRoom_routed h cfg k _ sid pub
    | entered sid pub =>
      have stamped : Routed { s with streamLastActive := s.streamLastActive.insert sid s.clock } :=
        h.congr rfl rfl
      exact stamped.setHandler k trivial
    | stamped sid pub =>
      exact h.modifyConnection k (fun _ => rfl) (fun c _ hc => ⟨trivial,hc.channel,hc.socket⟩)
    | listed sid pub peers =>
      exact (h.send (by simp [SignalingMessage.directed])).setHandler k trivial
    | notifying sid pub => exact (notifyJoin_routed h _ sid pub).setHandler k trivial
    | offering target sdp =>
      dsimp only
      split
      · exact h.setHandler k (fun _ => rfl)
      · exact h.setHandler k trivial
    | relaying t m =>
      have hm := hc.handler
      rw [hh] at hm
      exact (h.send hm).setHandler k trivial
    | updating pub relay => exact updateRoom_routed h k _ _ pub relay
    | broadcasting ps m =>
      have hm := hc.handler
      rw [hh] at hm
      exact (h.sendAll hm ps).setHandler k trivial
    | leaving closing =>
      dsimp only
      split_ifs
      · exact h
      · exact (h.erase _).setHandler k trivial
    | leavingRoom closing =>
      apply (leaveRoom_routed h _ _).modifyConnection k
      · intro c
        unfold leaveDone
        split_ifs <;> rfl
      · intro c _ hc
        unfold leaveDone
        split_ifs <;> exact ⟨trivial,hc.channel,hc.socket⟩

theorem received_routed (p : Text) (m : SignalingMessage) : (received p m).Routed := by
  cases m <;> simp [received,Handler.Routed,SignalingMessage.target]

theorem begin_routed (h : s.Routed) (k : Nat) {f : Text → Handler} (hf : ∀ p, (f p).Routed) :
    (s.begin k f).Routed := by
  apply h.modifyConnection k
  · intro c
    split_ifs <;> rfl
  · intro c _ hc
    split_ifs
    · exact ⟨hf _,hc.channel,hc.socket⟩
    · exact hc

theorem advanceKick_routed (h : s.Routed) (H : HashOrder Unit Text) (i : Nat) :
    (s.advanceKick H i).Routed := by
  unfold advanceKick
  split
  · exact h
  · exact h
  · exact h.congr rfl rfl
  · next p toNotify _ =>
    exact (h.sendAll (m := .peerLeave p) (by simp [SignalingMessage.directed]) _).congr rfl rfl
  · split_ifs
    · exact h
    · exact (h.erase _).congr rfl rfl

theorem connect_routed (h : s.Routed) (u : Uuid) :
    Routed { s with
      peerSenders := s.peerSenders.insert u.toText s.connections.length
      connections := s.connections++[⟨u,none,.idle,true,[],[]⟩] } := by
  constructor
  · intro p k hk
    simp only [ids,List.map_append,List.map_cons,List.map_nil]
    by_cases hp : p = u.toText
    · subst hp
      dsimp only at hk
      rw [Finmap.lookup_insert] at hk
      cases hk
      exact ⟨u,by simp,rfl⟩
    · dsimp only at hk
      rw [Finmap.lookup_insert_of_ne _ hp] at hk
      obtain ⟨v,hv,hp⟩ := h.senders p k hk
      refine ⟨v,?_,hp⟩
      rw [List.getElem?_append_left]
      · exact hv
      · obtain ⟨hlt,_⟩ := List.getElem?_eq_some_iff.mp hv
        exact hlt
  · intro c hc
    rcases List.mem_append.mp hc with hc | hc
    · exact h.routed c hc
    · rw [List.mem_singleton] at hc
      subst hc
      exact ⟨trivial,by simp,by simp⟩

theorem step_routed (h : s.Routed) (cfg : WebServerConfig) (e : ServerEvent) :
    (s.step cfg e).Routed := by
  cases e with
  | connect u =>
    simp only [step]
    split_ifs
    · exact h
    · exact connect_routed h u
  | receive k m => exact begin_routed h k (fun p => received_routed p m)
  | invalid k e =>
    exact begin_routed h k (f := fun _ => .refused ("Invalid message format: "++e))
      (fun _ => trivial)
  | advance k => exact advance_routed h cfg k
  | forward k =>
    apply h.modifyConnection k (f := Connection.forward) (fun _ => rfl)
    intro c _ hc
    refine ⟨hc.handler,fun m hm => hc.channel m (List.mem_of_mem_tail hm),?_⟩
    intro m hm
    rcases List.mem_append.mp hm with hm | hm
    · exact hc.socket m hm
    · exact hc.channel m (List.mem_of_mem_head? (Option.mem_toList.mp hm))
  | deliver k =>
    exact h.modifyConnection k (fun _ => rfl)
      (fun c _ hc => ⟨hc.handler,hc.channel,fun m hm => hc.socket m (List.mem_of_mem_tail hm)⟩)
  | forwarderEnds k =>
    exact h.modifyConnection k (fun _ => rfl) (fun _ _ hc => ⟨hc.handler,hc.channel,hc.socket⟩)
  | disconnect k =>
    apply h.modifyConnection k
    · intro c
      split_ifs <;> rfl
    · intro c _ hc
      split_ifs
      · exact ⟨trivial,hc.channel,hc.socket⟩
      · exact hc
  | block p =>
    simp only [step]
    split
    · exact h.congr rfl rfl
    · exact h
  | kick i H => exact advanceKick_routed h H i
  | unblock p => exact h.congr rfl rfl
  | whitelist p => exact h.congr rfl rfl
  | removeWhitelist p => exact h.congr rfl rfl
  | tick n => exact h.congr rfl rfl
  | cleanupTick =>
    simp only [step]
    split_ifs
    · exact h.congr rfl rfl
    · exact h
  | cleanup =>
    simp only [step]
    split
    · exact h.congr rfl rfl
    · exact h

theorem new_routed (moderation : Option ModerationManager) : (new moderation).Routed :=
  ⟨by simp [new],by simp [new]⟩

end Server

end OpenBroadcast.Signaling
