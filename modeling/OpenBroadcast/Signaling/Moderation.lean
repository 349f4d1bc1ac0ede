import Mathlib.Data.Char
import Mathlib.Data.List.Lex
import OpenBroadcast.Signaling.Membership

namespace OpenBroadcast.Signaling

/-- The handler is not past the check of the moderation in a join or an offer, nor at telling the
others of an update. -/
def Handler.cleared : Handler → Bool
  | .allowed _ _ => false
  | .entered _ _ => false
  | .stamped _ _ => false
  | .listed _ _ _ => false
  | .notifying _ _ => false
  | .relaying _ (.offer _ _ _) => false
  | .broadcasting _ _ => false
  | _ => true

/-- The handler of a peer that is not allowed stays before the checks. -/
theorem Handler.Moves.cleared {p : Text} {h h' : Handler} (hm : Handler.Moves false p h h')
    (hh : h.cleared) : h'.cleared := by
  cases hm with
  | receive m => cases m <;> rfl
  | allow _ _ hok => cases hok
  | relay _ _ hok => cases hok
  | list => exact hh
  | _ => rfl

/-- The peer that the handler is about to relay a message to. -/
def Handler.relaysTo : Handler → Option Text
  | .relaying t _ => some t
  | _ => none

def Handler.updates : Handler → Bool
  | .updating _ _ => true
  | _ => false

namespace Server

section Blocked

variable {cfg : WebServerConfig} {s : Server} {p : Text}

def Blocked (s : Server) (p : Text) : Prop := ∃ m, s.moderation = some m ∧ p ∈ m.blockedPeers

theorem Blocked.not_allowed (h : Blocked s p) : s.isPeerAllowed p = false := by
  obtain ⟨m,hm,hp⟩ := h
  simp [isPeerAllowed,hm,ModerationManager.isPeerAllowed,hp]

theorem moderation_advanceKick (s : Server) (H : HashOrder Unit Text) (i : Nat) :
    (s.advanceKick H i).moderation = s.moderation := by
  unfold advanceKick
  split
  · rfl
  · rfl
  · rfl
  · next q toNotify _ =>
    exact congrArg Control.moderation
      (control_sendAll s (.peerLeave q) (toNotify.flatMap Prod.snd))
  · split_ifs <;> rfl

/-- A block lasts until it is lifted. -/
theorem step_moderation (cfg : WebServerConfig) (s : Server) (e : ServerEvent) (p : Text) :
    ∃ f : ModerationManager → ModerationManager,
      (s.step cfg e).moderation = s.moderation.map f ∧
      (e ≠ .unblock p → ∀ m, p ∈ m.blockedPeers → p ∈ (f m).blockedPeers) := by
  have same {s' : Server} (h : s'.moderation = s.moderation) :
      ∃ f : ModerationManager → ModerationManager, s'.moderation = s.moderation.map f ∧
        (e ≠ .unblock p → ∀ m, p ∈ m.blockedPeers → p ∈ (f m).blockedPeers) :=
    ⟨id,by rw [h,Option.map_id_fun,id],fun _ _ hp => hp⟩
  cases e with
  | advance k => exact same (congrArg Control.moderation (control_advance cfg s k))
  | connect u =>
    simp only [step]
    split_ifs <;> exact same rfl
  | block q =>
    simp only [step]
    split
    · exact ⟨_,rfl,fun _ _ hp => Finset.mem_insert_of_mem hp⟩
    · exact same rfl
  | kick i H => exact same (moderation_advanceKick s H i)
  | unblock q =>
    refine ⟨_,rfl,?_⟩
    intro he m hp
    have hne : p ≠ q := by
      intro hpq
      rw [hpq] at he
      exact he rfl
    exact Finset.mem_erase.mpr ⟨hne,hp⟩
  | whitelist q => exact ⟨_,rfl,fun _ _ hp => hp⟩
  | removeWhitelist q => exact ⟨_,rfl,fun _ _ hp => hp⟩
  | cleanupTick =>
    simp only [step]
    split_ifs <;> exact same rfl
  | cleanup =>
    simp only [step]
    split <;> exact same rfl
  | _ => exact same rfl

theorem step_blocked (h : Blocked s p) {e : ServerEvent} (he : e ≠ .unblock p) :
    Blocked (s.step cfg e) p := by
  obtain ⟨m,hm,hp⟩ := h
  obtain ⟨f,hf,hkeeps⟩ := step_moderation cfg s e p
  exact ⟨f m,by rw [hf,hm,Option.map_some],hkeeps he m hp⟩

theorem run_moderation (cfg : WebServerConfig) (m : ModerationManager) (es : List ServerEvent) :
    ∃ m', (run cfg (some m) es).moderation = some m' := by
  apply (along_true (step cfg) (new (some m)) es).invariant (fun s => ∃ m', s.moderation = some m')
  · exact ⟨m,rfl⟩
  · intro s e hyp _
    obtain ⟨m',hm'⟩ := hyp
    obtain ⟨f,hf,_⟩ := step_moderation cfg s e []
    exact ⟨f m',by rw [hf,hm',Option.map_some]⟩

variable (cfg) in
theorem block_blocked {m : ModerationManager} (hm : s.moderation = some m) (p : Text) :
    Blocked (s.step cfg (.block p)) p ∧
    (s.step cfg (.block p)).kicks = s.kicks++[.blocked p] := by
  simp only [step,hm]
  refine ⟨⟨{ m with blockedPeers := insert p m.blockedPeers },?_,Finset.mem_insert_self _ _⟩,trivial⟩
  simp [Server.moderate,hm]

end Blocked

section Clearing

variable {cfg : WebServerConfig} {s : Server} {p : Text} {i : Nat}

/-- The request `i` to block the peer has yet to clear the rooms of it, or it is in none. -/
def Clearing (p : Text) (i : Nat) (s : Server) : Prop :=
  s.kicks[i]? = some (.blocked p) ∨
  (∃ kick, s.kicks[i]? = some kick ∧ kick.evicts = none) ∧ ∀ sid, ¬ Listed s.streams p sid

/-- Once the request has cleared the rooms of the peer, no join of the peer that has passed the
check before is let in. -/
def KeepsOut (cfg : WebServerConfig) (p : Text) (i : Nat) (s : Server) : ServerEvent → Prop
  | .advance k => s.kicks[i]? ≠ some (.blocked p) → ∀ c ∈ s.seats[k]?, c.peerId = p →
      ∀ sid ∈ c.handler.joins, ¬ Admits cfg s.streams p sid
  | _ => True

theorem kicks_step_other (hi : i < s.kicks.length) {e : ServerEvent} (he : ∀ H, e ≠ .kick i H) :
    (s.step cfg e).kicks[i]? = s.kicks[i]? := by
  cases e with
  | advance k =>
    have hkicks : (s.step cfg (.advance k)).kicks = s.kicks :=
      congrArg Control.kicks (control_advance cfg s k)
    rw [hkicks]
  | connect u =>
    simp only [step]
    split_ifs <;> rfl
  | block q =>
    simp only [step]
    split
    · exact List.getElem?_append_left hi
    · rfl
  | kick j H =>
    have hji : j ≠ i := by
      intro hji
      rw [hji] at he
      exact he H rfl
    simp only [step,advanceKick]
    split
    · rfl
    · rfl
    · exact List.getElem?_set_ne hji
    · exact List.getElem?_set_ne hji
    · split_ifs
      · rfl
      · exact List.getElem?_set_ne hji
  | cleanupTick =>
    simp only [step]
    split_ifs <;> rfl
  | cleanup =>
    simp only [step]
    split <;> rfl
  | _ => rfl

/-- The first section of the request clears the rooms. -/
theorem advanceKick_evicts (H : HashOrder Unit Text) (hi : s.kicks[i]? = some (.blocked p)) :
    Clearing p i (s.advanceKick H i) := by
  right
  have hlt : i < s.kicks.length := (List.getElem?_eq_some_iff.mp hi).1
  simp only [advanceKick,hi]
  refine ⟨⟨_,List.getElem?_set_self hlt,rfl⟩,?_⟩
  intro sid hl
  exact ((listed_evicted s.streams p p sid).mp hl).2 rfl

theorem advanceKick_evicts_none (H : HashOrder Unit Text) {kick : Kick}
    (hi : s.kicks[i]? = some kick) (hkick : kick.evicts = none) :
    ∃ kick', (s.advanceKick H i).kicks[i]? = some kick' ∧ kick'.evicts = none := by
  have hlt : i < s.kicks.length := (List.getElem?_eq_some_iff.mp hi).1
  simp only [advanceKick,hi]
  cases kick with
  | blocked q => cases hkick
  | evicted q toNotify => exact ⟨_,List.getElem?_set_self hlt,rfl⟩
  | notified q =>
    dsimp only
    split_ifs
    · exact ⟨_,hi,rfl⟩
    · exact ⟨_,List.getElem?_set_self hlt,rfl⟩
  | done => exact ⟨_,hi,rfl⟩

theorem step_clearing (h : Clearing p i s) (e : ServerEvent) (out : KeepsOut cfg p i s e) :
    Clearing p i (s.step cfg e) := by
  have hlt : i < s.kicks.length := by
    rcases h with hi | ⟨⟨kick,hi,_⟩,_⟩
    · exact (List.getElem?_eq_some_iff.mp hi).1
    · exact (List.getElem?_eq_some_iff.mp hi).1
  rcases h with hi | ⟨⟨kick,hi,hkick⟩,hnot⟩
  · by_cases he : ∃ H, e = .kick i H
    · obtain ⟨H,rfl⟩ := he
      exact advanceKick_evicts H hi
    · left
      rw [kicks_step_other hlt (fun H hH => he ⟨H,hH⟩)]
      exact hi
  · right
    constructor
    · by_cases he : ∃ H, e = .kick i H
      · obtain ⟨H,rfl⟩ := he
        exact advanceKick_evicts_none H hi hkick
      · exact ⟨kick,by rw [kicks_step_other hlt (fun H hH => he ⟨H,hH⟩)]; exact hi,hkick⟩
    · intro sid hl
      rcases listed_step p sid hl with hl | ⟨k,c,rfl,hk,hid,pub,hh,room⟩
      · exact hnot sid hl
      · have hpast : s.kicks[i]? ≠ some (.blocked p) := by
          rw [hi]
          intro heq
          cases heq
          cases hkick
        have hjoins : sid ∈ c.handler.joins := by rw [hh]; rfl
        exact out hpast c hk hid sid hjoins room

end Clearing

section Silenced

variable {cfg : WebServerConfig} {s : Server} {p : Text}

/-- The peer is blocked and thrown out, and its handlers have nothing more to say. -/
structure Silenced (p : Text) (s : Server) : Prop where
  blocked : Blocked s p
  unlisted : ∀ sid, ¬ Listed s.streams p sid
  cleared : ∀ c ∈ s.seats, c.peerId = p → c.handler.cleared
  routed : s.Routed

/-- What the blocked peer has relayed is for no other peer that is registered, and its updates come
when nobody else is in the room that its connection was in. -/
def Muted (p : Text) (s : Server) : ServerEvent → Prop
  | .advance k => ∀ c ∈ s.seats[k]?, c.peerId = p →
      (∀ t ∈ c.handler.relaysTo, t = p ∨ t ∉ s.peerSenders) ∧
      (c.handler.updates → ∀ sid ∈ c.currentStreamId, ∀ peers ∈ s.streams.lookup sid,
        others peers p = [])
  | _ => True

theorem others_updatePeer_eq_nil {pub relay : Bool} {peers : List SignalingPeer}
    (h : others peers p = []) : others (updatePeer p pub relay peers) p = [] := by
  have hids : peerIds (others (updatePeer p pub relay peers) p) = [] := by
    apply List.eq_nil_iff_forall_not_mem.mpr
    intro q hq
    rw [mem_peerIds_others,peerIds_updatePeer,← mem_peerIds_others,h] at hq
    cases hq
  exact List.map_eq_nil_iff.mp hids

/-- The handler of another peer goes on, or that of the peer without getting past a check. -/
theorem cleared_set {seats : List Seat} {k : Nat} {c' : Seat}
    (h : ∀ c ∈ seats, c.peerId = p → c.handler.cleared) (hc' : c'.peerId = p → c'.handler.cleared) :
    ∀ c ∈ seats.set k c', c.peerId = p → c.handler.cleared := by
  intro c hc hid
  rcases List.mem_or_eq_of_mem_set hc with hc | rfl
  · exact h c hc hid
  · exact hc' hid

/-- A handler that is past its check is one of another peer. -/
theorem Silenced.other (h : Silenced p s) {k : Nat} {c : Seat} (hk : s.seats[k]? = some c)
    (hpast : c.handler.cleared = false) : c.peerId ≠ p := by
  intro hid
  have hcleared := h.cleared c (List.mem_of_getElem? hk) hid
  rw [hpast] at hcleared
  cases hcleared

theorem step_cleared (h : Silenced p s) (e : ServerEvent) (muted : Muted p s e) :
    ∀ c ∈ (s.step cfg e).seats, c.peerId = p → c.handler.cleared := by
  have hchange := step_change cfg s e
  change ∀ c ∈ (s.step cfg e).registry.seats, c.peerId = p → c.handler.cleared
  generalize (s.step cfg e).registry = r at hchange ⊢
  cases hchange with
  | connect u =>
    intro c hc hid
    rcases List.mem_append.mp hc with hc | hc
    · exact h.cleared c hc hid
    · rw [List.mem_singleton] at hc
      subst hc
      rfl
  | @move _ k c h' hk hm =>
    apply cleared_set h.cleared
    intro hid
    have hid : c.peerId = p := hid
    rw [hid,h.blocked.not_allowed] at hm
    exact hm.cleared (h.cleared c (List.mem_of_getElem? hk) hid)
  | enter hk hh =>
    have hother := h.other hk (by rw [hh]; rfl)
    apply cleared_set h.cleared
    exact fun hid => absurd hid hother
  | stamp hk hh =>
    have hother := h.other hk (by rw [hh]; rfl)
    apply cleared_set h.cleared
    exact fun hid => absurd hid hother
  | sit peers hk hh =>
    have hother := h.other hk (by rw [hh]; rfl)
    apply cleared_set h.cleared
    exact fun hid => absurd hid hother
  | @update k c sid peers pub relay h' hk hh hcurrent hsid hh' =>
    apply cleared_set h.cleared
    intro hid
    have hid : c.peerId = p := hid
    rcases hh' with rfl | ⟨hne,m,rfl⟩
    · rfl
    · have hupdates : c.handler.updates = true := by rw [hh]; rfl
      have hnone := (muted c hk hid).2 hupdates sid hcurrent peers hsid
      rw [hid] at hne
      exact absurd (others_updatePeer_eq_nil hnone) hne
  | resign =>
    apply cleared_set h.cleared
    exact fun _ => rfl
  | @leave k c c' closing hk hh hc' =>
    apply cleared_set h.cleared
    intro _
    rw [hc']
    split_ifs <;> rfl
  | _ => exact h.cleared

theorem step_silenced (h : Silenced p s) {e : ServerEvent} (he : e ≠ .unblock p)
    (muted : Muted p s e) : Silenced p (s.step cfg e) := by
  refine ⟨step_blocked h.blocked he,?_,step_cleared h e muted,step_routed h.routed cfg e⟩
  intro sid hl
  rcases listed_step p sid hl with hl | ⟨k,c,_,hk,hid,pub,hh,_⟩
  · exact h.unlisted sid hl
  · exact absurd hid (h.other hk (by rw [hh]; rfl))

end Silenced

section Heard

variable {s s' s'' : Server} {p : Text} {Q : SignalingMessage → Prop}

/-- All that the connections of other peers get between two states is as `Q` says. -/
def Heard (p : Text) (Q : SignalingMessage → Prop) (s s' : Server) : Prop :=
  ∀ (j : Nat) (d : Connection), s.connections[j]? = some d → d.peerId.toText ≠ p →
    ∃ d', s'.connections[j]? = some d' ∧ d'.peerId = d.peerId ∧
      ∃ added, d'.channel = d.channel++added ∧ ∀ m ∈ added, Q m

theorem Heard.refl (h : s'.connections = s.connections) : Heard p Q s s' := by
  intro j d hd _
  exact ⟨d,by rw [h]; exact hd,rfl,[],by simp,by simp⟩

theorem Heard.trans (h : Heard p Q s s') (h' : Heard p Q s' s'') : Heard p Q s s'' := by
  intro j d hd hne
  obtain ⟨d',hd',hid,added,hchannel,hq⟩ := h j d hd hne
  obtain ⟨d'',hd'',hid',added',hchannel',hq'⟩ := h' j d' hd' (by rw [hid]; exact hne)
  refine ⟨d'',hd'',hid'.trans hid,added++added',?_,?_⟩
  · rw [hchannel',hchannel,List.append_assoc]
  · intro m hm
    rcases List.mem_append.mp hm with hm | hm
    · exact hq m hm
    · exact hq' m hm

/-- Changing the maps first makes no difference. -/
theorem Heard.of_same {s₁ : Server} (h : Heard p Q s₁ s') (hs : s₁.connections = s.connections) :
    Heard p Q s s' :=
  (Heard.refl hs).trans h

theorem Heard.mem (h : Heard p Q s s') {j : Nat} {d d' : Connection}
    (hd : s.connections[j]? = some d) (hne : d.peerId.toText ≠ p)
    (hd' : s'.connections[j]? = some d') {m : SignalingMessage} (hm : m ∈ d'.channel) :
    m ∈ d.channel ∨ Q m := by
  obtain ⟨x,hx,_,added,hchannel,hq⟩ := h j d hd hne
  rw [hd'] at hx
  cases hx
  rw [hchannel] at hm
  rcases List.mem_append.mp hm with hm | hm
  · exact Or.inl hm
  · exact Or.inr (hq m hm)

theorem heard_modifyConnection {k : Nat} {f : Connection → Connection}
    (hf : ∀ c, s.connections[k]? = some c → c.peerId.toText ≠ p → (f c).peerId = c.peerId ∧
      ∃ added, (f c).channel = c.channel++added ∧ ∀ m ∈ added, Q m) :
    Heard p Q s (s.modifyConnection k f) := by
  intro j d hd hne
  simp only [modifyConnection,List.getElem?_modify,hd]
  by_cases hkj : k = j
  · subst hkj
    obtain ⟨hid,added,hchannel,hq⟩ := hf d hd hne
    exact ⟨f d,by simp,hid,added,hchannel,hq⟩
  · exact ⟨d,by simp [hkj],rfl,[],by simp,by simp⟩

theorem heard_setHandler (s : Server) (k : Nat) (h : Handler) : Heard p Q s (s.setHandler k h) :=
  heard_modifyConnection (fun c _ _ => ⟨rfl,[],by simp,by simp⟩)

theorem trySend_channel (c : Connection) (m : SignalingMessage) :
    ∃ added, (c.trySend m).channel = c.channel++added ∧ ∀ m' ∈ added, m' = m := by
  unfold Connection.trySend
  split_ifs
  · exact ⟨[m],rfl,by simp⟩
  · exact ⟨[],by simp,by simp⟩

theorem heard_send {m : SignalingMessage} (hm : Q m) (q : Text) : Heard p Q s (s.send m q) := by
  unfold send
  split
  · apply heard_modifyConnection
    intro c _ _
    obtain ⟨added,hchannel,hadded⟩ := trySend_channel c m
    refine ⟨trySend_peerId c m,added,hchannel,?_⟩
    intro m' hm'
    rw [hadded m' hm']
    exact hm
  · exact Heard.refl rfl

theorem heard_sendAll {m : SignalingMessage} (hm : Q m) (qs : List Text) :
    Heard p Q s (s.sendAll m qs) := by
  unfold sendAll
  induction qs generalizing s with
  | nil => exact Heard.refl rfl
  | cons q qs ih => exact (heard_send hm q).trans ih

/-- What a peer sends to itself, or to nobody, is heard by no other one. -/
theorem heard_send_self (routed : s.Routed) {m : SignalingMessage} {q : Text}
    (hq : q = p ∨ q ∉ s.peerSenders) : Heard p Q s (s.send m q) := by
  unfold send
  split
  · next k hk =>
    apply heard_modifyConnection
    intro c hc hne
    have hmem : q ∈ s.peerSenders := Finmap.mem_of_lookup_eq_some hk
    rcases hq with rfl | hq
    · -- The sender of `p` leads to a connection of `p`.
      obtain ⟨u,hu,hp⟩ := routed.senders q k hk
      rw [ids,List.getElem?_map,hc] at hu
      cases hu
      exact absurd hp hne
    · exact absurd hmem hq
  · exact Heard.refl rfl

end Heard

section Unheard

variable {cfg : WebServerConfig} {s : Server} {p : Text}

/-- A step of a handler of the peer gives no other peer a message, but that the peer has left, when
it is in no room anyway. -/
def Unheard (cfg : WebServerConfig) (p : Text) (s : Server) : ServerEvent → Prop
  | .advance k => ∀ c, s.connections[k]? = some c → c.peerId.toText = p →
      Heard p (fun m => m = .peerLeave p ∧ ∀ sid, ¬ Listed s.streams p sid) s
        (s.step cfg (.advance k))
  | _ => True

theorem heard_leaveRoom {Q : SignalingMessage → Prop} (hQ : Q (.peerLeave p)) (current : Option Text) :
    Heard p Q s (s.leaveRoom p current) := by
  unfold leaveRoom
  split
  · exact Heard.refl rfl
  · split
    · exact Heard.refl rfl
    · next sid _ peers _ =>
      have sent : Heard p Q s ({ s with streams := s.streams.insert sid (others peers p) }.sendAll
          (.peerLeave p) (peerIds (others peers p))) :=
        (heard_sendAll hQ _).of_same rfl
      dsimp only
      split_ifs
      · exact sent.trans (Heard.refl rfl)
      · exact sent

theorem heard_leaveDone (s : Server) (k : Nat) (closing : Bool) {Q : SignalingMessage → Prop} :
    Heard p Q s (s.modifyConnection k (leaveDone closing)) := by
  apply heard_modifyConnection
  intro c _ _
  unfold leaveDone
  split_ifs <;> exact ⟨rfl,[],by simp,by simp⟩

/-- The step of a silenced peer, one case for each place at which its handler can stand. -/
theorem silenced_unheard (h : Silenced p s) (e : ServerEvent) (muted : Muted p s e) :
    Unheard cfg p s e := by
  cases e with
  | advance k =>
    intro c hc hid
    subst hid
    have hk : s.seats[k]? = some c.seat := by rw [seats,List.getElem?_map,hc]; rfl
    obtain ⟨hrelays,_⟩ := muted c.seat hk rfl
    have past (hpast : c.handler.cleared = false) : False := h.other hk hpast rfl
    -- The peer gets an answer itself, or nobody does.
    have answer {m : SignalingMessage} {q : Text}
        (hq : q = c.peerId.toText ∨ q ∉ s.peerSenders) :
        Heard c.peerId.toText (fun m => m = .peerLeave c.peerId.toText ∧
          ∀ sid, ¬ Listed s.streams c.peerId.toText sid) s ((s.send m q).setHandler k .idle) :=
      (heard_send_self h.routed hq).trans (heard_setHandler _ k _)
    change ∀ t ∈ c.handler.relaysTo, _ at hrelays
    simp only [step,advance,hc]
    cases hh : c.handler with
    | idle => exact Heard.refl rfl
    | closed => exact Heard.refl rfl
    | joining sid pub =>
      dsimp only
      split_ifs
      · exact heard_setHandler s k _
      · exact heard_setHandler s k _
      · exact heard_setHandler s k _
    | refused message => exact answer (Or.inl rfl)
    | offering target sdp =>
      dsimp only
      split
      · exact heard_setHandler s k _
      · exact heard_setHandler s k _
    | relaying t m =>
      apply answer
      apply hrelays
      rw [hh]
      rfl
    | updating pub relay =>
      dsimp only
      unfold updateRoom
      split
      · exact heard_setHandler s k _
      · split
        · exact heard_setHandler s k _
        · exact (heard_setHandler _ k _).of_same rfl
    | leaving closing =>
      dsimp only
      split_ifs
      · exact Heard.refl rfl
      · exact (heard_setHandler _ k _).of_same rfl
    | leavingRoom closing =>
      exact (heard_leaveRoom ⟨rfl,h.unlisted⟩ c.currentStreamId).trans (heard_leaveDone _ k closing)
    | allowed sid pub => exact (past (by rw [hh]; rfl)).elim
    | entered sid pub => exact (past (by rw [hh]; rfl)).elim
    | stamped sid pub => exact (past (by rw [hh]; rfl)).elim
    | listed sid pub peers => exact (past (by rw [hh]; rfl)).elim
    | notifying sid pub => exact (past (by rw [hh]; rfl)).elim
    | broadcasting ps m => exact (past (by rw [hh]; rfl)).elim
  | _ => trivial

/-- In every run in which the peer is blocked, once the request is complete: if no join of the peer
has got into a room since the rooms were cleared of it, and none of its handlers is past a check at
the end of the request, then as long as the block lasts no other peer hears from it, unless it
sends answers, ICE candidates or updates. -/
theorem blocked_peer_unheard (cfg : WebServerConfig) (m : ModerationManager) (p : Text)
    (es₁ es₂ es₃ : List ServerEvent) (kept : ∀ e ∈ es₂++es₃, e ≠ .unblock p)
    (done : (run cfg (some m) (es₁++.block p::es₂)).kicks[(run cfg (some m) es₁).kicks.length]? =
      some .done)
    (out : Along (step cfg) (KeepsOut cfg p (run cfg (some m) es₁).kicks.length)
      (run cfg (some m) (es₁++[.block p])) es₂)
    (cleared : ∀ c ∈ (run cfg (some m) (es₁++.block p::es₂)).seats, c.peerId = p →
      c.handler.cleared)
    (muted : Along (step cfg) (Muted p) (run cfg (some m) (es₁++.block p::es₂)) es₃) :
    Along (step cfg) (Unheard cfg p) (run cfg (some m) (es₁++.block p::es₂)) es₃ := by
  have hrun : run cfg (some m) (es₁++.block p::es₂) =
      es₂.foldl (step cfg) (run cfg (some m) (es₁++[.block p])) := by
    simp [run]
  have hblock : run cfg (some m) (es₁++[.block p]) = (run cfg (some m) es₁).step cfg (.block p) := by
    simp [run]
  obtain ⟨m',hm'⟩ := run_moderation cfg m es₁
  obtain ⟨hblocked,hkicks⟩ := block_blocked cfg hm' p
  rw [← hblock] at hblocked hkicks
  have kept₂ := along_of_forall (step cfg) (run cfg (some m) (es₁++[.block p]))
    (fun e he => kept e (List.mem_append_left es₃ he))
  have kept₃ := along_of_forall (step cfg) (run cfg (some m) (es₁++.block p::es₂))
    (fun e he => kept e (List.mem_append_right es₂ he))
  -- The request has cleared the rooms by the time it is done.
  have clearing : Clearing p (run cfg (some m) es₁).kicks.length
      (run cfg (some m) (es₁++.block p::es₂)) := by
    rw [hrun]
    apply out.invariant (Clearing p (run cfg (some m) es₁).kicks.length)
    · left
      rw [hkicks,List.getElem?_concat_length]
    · exact fun s e h hok => step_clearing h e hok
  have unlisted : ∀ sid, ¬ Listed (run cfg (some m) (es₁++.block p::es₂)).streams p sid := by
    rcases clearing with hi | ⟨_,hnot⟩
    · rw [done] at hi
      cases hi
    · exact hnot
  have blocked : Blocked (run cfg (some m) (es₁++.block p::es₂)) p := by
    rw [hrun]
    apply kept₂.invariant (fun s => Blocked s p) hblocked
    exact fun s e h hok => step_blocked h hok
  have routed : (run cfg (some m) (es₁++.block p::es₂)).Routed := by
    apply (along_true (step cfg) (new (some m)) _).invariant Routed (new_routed _)
    exact fun s e h _ => step_routed h cfg e
  apply (kept₃.and muted).imp (Silenced p) ⟨blocked,unlisted,cleared,routed⟩
  · exact fun s e h hok => step_silenced h hok.1 hok.2
  · exact fun s e h hok => silenced_unheard h e hok.2

instance (cfg : WebServerConfig) (p : Text) (i : Nat) (s : Server) (e : ServerEvent) :
    Decidable (KeepsOut cfg p i s e) :=
  match e with
  | .advance k => inferInstanceAs (Decidable (s.kicks[i]? ≠ some (.blocked p) →
      ∀ c ∈ s.seats[k]?, c.peerId = p → ∀ sid ∈ c.handler.joins, ¬ Admits cfg s.streams p sid))
  | .connect _ | .receive _ _ | .invalid _ _ | .forward _ | .deliver _ | .forwarderEnds _
  | .disconnect _ | .block _ | .kick _ _ | .unblock _ | .whitelist _ | .removeWhitelist _
  | .tick _ | .cleanupTick | .cleanup => .isTrue trivial

instance (p : Text) (s : Server) (e : ServerEvent) : Decidable (Muted p s e) :=
  match e with
  | .advance k => inferInstanceAs (Decidable (∀ c ∈ s.seats[k]?, c.peerId = p →
      (∀ t ∈ c.handler.relaysTo, t = p ∨ t ∉ s.peerSenders) ∧
      (c.handler.updates → ∀ sid ∈ c.currentStreamId, ∀ peers ∈ s.streams.lookup sid,
        others peers p = [])))
  | .connect _ | .receive _ _ | .invalid _ _ | .forward _ | .deliver _ | .forwarderEnds _
  | .disconnect _ | .block _ | .kick _ _ | .unblock _ | .whitelist _ | .removeWhitelist _
  | .tick _ | .cleanupTick | .cleanup => .isTrue trivial

def sampleModeration : ModerationManager := ⟨false,∅,∅⟩

/-- Two clients join a room. -/
def twoPeers : List ServerEvent :=
  [.connect (Network.sampleUuid 1),.connect (Network.sampleUuid 2)]++
    joinRoom 0 ['a']++joinRoom 1 ['a']

/-- The sections of the first request to block a peer. -/
def kickOut : List ServerEvent := List.replicate 3 (.kick 0 .sorted)

/-- The first client offers something to the second and asks to join again. -/
def offerAndJoin : List ServerEvent :=
  [.receive 0 (.offer [] (some (Network.sampleUuid 2).toText) ""),.advance 0,
    .receive 0 (.peerJoin [] ['a'] false),.advance 0,.advance 0,.disconnect 0,.advance 0,.advance 0]

theorem blocked_peer_unheard_offerAndJoin :
    Along (step Network.sampleConfig) (Unheard Network.sampleConfig (Network.sampleUuid 1).toText)
      (run Network.sampleConfig (some sampleModeration)
        (twoPeers++.block (Network.sampleUuid 1).toText::kickOut)) offerAndJoin := by
  apply blocked_peer_unheard
  · simp [kickOut,offerAndJoin]
  · decide +kernel
  · decide +kernel
  · decide +kernel
  · decide +kernel

def blockedServer : Server :=
  run Network.sampleConfig (some sampleModeration)
    (twoPeers++.block (Network.sampleUuid 1).toText::kickOut)

/-- The first connection gives the second one a message. -/
theorem not_unheard {m : SignalingMessage} (hm : m ≠ .peerLeave p)
    (hp : ∃ c ∈ s.connections[0]?, c.peerId.toText = p)
    (hsent : ∃ d ∈ s.connections[1]?, ∃ d' ∈ (s.step cfg (.advance 0)).connections[1]?,
      d.peerId.toText ≠ p ∧ m ∈ d'.channel ∧ m ∉ d.channel) : ¬ Unheard cfg p s (.advance 0) := by
  intro h
  obtain ⟨c,hc,hid⟩ := hp
  obtain ⟨d,hd,d',hd',hne,hin,hnot⟩ := hsent
  rcases (h c hc hid).mem hd hne hd' hin with hold | ⟨hleave,_⟩
  · exact hnot hold
  · exact hm hleave

/-- The answers and the updates of a blocked peer go through. -/
theorem blocked_peer_heard :
    blockedServer.kicks[0]? = some .done ∧
    ¬ Along (step Network.sampleConfig)
      (Unheard Network.sampleConfig (Network.sampleUuid 1).toText) blockedServer
      [.receive 0 (.answer [] (Network.sampleUuid 2).toText ""),.advance 0] ∧
    ¬ Along (step Network.sampleConfig)
      (Unheard Network.sampleConfig (Network.sampleUuid 1).toText) blockedServer
      [.receive 0 (.peerUpdate [] none true true),.advance 0,.advance 0] := by
  refine ⟨by decide +kernel,?_,?_⟩
  · intro h
    refine not_unheard
      (m := .answer (Network.sampleUuid 1).toText (Network.sampleUuid 2).toText "") (by simp) ?_ ?_
      h.2.1
    · decide +kernel
    · decide +kernel
  · intro h
    refine not_unheard
      (m := .peerUpdate (Network.sampleUuid 1).toText (some ['a']) true true) (by simp) ?_ ?_
      h.2.2.1
    · decide +kernel
    · decide +kernel

end Unheard

end Server

end OpenBroadcast.Signaling
