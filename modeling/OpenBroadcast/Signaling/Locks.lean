import Mathlib.Data.Fintype.Basic
import OpenBroadcast.Framework.RwLock

namespace OpenBroadcast.Signaling

inductive SignalingLock where
  | streams
  | peerSenders
  | streamLastActive
  deriving DecidableEq, Repr

instance : Fintype SignalingLock :=
  ⟨{.streams,.peerSenders,.streamLastActive},by intro l; cases l <;> decide⟩

/-- Any number of signaling connections, of moderators and of requests for the node's
status, and the cleanup task. -/
inductive SignalingTask where
  | connection (n : Nat)
  | moderator (n : Nat)
  | status (n : Nat)
  | idleCleanup
  deriving DecidableEq, Repr

/-- What a disconnecting or leaving peer finds under the stream it last joined. -/
inductive LeaveKind where
  | noStream
  | streamGone
  | streamThere
  deriving DecidableEq, Repr

/-- The handlers, with the outcomes that decide which locks they take. -/
inductive SignalingCall where
  | connect
  | invalidMessage
  | joinRefused
  | joinFull
  | join
  | leave (kind : LeaveKind)
  | relay
  | update (others : Bool)
  | kick
  | idleCleanup
  | status
  deriving DecidableEq, Repr

open LockOp LockMode SignalingLock

def guarded (l : SignalingLock) (m : LockMode) : List (LockOp SignalingLock) :=
  [acquire l m,release l m]

/-- `peer_senders` read inside a section that writes `streams`. -/
def streamsThenSenders : List (LockOp SignalingLock) :=
  [acquire streams write,acquire peerSenders read,release peerSenders read,release streams write]

/-- `streams` read inside a section that reads `peer_senders`. -/
def sendersThenStreams : List (LockOp SignalingLock) :=
  [acquire peerSenders read,acquire streams read,release streams read,release peerSenders read]

def SignalingCall.prog : SignalingCall → List (LockOp SignalingLock)
  | connect => guarded peerSenders write
  | invalidMessage => guarded peerSenders read
  -- An invalid stream id, or a blocked peer.
  | joinRefused => guarded peerSenders read
  -- Too many rooms, or the room is full: the error is sent under the lock of the streams.
  | joinFull => streamsThenSenders
  | join => guarded streams write++guarded streamLastActive write++guarded streams read++
      sendersThenStreams
  | leave .noStream => guarded peerSenders write
  | leave .streamGone => guarded peerSenders write++guarded streams write
  | leave .streamThere => guarded peerSenders write++streamsThenSenders
  -- An offer, an answer or an ICE candidate.
  | relay => guarded peerSenders read
  | update true => guarded streams write++guarded peerSenders read
  | update false => guarded streams write
  | kick => guarded streams write++guarded peerSenders read++guarded peerSenders write
  | idleCleanup =>
    [acquire streams write,acquire streamLastActive write,release streamLastActive write,
      release streams write]
  | status => sendersThenStreams++guarded streams read

def SignalingTask.allowed : SignalingTask → SignalingCall → Bool
  | connection _,.kick => false
  | connection _,.idleCleanup => false
  | connection _,.status => false
  | connection _,_ => true
  | moderator _,.kick => true
  | status _,.status => true
  | idleCleanup,.idleCleanup => true
  | _,_ => false

def signalingLocks : LockSystem SignalingTask SignalingLock SignalingCall where
  prog := SignalingCall.prog
  allowed := SignalingTask.allowed
  bracketed := by
    rintro (_ | _ | _ | _ | _ | ⟨_ | _ | _⟩ | _ | ⟨_ | _⟩ | _ | _ | _) <;> decide

/-- The three ways in which a handler holds one lock while it acquires another, with the
modes on `peer_senders`. -/
theorem nested_cases (c : SignalingCall) : ∀ p ∈ c.prog.tails, ∀ l l', nested l l' p →
    (l = peerSenders ∧ l' = streams ∧ owned peerSenders p = some read) ∨
    (l = streams ∧ l' = peerSenders ∧ p.head? = some (acquire peerSenders read)) ∨
    (l = streams ∧ l' = streamLastActive) := by
  rcases c with _ | _ | _ | _ | _ | (_ | _ | _) | _ | (_ | _) | _ | _ | _ <;> decide

open LockSystem LockState Relation

abbrev SignalingState := LockState SignalingTask SignalingLock

/-- A reader of `peer_senders` is about to acquire `streams`, a writer of `streams` is about
to acquire `peer_senders`, and a request to write `peer_senders` is queued that the latter
is not ahead of. -/
def Jam (s : SignalingState) : Prop :=
  ∃ a b c, nested peerSenders streams (s.rest a) ∧ nested streams peerSenders (s.rest b) ∧
    (c,write) ∈ s.queue peerSenders ∧ ¬ s.position peerSenders b < s.position peerSenders c

/-- Some task has read `peer_senders` and waits for `streams`. -/
def HeldSenders (s : SignalingState) : Prop :=
  ∃ a, s.Queued a streams ∧ nested peerSenders streams (s.rest a)

/-- A request to write `peer_senders` is queued that `t` is not ahead of. -/
def BehindWriter (s : SignalingState) (t : SignalingTask) : Prop :=
  ∃ c, (c,write) ∈ s.queue peerSenders ∧ ¬ s.position peerSenders t < s.position peerSenders c

/-- The jam with everyone queued: the three wait for each other. -/
def Stuck (s : SignalingState) : Prop :=
  HeldSenders s ∧ ∃ b, s.Queued b peerSenders ∧ nested streams peerSenders (s.rest b) ∧
    BehindWriter s b

theorem rest_nested_cases {s : SignalingState} (h : signalingLocks.Inv s) {t : SignalingTask}
    {l l' : SignalingLock} (ht : nested l l' (s.rest t)) :
    (l = peerSenders ∧ l' = streams ∧ owned peerSenders (s.rest t) = some read) ∨
    (l = streams ∧ l' = peerSenders ∧ (s.rest t).head? = some (acquire peerSenders read)) ∨
    (l = streams ∧ l' = streamLastActive) := by
  rcases h.suffix t with he | ⟨c,_,hs⟩
  · rw [he] at ht
    cases ht
  · exact nested_cases c _ ((List.mem_tails _ _).mpr hs) l l' ht

open Classical in
/-- The order in which waiting tasks are served. A task at `peer_senders` comes before the
tasks at `streams` if it waits, directly or behind a writer, for a reader that waits for
`streams`, and after them otherwise. -/
noncomputable def waitKey (s : SignalingState) (t : SignalingTask) : Nat :=
  match s.rest t with
  | acquire streams _::_ => 1
  | acquire streamLastActive _::_ => 2
  | acquire peerSenders _::_ => if HeldSenders s ∧ BehindWriter s t then 0 else 3
  | _ => 0

section

variable {s : SignalingState} {t u : SignalingTask}

theorem waitKey_streams (h : signalingLocks.Inv s) (ht : s.Queued t streams) :
    waitKey s t = 1 := by
  obtain ⟨m,hm⟩ := ht
  obtain ⟨r,hr⟩ := h.queued _ _ _ hm
  simp only [waitKey,hr]

theorem waitKey_streamLastActive (h : signalingLocks.Inv s) (ht : s.Queued t streamLastActive) :
    waitKey s t = 2 := by
  obtain ⟨m,hm⟩ := ht
  obtain ⟨r,hr⟩ := h.queued _ _ _ hm
  simp only [waitKey,hr]

open Classical in
theorem waitKey_peerSenders (h : signalingLocks.Inv s) (ht : s.Queued t peerSenders) :
    waitKey s t = if HeldSenders s ∧ BehindWriter s t then 0 else 3 := by
  obtain ⟨m,hm⟩ := ht
  obtain ⟨r,hr⟩ := h.queued _ _ _ hm
  simp only [waitKey,hr]

theorem BehindWriter.of_ahead (hu : BehindWriter s u)
    (hpos : s.position peerSenders u < s.position peerSenders t) : BehindWriter s t := by
  obtain ⟨c,hc,hle⟩ := hu
  exact ⟨c,hc,by omega⟩

theorem waitKey_holder (h : signalingLocks.Inv s) (hs : ¬ Stuck s) {l l' : SignalingLock}
    {m m' : LockMode} (ht : (t,m) ∈ s.queue l) (hu : (u,m') ∈ s.holders l)
    (hm : m.conflicts m') (hq : s.Queued u l') : waitKey s t < waitKey s u := by
  have hnested := h.nested_of_held hq hu
  rcases rest_nested_cases h hnested with ⟨rfl,rfl,howned⟩ | ⟨rfl,rfl,_⟩ | ⟨rfl,rfl⟩
  · -- The guard is for reading, so the request it keeps back is for writing.
    have hread : m' = read := by
      have := h.held _ _ _ hu
      rw [howned] at this
      exact (Option.some.inj this).symm
    have hwrite : m = write := by
      subst hread
      cases m with
      | read => cases hm
      | write => rfl
    subst hwrite
    rw [waitKey_peerSenders h ⟨_,ht⟩,waitKey_streams h hq,
      if_pos ⟨⟨u,hq,hnested⟩,t,ht,lt_irrefl _⟩]
    exact Nat.zero_lt_one
  · rw [waitKey_streams h ⟨_,ht⟩,waitKey_peerSenders h hq,
      if_neg (fun hb => hs ⟨hb.1,u,hq,hnested,hb.2⟩)]
    omega
  · rw [waitKey_streams h ⟨_,ht⟩,waitKey_streamLastActive h hq]
    exact Nat.one_lt_two

theorem waitKey_ahead (h : signalingLocks.Inv s) {l : SignalingLock} (ht : s.Queued t l)
    (hu : s.Queued u l) (hpos : s.position l u < s.position l t) :
    waitKey s t ≤ waitKey s u := by
  cases l with
  | streams => rw [waitKey_streams h ht,waitKey_streams h hu]
  | streamLastActive => rw [waitKey_streamLastActive h ht,waitKey_streamLastActive h hu]
  | peerSenders =>
    rw [waitKey_peerSenders h ht,waitKey_peerSenders h hu]
    by_cases hb : HeldSenders s ∧ BehindWriter s u
    · rw [if_pos hb,if_pos ⟨hb.1,hb.2.of_ahead hpos⟩]
    · rw [if_neg hb]
      split_ifs <;> omega

end

theorem acyclic_of_not_stuck {s : SignalingState} (h : signalingLocks.Inv s) (hs : ¬ Stuck s)
    (t : SignalingTask) : ¬ TransGen s.Blocks t t := by
  apply acyclic_of_key s.Blocks (waitKey s)
  · intro t u hyp
    obtain ⟨l,m,hm,_⟩ := hyp
    exact ⟨l,m,hm⟩
  · intro t u l' hyp hq
    obtain ⟨l,m,hm,⟨m',hu,hc⟩ | hpos⟩ := hyp
    · exact ⟨l,⟨m,hm⟩,Or.inl (waitKey_holder h hs hm hu hc hq)⟩
    · have hl : l' = l := h.queued_unique hq (queued_of_position_lt hpos)
      subst hl
      refine ⟨l',⟨m,hm⟩,?_⟩
      rcases Nat.lt_or_eq_of_le (waitKey_ahead h ⟨m,hm⟩ hq hpos) with hlt | heq
      · exact Or.inl hlt
      · exact Or.inr ⟨heq,rfl,hpos⟩

/-- The three were at the same points of their calls, and in the same order, before the
step that made the last of them wait. -/
theorem jam_of_step_stuck {s : SignalingState} (h : signalingLocks.Inv s)
    (e : LockEvent SignalingTask SignalingLock SignalingCall)
    (hs : Stuck (signalingLocks.step s e)) : Jam s := by
  obtain ⟨⟨a,hqa,ha⟩,b,hqb,hb,c,hc,hpos⟩ := hs
  have h' := step_inv h e
  have hbc : b ≠ c := by
    intro heq
    subst heq
    obtain ⟨r,hr⟩ := h'.queued _ _ _ hc
    rcases rest_nested_cases h' hb with ⟨hl,_⟩ | ⟨_,_,hread⟩ | ⟨_,hl⟩
    · cases hl
    · rw [hr] at hread
      cases hread
    · cases hl
  obtain ⟨hc,hpos⟩ := position_before h e hbc hqb hc hpos
  rw [queued_rest h e hqa] at ha
  rw [queued_rest h e hqb] at hb
  exact ⟨a,b,c,ha,hb,hc,hpos⟩

/-- In a run without a jam there is never a cycle of tasks that each wait for the next. -/
theorem signaling_no_wait_cycle (es : List (LockEvent SignalingTask SignalingLock SignalingCall))
    (ok : Along signalingLocks.step (fun s _ => ¬ Jam s) init es) (t : SignalingTask) :
    ¬ TransGen (signalingLocks.run es).Blocks t t := by
  have final : signalingLocks.Inv (signalingLocks.run es) ∧ ¬ Stuck (signalingLocks.run es) := by
    apply ok.invariant (fun s => signalingLocks.Inv s ∧ ¬ Stuck s)
    · refine ⟨init_inv,?_⟩
      intro hyp
      obtain ⟨⟨a,⟨m,hm⟩,_⟩,_⟩ := hyp
      simp [init] at hm
    · intro s e hyp hok
      obtain ⟨h,_⟩ := hyp
      exact ⟨step_inv h e,fun hs => hok (jam_of_step_stuck h e hs)⟩
  exact acyclic_of_not_stuck final.1 final.2 t

/-- A peer joins while another one connects, and leaves again. -/
def joinThenLeave : List (LockEvent SignalingTask SignalingLock SignalingCall) :=
  [.start (.connection 0) .join,.request (.connection 0),.grant streams,
    .release (.connection 0),.request (.connection 0),.grant streamLastActive,
    .release (.connection 0),.request (.connection 0),.grant streams,.release (.connection 0),
    .request (.connection 0),.grant peerSenders,.start (.connection 1) .connect,
    .request (.connection 1),.request (.connection 0),.grant streams,.release (.connection 0),
    .release (.connection 0),.grant peerSenders,.release (.connection 1),
    .start (.connection 0) (.leave .streamThere),.request (.connection 0),.grant peerSenders,
    .release (.connection 0),.request (.connection 0),.grant streams,.request (.connection 0)]

theorem signaling_no_wait_cycle_joinThenLeave :
    (signalingLocks.run joinThenLeave).Queued (.connection 0) peerSenders ∧
    ∀ t, ¬ TransGen (signalingLocks.run joinThenLeave).Blocks t t := by
  refine ⟨⟨read,by decide⟩,signaling_no_wait_cycle joinThenLeave ?_⟩
  -- While a writer of the senders is queued, no task writes the streams.
  refine ⟨?_,?_,?_,?_,?_,?_,?_,?_,?_,?_,?_,?_,?_,?_,?_,?_,?_,?_,?_,?_,?_,?_,?_,?_,?_,?_,?_,trivial⟩
    <;> rintro ⟨a,b,c,ha,hb,hc,_⟩ <;>
    first
    | exact absurd hc (List.not_mem_nil)
    | (rcases b with (_ | _ | n) | n | n | _ <;> exact Bool.noConfusion hb)

/-- A peer that has joined is about to notify the others, one finds its room full, and one
connects between the two. -/
def connectBetween : List (LockEvent SignalingTask SignalingLock SignalingCall) :=
  [.start (.connection 0) .join,.request (.connection 0),.grant streams,
    .release (.connection 0),.request (.connection 0),.grant streamLastActive,
    .release (.connection 0),.request (.connection 0),.grant streams,.release (.connection 0),
    .request (.connection 0),.grant peerSenders,.start (.connection 1) .joinFull,
    .request (.connection 1),.grant streams,.start (.connection 2) .connect,
    .request (.connection 2),.request (.connection 0),.request (.connection 1)]

theorem connection_deadlocks :
    (signalingLocks.run connectBetween).Blocks (.connection 0) (.connection 1) ∧
    (signalingLocks.run connectBetween).Blocks (.connection 1) (.connection 2) ∧
    (signalingLocks.run connectBetween).Blocks (.connection 2) (.connection 0) ∧
    TransGen (signalingLocks.run connectBetween).Blocks (.connection 0) (.connection 0) := by
  have first : (signalingLocks.run connectBetween).Blocks (.connection 0) (.connection 1) :=
    ⟨streams,read,by decide,Or.inl ⟨write,by decide,rfl⟩⟩
  have second : (signalingLocks.run connectBetween).Blocks (.connection 1) (.connection 2) :=
    ⟨peerSenders,read,by decide,Or.inr (by decide)⟩
  have third : (signalingLocks.run connectBetween).Blocks (.connection 2) (.connection 0) :=
    ⟨peerSenders,write,by decide,Or.inl ⟨read,by decide,rfl⟩⟩
  exact ⟨first,second,third,.tail (.tail (.single first) second) third⟩

end OpenBroadcast.Signaling
