import OpenBroadcast.Framework.Run
import OpenBroadcast.Signaling.Connections
import OpenBroadcast.Signaling.Network

namespace OpenBroadcast.Signaling

/-- A WebSocket until it is closed. `closing` is after a call to `close`. -/
inductive SocketState where
  | connecting | opened | closing
  deriving DecidableEq, Repr

/-- A `WebRtcStreamClient` with its WebSockets, numbered as they are created, and the timers that
are to call `connect`. The last four fields are what an observer notes: the connections that
`initiateConnection` created, those that `close` was called on, whether `disconnect` was the last
call of the application, and how many sockets were created while it was. -/
structure Session where
  client : Client
  sockets : HashMap Nat SocketState
  socketCount : Nat
  signalingWs : Option Nat
  reconnectAttempts : Nat
  timers : Nat
  initiated : Finset Nat
  closed : Finset Nat
  disconnected : Bool
  reopened : Nat

inductive SessionEvent where
  | connect
  | disconnect
  | socketOpened (k : Nat)
  | socketMessage (k : Nat) (m : SignalingMessage)
  | socketClosed (k : Nat)
  | timer
  | client (e : ClientEvent)

namespace Session

def new (u : Uuid) (streamId : Text) (isPublisher : Bool) : Session where
  client := Client.new u streamId isPublisher
  sockets := ∅
  socketCount := 0
  signalingWs := none
  reconnectAttempts := 0
  timers := 0
  initiated := ∅
  closed := ∅
  disconnected := false
  reopened := 0

def maxReconnectAttempts : Nat := 3

def connect (s : Session) : Session :=
  { s with
    sockets := s.sockets.insert s.socketCount .connecting
    socketCount := s.socketCount+1
    signalingWs := some s.socketCount }

/-- `send` throws on a socket that is still connecting, as the current one may be while an
earlier one is open. -/
def sendThrows (s : Session) : Bool :=
  s.client.signalingConnected &&
    s.signalingWs.any (fun k => s.sockets.lookup k == some .connecting)

/-- The handler `onclose`. -/
def onclose (s : Session) (k : Nat) : Session :=
  let s := { s with sockets := s.sockets.erase k }
  if s.reconnectAttempts < maxReconnectAttempts then
    { s with reconnectAttempts := s.reconnectAttempts+1, timers := s.timers+1 }
  else s

/-- What `disconnect` does to the socket. -/
def closeSocket (s : Session) : Session :=
  match s.signalingWs with
  | some k => { s with sockets := s.sockets.modify k (fun _ => .closing), signalingWs := none }
  | none => s

/-- What an event does to the sockets and timers. -/
def transport (s : Session) : SessionEvent → Session
  | .connect => { s.connect with disconnected := false }
  | .disconnect => { if s.sendThrows then s else s.closeSocket with disconnected := true }
  | .socketOpened k =>
    if s.sockets.lookup k = some .connecting then
      { s with sockets := s.sockets.insert k .opened, reconnectAttempts := 0 }
    else s
  | .socketClosed k => if k ∈ s.sockets then s.onclose k else s
  | .timer =>
    if s.timers = 0 then s
    else
      { s.connect with
        timers := s.timers-1
        reopened := s.reopened+s.disconnected.toNat }
  | .socketMessage _ _ | .client _ => s

/-- What the client makes of a call of the browser. An offer or answer that cannot be sent has
failed; the calls that come with the socket are events of the session. -/
def clientEvent (s : Session) : ClientEvent → Option ClientEvent
  | .opened | .closed | .disconnect => none
  | .resume i (some sdp) =>
    match s.client.tasks[i]? with
    | some (.offering _ _) | some (.answering _) =>
      some (.resume i (if s.sendThrows then none else some sdp))
    | _ => some (.resume i (some sdp))
  | e => some e

/-- What the client gets of an event. A socket that is closing hands over no message. -/
def input (s : Session) : SessionEvent → Option ClientInput
  | .socketOpened k =>
    if s.sockets.lookup k = some .connecting then some (.event .opened) else none
  | .socketMessage k m =>
    if s.sockets.lookup k = some .opened then some (.message m) else none
  | .socketClosed k => if k ∈ s.sockets then some (.event .closed) else none
  | .disconnect => if s.sendThrows then none else some (.event .disconnect)
  | .client e => (s.clientEvent e).map .event
  | .connect | .timer => none

/-- Whether an event makes the client call `initiateConnection`. -/
def initiates (s : Session) (e : SessionEvent) : Bool := (s.input e).any s.client.initiates

/-- The connections that the client calls `close` on. -/
def closes (s : Session) (e : SessionEvent) : Finset Nat := (s.input e).elim ∅ s.client.closes

def step (s : Session) (e : SessionEvent) : Session :=
  { s.transport e with
    client := (s.input e).elim s.client s.client.receive
    initiated := if s.initiates e then insert s.client.created s.initiated else s.initiated
    closed := s.closed ∪ s.closes e }

def run (s : Session) (es : List SessionEvent) : Session := es.foldl step s

/-- The connections that the client initiated and has not closed. -/
def unclosed (s : Session) : Finset Nat := s.initiated \ s.closed

/-- The client initiates no connection while it has `maxPeerConnections` that it initiated and
has not closed. -/
def RoomLeft (s : Session) (e : SessionEvent) : Prop :=
  s.initiates e → (s.initiated \ (s.closed ∪ s.closes e)).card < Client.maxPeerConnections

/-- `disconnect` is called when no timer is pending, and a socket that is closed after it finds
the attempts to reconnect used up. -/
def Quiet (s : Session) : SessionEvent → Prop
  | .disconnect => s.timers = 0
  | .socketClosed k =>
    s.disconnected → k ∈ s.sockets → maxReconnectAttempts ≤ s.reconnectAttempts
  | _ => True

/-- The numbers of connections are used once. -/
structure Fresh (s : Session) : Prop where
  numbered : s.client.Numbered
  initiated : ∀ pc ∈ s.initiated, pc < s.client.created
  closed : ∀ pc ∈ s.closed, pc < s.client.created

theorem new_fresh (u : Uuid) (streamId : Text) (isPublisher : Bool) :
    (new u streamId isPublisher).Fresh where
  numbered := by
    intro remote pc hpc
    simp [new,Client.new] at hpc
  initiated := by simp [new]
  closed := by simp [new]

section Connections

variable {s : Session}

theorem step_grows (e : SessionEvent) :
    Client.Grows s.client (s.step e).client (s.initiates e).toNat := by
  simp only [step,initiates]
  cases s.input e with
  | none => exact Client.grows_of_eq rfl rfl
  | some x => exact Client.receive_grows x

theorem closes_lt (h : s.Fresh) (e : SessionEvent) : ∀ pc ∈ s.closes e, pc < s.client.created := by
  unfold closes
  cases s.input e with
  | none => simp
  | some x => exact Client.closes_lt h.numbered x

theorem step_fresh (h : s.Fresh) (e : SessionEvent) : (s.step e).Fresh := by
  have hgrows := (step_grows (s := s) e).created
  have hkept : ∀ pc, pc < s.client.created → pc < (s.step e).client.created := by
    intro pc hpc
    omega
  refine ⟨(step_grows e).numbered h.numbered,?_,?_⟩
  · intro pc hpc
    cases hcall : s.initiates e with
    | false => exact hkept pc (h.initiated pc (by simpa [step,hcall] using hpc))
    | true =>
      rw [hcall,Bool.toNat_true] at hgrows
      have hcases : pc = s.client.created ∨ pc ∈ s.initiated := by simpa [step,hcall] using hpc
      obtain rfl | hold := hcases
      · omega
      · exact hkept pc (h.initiated pc hold)
  · intro pc hpc
    have hcases : pc ∈ s.closed ∨ pc ∈ s.closes e := by simpa [step] using hpc
    obtain hold | hnow := hcases
    · exact hkept pc (h.closed pc hold)
    · exact hkept pc (closes_lt h e pc hnow)

/-- A new connection adds to those that the step leaves open. -/
theorem step_unclosed_card (h : s.Fresh) (e : SessionEvent) :
    (s.step e).unclosed.card =
      (s.initiated \ (s.closed ∪ s.closes e)).card+(s.initiates e).toNat := by
  cases hcall : s.initiates e with
  | false => simp [unclosed,step,hcall]
  | true =>
    have hopen : s.client.created ∉ s.closed ∪ s.closes e := by
      intro hmem
      obtain hold | hnow := Finset.mem_union.mp hmem
      · exact Nat.lt_irrefl _ (h.closed _ hold)
      · exact Nat.lt_irrefl _ (closes_lt h e _ hnow)
    have hnew : s.client.created ∉ s.initiated \ (s.closed ∪ s.closes e) := by
      intro hmem
      exact Nat.lt_irrefl _ (h.initiated _ (Finset.mem_sdiff.mp hmem).1)
    simp only [unclosed,step,hcall,if_true]
    rw [Finset.insert_sdiff_of_notMem _ hopen,Finset.card_insert_of_notMem hnew]
    rfl

theorem step_room_iff (h : s.Fresh) (hroom : s.unclosed.card ≤ Client.maxPeerConnections)
    (e : SessionEvent) :
    s.RoomLeft e ↔ (s.step e).unclosed.card ≤ Client.maxPeerConnections := by
  rw [step_unclosed_card h e,RoomLeft]
  cases s.initiates e with
  | true =>
    simp only [forall_const,Bool.toNat_true]
    exact Iff.rfl
  | false =>
    have hless : (s.initiated \ (s.closed ∪ s.closes e)).card ≤ s.unclosed.card :=
      Finset.card_le_card (Finset.sdiff_subset_sdiff (Finset.Subset.refl _) Finset.subset_union_left)
    simp only [Bool.false_eq_true,false_implies,Bool.toNat_false,Nat.add_zero,true_iff]
    omega

theorem run_fresh (h : s.Fresh) (es : List SessionEvent) : (s.run es).Fresh :=
  (along_true step s es).invariant Fresh h (fun _ e hfresh _ => step_fresh hfresh e)

theorem run_room_iff (h : s.Fresh) (hroom : s.unclosed.card ≤ Client.maxPeerConnections)
    (es : List SessionEvent) :
    Along step RoomLeft s es ↔
      ∀ pre, pre <+: es → (s.run pre).unclosed.card ≤ Client.maxPeerConnections := by
  have hstep : ∀ s e, (Fresh s ∧ s.unclosed.card ≤ Client.maxPeerConnections) →
      (RoomLeft s e ↔ Fresh (step s e) ∧ (s.step e).unclosed.card ≤ Client.maxPeerConnections) := by
    intro s e hs
    rw [step_room_iff hs.1 hs.2 e,and_iff_right (step_fresh hs.1 e)]
  rw [along_iff_prefixes
    (fun s => Fresh s ∧ s.unclosed.card ≤ Client.maxPeerConnections) ⟨h,hroom⟩ hstep]
  exact forall₂_congr (fun pre _ => and_iff_right (run_fresh h pre))

end Connections

/-- No socket was created after `disconnect`, and none is going to be. -/
def Settled (s : Session) : Prop := s.reopened = 0 ∧ (s.disconnected → s.timers = 0)

section Sockets

variable {s : Session}

@[simp] theorem step_timers (e : SessionEvent) : (s.step e).timers = (s.transport e).timers := rfl

@[simp] theorem step_reopened (e : SessionEvent) :
    (s.step e).reopened = (s.transport e).reopened := rfl

@[simp] theorem step_disconnected (e : SessionEvent) :
    (s.step e).disconnected = (s.transport e).disconnected := rfl

theorem closeSocket_frame : s.closeSocket.timers = s.timers ∧ s.closeSocket.reopened = s.reopened := by
  unfold closeSocket
  cases s.signalingWs with
  | none => exact ⟨rfl,rfl⟩
  | some k => exact ⟨rfl,rfl⟩

theorem disconnect_transport :
    (s.transport .disconnect).timers = s.timers ∧
      (s.transport .disconnect).reopened = s.reopened ∧
      (s.transport .disconnect).disconnected = true := by
  obtain ⟨htimers,hreopened⟩ := closeSocket_frame (s := s)
  cases hthrows : s.sendThrows with
  | true => simp [transport,hthrows]
  | false => simp [transport,hthrows,htimers,hreopened]

theorem onclose_frame (k : Nat) :
    (s.onclose k).reopened = s.reopened ∧ (s.onclose k).disconnected = s.disconnected ∧
      (s.onclose k).timers =
        s.timers+(decide (s.reconnectAttempts < maxReconnectAttempts)).toNat := by
  simp only [onclose]
  split_ifs with hleft
  · simp [hleft]
  · simp [hleft]

/-- A timer that is pending after `disconnect` opens a socket when it fires. -/
theorem settled_iff_timer : s.Settled ↔ s.reopened = 0 ∧ (s.step .timer).reopened = 0 := by
  simp only [Settled,step_reopened,transport]
  refine and_congr_right ?_
  intro hnone
  by_cases hpending : s.timers = 0
  · simp [hpending,hnone]
  · cases s.disconnected with
    | true => simp [hpending,connect,hnone]
    | false => simp [hpending,connect,hnone]

theorem step_settled_iff (h : s.Settled) (e : SessionEvent) :
    s.Quiet e ↔ (s.step e).Settled := by
  obtain ⟨hnone,htimers⟩ := h
  simp only [Settled,step_reopened,step_disconnected,step_timers]
  cases e with
  | connect => simp [Quiet,transport,connect,hnone]
  | disconnect =>
    obtain ⟨hkept,hreopened,hset⟩ := disconnect_transport (s := s)
    rw [hkept,hreopened,hset]
    simp [Quiet,hnone]
  | socketOpened k =>
    simp only [Quiet,transport,true_iff]
    split_ifs
    · exact ⟨hnone,htimers⟩
    · exact ⟨hnone,htimers⟩
  | socketMessage k m => exact ⟨fun _ => ⟨hnone,htimers⟩,fun _ => trivial⟩
  | client e => exact ⟨fun _ => ⟨hnone,htimers⟩,fun _ => trivial⟩
  | socketClosed k =>
    obtain ⟨hreopened,hset,hadded⟩ := onclose_frame (s := s) k
    simp only [Quiet,transport]
    split_ifs with hk
    · rw [hreopened,hset,hadded]
      simp only [hnone,true_and,hk,true_implies]
      constructor
      · intro hused hd
        have hfew : ¬ s.reconnectAttempts < maxReconnectAttempts := Nat.not_lt.mpr (hused hd)
        simp [htimers hd,hfew]
      · intro hstill hd
        have hzero := hstill hd
        by_contra hmore
        simp [Nat.not_le.mp hmore] at hzero
    · exact ⟨fun _ => ⟨hnone,htimers⟩,fun _ _ hmem => absurd hmem hk⟩
  | timer =>
    simp only [Quiet,transport,true_iff]
    split_ifs with hpending
    · exact ⟨hnone,htimers⟩
    · have hconnected : s.disconnected = false := by
        by_contra hd
        exact hpending (htimers (by simpa using hd))
      simp [connect,hconnected,hnone]

theorem run_quiet_iff (h : s.Settled) (es : List SessionEvent) :
    Along step Quiet s es ↔
      ∀ pre, pre <+: es →
        (s.run pre).reopened = 0 ∧ ((s.run pre).step .timer).reopened = 0 := by
  rw [along_iff_prefixes Settled h (fun s e hs => step_settled_iff hs e)]
  exact forall₂_congr (fun pre _ => settled_iff_timer)

end Sockets

/-- A session keeps to five connections exactly if it initiates none while it has five that are
not closed, whether their channels are open or not. It opens no socket between `disconnect` and
`connect`, also if a timer fires next, exactly if no timer was pending then and no socket that
closes sets one. -/
theorem run_discipline_iff (u : Uuid) (streamId : Text) (isPublisher : Bool)
    (es : List SessionEvent) :
    (Along step RoomLeft (new u streamId isPublisher) es ↔
      ∀ pre, pre <+: es →
        ((new u streamId isPublisher).run pre).unclosed.card ≤ Client.maxPeerConnections) ∧
    (Along step Quiet (new u streamId isPublisher) es ↔
      ∀ pre, pre <+: es →
        ((new u streamId isPublisher).run pre).reopened = 0 ∧
          (((new u streamId isPublisher).run pre).step .timer).reopened = 0) := by
  have hsettled : (new u streamId isPublisher).Settled := ⟨rfl,fun _ => rfl⟩
  have hempty : (new u streamId isPublisher).unclosed.card ≤ Client.maxPeerConnections := by
    simp [unclosed,new]
  exact ⟨run_room_iff (new_fresh u streamId isPublisher) hempty es,run_quiet_iff hsettled es⟩

def sampleSession : Session := new (Network.sampleUuid 1) ['s'] false

/-- A list of six publishers; each offer is made, and no channel is open yet. -/
def sixPublishers : List SessionEvent :=
  [.connect,.socketOpened 0,.socketMessage 0 (.peerList
    ((List.range 6).map (fun i => ⟨['p',Nat.digitChar i],true,false⟩)))]++
    List.replicate 5 (.client (.resume 0 (some "v=0")))

/-- The socket that `disconnect` closes runs its handler, and the timer fires. -/
def reconnectAfterDisconnect : List SessionEvent :=
  [.connect,.socketOpened 0,.disconnect,.socketClosed 0,.timer]

theorem discipline_broken :
    (sampleSession.run sixPublishers).unclosed.card = 6 ∧
      (sampleSession.run sixPublishers).client.getConnectedPeerCount = 0 ∧
      (sampleSession.run reconnectAfterDisconnect).disconnected = true ∧
      (sampleSession.run reconnectAfterDisconnect).reopened = 1 := by
  decide +kernel

end Session

end OpenBroadcast.Signaling
