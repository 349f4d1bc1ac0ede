import Mathlib.Data.List.Basic
import OpenBroadcast.Framework.Boxes
import OpenBroadcast.Framework.Fifo
import OpenBroadcast.Framework.Since

namespace OpenBroadcast.Browser.WasmClient

/-- The events that the overlay of a browser sends. -/
inductive OverlayEvent where
  | streamData (data : Bytes)
  | streamList (streams : List (String × Option String))
  deriving DecidableEq, Repr

/-- The task that `connect` spawns for the events. -/
inductive EventLoop where
  | spawned
  | waiting
  | panicked
  | finished
  deriving DecidableEq, Repr

/-- A client with its overlay. It is borrowed by its event loop for as long as that waits, and so is
the receiver of the events, by the loop or by a listing. A panic gives nothing back. -/
structure Client (Callback : Type) where
  segmentCallback : Option Callback
  loop : EventLoop
  /-- The call of `list_streams` that waits, with the number of events that it has passed over. -/
  listing : Option Nat
  transport : Bool
  eventTx : Bool
  eventRx : List OverlayEvent
  stopping : Bool
  /-- The segments that were handed to a callback, and the lists that were returned. -/
  handed : List (Callback × Bytes)
  returned : List (List (String × Option String))

namespace Client

variable {Callback : Type}

def new : Client Callback := ⟨none,.spawned,none,true,true,[],false,[],[]⟩

/-- The client cannot be borrowed mutably. -/
def isBorrowed (c : Client Callback) : Bool := c.loop = .waiting || c.loop = .panicked

def isReceiving (c : Client Callback) : Bool := c.loop = .waiting || c.listing.isSome

def onSegment (c : Client Callback) (callback : Callback) : Client Callback :=
  if c.isBorrowed then c else { c with segmentCallback := some callback }

/-- What arrives after the transport has closed is not read, and what is read after the overlay has
been stopped is not sent. -/
def send (c : Client Callback) (event : OverlayEvent) : Client Callback :=
  if c.transport && c.eventTx then { c with eventRx := c.eventRx++[event] } else c

/-- The listing passes over events to the next list, or gives up after a hundred. -/
def awaitList (c : Client Callback) : Nat → List OverlayEvent → Client Callback
  | attempts,[] =>
    if c.eventTx then { c with listing := some attempts, eventRx := [] }
    else { c with listing := none, eventRx := [], returned := c.returned++[[]] }
  | _,.streamList streams::events =>
    { c with listing := none, eventRx := events, returned := c.returned++[streams] }
  | attempts,.streamData _::events =>
    if 100 < attempts+1 then
      { c with listing := none, eventRx := events, returned := c.returned++[[]] }
    else c.awaitList (attempts+1) events

/-- A request that is sent waits for its list, unless the receiver is taken: then it panics. -/
def listStreams (c : Client Callback) (sent : Except String Unit) : Client Callback :=
  match c.transport,sent with
  | true,.ok () => if c.isReceiving then c else c.awaitList 0 c.eventRx
  | _,_ => c

def pollListing (c : Client Callback) : Client Callback :=
  match c.listing with
  | some attempts => c.awaitList attempts c.eventRx
  | none => c

def segments (events : List OverlayEvent) : List Bytes :=
  events.filterMap (fun
    | .streamData data => some data
    | .streamList _ => none)

/-- What the callback is called with for the events that there are. -/
def heard (c : Client Callback) : List (Callback × Bytes) :=
  match c.segmentCallback with
  | some callback => (segments c.eventRx).map (fun data => (callback,data))
  | none => []

/-- The loop takes what there is and waits, until the overlay has been stopped. It panics if a
listing has the receiver. -/
def pollLoop (c : Client Callback) : Client Callback :=
  match c.loop with
  | .panicked => c
  | .finished => c
  | _ =>
    if c.listing.isSome then { c with loop := .panicked }
    else
      { c with
        loop := if c.eventTx then .waiting else .finished
        eventRx := []
        handed := c.handed++c.heard }

def close (c : Client Callback) : Client Callback := { c with transport := false }

def disconnect (c : Client Callback) : Client Callback := { c with stopping := true }

def stop (c : Client Callback) : Client Callback :=
  if c.stopping then { c with transport := false, eventTx := false } else c

/-- Waiting for a list changes nothing but the listing and the events that it takes. -/
theorem awaitList_frame (c : Client Callback) (attempts : Nat) (events : List OverlayEvent) :
    (c.awaitList attempts events).segmentCallback = c.segmentCallback ∧
      (c.awaitList attempts events).loop = c.loop ∧
      (c.awaitList attempts events).transport = c.transport ∧
      (c.awaitList attempts events).eventTx = c.eventTx ∧
      (c.awaitList attempts events).stopping = c.stopping ∧
      (c.awaitList attempts events).handed = c.handed := by
  induction events generalizing attempts with
  | nil => cases h : c.eventTx <;> simp [awaitList,h]
  | cons event events ih =>
    cases event with
    | streamList streams => simp [awaitList]
    | streamData data =>
      rw [awaitList]
      split_ifs
      · simp
      · exact ih (attempts+1)

theorem listStreams_frame (c : Client Callback) (sent : Except String Unit) :
    (c.listStreams sent).segmentCallback = c.segmentCallback ∧
      (c.listStreams sent).loop = c.loop ∧
      (c.listStreams sent).transport = c.transport ∧
      (c.listStreams sent).eventTx = c.eventTx ∧
      (c.listStreams sent).stopping = c.stopping ∧
      (c.listStreams sent).handed = c.handed := by
  cases htransport : c.transport with
  | false => simp [listStreams,htransport]
  | true =>
    cases sent with
    | error failure => simp [listStreams,htransport]
    | ok u =>
      cases hreceiving : c.isReceiving with
      | true => simp [listStreams,htransport,hreceiving]
      | false => simpa [listStreams,htransport,hreceiving] using c.awaitList_frame 0 c.eventRx

theorem pollListing_frame (c : Client Callback) :
    c.pollListing.segmentCallback = c.segmentCallback ∧ c.pollListing.loop = c.loop ∧
      c.pollListing.transport = c.transport ∧ c.pollListing.eventTx = c.eventTx ∧
      c.pollListing.stopping = c.stopping ∧ c.pollListing.handed = c.handed := by
  rw [pollListing]
  split
  · exact c.awaitList_frame _ c.eventRx
  · simp

theorem pollLoop_frame (c : Client Callback) :
    c.pollLoop.segmentCallback = c.segmentCallback ∧ c.pollLoop.transport = c.transport ∧
      c.pollLoop.eventTx = c.eventTx ∧ c.pollLoop.stopping = c.stopping ∧
      c.pollLoop.returned = c.returned := by
  rw [pollLoop]
  split
  · simp
  · simp
  · split_ifs <;> simp

/-- The overlay of a client is stopped only after the page has given the client up, and the loop
ends only after that. A loop that waits has the receiver for itself, and one that has not begun, or
has died then, has handed nothing on. -/
structure Sound (c : Client Callback) : Prop where
  stopping : c.eventTx = false → c.stopping = true
  transport : c.eventTx = false → c.transport = false
  finished : c.loop = .finished → c.eventTx = false
  waiting : c.loop = .waiting ∨ c.loop = .finished → c.listing = none
  handed : c.loop = .spawned ∨ c.loop = .panicked → c.handed = []

theorem Sound.onSegment {c : Client Callback} (h : c.Sound) (callback : Callback) :
    (c.onSegment callback).Sound := by
  rw [Client.onSegment]
  split_ifs
  · exact h
  · exact ⟨h.stopping,h.transport,h.finished,h.waiting,h.handed⟩

/-- A list can be waited for only as long as the loop does not wait. -/
theorem Sound.awaitList {c : Client Callback} (h : c.Sound)
    (hloop : c.loop = .spawned ∨ c.loop = .panicked) (attempts : Nat)
    (events : List OverlayEvent) : (c.awaitList attempts events).Sound := by
  obtain ⟨_,hsame,htransport,heventTx,hstopping,hhanded⟩ := c.awaitList_frame attempts events
  refine ⟨?_,?_,?_,?_,?_⟩
  · rw [heventTx,hstopping]
    exact h.stopping
  · rw [heventTx,htransport]
    exact h.transport
  · rw [heventTx,hsame]
    exact h.finished
  · rw [hsame]
    rintro (hwaits | hends)
    · obtain hspawned | hpanicked := hloop
      · rw [hspawned] at hwaits
        cases hwaits
      · rw [hpanicked] at hwaits
        cases hwaits
    · obtain hspawned | hpanicked := hloop
      · rw [hspawned] at hends
        cases hends
      · rw [hpanicked] at hends
        cases hends
  · rw [hsame,hhanded]
    exact h.handed

/-- A request finds its loop not waiting, unless it does nothing. -/
theorem Sound.listStreams_cases {c : Client Callback} (h : c.Sound) (sent : Except String Unit) :
    c.listStreams sent = c ∨
      (c.loop = .spawned ∨ c.loop = .panicked) ∧ c.listStreams sent = c.awaitList 0 c.eventRx := by
  cases htransport : c.transport with
  | false => exact .inl (by simp [Client.listStreams,htransport])
  | true =>
    cases sent with
    | error failure => exact .inl (by simp [Client.listStreams,htransport])
    | ok u =>
      cases hreceiving : c.isReceiving with
      | true => exact .inl (by simp [Client.listStreams,htransport,hreceiving])
      | false =>
        refine .inr ⟨?_,by simp [Client.listStreams,htransport,hreceiving]⟩
        cases hloop : c.loop with
        | spawned => exact .inl rfl
        | panicked => exact .inr rfl
        | waiting => simp [isReceiving,hloop] at hreceiving
        | finished =>
          have hclosed := h.transport (h.finished hloop)
          rw [htransport] at hclosed
          cases hclosed

theorem Sound.pollListing_cases {c : Client Callback} (h : c.Sound) :
    c.pollListing = c ∨ (c.loop = .spawned ∨ c.loop = .panicked) ∧
      ∃ attempts, c.pollListing = c.awaitList attempts c.eventRx := by
  cases hlisting : c.listing with
  | none => exact .inl (by simp [Client.pollListing,hlisting])
  | some attempts =>
    refine .inr ⟨?_,attempts,by simp [Client.pollListing,hlisting]⟩
    cases hloop : c.loop with
    | spawned => exact .inl rfl
    | panicked => exact .inr rfl
    | waiting => simp [h.waiting (.inl hloop)] at hlisting
    | finished => simp [h.waiting (.inr hloop)] at hlisting

theorem Sound.listStreams {c : Client Callback} (h : c.Sound) (sent : Except String Unit) :
    (c.listStreams sent).Sound := by
  obtain hsame | ⟨hloop,hawait⟩ := h.listStreams_cases sent
  · rwa [hsame]
  · rw [hawait]
    exact h.awaitList hloop 0 c.eventRx

theorem Sound.pollListing {c : Client Callback} (h : c.Sound) : c.pollListing.Sound := by
  obtain hsame | ⟨hloop,attempts,hawait⟩ := h.pollListing_cases
  · rwa [hsame]
  · rw [hawait]
    exact h.awaitList hloop attempts c.eventRx

theorem pollLoop_cases (c : Client Callback) :
    (c.loop = .panicked ∨ c.loop = .finished) ∧ c.pollLoop = c ∨
      (c.loop = .spawned ∨ c.loop = .waiting) ∧
        ((c.listing.isSome = true ∧ c.pollLoop = { c with loop := .panicked }) ∨
          c.listing = none ∧ c.pollLoop = { c with
            loop := if c.eventTx then .waiting else .finished
            eventRx := []
            handed := c.handed++c.heard }) := by
  cases hloop : c.loop <;> cases hlisting : c.listing <;> simp [pollLoop,hloop,hlisting]

theorem Sound.pollLoop {c : Client Callback} (h : c.Sound) : c.pollLoop.Sound := by
  obtain ⟨_,hsame⟩ | ⟨hloop,⟨hlisting,hdies⟩ | ⟨hnone,hruns⟩⟩ := c.pollLoop_cases
  · rwa [hsame]
  · have hspawned : c.loop = .spawned := by
      obtain hloop | hloop := hloop
      · exact hloop
      · simp [h.waiting (.inl hloop)] at hlisting
    rw [hdies]
    exact ⟨h.stopping,h.transport,by simp,by simp,fun _ => h.handed (.inl hspawned)⟩
  · rw [hruns]
    refine ⟨h.stopping,h.transport,?_,fun _ => hnone,?_⟩
    · cases heventTx : c.eventTx <;> simp
    · cases heventTx : c.eventTx <;> simp

end Client

/-- What the page calls, and what happens at its clients, which are numbered. -/
inductive Happening (Callback : Type) where
  | connect (started : Except String Unit)
  | onSegment (callback : Callback)
  | listStreams (sent : Except String Unit)
  | disconnect
  | arrive (i : Nat) (event : OverlayEvent)
  | close (i : Nat)
  | stop (i : Nat)
  | pollLoop (i : Nat)
  | pollListing (i : Nat)

/-- The clients that have been connected, and the one that the calls are for. -/
structure Page (Callback : Type) where
  clients : List (Client Callback)
  current : Option Nat
  /-- A panic has left the place of the current client borrowed. -/
  borrowed : Bool

namespace Page

variable {Callback : Type}

def new : Page Callback := ⟨[],none,false⟩

def connect (s : Page Callback) (started : Except String Unit) : Page Callback :=
  match started with
  | .error _ => s
  | .ok () =>
    if s.borrowed then s
    else { s with clients := s.clients++[Client.new], current := some s.clients.length }

def onSegment (s : Page Callback) (callback : Callback) : Page Callback :=
  match s.current with
  | none => s
  | some i =>
    { s with
      clients := s.clients.modify i (fun c => c.onSegment callback)
      borrowed := s.borrowed || s.clients[i]?.any Client.isBorrowed }

def listStreams (s : Page Callback) (sent : Except String Unit) : Page Callback :=
  match s.current with
  | none => s
  | some i => { s with clients := s.clients.modify i (fun c => c.listStreams sent) }

def disconnect (s : Page Callback) : Page Callback :=
  match s.current with
  | none => s
  | some i =>
    if s.borrowed then s
    else { s with clients := s.clients.modify i Client.disconnect, current := none }

def step (s : Page Callback) (e : Happening Callback) : Page Callback :=
  match e with
  | .connect started => s.connect started
  | .onSegment callback => s.onSegment callback
  | .listStreams sent => s.listStreams sent
  | .disconnect => s.disconnect
  | .arrive i event => { s with clients := s.clients.modify i (fun c => c.send event) }
  | .close i => { s with clients := s.clients.modify i Client.close }
  | .stop i => { s with clients := s.clients.modify i Client.stop }
  | .pollLoop i => { s with clients := s.clients.modify i Client.pollLoop }
  | .pollListing i => { s with clients := s.clients.modify i Client.pollListing }

/-- What a step does to a client that there is. -/
def act (s : Page Callback) (e : Happening Callback) (i : Nat) (c : Client Callback) :
    Client Callback :=
  match e with
  | .connect _ => c
  | .onSegment callback => if s.current = some i then c.onSegment callback else c
  | .listStreams sent => if s.current = some i then c.listStreams sent else c
  | .disconnect => if s.current = some i ∧ s.borrowed = false then c.disconnect else c
  | .arrive j event => if j = i then c.send event else c
  | .close j => if j = i then c.close else c
  | .stop j => if j = i then c.stop else c
  | .pollLoop j => if j = i then c.pollLoop else c
  | .pollListing j => if j = i then c.pollListing else c

/-- The step connects the client. -/
def connects (s : Page Callback) (e : Happening Callback) (i : Nat) : Bool :=
  match e with
  | .connect (.ok ()) => !s.borrowed && i == s.clients.length
  | _ => false

theorem connects_new {s : Page Callback} {e : Happening Callback} {i : Nat}
    (h : s.connects e i = true) : s.clients[i]? = none := by
  simp only [connects] at h
  split at h
  · simp only [Bool.and_eq_true,beq_iff_eq] at h
    simp [h.2]
  · cases h

/-- A step connects a client, or does something to one that there is. -/
theorem client_step (s : Page Callback) (e : Happening Callback) (i : Nat) :
    (s.step e).clients[i]? =
      if s.connects e i then some Client.new
      else s.clients[i]?.map (s.act e i) := by
  have hmodify : ∀ (j : Nat) (f : Client Callback → Client Callback),
      (s.clients.modify j f)[i]? = s.clients[i]?.map (fun c => if j = i then f c else c) := by
    intro j f
    rw [List.getElem?_modify]
    by_cases hj : j = i <;> simp [hj]
  cases e with
  | connect started =>
    cases started with
    | error failure => cases hc : s.clients[i]? <;> simp [step,connect,connects,act,hc]
    | ok u =>
      cases hborrowed : s.borrowed with
      | true => cases hc : s.clients[i]? <;> simp [step,connect,connects,act,hborrowed,hc]
      | false =>
        obtain hi | rfl | hi := lt_trichotomy i s.clients.length
        · simp [step,connect,connects,act,hborrowed,hi,hi.ne,List.getElem?_append_left hi]
        · simp [step,connect,connects,hborrowed]
        · have hlate : (s.clients++[(Client.new : Client Callback)])[i]? = none := by
            rw [List.getElem?_eq_none_iff,List.length_append]
            exact hi
          have hold : s.clients[i]? = none := List.getElem?_eq_none hi.le
          simp only [step,connect,connects,hborrowed,hold,Bool.false_eq_true,if_false,hlate,
            beq_eq_false_iff_ne.mpr hi.ne',Bool.and_false,Option.map_none]
  | onSegment callback =>
    cases hcurrent : s.current <;> cases hc : s.clients[i]? <;>
      simp [step,onSegment,connects,act,hcurrent,hmodify,hc]
  | listStreams sent =>
    cases hcurrent : s.current <;> cases hc : s.clients[i]? <;>
      simp [step,listStreams,connects,act,hcurrent,hmodify,hc]
  | disconnect =>
    cases hcurrent : s.current <;> cases hborrowed : s.borrowed <;> cases hc : s.clients[i]? <;>
      simp [step,disconnect,connects,act,hcurrent,hborrowed,hmodify,hc]
  | arrive j event => cases hc : s.clients[i]? <;> simp [step,connects,act,hmodify,hc]
  | close j => cases hc : s.clients[i]? <;> simp [step,connects,act,hmodify,hc]
  | stop j => cases hc : s.clients[i]? <;> simp [step,connects,act,hmodify,hc]
  | pollLoop j => cases hc : s.clients[i]? <;> simp [step,connects,act,hmodify,hc]
  | pollListing j => cases hc : s.clients[i]? <;> simp [step,connects,act,hmodify,hc]

section Callback

theorem act_segmentCallback (s : Page Callback) (e : Happening Callback) (i : Nat)
    (c : Client Callback) (callback : Callback) :
    (s.act e i c).segmentCallback = some callback ↔
      (e = .onSegment callback ∧ s.current = some i ∧ c.isBorrowed = false) ∨
        c.segmentCallback = some callback ∧
          ¬ ∃ other, e = .onSegment other ∧ s.current = some i ∧ c.isBorrowed = false := by
  cases e with
  | onSegment other =>
    by_cases hcurrent : s.current = some i
    · cases hborrowed : c.isBorrowed <;> simp [act,hcurrent,Client.onSegment,hborrowed,eq_comm]
    · simp [act,hcurrent]
  | connect started => simp [act]
  | listStreams sent =>
    rw [act]
    split_ifs <;> simp [(c.listStreams_frame sent).1]
  | disconnect =>
    rw [act]
    split_ifs <;> simp [Client.disconnect]
  | arrive j event =>
    rw [act]
    split_ifs
    · rw [Client.send]
      split_ifs <;> simp
    · simp
  | close j =>
    rw [act]
    split_ifs <;> simp [Client.close]
  | stop j =>
    rw [act]
    split_ifs
    · rw [Client.stop]
      split_ifs <;> simp
    · simp
  | pollLoop j =>
    rw [act]
    split_ifs <;> simp [c.pollLoop_frame.1]
  | pollListing j =>
    rw [act]
    split_ifs <;> simp [c.pollListing_frame.1]

/-- The client takes the callback that a call registers. -/
def Registers (i : Nat) (callback : Callback) (s : Page Callback) (e : Happening Callback) : Prop :=
  e = .onSegment callback ∧ s.current = some i ∧ ∃ c ∈ s.clients[i]?, c.isBorrowed = false

def HasCallback (i : Nat) (callback : Callback) (s : Page Callback) : Prop :=
  ∃ c ∈ s.clients[i]?, c.segmentCallback = some callback

theorem hasCallback_step (i : Nat) (callback : Callback) (s : Page Callback)
    (e : Happening Callback) :
    (s.step e).HasCallback i callback ↔ s.Registers i callback e ∨
      s.HasCallback i callback ∧ ¬ ∃ other, s.Registers i other e := by
  rw [HasCallback,client_step]
  split_ifs with hconnects
  · have hnew := connects_new hconnects
    simp [Client.new,Registers,HasCallback,hnew]
  · cases hc : s.clients[i]? with
    | none => simp [Registers,HasCallback,hc]
    | some c => simpa [Registers,HasCallback,hc] using s.act_segmentCallback e i c callback

end Callback

section Sound

/-- Every client is sound, and the one that the calls are for has not been given up. -/
def Sound (s : Page Callback) : Prop :=
  (∀ (i : Nat), ∀ c ∈ s.clients[i]?, Client.Sound c) ∧
    ∀ i, s.current = some i → ∃ c ∈ s.clients[i]?, c.stopping = false

theorem act_sound (s : Page Callback) (e : Happening Callback) (i : Nat) {c : Client Callback}
    (h : c.Sound) : (s.act e i c).Sound := by
  cases e with
  | connect started => exact h
  | onSegment callback =>
    rw [act]
    split_ifs
    · exact h.onSegment callback
    · exact h
  | listStreams sent =>
    rw [act]
    split_ifs
    · exact h.listStreams sent
    · exact h
  | disconnect =>
    rw [act]
    split_ifs
    · exact ⟨fun _ => rfl,h.transport,h.finished,h.waiting,h.handed⟩
    · exact h
  | arrive j event =>
    rw [act]
    split_ifs
    · rw [Client.send]
      split_ifs
      · exact ⟨h.stopping,h.transport,h.finished,h.waiting,h.handed⟩
      · exact h
    · exact h
  | close j =>
    rw [act]
    split_ifs
    · exact ⟨h.stopping,fun _ => rfl,h.finished,h.waiting,h.handed⟩
    · exact h
  | stop j =>
    rw [act]
    split_ifs
    · rw [Client.stop]
      split_ifs with hstopping
      · exact ⟨fun _ => hstopping,fun _ => rfl,fun _ => rfl,h.waiting,h.handed⟩
      · exact h
    · exact h
  | pollLoop j =>
    rw [act]
    split_ifs
    · exact h.pollLoop
    · exact h
  | pollListing j =>
    rw [act]
    split_ifs
    · exact h.pollListing
    · exact h

theorem act_stopping (s : Page Callback) {e : Happening Callback} (he : e ≠ .disconnect) (i : Nat)
    (c : Client Callback) : (s.act e i c).stopping = c.stopping := by
  cases e with
  | connect started => rfl
  | disconnect => exact absurd rfl he
  | onSegment callback =>
    rw [act,Client.onSegment]
    split_ifs <;> rfl
  | listStreams sent =>
    rw [act]
    split_ifs
    · exact (c.listStreams_frame sent).2.2.2.2.1
    · rfl
  | arrive j event =>
    rw [act,Client.send]
    split_ifs <;> rfl
  | close j =>
    rw [act]
    split_ifs <;> rfl
  | stop j =>
    rw [act,Client.stop]
    split_ifs <;> rfl
  | pollLoop j =>
    rw [act]
    split_ifs
    · exact c.pollLoop_frame.2.2.2.1
    · rfl
  | pollListing j =>
    rw [act]
    split_ifs
    · exact c.pollListing_frame.2.2.2.2.1
    · rfl

/-- Only a call to connect or to disconnect that finds nothing borrowed changes the client that the
calls are for. -/
theorem current_step (s : Page Callback) (e : Happening Callback) :
    ((s.step e).current = s.current ∧ (e = .disconnect → s.borrowed = true ∨ s.current = none)) ∨
      s.borrowed = false ∧
        ((e = .connect (.ok ()) ∧ (s.step e).current = some s.clients.length) ∨
          e = .disconnect ∧ (s.step e).current = none) := by
  cases e with
  | connect started =>
    cases started with
    | error failure => simp [step,connect]
    | ok u => cases hborrowed : s.borrowed <;> simp [step,connect,hborrowed]
  | disconnect =>
    cases hcurrent : s.current <;> cases hborrowed : s.borrowed <;>
      simp [step,disconnect,hcurrent,hborrowed]
  | onSegment callback => cases hcurrent : s.current <;> simp [step,onSegment,hcurrent]
  | listStreams sent => cases hcurrent : s.current <;> simp [step,listStreams,hcurrent]
  | arrive j event => simp [step]
  | close j => simp [step]
  | stop j => simp [step]
  | pollLoop j => simp [step]
  | pollListing j => simp [step]

theorem Sound.step {s : Page Callback} (h : s.Sound) (e : Happening Callback) :
    (s.step e).Sound := by
  constructor
  · intro i c hc
    rw [client_step] at hc
    split_ifs at hc
    · cases hc
      exact ⟨by simp [Client.new],by simp [Client.new],by simp [Client.new],by simp [Client.new],
        fun _ => rfl⟩
    · obtain ⟨c,hold,rfl⟩ := Option.map_eq_some_iff.mp hc
      exact s.act_sound e i (h.1 i c hold)
  · intro i hcurrent
    rw [client_step]
    obtain ⟨hsame,hkept⟩ | ⟨hborrowed,⟨rfl,hnew⟩ | ⟨rfl,hnone⟩⟩ := s.current_step e
    · rw [hsame] at hcurrent
      obtain ⟨c,hc,hstopping⟩ := h.2 i hcurrent
      have hold : s.connects e i = false := by
        by_contra hconnects
        rw [Bool.not_eq_false] at hconnects
        rw [connects_new hconnects] at hc
        cases hc
      rw [hold,if_neg Bool.false_ne_true]
      refine ⟨s.act e i c,Option.mem_map_of_mem _ hc,?_⟩
      by_cases he : e = .disconnect
      · obtain hborrowed | hnone := hkept he
        · simp [he,act,hborrowed,hstopping]
        · rw [hnone] at hcurrent
          cases hcurrent
      · rw [act_stopping s he,hstopping]
    · rw [hnew] at hcurrent
      cases hcurrent
      simp [connects,hborrowed,Client.new]
    · rw [hnone] at hcurrent
      cases hcurrent

theorem sound_run (es : List (Happening Callback)) :
    (es.foldl Page.step (new : Page Callback)).Sound :=
  (along_true Page.step new es).invariant Sound ⟨by simp [new],by simp [new]⟩
    (fun _ e h _ => h.step e)

/-- The loop of the client that the calls are for has not ended, so it is borrowed as soon as its
loop has begun. -/
theorem Sound.isBorrowed_iff {s : Page Callback} (h : s.Sound) {i : Nat} {c : Client Callback}
    (hcurrent : s.current = some i) (hc : c ∈ s.clients[i]?) :
    c.isBorrowed = true ↔ c.loop ≠ .spawned := by
  obtain ⟨c',hc',hstopping⟩ := h.2 i hcurrent
  obtain rfl : c = c' := Option.mem_unique hc hc'
  cases hloop : c.loop with
  | spawned => simp [Client.isBorrowed,hloop]
  | waiting => simp [Client.isBorrowed,hloop]
  | panicked => simp [Client.isBorrowed,hloop]
  | finished =>
    have hgiven := (h.1 i c hc).stopping ((h.1 i c hc).finished hloop)
    rw [hstopping] at hgiven
    cases hgiven

end Sound

section Runs

/-- The callback of a client is the one that was registered last before its event loop began: once
the loop of the current client has begun, the client is borrowed, and no callback is taken. -/
theorem callback_run (es : List (Happening Callback)) (i : Nat) (callback : Callback) :
    ((es.foldl step new).HasCallback i callback ↔
      Since step (Registers i callback) (fun s e => ∃ other, s.Registers i other e) new es) ∧
    ∀ c ∈ (es.foldl step (new : Page Callback)).clients[i]?,
      (es.foldl step (new : Page Callback)).current = some i →
        (c.isBorrowed = true ↔ c.loop ≠ .spawned) :=
  ⟨holds_iff_since_of_not (hasCallback_step i callback) (by simp [HasCallback,new]) es,
    fun _ hc hcurrent => (sound_run es).isBorrowed_iff hcurrent hc⟩

/-- A call to register a callback finds the client borrowed. -/
def Panics (s : Page Callback) (e : Happening Callback) : Prop :=
  ∃ callback i, e = .onSegment callback ∧ s.current = some i ∧
    ∃ c ∈ s.clients[i]?, c.isBorrowed = true

theorem borrowed_step (s : Page Callback) (e : Happening Callback) :
    (s.step e).borrowed = true ↔ s.Panics e ∨ s.borrowed = true ∧ ¬ False := by
  have hsame : (s.step e).borrowed = s.borrowed → ¬ s.Panics e →
      ((s.step e).borrowed = true ↔ s.Panics e ∨ s.borrowed = true ∧ ¬ False) := by
    intro hsame hpanics
    simp [hsame,hpanics]
  cases e with
  | onSegment callback =>
    cases hcurrent : s.current with
    | none => simp [step,onSegment,Panics,hcurrent]
    | some i => cases hc : s.clients[i]? <;> simp [step,onSegment,Panics,hcurrent,hc,or_comm]
  | connect started =>
    refine hsame ?_ (by simp [Panics])
    cases started with
    | error failure => rfl
    | ok u => cases hborrowed : s.borrowed <;> simp [step,connect,hborrowed]
  | disconnect =>
    refine hsame ?_ (by simp [Panics])
    cases hcurrent : s.current <;> cases hborrowed : s.borrowed <;>
      simp [step,disconnect,hcurrent,hborrowed]
  | listStreams sent =>
    refine hsame ?_ (by simp [Panics])
    cases hcurrent : s.current <;> simp [step,listStreams,hcurrent]
  | arrive j event => exact hsame rfl (by simp [Panics])
  | close j => exact hsame rfl (by simp [Panics])
  | stop j => exact hsame rfl (by simp [Panics])
  | pollLoop j => exact hsame rfl (by simp [Panics])
  | pollListing j => exact hsame rfl (by simp [Panics])

theorem borrowed_keeps {s : Page Callback} (h : s.borrowed = true) (e : Happening Callback) :
    (s.step e).current = s.current ∧ (s.step e).clients.length = s.clients.length := by
  constructor
  · obtain ⟨hsame,_⟩ | ⟨hborrowed,_⟩ := s.current_step e
    · exact hsame
    · rw [h] at hborrowed
      cases hborrowed
  · cases e with
    | connect started => cases started <;> simp [step,connect,h]
    | onSegment callback => cases hcurrent : s.current <;> simp [step,onSegment,hcurrent]
    | listStreams sent => cases hcurrent : s.current <;> simp [step,listStreams,hcurrent]
    | disconnect => cases hcurrent : s.current <;> simp [step,disconnect,hcurrent,h]
    | arrive j event => simp [step]
    | close j => simp [step]
    | stop j => simp [step]
    | pollLoop j => simp [step]
    | pollListing j => simp [step]

/-- One call to register a callback that comes after the event loop has begun is enough: from then
on the page can neither disconnect nor connect to another relay. -/
theorem borrowed_run (es es' : List (Happening Callback)) :
    ((es.foldl step (new : Page Callback)).borrowed = true ↔
      ∃ pre callback post, es = pre++.onSegment callback::post ∧
        ∃ i, (pre.foldl step (new : Page Callback)).current = some i ∧
          ∃ c ∈ (pre.foldl step (new : Page Callback)).clients[i]?, c.loop ≠ .spawned) ∧
    ((es.foldl step (new : Page Callback)).borrowed = true →
      ((es++es').foldl step (new : Page Callback)).current =
          (es.foldl step (new : Page Callback)).current ∧
        ((es++es').foldl step (new : Page Callback)).clients.length =
          (es.foldl step (new : Page Callback)).clients.length) := by
  constructor
  · rw [holds_iff_since_of_not (P := fun s : Page Callback => s.borrowed = true) borrowed_step
      (by simp [new]) es]
    constructor
    · rintro ⟨pre,e,post,rfl,⟨callback,i,rfl,hcurrent,c,hc,hborrowed⟩,_⟩
      exact ⟨pre,callback,post,rfl,i,hcurrent,c,hc,
        ((sound_run pre).isBorrowed_iff hcurrent hc).mp hborrowed⟩
    · rintro ⟨pre,callback,post,rfl,i,hcurrent,c,hc,hloop⟩
      refine ⟨pre,_,post,rfl,⟨callback,i,rfl,hcurrent,c,hc,
        ((sound_run pre).isBorrowed_iff hcurrent hc).mpr hloop⟩,?_⟩
      exact (along_true step _ post).imp (fun _ => True) trivial (fun _ _ _ _ => trivial)
        (fun _ _ _ _ => not_false)
  · intro h
    rw [List.foldl_append]
    generalize es.foldl step (new : Page Callback) = s at h ⊢
    have hkept := (along_true step s es').invariant
      (fun t => t.borrowed = true ∧ t.current = s.current ∧ t.clients.length = s.clients.length)
      ⟨h,rfl,rfl⟩ (by
        rintro t e ⟨hborrowed,hcurrent,hlength⟩ _
        obtain ⟨hsame,hcount⟩ := borrowed_keeps hborrowed e
        exact ⟨(t.borrowed_step e).mpr (.inr ⟨hborrowed,not_false⟩),hsame.trans hcurrent,
          hcount.trans hlength⟩)
    exact hkept.2

/-- The loop of the client waits, or has ended, and these are the lists that it has returned. -/
def Listed (i : Nat) (lists : List (List (String × Option String))) (s : Page Callback) : Prop :=
  ∃ c ∈ s.clients[i]?, (c.loop = .waiting ∨ c.loop = .finished) ∧ c.returned = lists

theorem act_listed (s : Page Callback) (e : Happening Callback) (i : Nat) {c : Client Callback}
    (h : c.Sound) (hloop : c.loop = .waiting ∨ c.loop = .finished) :
    ((s.act e i c).loop = .waiting ∨ (s.act e i c).loop = .finished) ∧
      (s.act e i c).returned = c.returned := by
  have hbegun : ¬ (c.loop = .spawned ∨ c.loop = .panicked) := by
    obtain hloop | hloop := hloop <;> simp [hloop]
  cases e with
  | connect started => exact ⟨hloop,rfl⟩
  | onSegment callback =>
    rw [act,Client.onSegment]
    split_ifs <;> exact ⟨hloop,rfl⟩
  | listStreams sent =>
    rw [act]
    split_ifs
    · rw [(h.listStreams_cases sent).resolve_right (fun hawait => hbegun hawait.1)]
      exact ⟨hloop,rfl⟩
    · exact ⟨hloop,rfl⟩
  | disconnect =>
    rw [act]
    split_ifs <;> exact ⟨hloop,rfl⟩
  | arrive j event =>
    rw [act,Client.send]
    split_ifs <;> exact ⟨hloop,rfl⟩
  | close j =>
    rw [act]
    split_ifs <;> exact ⟨hloop,rfl⟩
  | stop j =>
    rw [act,Client.stop]
    split_ifs <;> exact ⟨hloop,rfl⟩
  | pollLoop j =>
    rw [act]
    split_ifs
    · refine ⟨?_,c.pollLoop_frame.2.2.2.2⟩
      obtain ⟨_,hsame⟩ | ⟨_,⟨hlisting,_⟩ | ⟨_,hruns⟩⟩ := c.pollLoop_cases
      · rwa [hsame]
      · simp [h.waiting hloop] at hlisting
      · rw [hruns]
        cases heventTx : c.eventTx <;> simp
    · exact ⟨hloop,rfl⟩
  | pollListing j =>
    rw [act]
    split_ifs
    · rw [h.pollListing_cases.resolve_right (fun hawait => hbegun hawait.1)]
      exact ⟨hloop,rfl⟩
    · exact ⟨hloop,rfl⟩

theorem listed_step {i : Nat} {lists : List (List (String × Option String))} {s : Page Callback}
    (hsound : s.Sound) (h : s.Listed i lists) (e : Happening Callback) :
    (s.step e).Listed i lists := by
  obtain ⟨c,hc,hloop,hreturned⟩ := h
  have hold : s.connects e i = false := by
    by_contra hconnects
    rw [Bool.not_eq_false] at hconnects
    rw [connects_new hconnects] at hc
    cases hc
  obtain ⟨hbegun,hsame⟩ := s.act_listed e i (hsound.1 i c hc) hloop
  refine ⟨s.act e i c,?_,hbegun,hsame.trans hreturned⟩
  rw [client_step,hold,if_neg Bool.false_ne_true]
  exact Option.mem_map_of_mem _ hc

def Died (i : Nat) (s : Page Callback) : Prop := ∃ c ∈ s.clients[i]?, c.loop = .panicked

/-- The loop is polled while a listing has the receiver. -/
def Kills (i : Nat) (s : Page Callback) (e : Happening Callback) : Prop :=
  e = .pollLoop i ∧ ∃ c ∈ s.clients[i]?,
    (c.loop = .spawned ∨ c.loop = .waiting) ∧ c.listing.isSome = true

theorem act_panicked (s : Page Callback) (e : Happening Callback) (i : Nat) (c : Client Callback) :
    (s.act e i c).loop = .panicked ↔
      (e = .pollLoop i ∧ (c.loop = .spawned ∨ c.loop = .waiting) ∧ c.listing.isSome = true) ∨
        c.loop = .panicked := by
  cases e with
  | pollLoop j =>
    rw [act]
    by_cases hj : j = i
    · subst hj
      rw [if_pos rfl]
      obtain ⟨hloop,hsame⟩ | ⟨hloop,⟨hlisting,hdies⟩ | ⟨hnone,hruns⟩⟩ := c.pollLoop_cases
      · rw [hsame]
        obtain hloop | hloop := hloop <;> simp [hloop]
      · simp [hdies,hloop,hlisting]
      · rw [hruns]
        obtain hloop | hloop := hloop <;> cases heventTx : c.eventTx <;> simp [hloop,hnone]
    · simp [hj]
  | connect started => simp [act]
  | onSegment callback =>
    rw [act,Client.onSegment]
    split_ifs <;> simp
  | listStreams sent =>
    rw [act]
    split_ifs <;> simp [(c.listStreams_frame sent).2.1]
  | disconnect =>
    rw [act]
    split_ifs <;> simp [Client.disconnect]
  | arrive j event =>
    rw [act,Client.send]
    split_ifs <;> simp
  | close j =>
    rw [act]
    split_ifs <;> simp [Client.close]
  | stop j =>
    rw [act,Client.stop]
    split_ifs <;> simp
  | pollListing j =>
    rw [act]
    split_ifs <;> simp [c.pollListing_frame.2.1]

theorem died_step (i : Nat) (s : Page Callback) (e : Happening Callback) :
    (s.step e).Died i ↔ s.Kills i e ∨ s.Died i ∧ ¬ False := by
  rw [Died,client_step]
  split_ifs with hconnects
  · simp [Client.new,Kills,Died,connects_new hconnects]
  · cases hc : s.clients[i]? with
    | none => simp [Kills,Died,hc]
    | some c => simpa [Kills,Died,hc] using s.act_panicked e i c

/-- The event loop of a client dies exactly if a listing waits when it is polled for the first time,
and then it never hands a segment to the page. Once it waits, no listing returns a list any more. -/
theorem loop_run (es es' : List (Happening Callback)) (i : Nat) :
    ((es.foldl step (new : Page Callback)).Died i ↔
      ∃ pre post, es = pre++.pollLoop i::post ∧
        ∃ c ∈ (pre.foldl step (new : Page Callback)).clients[i]?,
          c.loop = .spawned ∧ c.listing.isSome = true) ∧
    (∀ c ∈ (es.foldl step (new : Page Callback)).clients[i]?, c.loop = .panicked →
      c.handed = []) ∧
    ∀ c ∈ (es.foldl step (new : Page Callback)).clients[i]?, c.loop = .waiting →
      ∀ c' ∈ ((es++es').foldl step (new : Page Callback)).clients[i]?,
        c'.returned = c.returned := by
  refine ⟨?_,?_,?_⟩
  · rw [holds_iff_since_of_not (died_step i) (by simp [Died,new]) es]
    constructor
    · rintro ⟨pre,e,post,rfl,⟨rfl,c,hc,hloop,hlisting⟩,_⟩
      refine ⟨pre,post,rfl,c,hc,?_,hlisting⟩
      obtain hspawned | hwaiting := hloop
      · exact hspawned
      · have hnone := ((sound_run pre).1 i c hc).waiting (.inl hwaiting)
        simp [hnone] at hlisting
    · rintro ⟨pre,post,rfl,c,hc,hspawned,hlisting⟩
      refine ⟨pre,_,post,rfl,⟨rfl,c,hc,.inl hspawned,hlisting⟩,?_⟩
      exact (along_true step _ post).imp (fun _ => True) trivial (fun _ _ _ _ => trivial)
        (fun _ _ _ _ => not_false)
  · exact fun c hc hpanicked => ((sound_run es).1 i c hc).handed (.inr hpanicked)
  · intro c hc hwaiting c' hc'
    have hsound := sound_run es
    rw [List.foldl_append] at hc'
    have hlisted := (along_true step (es.foldl step (new : Page Callback)) es').invariant
      (fun t => t.Sound ∧ t.Listed i c.returned) ⟨hsound,c,hc,.inl hwaiting,rfl⟩
      (fun t e h _ => ⟨h.1.step e,listed_step h.1 h.2 e⟩)
    obtain ⟨_,d,hd,_,hreturned⟩ := hlisted
    obtain rfl : c' = d := Option.mem_unique hc' hd
    exact hreturned

end Runs

end Page

end OpenBroadcast.Browser.WasmClient
