import Mathlib.Data.List.Nodup
import Mathlib.Data.List.Range
import OpenBroadcast.Browser.StreamManager
import OpenBroadcast.Framework.Fifo
import OpenBroadcast.Framework.Since

namespace OpenBroadcast.Browser.AppendQueue

/-- The events of a source buffer that somebody listens to. -/
inductive BufferEvent where
  | error
  | updateend
  deriving DecidableEq, Repr

/-- The listeners that the calls add, each with the number of its call. -/
inductive Listener (ArrayBuffer : Type) where
  | checkQueue (call : Nat) (data : ArrayBuffer)
  | handleUpdateEnd (call : Nat) (failure : String)
  | waitForUpdate (call : Nat)
  deriving DecidableEq, Repr

def Listener.call {ArrayBuffer : Type} : Listener ArrayBuffer → Nat
  | .checkQueue call _ => call
  | .handleUpdateEnd call _ => call
  | .waitForUpdate call => call

def Listener.handlesError {ArrayBuffer : Type} : Listener ArrayBuffer → Bool
  | .handleUpdateEnd _ _ => true
  | _ => false

/-- A source buffer and what the manager keeps for it. The listener of the manager itself is not
among the others: it is the first to be called at an `updateend`, and is never removed. -/
structure SourceBufferState (ArrayBuffer : Type) where
  /-- `updating` of the source buffer, which turns false before its events are fired. -/
  bufferUpdating : Bool
  events : List BufferEvent
  /-- The listeners that the event being fired has still to call. -/
  dispatch : List (BufferEvent × Listener ArrayBuffer)
  listeners : List (Listener ArrayBuffer)
  updating : Bool
  appendQueue : List ArrayBuffer
  calls : Nat
  /-- The promises that are settled, by the numbers of their calls. -/
  settled : List (Nat × Except String Unit)

/-- What happens to a buffer. Between two listeners of one event, code that awaits a promise can go
on and call again. -/
inductive Happening (ArrayBuffer : Type) where
  | appendToBuffer (data : ArrayBuffer) (answer : Except String Unit)
  | removeFromBuffer (answer : Except String Unit)
  | complete (failed : Bool)
  | fire (answer : Except String Unit)
  | callListener (answer : Except String Unit)

namespace SourceBufferState

variable {ArrayBuffer : Type}

def new : SourceBufferState ArrayBuffer := ⟨false,[],[],[],false,[],0,[]⟩

/-- What the source buffer says to `appendBuffer` or `remove`. -/
def takes (s : SourceBufferState ArrayBuffer) (answer : Except String Unit) : Except String Unit :=
  if s.bufferUpdating then .error "InvalidStateError" else answer

/-- Chunks are appended at once only if nothing is in their way. -/
def isBusy (s : SourceBufferState ArrayBuffer) : Bool := s.bufferUpdating || !s.appendQueue.isEmpty

def appendToBuffer (s : SourceBufferState ArrayBuffer) (data : ArrayBuffer)
    (answer : Except String Unit) : SourceBufferState ArrayBuffer :=
  if s.isBusy then
    { s with
      appendQueue := s.appendQueue++[data]
      listeners := s.listeners++[.checkQueue s.calls data]
      calls := s.calls+1 }
  else
    match s.takes answer with
    | .ok () =>
      { s with
        updating := true
        bufferUpdating := true
        listeners := s.listeners++[.handleUpdateEnd s.calls "Buffer append error"]
        calls := s.calls+1 }
    | .error e =>
      { s with updating := false, calls := s.calls+1, settled := s.settled++[(s.calls,.error e)] }

def processAppendQueue (s : SourceBufferState ArrayBuffer) (answer : Except String Unit) :
    SourceBufferState ArrayBuffer :=
  if s.updating then s
  else
    match s.appendQueue with
    | [] => s
    | _::rest =>
      match s.takes answer with
      | .ok () => { s with appendQueue := rest, updating := true, bufferUpdating := true }
      | .error _ => { s with appendQueue := rest, updating := false }

def performRemove (s : SourceBufferState ArrayBuffer) (call : Nat) (answer : Except String Unit) :
    SourceBufferState ArrayBuffer :=
  match s.takes answer with
  | .ok () =>
    { s with
      bufferUpdating := true
      listeners := s.listeners++[.handleUpdateEnd call "Buffer remove error"] }
  | .error e => { s with settled := s.settled++[(call,.error e)] }

def removeFromBuffer (s : SourceBufferState ArrayBuffer) (answer : Except String Unit) :
    SourceBufferState ArrayBuffer :=
  if s.bufferUpdating then
    { s with listeners := s.listeners++[.waitForUpdate s.calls], calls := s.calls+1 }
  else ({ s with calls := s.calls+1 }).performRemove s.calls answer

/-- The buffer has done what it was given. -/
def complete (s : SourceBufferState ArrayBuffer) (failed : Bool) : SourceBufferState ArrayBuffer :=
  if s.bufferUpdating then
    { s with
      bufferUpdating := false
      events := s.events++if failed then [.error,.updateend] else [.updateend] }
  else s

/-- Fires the next event, and calls the listener of the manager. -/
def fire (s : SourceBufferState ArrayBuffer) (answer : Except String Unit) :
    SourceBufferState ArrayBuffer :=
  match s.dispatch,s.events with
  | [],.error::events =>
    { s with
      events := events
      dispatch := (s.listeners.filter Listener.handlesError).map (fun l => (.error,l)) }
  | [],.updateend::events =>
    ({ s with
      events := events
      dispatch := s.listeners.map (fun l => (.updateend,l))
      updating := false }).processAppendQueue answer
  | _,_ => s

variable [DecidableEq ArrayBuffer]

def settle (s : SourceBufferState ArrayBuffer) (l : Listener ArrayBuffer)
    (outcome : Except String Unit) : SourceBufferState ArrayBuffer :=
  { s with listeners := s.listeners.erase l, settled := s.settled++[(l.call,outcome)] }

def callListener (s : SourceBufferState ArrayBuffer) (answer : Except String Unit) :
    SourceBufferState ArrayBuffer :=
  match s.dispatch with
  | [] => s
  | (event,l)::rest =>
    let s := { s with dispatch := rest }
    if l ∉ s.listeners then s
    else
      match event,l with
      | .updateend,.checkQueue _ data => if data ∈ s.appendQueue then s else s.settle l (.ok ())
      | .updateend,.handleUpdateEnd _ _ => s.settle l (.ok ())
      | .updateend,.waitForUpdate call =>
        ({ s with listeners := s.listeners.erase l }).performRemove call answer
      | .error,.handleUpdateEnd _ failure => s.settle l (.error failure)
      | .error,_ => s

def step (s : SourceBufferState ArrayBuffer) (e : Happening ArrayBuffer) :
    SourceBufferState ArrayBuffer :=
  match e with
  | .appendToBuffer data answer => s.appendToBuffer data answer
  | .removeFromBuffer answer => s.removeFromBuffer answer
  | .complete failed => s.complete failed
  | .fire answer => s.fire answer
  | .callListener answer => s.callListener answer

/-- A listener stays and does nothing, or it settles its promise, or it begins the removal that has
waited for it. -/
theorem callListener_cases (s : SourceBufferState ArrayBuffer) (answer : Except String Unit) :
    (s.dispatch = [] ∧ s.callListener answer = s) ∨
    ∃ event l rest, s.dispatch = (event,l)::rest ∧
      ((s.callListener answer = { s with dispatch := rest } ∧
          (l ∈ s.listeners → event = .updateend →
            ∃ call data, l = .checkQueue call data ∧ data ∈ s.appendQueue)) ∨
        (∃ outcome, l ∈ s.listeners ∧
          s.callListener answer = ({ s with dispatch := rest }).settle l outcome ∧
          (∀ call data, l = .checkQueue call data → outcome = .ok ()) ∧
          ∀ call, l ≠ .waitForUpdate call) ∨
        ∃ call, l = .waitForUpdate call ∧ l ∈ s.listeners ∧ event = .updateend ∧
          s.callListener answer = ({ s with
            dispatch := rest
            listeners := s.listeners.erase l }).performRemove call answer) := by
  cases hdispatch : s.dispatch with
  | nil => exact .inl ⟨rfl,by simp [callListener,hdispatch]⟩
  | cons first rest =>
    obtain ⟨event,l⟩ := first
    refine .inr ⟨event,l,rest,rfl,?_⟩
    by_cases hl : l ∈ s.listeners
    · cases event with
      | updateend =>
        cases l with
        | checkQueue call data =>
          by_cases hdata : data ∈ s.appendQueue
          · exact .inl ⟨by simp [callListener,hdispatch,hl,hdata],fun _ _ => ⟨call,data,rfl,hdata⟩⟩
          · exact .inr (.inl ⟨.ok (),hl,by simp [callListener,hdispatch,hl,hdata],fun _ _ _ => rfl,
              by simp⟩)
        | handleUpdateEnd call failure =>
          exact .inr (.inl ⟨.ok (),hl,by simp [callListener,hdispatch,hl],fun _ _ _ => rfl,by simp⟩)
        | waitForUpdate call =>
          exact .inr (.inr ⟨call,rfl,hl,rfl,by simp [callListener,hdispatch,hl]⟩)
      | error =>
        cases l with
        | handleUpdateEnd call failure =>
          exact .inr (.inl ⟨.error failure,hl,by simp [callListener,hdispatch,hl],by simp,by simp⟩)
        | checkQueue call data =>
          exact .inl ⟨by simp [callListener,hdispatch,hl],fun _ h => by cases h⟩
        | waitForUpdate call =>
          exact .inl ⟨by simp [callListener,hdispatch,hl],fun _ h => by cases h⟩
    · exact .inl ⟨by simp [callListener,hdispatch,hl],fun h => absurd h hl⟩

section Order

/-- The chunks that a step hands to the source buffer, with its answers. -/
def handed (s : SourceBufferState ArrayBuffer) (e : Happening ArrayBuffer) :
    List (ArrayBuffer × Except String Unit) :=
  match e with
  | .appendToBuffer data answer => if s.isBusy then [] else [(data,s.takes answer)]
  | .fire answer =>
    match s.dispatch,s.events,s.appendQueue with
    | [],.updateend::_,data::_ => [(data,s.takes answer)]
    | _,_,_ => []
  | _ => []

omit [DecidableEq ArrayBuffer] in
def given (e : Happening ArrayBuffer) : List ArrayBuffer :=
  match e with
  | .appendToBuffer data _ => [data]
  | _ => []

omit [DecidableEq ArrayBuffer] in
theorem performRemove_appendQueue (s : SourceBufferState ArrayBuffer) (call : Nat)
    (answer : Except String Unit) : (s.performRemove call answer).appendQueue = s.appendQueue := by
  rw [performRemove]
  split <;> rfl

theorem callListener_appendQueue (s : SourceBufferState ArrayBuffer)
    (answer : Except String Unit) : (s.callListener answer).appendQueue = s.appendQueue := by
  obtain ⟨_,h⟩ | ⟨event,l,rest,_,⟨h,_⟩ | ⟨outcome,_,h,_⟩ | ⟨call,_,_,_,h⟩⟩ :=
    s.callListener_cases answer
  · rw [h]
  · rw [h]
  · rw [h]
    rfl
  · rw [h,performRemove_appendQueue]

theorem appendQueue_step (s : SourceBufferState ArrayBuffer) (e : Happening ArrayBuffer) :
    s.appendQueue++given e = (s.handed e).map Prod.fst++(s.step e).appendQueue := by
  cases e with
  | appendToBuffer data answer =>
    cases hbusy : s.isBusy with
    | true => simp [given,handed,step,appendToBuffer,hbusy]
    | false =>
      have hempty : s.appendQueue = [] := by
        simp [isBusy] at hbusy
        exact hbusy.2
      cases htakes : s.takes answer <;>
        simp [given,handed,step,appendToBuffer,hbusy,hempty,htakes]
  | removeFromBuffer answer =>
    cases hupdating : s.bufferUpdating <;>
      simp [given,handed,step,removeFromBuffer,hupdating,performRemove_appendQueue]
  | complete failed =>
    cases hupdating : s.bufferUpdating <;> simp [given,handed,step,complete,hupdating]
  | fire answer =>
    cases hdispatch : s.dispatch with
    | cons l rest => simp [given,handed,step,fire,hdispatch]
    | nil =>
      cases hevents : s.events with
      | nil => simp [given,handed,step,fire,hdispatch,hevents]
      | cons event events =>
        cases event with
        | error => simp [given,handed,step,fire,hdispatch,hevents]
        | updateend =>
          cases hqueue : s.appendQueue with
          | nil => simp [given,handed,step,fire,hdispatch,hevents,processAppendQueue,hqueue]
          | cons data rest =>
            cases hupdating : s.bufferUpdating <;> cases answer <;>
              simp [given,handed,step,fire,hdispatch,hevents,processAppendQueue,hqueue,takes,
                hupdating]
  | callListener answer => simp [given,handed,step,callListener_appendQueue]

/-- The source buffer is handed the chunks in the order in which they are given, each of them at
most once, and those that it has not been handed yet are queued. A chunk that it refuses is not
handed to it again. -/
theorem handed_in_order (es : List (Happening ArrayBuffer)) :
    es.flatMap given =
      (collect step handed new es).map Prod.fst++(es.foldl step new).appendQueue := by
  have h : collect step (fun _ e => given e) (new : SourceBufferState ArrayBuffer) es =
      collect step (fun s e => (s.handed e).map Prod.fst) new es++
        (es.foldl step new).appendQueue :=
    (along_true step new es).fifo (fun s => s.appendQueue) (fun s e _ => appendQueue_step s e)
  rw [collect_eq_flatMap] at h
  rw [collect_map]
  exact h

/-- What the source buffer takes of what it is handed. -/
def taken (handed : List (ArrayBuffer × Except String Unit)) : List ArrayBuffer :=
  handed.filterMap (fun
    | (data,.ok ()) => some data
    | (_,.error _) => none)

/-- The buffer as the page's manager sees it, without events, listeners and promises. -/
def abstract (s : SourceBufferState Bytes) (mimeType : String) (appended : List Bytes) :
    Browser.SourceBufferState :=
  ⟨mimeType,s.bufferUpdating,s.appendQueue,appended⟩

/-- A call to append does to the buffer what the manager does to it. -/
theorem abstract_appendToBuffer (engine : Engine) (s : SourceBufferState Bytes) (mimeType : String)
    (appended : List Bytes) (data : Bytes) :
    let b := s.abstract mimeType appended
    let answer := engine.appendBuffer b data
    (s.appendToBuffer data answer).abstract mimeType
        (appended++taken (s.handed (.appendToBuffer data answer))) =
      match MediaManager.appendToBuffer engine b data with
      | .ok b' => b'
      | .error _ => b := by
  intro b answer
  have hsame : (b.updating || !b.appendQueue.isEmpty) = s.isBusy := rfl
  rw [appendToBuffer,MediaManager.appendToBuffer,hsame]
  cases hbusy : s.isBusy with
  | true => simp [b,abstract,handed,taken,hbusy]
  | false =>
    have hidle : s.bufferUpdating = false := (Bool.or_eq_false_iff.mp hbusy).1
    have htakes : s.takes answer = answer := by simp [takes,hidle]
    have hanswer : engine.appendBuffer b data = answer := rfl
    clear_value answer
    rw [hanswer]
    cases answer with
    | ok u =>
      simp only [handed,hbusy,htakes,Bool.false_eq_true,if_false]
      rfl
    | error e =>
      simp only [handed,hbusy,htakes,Bool.false_eq_true,if_false]
      simp [b,abstract,taken,bind,Except.bind]

/-- When the buffer has done what it was given, the manager goes on with the next of its queue,
as it does at the `updateend`. -/
theorem abstract_fire (engine : Engine) (s : SourceBufferState Bytes) (mimeType : String)
    (appended : List Bytes) (hdispatch : s.dispatch = []) (events : List BufferEvent)
    (hevents : s.events = .updateend::events) (hidle : s.bufferUpdating = false)
    (answer : Except String Unit)
    (hanswer : ∀ data rest, s.appendQueue = data::rest →
      engine.appendBuffer ⟨mimeType,false,rest,appended⟩ data = answer) :
    (s.fire answer).abstract mimeType (appended++taken (s.handed (.fire answer))) =
      MediaManager.processAppendQueue engine (s.abstract mimeType appended) := by
  cases hqueue : s.appendQueue with
  | nil =>
    simp [fire,hdispatch,hevents,processAppendQueue,handed,hqueue,abstract,taken,
      MediaManager.processAppendQueue]
  | cons data rest =>
    have hbuffer := hanswer data rest hqueue
    cases answer <;>
      simp [fire,hdispatch,hevents,processAppendQueue,handed,hqueue,abstract,taken,takes,hidle,
        MediaManager.processAppendQueue,hbuffer]

end Order

section Stuck

/-- Chunks are queued, and no event is to come that would have them appended. -/
def Stuck (s : SourceBufferState ArrayBuffer) : Prop :=
  s.appendQueue ≠ [] ∧ s.bufferUpdating = false ∧ .updateend ∉ s.events

/-- The source buffer refuses a queued chunk, and this leaves others with nothing under way. -/
def Strands (s : SourceBufferState ArrayBuffer) (e : Happening ArrayBuffer) : Prop :=
  ∃ failure events, e = .fire (.error failure) ∧ s.dispatch = [] ∧
    s.events = .updateend::events ∧ .updateend ∉ events ∧ s.bufferUpdating = false ∧
    2 ≤ s.appendQueue.length

/-- A removal begins, now or after it has waited. -/
def Removes (s : SourceBufferState ArrayBuffer) (e : Happening ArrayBuffer) : Prop :=
  e = .removeFromBuffer (.ok ()) ∨
    ∃ call rest, e = .callListener (.ok ()) ∧
      s.dispatch = (.updateend,.waitForUpdate call)::rest ∧ .waitForUpdate call ∈ s.listeners

omit [DecidableEq ArrayBuffer] in
theorem stuck_performRemove (s : SourceBufferState ArrayBuffer) (call : Nat)
    (answer : Except String Unit) :
    (s.performRemove call answer).Stuck ↔ s.Stuck ∧ answer ≠ .ok () := by
  cases hupdating : s.bufferUpdating <;> cases answer <;>
    simp [performRemove,takes,hupdating,Stuck]

theorem stuck_step (s : SourceBufferState ArrayBuffer) (e : Happening ArrayBuffer) :
    (s.step e).Stuck ↔ s.Strands e ∨ s.Stuck ∧ ¬ s.Removes e := by
  cases e with
  | appendToBuffer data answer =>
    cases hupdating : s.bufferUpdating with
    | true => simp [step,appendToBuffer,isBusy,hupdating,Stuck,Strands]
    | false =>
      cases hqueue : s.appendQueue with
      | nil =>
        cases answer <;>
          simp [step,appendToBuffer,isBusy,hupdating,hqueue,takes,Stuck,Strands]
      | cons first rest =>
        simp [step,appendToBuffer,isBusy,hupdating,hqueue,Stuck,Strands,Removes]
  | removeFromBuffer answer =>
    cases hupdating : s.bufferUpdating with
    | true => simp [step,removeFromBuffer,hupdating,Stuck,Strands]
    | false =>
      cases answer <;>
        simp [step,removeFromBuffer,hupdating,performRemove,takes,Stuck,Strands,Removes]
  | complete failed =>
    cases hupdating : s.bufferUpdating <;> cases failed <;>
      simp [step,complete,hupdating,Stuck,Strands,Removes]
  | fire answer =>
    cases hdispatch : s.dispatch with
    | cons l rest => simp [step,fire,hdispatch,Strands,Removes]
    | nil =>
      cases hevents : s.events with
      | nil => simp [step,fire,hdispatch,hevents,Strands,Removes]
      | cons event events =>
        cases event with
        | error => simp [step,fire,hdispatch,hevents,Stuck,Strands,Removes]
        | updateend =>
          cases hqueue : s.appendQueue with
          | nil =>
            simp [step,fire,hdispatch,hevents,processAppendQueue,hqueue,Stuck,Strands]
          | cons data rest =>
            cases hupdating : s.bufferUpdating <;> cases answer <;> cases rest <;>
              simp [step,fire,hdispatch,hevents,processAppendQueue,hqueue,takes,hupdating,Stuck,
                Strands]
  | callListener answer =>
    have hstrands : ¬ s.Strands (.callListener answer) := by
      rintro ⟨failure,events,h,_⟩
      cases h
    obtain ⟨hdispatch,h⟩ | ⟨event,l,rest,hdispatch,hcases⟩ := s.callListener_cases answer
    · have hnot : ¬ s.Removes (.callListener answer) := by
        rintro (h | ⟨call,rest,_,h,_⟩)
        · cases h
        · rw [hdispatch] at h
          cases h
      simp [step,h,hstrands,hnot]
    · obtain ⟨h,hstays⟩ | ⟨outcome,hl,h,hkind⟩ | ⟨call,rfl,hl,rfl,h⟩ := hcases
      · have hnot : ¬ s.Removes (.callListener answer) := by
          rintro (h | ⟨call,rest',_,h,hl⟩)
          · cases h
          · rw [hdispatch] at h
            cases h
            obtain ⟨_,_,h,_⟩ := hstays hl rfl
            cases h
        simp [step,h,hstrands,hnot,Stuck]
      · have hnot : ¬ s.Removes (.callListener answer) := by
          rintro (h | ⟨call,rest',_,h,_⟩)
          · cases h
          · rw [hdispatch] at h
            cases h
            exact hkind.2 call rfl
        simp [step,h,hstrands,hnot,Stuck,settle]
      · have hremoves : s.Removes (.callListener answer) ↔ answer = .ok () := by
          simp [Removes,hdispatch,hl]
        rw [step,h,stuck_performRemove,hremoves]
        simp [hstrands,Stuck]

/-- Chunks are stuck exactly if the source buffer has refused a queued chunk and this has left
others with nothing under way, and no removal has begun since. Then no call to append and nothing
else has a chunk appended. -/
theorem stuck_iff (es : List (Happening ArrayBuffer)) :
    ((es.foldl step new).Stuck ↔
      Since step Strands Removes (new : SourceBufferState ArrayBuffer) es) ∧
      ((es.foldl step (new : SourceBufferState ArrayBuffer)).Stuck →
        ∀ e, (es.foldl step new).handed e = []) := by
  refine ⟨holds_iff_since_of_not stuck_step (by simp [Stuck,new]) es,?_⟩
  generalize es.foldl step (new : SourceBufferState ArrayBuffer) = s
  rintro ⟨hqueue,_,hevents⟩ e
  cases e with
  | appendToBuffer data answer => simp [handed,isBusy,hqueue]
  | fire answer =>
    simp only [handed]
    split
    · rename_i h _
      rw [h] at hevents
      simp at hevents
    · rfl
  | removeFromBuffer answer => rfl
  | complete failed => rfl
  | callListener answer => rfl

end Stuck

section Settlement

/-- The calls whose promises are settled or have a listener. -/
def numbers (s : SourceBufferState ArrayBuffer) : List Nat :=
  s.settled.map Prod.fst++s.listeners.map Listener.call

/-- The listener has still to be called, or the chunk that it waits for is queued. -/
def Awaited (s : SourceBufferState ArrayBuffer) (l : Listener ArrayBuffer) : Prop :=
  (.updateend,l) ∈ s.dispatch ∨ s.bufferUpdating = true ∨ .updateend ∈ s.events ∨
    ∃ call data, l = .checkQueue call data ∧ data ∈ s.appendQueue

/-- Every call has its promise settled once or has one listener, and no listener is forgotten. -/
structure Accounted (s : SourceBufferState ArrayBuffer) : Prop where
  numbers : s.numbers.Perm (List.range s.calls)
  awaited : ∀ l ∈ s.listeners, s.Awaited l

omit [DecidableEq ArrayBuffer] in
theorem Accounted.nodup {s : SourceBufferState ArrayBuffer} (h : s.Accounted) :
    s.numbers.Nodup :=
  h.numbers.nodup_iff.mpr List.nodup_range

omit [DecidableEq ArrayBuffer] in
theorem Accounted.listeners_nodup {s : SourceBufferState ArrayBuffer} (h : s.Accounted) :
    s.listeners.Nodup :=
  (List.nodup_append.mp h.nodup).2.1.of_map

theorem numbers_settle {s : SourceBufferState ArrayBuffer} {l : Listener ArrayBuffer}
    (hl : l ∈ s.listeners) (outcome : Except String Unit) :
    (s.settle l outcome).numbers.Perm s.numbers := by
  have herase : (s.listeners.map Listener.call).Perm
      (l.call::(s.listeners.erase l).map Listener.call) :=
    (List.perm_cons_erase hl).map Listener.call
  show ((s.settled++[(l.call,outcome)]).map Prod.fst++
    (s.listeners.erase l).map Listener.call).Perm _
  rw [List.map_append,List.append_assoc]
  exact List.Perm.append_left _ herase.symm

omit [DecidableEq ArrayBuffer] in
theorem numbers_settled (settled : List (Nat × Except String Unit))
    (listeners : List (Listener ArrayBuffer)) (call : Nat) (outcome : Except String Unit) :
    ((settled++[(call,outcome)]).map Prod.fst++listeners.map Listener.call).Perm
      (settled.map Prod.fst++listeners.map Listener.call++[call]) := by
  rw [List.map_append,List.append_assoc,List.append_assoc]
  exact List.Perm.append_left _ List.perm_append_comm

omit [DecidableEq ArrayBuffer] in
theorem numbers_performRemove (s : SourceBufferState ArrayBuffer) (call : Nat)
    (answer : Except String Unit) :
    (s.performRemove call answer).numbers.Perm (s.numbers++[call]) := by
  rw [performRemove]
  cases s.takes answer with
  | ok u => simp [numbers,Listener.call]
  | error e => exact numbers_settled s.settled s.listeners call (.error e)

theorem numbers_callListener (s : SourceBufferState ArrayBuffer) (answer : Except String Unit) :
    (s.callListener answer).numbers.Perm s.numbers := by
  obtain ⟨_,h⟩ | ⟨event,l,rest,_,⟨h,_⟩ | ⟨outcome,hl,h,_⟩ | ⟨call,rfl,hl,_,h⟩⟩ :=
    s.callListener_cases answer
  · rw [h]
  · rw [h]
    exact .refl _
  · rw [h]
    exact numbers_settle (s := { s with dispatch := rest }) hl outcome
  · rw [h]
    have herase := numbers_settle hl (Except.ok () : Except String Unit)
    have hback := numbers_settled s.settled (s.listeners.erase (.waitForUpdate call)) call
      (Except.ok () : Except String Unit)
    exact (numbers_performRemove _ call answer).trans (hback.symm.trans herase)

omit [DecidableEq ArrayBuffer] in
theorem calls_performRemove (s : SourceBufferState ArrayBuffer) (call : Nat)
    (answer : Except String Unit) : (s.performRemove call answer).calls = s.calls := by
  rw [performRemove]
  split <;> rfl

theorem calls_callListener (s : SourceBufferState ArrayBuffer) (answer : Except String Unit) :
    (s.callListener answer).calls = s.calls := by
  obtain ⟨_,h⟩ | ⟨event,l,rest,_,⟨h,_⟩ | ⟨outcome,_,h,_⟩ | ⟨call,_,_,_,h⟩⟩ :=
    s.callListener_cases answer
  · rw [h]
  · rw [h]
  · rw [h]
    rfl
  · rw [h,calls_performRemove]

omit [DecidableEq ArrayBuffer] in
/-- Firing an event leaves the promises and the listeners as they are. -/
theorem fire_frame (s : SourceBufferState ArrayBuffer) (answer : Except String Unit) :
    (s.fire answer).settled = s.settled ∧ (s.fire answer).listeners = s.listeners ∧
      (s.fire answer).calls = s.calls := by
  rw [fire]
  split
  · exact ⟨rfl,rfl,rfl⟩
  · rw [processAppendQueue,if_neg Bool.false_ne_true]
    split
    · exact ⟨rfl,rfl,rfl⟩
    · split <;> exact ⟨rfl,rfl,rfl⟩
  · exact ⟨rfl,rfl,rfl⟩

theorem numbers_step {s : SourceBufferState ArrayBuffer}
    (h : s.numbers.Perm (List.range s.calls)) (e : Happening ArrayBuffer) :
    (s.step e).numbers.Perm (List.range (s.step e).calls) := by
  have hsame : ∀ t : SourceBufferState ArrayBuffer, t.numbers.Perm s.numbers →
      t.calls = s.calls → t.numbers.Perm (List.range t.calls) := by
    intro t hnumbers hcalls
    rw [hcalls]
    exact hnumbers.trans h
  have hnew : ∀ t : SourceBufferState ArrayBuffer, t.numbers.Perm (s.numbers++[s.calls]) →
      t.calls = s.calls+1 → t.numbers.Perm (List.range t.calls) := by
    intro t hnumbers hcalls
    rw [hcalls,List.range_succ]
    exact hnumbers.trans (h.append_right _)
  cases e with
  | appendToBuffer data answer =>
    show (s.appendToBuffer data answer).numbers.Perm
      (List.range (s.appendToBuffer data answer).calls)
    rw [appendToBuffer]
    split_ifs
    · exact hnew _ (by simp [numbers,Listener.call]) rfl
    · split
      · exact hnew _ (by simp [numbers,Listener.call]) rfl
      · exact hnew _ (numbers_settled s.settled s.listeners s.calls _) rfl
  | removeFromBuffer answer =>
    cases hupdating : s.bufferUpdating with
    | true =>
      simp only [step,removeFromBuffer,hupdating,if_true]
      exact hnew _ (by simp [numbers,Listener.call]) rfl
    | false =>
      simp only [step,removeFromBuffer,hupdating,Bool.false_eq_true,if_false]
      exact hnew _ (numbers_performRemove _ s.calls answer) (calls_performRemove _ s.calls answer)
  | complete failed =>
    have hframe : (s.complete failed).numbers = s.numbers ∧
        (s.complete failed).calls = s.calls := by
      rw [complete]
      split_ifs <;> exact ⟨rfl,rfl⟩
    exact hsame _ (by rw [step,hframe.1]) hframe.2
  | fire answer =>
    obtain ⟨hsettled,hlisteners,hcalls⟩ := s.fire_frame answer
    exact hsame _ (by rw [step,numbers,hsettled,hlisteners,numbers]) hcalls
  | callListener answer =>
    exact hsame _ (s.numbers_callListener answer) (s.calls_callListener answer)

omit [DecidableEq ArrayBuffer] in
theorem awaited_of_updating {s : SourceBufferState ArrayBuffer} (h : s.bufferUpdating = true)
    (l : Listener ArrayBuffer) : s.Awaited l := .inr (.inl h)

omit [DecidableEq ArrayBuffer] in
/-- A step that takes neither the event nor the chunk away leaves the listener awaited. -/
theorem Awaited.mono {s t : SourceBufferState ArrayBuffer} {l : Listener ArrayBuffer}
    (h : s.Awaited l) (hdispatch : (.updateend,l) ∈ s.dispatch → (.updateend,l) ∈ t.dispatch)
    (hupdating : s.bufferUpdating = true → t.bufferUpdating = true)
    (hevents : .updateend ∈ s.events → .updateend ∈ t.events)
    (hqueue : ∀ data ∈ s.appendQueue, data ∈ t.appendQueue) : t.Awaited l := by
  obtain h | h | h | ⟨call,data,hl,h⟩ := h
  · exact .inl (hdispatch h)
  · exact .inr (.inl (hupdating h))
  · exact .inr (.inr (.inl (hevents h)))
  · exact .inr (.inr (.inr ⟨call,data,hl,hqueue data h⟩))

omit [DecidableEq ArrayBuffer] in
theorem awaited_performRemove {s : SourceBufferState ArrayBuffer} (call : Nat)
    (answer : Except String Unit) (h : ∀ l ∈ s.listeners, s.Awaited l) :
    ∀ l ∈ (s.performRemove call answer).listeners, (s.performRemove call answer).Awaited l := by
  rw [performRemove]
  cases s.takes answer with
  | ok u => exact fun l _ => awaited_of_updating rfl l
  | error e => exact fun l hl => (h l hl).mono id id id (fun _ h => h)

omit [DecidableEq ArrayBuffer] in
theorem awaited_append {s : SourceBufferState ArrayBuffer} (data : ArrayBuffer)
    (answer : Except String Unit) (h : ∀ l ∈ s.listeners, s.Awaited l) :
    ∀ l ∈ (s.appendToBuffer data answer).listeners, (s.appendToBuffer data answer).Awaited l := by
  rw [appendToBuffer]
  split_ifs
  · intro l hl
    obtain hl | hl := List.mem_append.mp hl
    · exact (h l hl).mono id id id (fun _ hdata => List.mem_append_left _ hdata)
    · obtain rfl := List.mem_singleton.mp hl
      exact .inr (.inr (.inr ⟨_,data,rfl,by simp⟩))
  · split
    · exact fun l _ => awaited_of_updating rfl l
    · exact fun l hl => (h l hl).mono id id id (fun _ h => h)

omit [DecidableEq ArrayBuffer] in
theorem awaited_fire {s : SourceBufferState ArrayBuffer} (answer : Except String Unit)
    (h : ∀ l ∈ s.listeners, s.Awaited l) :
    ∀ l ∈ (s.fire answer).listeners, (s.fire answer).Awaited l := by
  intro l hl
  rw [(s.fire_frame answer).2.1] at hl
  cases hdispatch : s.dispatch with
  | cons first rest => simpa [fire,hdispatch] using h l hl
  | nil =>
    cases hevents : s.events with
    | nil => simpa [fire,hdispatch,hevents] using h l hl
    | cons event events =>
      cases event with
      | error =>
        apply (h l hl).mono
        · simp [hdispatch]
        · simp [fire,hdispatch,hevents]
        · simp [fire,hdispatch,hevents]
        · simp [fire,hdispatch,hevents]
      | updateend =>
        -- All the listeners are among those that this event calls.
        left
        simp only [fire,hdispatch,hevents,processAppendQueue,Bool.false_eq_true,if_false]
        split
        · simpa using hl
        · split <;> simpa using hl

theorem awaited_callListener {s : SourceBufferState ArrayBuffer} (answer : Except String Unit)
    (h : s.Accounted) :
    ∀ l ∈ (s.callListener answer).listeners, (s.callListener answer).Awaited l := by
  obtain ⟨_,hsame⟩ | ⟨event,l,rest,hdispatch,hcases⟩ := s.callListener_cases answer
  · rw [hsame]
    exact h.awaited
  · have hothers : ∀ l' ∈ s.listeners.erase l, ({ s with
        dispatch := rest
        listeners := s.listeners.erase l } : SourceBufferState ArrayBuffer).Awaited l' := by
      intro l' hl'
      obtain ⟨hne,hl'⟩ := h.listeners_nodup.mem_erase_iff.mp hl'
      refine (h.awaited l' hl').mono ?_ id id (fun _ h => h)
      simp [hdispatch,hne]
    obtain ⟨hstays,hkept⟩ | ⟨outcome,hl,hsettle,_⟩ | ⟨call,rfl,hl,_,hremove⟩ := hcases
    · rw [hstays]
      intro l' hl'
      by_cases hcalled : event = .updateend ∧ l' = l
      · obtain ⟨rfl,rfl⟩ := hcalled
        exact .inr (.inr (.inr (hkept hl' rfl)))
      · refine (h.awaited l' hl').mono ?_ id id (fun _ h => h)
        rw [hdispatch,List.mem_cons]
        rintro (hfirst | hrest)
        · cases hfirst
          exact absurd ⟨rfl,rfl⟩ hcalled
        · exact hrest
    · rw [hsettle]
      exact fun l' hl' => (hothers l' hl').mono id id id (fun _ h => h)
    · rw [hremove]
      exact awaited_performRemove call answer hothers

theorem Accounted.step {s : SourceBufferState ArrayBuffer} (h : s.Accounted)
    (e : Happening ArrayBuffer) : (s.step e).Accounted := by
  refine ⟨numbers_step h.numbers e,?_⟩
  cases e with
  | appendToBuffer data answer => exact awaited_append data answer h.awaited
  | removeFromBuffer answer =>
    show ∀ l ∈ (s.removeFromBuffer answer).listeners, (s.removeFromBuffer answer).Awaited l
    rw [removeFromBuffer]
    split_ifs with hupdating
    · exact fun l _ => awaited_of_updating hupdating l
    · apply awaited_performRemove s.calls answer
      exact fun l hl => (h.awaited l hl).mono id id id (fun _ h => h)
  | complete failed =>
    intro l hl
    cases hupdating : s.bufferUpdating with
    | true =>
      right; right; left
      cases failed <;> simp [SourceBufferState.step,complete,hupdating]
    | false =>
      have hsame : s.complete failed = s := by simp [complete,hupdating]
      rw [SourceBufferState.step,hsame] at hl ⊢
      exact h.awaited l hl
  | fire answer => exact awaited_fire answer h.awaited
  | callListener answer => exact awaited_callListener answer h

theorem accounted_run (es : List (Happening ArrayBuffer)) :
    (es.foldl SourceBufferState.step (new : SourceBufferState ArrayBuffer)).Accounted :=
  (along_true SourceBufferState.step new es).invariant Accounted
    ⟨by simp [numbers,new],by simp [new]⟩ (fun _ e h _ => h.step e)

/-- Nothing is under way. -/
def AtRest (s : SourceBufferState ArrayBuffer) : Prop :=
  s.bufferUpdating = false ∧ s.events = [] ∧ s.dispatch = []

/-- When nothing is under way, every promise has been settled, and only once, but those of the
chunks that are still queued. -/
theorem settled_at_rest (es : List (Happening ArrayBuffer)) (call : Nat)
    (h : (es.foldl step (new : SourceBufferState ArrayBuffer)).AtRest)
    (hcall : call < (es.foldl step (new : SourceBufferState ArrayBuffer)).calls) :
    ((es.foldl step (new : SourceBufferState ArrayBuffer)).settled.map Prod.fst).count call =
      if ∃ data ∈ (es.foldl step (new : SourceBufferState ArrayBuffer)).appendQueue,
        .checkQueue call data ∈ (es.foldl step (new : SourceBufferState ArrayBuffer)).listeners
      then 0 else 1 := by
  have hrun := accounted_run es
  generalize es.foldl step (new : SourceBufferState ArrayBuffer) = s at h hcall hrun ⊢
  obtain ⟨hupdating,hevents,hdispatch⟩ := h
  have hcount : s.numbers.count call = 1 := by
    rw [hrun.numbers.count_eq]
    exact List.count_eq_one_of_mem List.nodup_range (List.mem_range.mpr hcall)
  have hqueued : call ∈ s.listeners.map Listener.call ↔
      ∃ data ∈ s.appendQueue, .checkQueue call data ∈ s.listeners := by
    constructor
    · intro hmem
      obtain ⟨l,hl,rfl⟩ := List.mem_map.mp hmem
      obtain h | h | h | ⟨call,data,rfl,hdata⟩ := hrun.awaited l hl
      · simp [hdispatch] at h
      · simp [hupdating] at h
      · simp [hevents] at h
      · exact ⟨data,hdata,hl⟩
    · rintro ⟨data,_,hl⟩
      exact List.mem_map.mpr ⟨_,hl,rfl⟩
  rw [numbers,List.count_append] at hcount
  split_ifs with hdata
  · have hpos := List.count_pos_iff.mpr (hqueued.mpr hdata)
    omega
  · have hzero := List.count_eq_zero.mpr (fun hmem => hdata (hqueued.mp hmem))
    omega

/-- The second chunk is refused when its turn comes. -/
theorem settled_at_rest_refused :
    ((([.appendToBuffer 7 (.ok ()),.appendToBuffer 8 (.ok ()),.complete false,
      .fire (.error "QuotaExceededError"),.callListener (.ok ()),.callListener (.ok ())] :
        List (Happening Nat)).foldl step new).settled.map Prod.fst).count 1 = 1 :=
  (settled_at_rest [.appendToBuffer 7 (.ok ()),.appendToBuffer 8 (.ok ()),.complete false,
    .fire (.error "QuotaExceededError"),.callListener (.ok ()),.callListener (.ok ())] 1
    ⟨rfl,rfl,rfl⟩ (by decide)).trans rfl

/-- The promise of the call has not been rejected, and only the queue settles it. -/
def LeftToQueue (call : Nat) (s : SourceBufferState ArrayBuffer) : Prop :=
  call < s.calls ∧ (∀ l ∈ s.listeners, l.call = call → ∃ data, l = .checkQueue call data) ∧
    ∀ failure, (call,.error failure) ∉ s.settled

omit [DecidableEq ArrayBuffer] in
theorem leftToQueue_performRemove {s : SourceBufferState ArrayBuffer} {call other : Nat}
    (h : LeftToQueue call s) (hother : other ≠ call) (answer : Except String Unit) :
    LeftToQueue call (s.performRemove other answer) := by
  obtain ⟨hcalls,hlisteners,hsettled⟩ := h
  rw [performRemove]
  split
  · refine ⟨hcalls,?_,hsettled⟩
    intro l hl hcall
    obtain hl | hl := List.mem_append.mp hl
    · exact hlisteners l hl hcall
    · obtain rfl := List.mem_singleton.mp hl
      exact absurd hcall hother
  · refine ⟨hcalls,hlisteners,?_⟩
    intro failure hmem
    obtain hmem | hmem := List.mem_append.mp hmem
    · exact hsettled failure hmem
    · have hpair := List.mem_singleton.mp hmem
      exact hother (congrArg Prod.fst hpair).symm

theorem leftToQueue_step {call : Nat} {s : SourceBufferState ArrayBuffer}
    (h : LeftToQueue call s) (e : Happening ArrayBuffer) : LeftToQueue call (s.step e) := by
  obtain ⟨hcalls,hlisteners,hsettled⟩ := h
  have hnew : ∀ l : Listener ArrayBuffer, l.call = s.calls → ∀ l' ∈ s.listeners++[l],
      l'.call = call → ∃ data, l' = .checkQueue call data := by
    intro l hl l' hl' hcall
    obtain hl' | hl' := List.mem_append.mp hl'
    · exact hlisteners l' hl' hcall
    · obtain rfl := List.mem_singleton.mp hl'
      omega
  cases e with
  | appendToBuffer data answer =>
    show LeftToQueue call (s.appendToBuffer data answer)
    rw [appendToBuffer]
    split_ifs
    · exact ⟨Nat.lt_succ_of_lt hcalls,hnew _ rfl,hsettled⟩
    · split
      · exact ⟨Nat.lt_succ_of_lt hcalls,hnew _ rfl,hsettled⟩
      · refine ⟨Nat.lt_succ_of_lt hcalls,hlisteners,?_⟩
        intro failure hmem
        obtain hmem | hmem := List.mem_append.mp hmem
        · exact hsettled failure hmem
        · have hcall := congrArg Prod.fst (List.mem_singleton.mp hmem)
          exact absurd hcall hcalls.ne
  | removeFromBuffer answer =>
    show LeftToQueue call (s.removeFromBuffer answer)
    rw [removeFromBuffer]
    split_ifs
    · exact ⟨Nat.lt_succ_of_lt hcalls,hnew _ rfl,hsettled⟩
    · refine leftToQueue_performRemove ?_ hcalls.ne' answer
      exact ⟨Nat.lt_succ_of_lt hcalls,hlisteners,hsettled⟩
  | complete failed =>
    show LeftToQueue call (s.complete failed)
    rw [complete]
    split_ifs <;> exact ⟨hcalls,hlisteners,hsettled⟩
  | fire answer =>
    obtain ⟨hsame,hkept,hnumber⟩ := s.fire_frame answer
    show LeftToQueue call (s.fire answer)
    rw [LeftToQueue,hsame,hkept,hnumber]
    exact ⟨hcalls,hlisteners,hsettled⟩
  | callListener answer =>
    show LeftToQueue call (s.callListener answer)
    have herase : ∀ l, ∀ l' ∈ s.listeners.erase l, l'.call = call →
        ∃ data, l' = .checkQueue call data :=
      fun l l' hl' => hlisteners l' (List.mem_of_mem_erase hl')
    obtain ⟨_,h⟩ | ⟨event,l,rest,_,⟨h,_⟩ | ⟨outcome,hl,h,hok,_⟩ | ⟨other,rfl,hl,_,h⟩⟩ :=
      s.callListener_cases answer
    · rw [h]
      exact ⟨hcalls,hlisteners,hsettled⟩
    · rw [h]
      exact ⟨hcalls,hlisteners,hsettled⟩
    · rw [h]
      refine ⟨hcalls,herase l,?_⟩
      intro failure hmem
      obtain hmem | hmem := List.mem_append.mp hmem
      · exact hsettled failure hmem
      · obtain ⟨hcall,houtcome⟩ := Prod.mk.inj (List.mem_singleton.mp hmem)
        obtain ⟨data,hdata⟩ := hlisteners l hl hcall.symm
        rw [hok call data hdata] at houtcome
        cases houtcome
    · rw [h]
      have hother : other ≠ call := by
        intro hcall
        obtain ⟨data,hdata⟩ := hlisteners _ hl hcall
        cases hdata
      refine leftToQueue_performRemove ?_ hother answer
      exact ⟨hcalls,herase _,hsettled⟩

/-- The promise of a call that has its chunk queued is never rejected, whatever the source buffer
says to the chunk when its turn comes. -/
theorem queued_never_rejected (pre post : List (Happening ArrayBuffer)) (data : ArrayBuffer)
    (answer : Except String Unit)
    (h : (pre.foldl step (new : SourceBufferState ArrayBuffer)).isBusy = true) (failure : String) :
    ((pre.foldl step (new : SourceBufferState ArrayBuffer)).calls,.error failure) ∉
      ((pre++.appendToBuffer data answer::post).foldl step new).settled := by
  have hrun := accounted_run pre
  rw [List.foldl_append,List.foldl_cons]
  generalize pre.foldl step (new : SourceBufferState ArrayBuffer) = s at h hrun ⊢
  have hfresh : s.calls ∉ s.numbers := by
    rw [hrun.numbers.mem_iff]
    exact List.not_mem_range_self
  rw [numbers,List.mem_append,not_or] at hfresh
  have hqueued : LeftToQueue s.calls (s.step (.appendToBuffer data answer)) := by
    show LeftToQueue s.calls (s.appendToBuffer data answer)
    rw [appendToBuffer,if_pos h]
    refine ⟨Nat.lt_succ_self _,?_,fun failure hmem => hfresh.1 (List.mem_map_of_mem hmem)⟩
    intro l hl hcall
    obtain hl | hl := List.mem_append.mp hl
    · exact absurd (List.mem_map.mpr ⟨l,hl,hcall⟩) hfresh.2
    · exact ⟨data,List.mem_singleton.mp hl⟩
  have hpost := (along_true step (s.step (.appendToBuffer data answer)) post).invariant
    (LeftToQueue s.calls) hqueued (fun s e h _ => leftToQueue_step h e)
  exact hpost.2.2 failure

theorem queued_never_rejected_refused :
    (1,.error "QuotaExceededError") ∉
      (([.appendToBuffer 7 (.ok ()),.appendToBuffer 8 (.ok ()),.complete false,
        .fire (.error "QuotaExceededError"),.callListener (.ok ()),.callListener (.ok ())] :
          List (Happening Nat)).foldl step new).settled :=
  queued_never_rejected [.appendToBuffer 7 (.ok ())] [.complete false,
    .fire (.error "QuotaExceededError"),.callListener (.ok ()),.callListener (.ok ())] 8 (.ok ())
    rfl "QuotaExceededError"

end Settlement

end SourceBufferState

end OpenBroadcast.Browser.AppendQueue
