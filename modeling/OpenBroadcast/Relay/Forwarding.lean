import OpenBroadcast.Framework.Fifo
import OpenBroadcast.Relay.HopRemoval

namespace OpenBroadcast

/-- A key is iterated over once if it is in the set, else not at all. -/
theorem HashOrder.filter_order {ι α : Type} [DecidableEq α] (H : HashOrder ι α) (i : ι)
    (s : Finset α) (a : α) :
    (H.order i s).filter (fun x => x = a) = if a ∈ s then [a] else [] := by
  rw [List.filter_eq]
  split_ifs with ha
  · rw [List.count_eq_one_of_mem (H.nodup i s) ((H.mem_order i s a).mpr ha)]
    rfl
  · rw [List.count_eq_zero_of_not_mem (mt (H.mem_order i s a).mp ha)]
    rfl

namespace Relay

/-- The two tasks that call the handler. -/
inductive Processor where
  | chunks
  | messages
  deriving DecidableEq, Repr

variable {PeerId : Type}

/-- The calls that the task has still to make. -/
def Work.pending : Work PeerId → List (PeerId × StreamChunk PeerId)
  | .send _ queue => queue
  | _ => []

@[simp] theorem Work.pending_idle : (Work.idle : Work PeerId).pending = [] := rfl

@[simp] theorem Work.pending_relay (chunk : StreamChunk PeerId) :
    (Work.relay chunk).pending = [] := rfl

@[simp] theorem Work.pending_send (givesUp : Bool) (queue : List (PeerId × StreamChunk PeerId)) :
    (Work.send givesUp queue).pending = queue := rfl

/-- The answer of the handler, in a turn of the task. -/
def Processor.turn : Processor → RelayEvent PeerId → Option Bool
  | .chunks,.chunkTask ok => some ok
  | .messages,.messageTask ok => some ok
  | _,_ => none

theorem StreamRelay.subscribers_addChunk [DecidableEq PeerId] (s : StreamRelay PeerId)
    (chunk : StreamChunk PeerId) (maxBufferSize now : Nat) :
    (s.addChunk chunk maxBufferSize now).subscribers = s.subscribers := by
  unfold addChunk
  dsimp only
  split_ifs <;> rfl

namespace RelayNode

section Turns

variable [DecidableEq PeerId]

def work (s : RelayNode PeerId) : Processor → Work PeerId
  | .chunks => s.chunkWork
  | .messages => s.messageWork

/-- The calls for a chunk: one for each subscriber, if the stream is there. -/
def fanOut (s : RelayNode PeerId) (order : HashOrder Unit PeerId) (chunk : StreamChunk PeerId) :
    List (PeerId × StreamChunk PeerId) :=
  match s.streams.lookup chunk.streamId with
  | some stream =>
    if s.hasHandler then
      (order.order () stream.subscribers).map (fun p => (p,s.relayChunk chunk))
    else []
  | none => []

/-- The calls that a task gets to make when it goes on with its work. -/
def opened (s : RelayNode PeerId) (order : HashOrder Unit PeerId) :
    Work PeerId → List (PeerId × StreamChunk PeerId)
  | .relay chunk => s.fanOut order chunk
  | _ => []

/-- The calls that it leaves out when it goes on with its work. -/
def abandoned (ok : Bool) : Work PeerId → List (PeerId × StreamChunk PeerId)
  | .send true queue => if ok then [] else queue.drop 1
  | _ => []

theorem pending_bufferChunk (s : RelayNode PeerId) (order : HashOrder Unit PeerId)
    (chunk : StreamChunk PeerId) (now : Nat) (givesUp : Bool) :
    (Work.ofResult givesUp (bufferChunk order s chunk now).2).pending = s.fanOut order chunk := by
  unfold bufferChunk fanOut
  cases s.streams.lookup chunk.streamId with
  | none => rfl
  | some stream =>
    dsimp only
    rw [StreamRelay.subscribers_addChunk]
    split_ifs <;> rfl

omit [DecidableEq PeerId] in
theorem pending_request (s : RelayNode PeerId) (id : StreamId) (p : PeerId) (sequence : Nat)
    (givesUp : Bool) :
    (Work.ofResult givesUp (s.handleRequestChunksInternal id p sequence)).pending =
      (s.replayed id sequence).map (fun c => (p,c)) := by
  unfold handleRequestChunksInternal replayed
  cases s.streams.lookup id with
  | none => rfl
  | some stream =>
    dsimp only
    split_ifs <;> rfl

/-- A task that goes on makes the first of its calls. -/
theorem pending_proceed (order : HashOrder Unit PeerId) (s : RelayNode PeerId) (now : Nat)
    (ok : Bool) (w : Work PeerId) :
    w.pending++s.opened order w =
      (w.pending.take 1++abandoned ok w)++(s.proceed order now ok w).2.pending := by
  cases w with
  | idle => rfl
  | relay chunk =>
    have hqueue := pending_bufferChunk s order chunk now false
    simp [opened,abandoned,proceed,← hqueue]
  | send givesUp queue =>
    cases queue with
    | nil => cases givesUp <;> cases ok <;> simp [opened,abandoned,proceed]
    | cons call queue =>
      cases givesUp <;> cases ok <;> simp [opened,abandoned,proceed]

omit [DecidableEq PeerId] in
theorem proceed_works (order : HashOrder Unit PeerId) (s : RelayNode PeerId) (now : Nat)
    (ok : Bool) (w : Work PeerId) (t : Processor) :
    (s.proceed order now ok w).1.work t = s.work t := by
  cases w with
  | idle => rfl
  | relay chunk =>
    have hout := (bufferChunk_queue order s chunk now).1
    simp only [output,Prod.mk.injEq] at hout
    obtain ⟨_,_,_,hchunk,hmessage⟩ := hout
    cases t
    · exact hchunk
    · exact hmessage
  | send givesUp queue => cases queue <;> cases t <;> rfl

omit [DecidableEq PeerId] in
theorem proceed_calls (order : HashOrder Unit PeerId) (s : RelayNode PeerId) (now : Nat)
    (ok : Bool) (w : Work PeerId) :
    (s.proceed order now ok w).1.calls = s.calls++w.pending.take 1 := by
  cases w with
  | idle => simp [proceed]
  | relay chunk =>
    have hout := (bufferChunk_queue order s chunk now).1
    simp only [output,Prod.mk.injEq] at hout
    simp [proceed,hout.2.2.1]
  | send givesUp queue => cases queue <;> simp [proceed]

/-- The calls that a step gives the task to make. -/
def given (t : Processor) (s : RelayNode PeerId) (e : Moment PeerId × RelayEvent PeerId) :
    List (PeerId × StreamChunk PeerId) :=
  if s.running then
    match t.turn e.2 with
    | some _ => s.opened e.1.order (s.work t)
    | none =>
      match t,s.messageWork,e.2 with
      | .messages,.idle,.message (.requestChunks id p sequence) =>
        if s.stopped then [] else (s.replayed id sequence).map (fun c => (p,c))
      | _,_,_ => []
  else []

/-- The call that the task makes in a step. -/
def called (t : Processor) (s : RelayNode PeerId) (e : Moment PeerId × RelayEvent PeerId) :
    List (PeerId × StreamChunk PeerId) :=
  if s.running then
    match t.turn e.2 with
    | some _ => (s.work t).pending.take 1
    | none => []
  else []

/-- The calls that a step makes the task leave out. -/
def leftOut (t : Processor) (s : RelayNode PeerId) (e : Moment PeerId × RelayEvent PeerId) :
    List (PeerId × StreamChunk PeerId) :=
  if s.running then
    match e.2,t.turn e.2 with
    | .stop,_ => (s.work t).pending
    | _,some ok => abandoned ok (s.work t)
    | _,none => []
  else []

omit [DecidableEq PeerId] in
theorem messageWork_of_output {s s' : RelayNode PeerId} (h : s'.output = s.output) :
    s'.chunkWork = s.chunkWork ∧ s'.messageWork = s.messageWork ∧ s'.calls = s.calls := by
  simp only [output,Prod.mk.injEq] at h
  exact ⟨h.2.2.2.1,h.2.2.2.2,h.2.2.1⟩

/-- A message that is taken touches the work of its own task only. -/
theorem handleMessage_works (s : RelayNode PeerId) (now : Nat) (msg : RelayMessage PeerId)
    (hidle : s.messageWork = .idle) :
    (s.handleMessage now msg).chunkWork = s.chunkWork ∧
    (s.handleMessage now msg).calls = s.calls ∧
    (s.handleMessage now msg).messageWork.pending =
      match msg with
      | .requestChunks id p sequence => (s.replayed id sequence).map (fun c => (p,c))
      | _ => [] := by
  have hframe : ∀ s' : RelayNode PeerId, s'.output = s.output →
      s'.chunkWork = s.chunkWork ∧ s'.calls = s.calls ∧ s'.messageWork.pending = [] := by
    intro s' hout
    obtain ⟨hchunk,hmessage,hcalls⟩ := messageWork_of_output hout
    exact ⟨hchunk,hcalls,by rw [hmessage,hidle]; rfl⟩
  cases msg with
  | chunk chunk => exact ⟨rfl,rfl,rfl⟩
  | addStream id publisher => exact hframe _ (output_addStream s id publisher now)
  | removeStream id => exact hframe _ (output_removeStream s id)
  | addSubscriber id p => exact hframe _ (output_addSubscriber s id p)
  | removeSubscriber id p => exact hframe _ (output_removeSubscriber s id p)
  | requestChunks id p sequence => exact ⟨rfl,rfl,s.pending_request id p sequence true⟩
  | stop => exact hframe _ rfl

/-- What a step does to the calls of one task. -/
theorem step_work (t : Processor) (s : RelayNode PeerId)
    (e : Moment PeerId × RelayEvent PeerId) :
    (s.work t).pending++given t s e =
      (called t s e++leftOut t s e)++((s.step e).work t).pending := by
  obtain ⟨moment,event⟩ := e
  by_cases hrun : s.running = true
  · cases event with
    | chunkTask ok =>
      have hown := pending_proceed moment.order s moment.now ok s.chunkWork
      have hother := congrArg Work.pending
        (proceed_works moment.order s moment.now ok s.chunkWork .messages)
      cases t
      · simpa [given,called,leftOut,step,hrun,Processor.turn,work] using hown
      · simpa [given,called,leftOut,step,hrun,Processor.turn,work] using hother.symm
    | messageTask ok =>
      have hown := pending_proceed moment.order s moment.now ok s.messageWork
      have hother := congrArg Work.pending
        (proceed_works moment.order s moment.now ok s.messageWork .chunks)
      cases t
      · simpa [given,called,leftOut,step,hrun,Processor.turn,work] using hother.symm
      · simpa [given,called,leftOut,step,hrun,Processor.turn,work] using hown
    | publish chunk =>
      have hsame : ((s.step (moment,.publish chunk)).work t).pending = (s.work t).pending := by
        by_cases hidle : s.chunkWork = .idle
        · rw [step_publish_idle moment chunk hrun hidle]
          split_ifs
          · rfl
          · cases t <;> simp [work,recordChunk,hidle]
        · rw [step_busy_publish moment chunk hidle]
      rw [hsame]
      cases t <;> simp [given,called,leftOut,hrun,Processor.turn]
    | message msg =>
      by_cases hidle : s.messageWork = .idle
      · rw [step_message_idle moment msg hrun hidle]
        by_cases hstopped : s.stopped = true
        · cases t <;> cases msg <;>
            simp [given,called,leftOut,hrun,Processor.turn,work,hidle,hstopped]
        · obtain ⟨hchunk,_,hmessage⟩ := handleMessage_works s moment.now msg hidle
          cases t
          · simp [given,called,leftOut,hrun,Processor.turn,work,hstopped,hchunk]
          · cases msg <;>
              simp [given,called,leftOut,hrun,Processor.turn,work,hidle,hstopped,hmessage]
      · rw [step_busy_message moment msg hidle]
        have hnone : given t s (moment,.message msg) = [] := by
          cases t <;> cases hwork : s.messageWork <;>
            simp_all [given,Processor.turn]
        cases t <;> simp [hnone,called,leftOut,hrun,Processor.turn]
    | report order =>
      cases t <;> simp [given,called,leftOut,step,hrun,Processor.turn,work,reportStats]
    | findInactive order =>
      cases hremove : s.toRemove <;> cases t <;>
        simp [given,called,leftOut,step,hrun,Processor.turn,work,findInactive,hremove]
    | removeInactive =>
      cases hremove : s.toRemove with
      | nil => cases t <;> simp [given,called,leftOut,step,hrun,Processor.turn,work,hremove]
      | cons id rest =>
        obtain ⟨hchunk,hmessage,_⟩ := messageWork_of_output (output_removeStream s id)
        cases t <;>
          simp [given,called,leftOut,step,hrun,Processor.turn,work,hremove,hchunk,hmessage]
    | stop => cases t <;> simp [given,called,leftOut,step,hrun,Processor.turn,work]
  · rw [step_stopped _ hrun]
    simp [given,called,leftOut,hrun]

/-- The calls of the node are those of its two tasks. -/
theorem step_calls (s : RelayNode PeerId) (e : Moment PeerId × RelayEvent PeerId) :
    (s.step e).calls = s.calls++(called .chunks s e++called .messages s e) := by
  obtain ⟨moment,event⟩ := e
  by_cases hrun : s.running = true
  · cases event with
    | chunkTask ok =>
      simp [called,hrun,Processor.turn,step,work,proceed_calls]
    | messageTask ok =>
      simp [called,hrun,Processor.turn,step,work,proceed_calls]
    | publish chunk =>
      by_cases hidle : s.chunkWork = .idle
      · rw [step_publish_idle moment chunk hrun hidle]
        split_ifs <;> simp [called,hrun,Processor.turn,recordChunk]
      · simp [step_busy_publish moment chunk hidle,called,hrun,Processor.turn]
    | message msg =>
      by_cases hidle : s.messageWork = .idle
      · have hcalls := (handleMessage_works s moment.now msg hidle).2.1
        rw [step_message_idle moment msg hrun hidle]
        split_ifs <;> simp [called,hrun,Processor.turn,hcalls]
      · simp [step_busy_message moment msg hidle,called,hrun,Processor.turn]
    | report order => simp [called,hrun,Processor.turn,step,reportStats]
    | findInactive order =>
      cases hremove : s.toRemove <;> simp [called,hrun,Processor.turn,step,findInactive,hremove]
    | removeInactive =>
      cases hremove : s.toRemove with
      | nil => simp [called,hrun,Processor.turn,step,hremove]
      | cons id rest =>
        have hcalls := (messageWork_of_output (output_removeStream s id)).2.2
        simp [called,hrun,Processor.turn,step,hremove,hcalls]
    | stop => simp [called,hrun,Processor.turn,step]
  · rw [step_stopped _ hrun]
    simp [called,hrun]

end Turns

section Runs

variable [DecidableEq PeerId]

/-- What a peer is to get of a chunk: it once, if the peer is among the subscribers of its stream
when the chunk is put into the buffer. -/
def share (p : PeerId) (s : RelayNode PeerId) (e : Moment PeerId × RelayEvent PeerId) :
    List (PeerId × StreamChunk PeerId) :=
  match e.2,s.chunkWork with
  | .chunkTask _,.relay chunk =>
    if s.running ∧ s.hasHandler ∧
        (s.streams.lookup chunk.streamId).any (fun stream => p ∈ stream.subscribers) then
      [(p,s.relayChunk chunk)]
    else []
  | _,_ => []

theorem filter_fanOut (s : RelayNode PeerId) (order : HashOrder Unit PeerId)
    (chunk : StreamChunk PeerId) (p : PeerId) :
    (s.fanOut order chunk).filter (fun call => call.1 = p) =
      if s.hasHandler ∧
          (s.streams.lookup chunk.streamId).any (fun stream => p ∈ stream.subscribers) then
        [(p,s.relayChunk chunk)]
      else [] := by
  unfold fanOut
  cases s.streams.lookup chunk.streamId with
  | none => simp
  | some stream =>
    have hone := order.filter_order () stream.subscribers p
    cases hhandler : s.hasHandler with
    | false => simp
    | true =>
      have hcomp : (fun call : PeerId × StreamChunk PeerId => decide (call.1 = p)) ∘
          (fun q => (q,s.relayChunk chunk)) = fun q => decide (q = p) := rfl
      by_cases hp : p ∈ stream.subscribers
      · simp [List.filter_map,hcomp,hone,hp]
      · simp [List.filter_map,hcomp,hone,hp]

theorem filter_given (p : PeerId) (s : RelayNode PeerId)
    (e : Moment PeerId × RelayEvent PeerId) :
    (given .chunks s e).filter (fun call => call.1 = p) = s.share p e := by
  obtain ⟨moment,event⟩ := e
  cases hrun : s.running with
  | false => cases event <;> cases hwork : s.chunkWork <;> simp [given,share,hrun,hwork]
  | true =>
    cases event with
    | chunkTask ok =>
      cases hwork : s.chunkWork with
      | relay chunk =>
        simp [given,share,hrun,hwork,Processor.turn,work,opened,filter_fanOut]
      | _ => simp [given,share,hrun,hwork,Processor.turn,work,opened]
    | _ => simp [given,share,hrun,Processor.turn]

/-- The task for chunks does not give up. -/
def Steady (s : RelayNode PeerId) : Prop := ∀ queue, s.chunkWork ≠ .send true queue

omit [DecidableEq PeerId] in
theorem steady_proceed (order : HashOrder Unit PeerId) {s : RelayNode PeerId} (h : Steady s)
    (now : Nat) (ok : Bool) (queue : List (PeerId × StreamChunk PeerId)) :
    (s.proceed order now ok s.chunkWork).2 ≠ .send true queue := by
  cases hwork : s.chunkWork with
  | idle => simp [proceed]
  | relay chunk => cases hresult : (bufferChunk order s chunk now).2 <;>
      simp [proceed,hresult,Work.ofResult]
  | send givesUp calls =>
    have hsteady : givesUp ≠ true := fun hup => h calls (by rw [hwork,hup])
    cases calls <;> simp [proceed,hsteady]

theorem steady_step {s : RelayNode PeerId} (h : Steady s)
    (e : Moment PeerId × RelayEvent PeerId) : Steady (s.step e) := by
  have hsame : ∀ s' : RelayNode PeerId, s'.chunkWork = s.chunkWork → Steady s' := by
    intro s' hwork queue
    rw [hwork]
    exact h queue
  obtain ⟨moment,event⟩ := e
  by_cases hrun : s.running = true
  · cases event with
    | chunkTask ok =>
      intro queue
      simpa [step,hrun] using steady_proceed moment.order h moment.now ok queue
    | messageTask ok =>
      apply hsame
      have hwork := proceed_works moment.order s moment.now ok s.messageWork .chunks
      simpa [step,hrun,work] using hwork
    | publish chunk =>
      by_cases hidle : s.chunkWork = .idle
      · rw [step_publish_idle moment chunk hrun hidle]
        split_ifs
        · exact h
        · intro queue
          simp
      · rw [step_busy_publish moment chunk hidle]
        exact h
    | message msg =>
      by_cases hidle : s.messageWork = .idle
      · rw [step_message_idle moment msg hrun hidle]
        split_ifs
        · exact h
        · exact hsame _ (handleMessage_works s moment.now msg hidle).1
      · rw [step_busy_message moment msg hidle]
        exact h
    | report order => exact hsame _ (by simp [step,hrun,reportStats])
    | findInactive order =>
      apply hsame
      cases hremove : s.toRemove <;> simp [step,hrun,findInactive,hremove]
    | removeInactive =>
      apply hsame
      cases hremove : s.toRemove with
      | nil => simp [step,hrun,hremove]
      | cons id rest =>
        simpa [step,hrun,hremove] using (messageWork_of_output (output_removeStream s id)).1
    | stop =>
      intro queue
      simp [step,hrun]
  · rw [step_stopped _ hrun]
    exact h

omit [DecidableEq PeerId] in
/-- A node that is not stopped makes all calls of its task for chunks. -/
theorem leftOut_chunks {s : RelayNode PeerId} (h : Steady s)
    {e : Moment PeerId × RelayEvent PeerId} (hstop : e.2 ≠ .stop) :
    leftOut .chunks s e = [] := by
  obtain ⟨moment,event⟩ := e
  cases hrun : s.running with
  | false => simp [leftOut,hrun]
  | true =>
    cases event with
    | stop => exact absurd rfl hstop
    | chunkTask ok =>
      cases hwork : s.chunkWork with
      | send givesUp calls =>
        cases givesUp with
        | true => exact absurd hwork (h calls)
        | false => simp [leftOut,hrun,Processor.turn,work,hwork,abandoned]
      | _ => simp [leftOut,hrun,Processor.turn,work,hwork,abandoned]
    | _ => simp [leftOut,hrun,Processor.turn]

/-- As long as a node runs, every peer is called with each published chunk whose stream it is
subscribed to when the chunk is put into the buffer, or still to be: with no others, once with
each and in their order, whatever the handler answers. -/
theorem published_chunks_forwarded (localPeerId : PeerId) (config : RelayConfig)
    (hasHandler : Bool) (now : Nat) (es : List (Moment PeerId × RelayEvent PeerId))
    (hrun : ∀ e ∈ es, e.2 ≠ .stop) (p : PeerId) :
    let s := start localPeerId config hasHandler now
    (collect step (called .chunks) s es).filter (fun call => call.1 = p)++
        (es.foldl step s).chunkWork.pending.filter (fun call => call.1 = p) =
      collect step (share p) s es := by
  intro s
  have hok : Along step (fun s e => Steady s ∧ e.2 ≠ .stop) s es := by
    apply (along_of_forall step s hrun).imp Steady
    · intro queue
      simp [s,start]
    · exact fun s e h _ => steady_step h e
    · exact fun s e h hstop => ⟨h,hstop⟩
  have hcalls : collect step (given .chunks) s es =
      collect step (called .chunks) s es++(es.foldl step s).chunkWork.pending := by
    apply hok.fifo (fun s => (s.work .chunks).pending)
    intro s e h
    have hwork := step_work .chunks s e
    rwa [leftOut_chunks h.1 h.2,List.append_nil] at hwork
  calc (collect step (called .chunks) s es).filter (fun call => call.1 = p)++
        (es.foldl step s).chunkWork.pending.filter (fun call => call.1 = p)
      = (collect step (given .chunks) s es).filter (fun call => call.1 = p) := by
        rw [hcalls,List.filter_append]
    _ = collect step (share p) s es := by
        rw [collect_filter]
        exact (along_true step s es).collect_congr (fun s e _ => filter_given p s e)

/-- A handler fails in a replay that has more chunks to send. -/
def ReplayFails (s : RelayNode PeerId) (e : Moment PeerId × RelayEvent PeerId) : Prop :=
  e.2 = .messageTask false ∧ s.running = true ∧
    ∃ call next rest, s.messageWork = .send true (call::next::rest)

omit [DecidableEq PeerId] in
theorem leftOut_messages_iff {s : RelayNode PeerId} {e : Moment PeerId × RelayEvent PeerId}
    (hstop : e.2 ≠ .stop) : leftOut .messages s e = [] ↔ ¬ ReplayFails s e := by
  obtain ⟨moment,event⟩ := e
  unfold ReplayFails
  cases hrun : s.running with
  | false => simp [leftOut,hrun]
  | true =>
    cases event with
    | stop => exact absurd rfl hstop
    | messageTask ok =>
      cases hwork : s.messageWork with
      | send givesUp calls =>
        rcases calls with _ | ⟨call,_ | ⟨next,rest⟩⟩ <;> cases givesUp <;> cases ok <;>
          simp [leftOut,hrun,Processor.turn,work,hwork,abandoned]
      | _ => simp [leftOut,hrun,Processor.turn,work,hwork,abandoned]
    | _ => simp [leftOut,hrun,Processor.turn]

/-- Of the calls for requested chunks and for chunks in messages a running node makes no others
and these in their order. It makes all of them, or has still to, exactly if no handler fails in the
middle of a replay. -/
theorem replays_complete_iff (localPeerId : PeerId) (config : RelayConfig) (hasHandler : Bool)
    (now : Nat) (es : List (Moment PeerId × RelayEvent PeerId)) (hrun : ∀ e ∈ es, e.2 ≠ .stop) :
    let s := start localPeerId config hasHandler now
    (collect step (called .messages) s es++(es.foldl step s).messageWork.pending).Sublist
      (collect step (given .messages) s es) ∧
    (collect step (called .messages) s es++(es.foldl step s).messageWork.pending =
      collect step (given .messages) s es ↔ Along step (fun s e => ¬ ReplayFails s e) s es) := by
  intro s
  have hall : collect step (given .messages) s es =
      collect step (fun s e => called .messages s e++leftOut .messages s e) s es++
        (es.foldl step s).messageWork.pending :=
    (along_true step s es).fifo (fun s => (s.work .messages).pending)
      (fun s e _ => step_work .messages s e)
  have hsub : ∀ (s : RelayNode PeerId) (e : Moment PeerId × RelayEvent PeerId),
      (called .messages s e).Sublist (called .messages s e++leftOut .messages s e) :=
    fun s e => List.sublist_append_left _ _
  rw [hall]
  refine ⟨(collect_sublist step hsub s es).append_right _,?_⟩
  rw [List.append_left_inj,collect_eq_iff hsub]
  have hnostop := along_of_forall step s hrun
  apply along_congr_of_invariant (fun _ => True) hnostop trivial (fun _ _ _ _ => trivial)
  intro s e _ hstop
  rw [← leftOut_messages_iff hstop]
  simp

def forwardedChunk : StreamChunk Nat := ⟨7,⟨[1]⟩,[9],0,7,"video/h264",true,some 3⟩

/-- The peers 4 and 5 subscribe to a stream, and a chunk is published; the handler fails for the
first of them. Then the peer 6 asks for the chunks that it has missed. -/
def forwardThenReplay : List (Moment Nat × RelayEvent Nat) :=
  [.message (.addStream ⟨[1]⟩ 3),.message (.addSubscriber ⟨[1]⟩ 4),
    .message (.addSubscriber ⟨[1]⟩ 5),.publish forwardedChunk,.chunkTask true,.chunkTask false,
    .chunkTask true,.message (.requestChunks ⟨[1]⟩ 6 0),.messageTask true].map
      (fun e => (⟨HashOrder.ascending,0⟩,e))

theorem forwardThenReplay_runs : ∀ e ∈ forwardThenReplay, e.2 ≠ .stop := by
  intro e he
  simp only [forwardThenReplay,List.map_cons,List.map_nil,List.mem_cons,List.not_mem_nil,
    or_false] at he
  rcases he with rfl | rfl | rfl | rfl | rfl | rfl | rfl | rfl | rfl <;> simp

theorem published_chunks_forwarded_forwardThenReplay :
    let s := start 0 .default true 0
    (collect step (called .chunks) s forwardThenReplay).filter (fun call => call.1 = 5) =
      [(5,{ forwardedChunk with source := some 0 })] ∧
    collect step (share 5) s forwardThenReplay = [(5,{ forwardedChunk with source := some 0 })] := by
  intro s
  have hforwarded := published_chunks_forwarded 0 .default true 0 forwardThenReplay
    forwardThenReplay_runs 5
  have hcalls : (collect step (called .chunks) s forwardThenReplay).filter
      (fun call => call.1 = 5) = [(5,{ forwardedChunk with source := some 0 })] := by decide
  refine ⟨hcalls,?_⟩
  rw [← hforwarded,hcalls]
  decide

theorem replays_complete_iff_forwardThenReplay :
    let s := start 0 .default true 0
    collect step (called .messages) s forwardThenReplay = [(6,forwardedChunk)] ∧
    Along step (fun s e => ¬ ReplayFails s e) s forwardThenReplay := by
  intro s
  obtain ⟨_,hcomplete⟩ := replays_complete_iff 0 .default true 0 forwardThenReplay
    forwardThenReplay_runs
  refine ⟨by decide,hcomplete.mp ?_⟩
  decide

end Runs

end RelayNode

end Relay

end OpenBroadcast
