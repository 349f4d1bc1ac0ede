import Mathlib.Data.List.Lex
import OpenBroadcast.Relay.Lifecycle

namespace OpenBroadcast.Relay

variable {PeerId : Type}

namespace RelayNode

section Running

variable {s : RelayNode PeerId}

theorem removeStreamInternal_running (id : StreamId) :
    (s.removeStreamInternal id).1.running = s.running := by
  unfold removeStreamInternal
  split_ifs <;> rfl

theorem proceed_running (order : HashOrder Unit PeerId) (now : Nat) (ok : Bool)
    (work : Work PeerId) : (s.proceed order now ok work).1.running = s.running := by
  cases work with
  | idle => rfl
  | relay chunk =>
    simp only [proceed,bufferChunk]
    cases s.streams.lookup chunk.streamId with
    | none => rfl
    | some stream =>
      dsimp only
      split_ifs <;> rfl
  | send givesUp queue => cases queue <;> rfl

theorem handleMessage_running [DecidableEq PeerId] (now : Nat) (msg : RelayMessage PeerId) :
    (s.handleMessage now msg).running = s.running := by
  cases msg with
  | chunk chunk => rfl
  | requestChunks id p sequence => rfl
  | stop => rfl
  | removeStream id => exact removeStreamInternal_running id
  | addStream id publisher =>
    simp only [handleMessage,addStreamInternal]
    split_ifs <;> rfl
  | addSubscriber id p =>
    simp only [handleMessage,addSubscriberInternal]
    cases s.streams.lookup id <;> rfl
  | removeSubscriber id p =>
    simp only [handleMessage,removeSubscriberInternal]
    cases s.streams.lookup id with
    | none => rfl
    | some stream =>
      dsimp only
      split_ifs <;> rfl

end Running

end RelayNode

namespace RelayService

section Sections

variable {s : RelayService PeerId}

/-- What neither a task nor a message changes. -/
structure SameControl (s s' : RelayService PeerId) : Prop where
  call : s'.call = s.call
  started : s'.started = s.started
  running : s'.node.running = s.node.running
  messageReceiver : s'.messageReceiver = s.messageReceiver

theorem SameControl.refl (s : RelayService PeerId) : SameControl s s := ⟨rfl,rfl,rfl,rfl⟩

theorem sendMessage_frame (msg : RelayMessage PeerId) :
    SameControl s (s.sendMessage msg) ∧ (s.sendMessage msg).chunkProcessor = s.chunkProcessor ∧
    (s.sendMessage msg).messageProcessor = s.messageProcessor ∧
    (s.sendMessage msg).statsReporter = s.statsReporter ∧
    (s.sendMessage msg).streamCleanup = s.streamCleanup := by
  unfold sendMessage
  split_ifs <;> exact ⟨⟨rfl,rfl,rfl,rfl⟩,rfl,rfl,rfl,rfl⟩

theorem mem_sendMessage {msg msg' : RelayMessage PeerId}
    (h : msg' ∈ (s.sendMessage msg).messageQueue) : msg' ∈ s.messageQueue ∨ msg' = msg := by
  unfold sendMessage at h
  split_ifs at h
  · simpa using h
  · exact .inl h

/-- The chunk processor leaves its loop only if it takes a chunk while the flag is not set. -/
theorem chunkTask_spec (moment : RelayNode.Moment PeerId) (ok : Bool) :
    SameControl s (s.chunkTask moment ok) ∧
    (s.chunkTask moment ok).messageProcessor = s.messageProcessor ∧
    (s.chunkTask moment ok).statsReporter = s.statsReporter ∧
    (s.chunkTask moment ok).streamCleanup = s.streamCleanup ∧
    (s.chunkTask moment ok).messageQueue = s.messageQueue ∧
    ((s.chunkTask moment ok).chunkProcessor = s.chunkProcessor ∨ s.chunkProcessor = some .test ∧
      s.node.running = false ∧ s.node.chunkWork = .idle ∧ s.chunkQueue ≠ []) := by
  by_cases htest : s.chunkProcessor = some .test
  swap
  · rw [chunkTask,if_pos htest]
    exact ⟨.refl s,rfl,rfl,rfl,rfl,.inl rfl⟩
  rw [chunkTask,if_neg (not_not.mpr htest)]
  cases hwork : s.node.chunkWork with
  | idle =>
    cases hqueue : s.chunkQueue with
    | nil => exact ⟨.refl s,rfl,rfl,rfl,rfl,.inl rfl⟩
    | cons chunk rest =>
      cases hrunning : s.node.running with
      | false => exact ⟨⟨rfl,rfl,rfl,rfl⟩,rfl,rfl,rfl,rfl,.inr ⟨htest,rfl,rfl,List.cons_ne_nil _ _⟩⟩
      | true => exact ⟨⟨rfl,rfl,rfl,rfl⟩,rfl,rfl,rfl,rfl,.inl rfl⟩
  | relay chunk =>
    exact ⟨⟨rfl,rfl,RelayNode.proceed_running _ _ _ _,rfl⟩,rfl,rfl,rfl,rfl,.inl rfl⟩
  | send givesUp queue =>
    exact ⟨⟨rfl,rfl,RelayNode.proceed_running _ _ _ _,rfl⟩,rfl,rfl,rfl,rfl,.inl rfl⟩

/-- So does the message processor, except that it leaves for a `Stop` too. -/
theorem messageTask_spec [DecidableEq PeerId] (moment : RelayNode.Moment PeerId) (ok : Bool) :
    SameControl s (s.messageTask moment ok) ∧
    (s.messageTask moment ok).chunkProcessor = s.chunkProcessor ∧
    (s.messageTask moment ok).statsReporter = s.statsReporter ∧
    (s.messageTask moment ok).streamCleanup = s.streamCleanup ∧
    (∀ msg ∈ (s.messageTask moment ok).messageQueue, msg ∈ s.messageQueue) ∧
    ((s.messageTask moment ok).messageProcessor = s.messageProcessor ∨
      s.messageProcessor = some .test ∧ s.node.messageWork = .idle ∧ s.messageQueue ≠ [] ∧
      (s.node.running = false ∨ .stop ∈ s.messageQueue)) := by
  by_cases htest : s.messageProcessor = some .test
  swap
  · rw [messageTask,if_pos htest]
    exact ⟨.refl s,rfl,rfl,rfl,fun _ h => h,.inl rfl⟩
  rw [messageTask,if_neg (not_not.mpr htest)]
  cases hwork : s.node.messageWork with
  | idle =>
    cases hqueue : s.messageQueue with
    | nil => exact ⟨.refl s,rfl,rfl,rfl,by simp [hqueue],.inl rfl⟩
    | cons msg rest =>
      have hrest : ∀ msg' ∈ rest, msg' ∈ msg::rest := fun _ h => List.mem_cons_of_mem _ h
      cases hrunning : s.node.running with
      | false =>
        exact ⟨⟨rfl,rfl,rfl,rfl⟩,rfl,rfl,rfl,by simp,
          .inr ⟨htest,rfl,List.cons_ne_nil _ _,.inl rfl⟩⟩
      | true =>
        have hhandled : ∀ msg, (s.node.handleMessage moment.now msg).running = s.node.running :=
          fun msg => RelayNode.handleMessage_running (s := s.node) moment.now msg
        cases msg with
        | stop =>
          exact ⟨⟨rfl,rfl,rfl,rfl⟩,rfl,rfl,rfl,by simp,
            .inr ⟨htest,rfl,List.cons_ne_nil _ _,.inr List.mem_cons_self⟩⟩
        | _ => exact ⟨⟨rfl,rfl,hhandled _,rfl⟩,rfl,rfl,rfl,hrest,.inl rfl⟩
  | relay chunk =>
    exact ⟨⟨rfl,rfl,RelayNode.proceed_running _ _ _ _,rfl⟩,rfl,rfl,rfl,fun _ h => h,.inl rfl⟩
  | send givesUp queue =>
    exact ⟨⟨rfl,rfl,RelayNode.proceed_running _ _ _ _,rfl⟩,rfl,rfl,rfl,fun _ h => h,.inl rfl⟩

theorem inLoop_ite {c : Prop} [Decidable c] : InLoop (some (if c then Loop.test else .body)) := by
  by_cases hc : c
  · exact .inr (.inl (by rw [if_pos hc]))
  · exact .inr (.inr (by rw [if_neg hc]))

theorem inLoop_ticker {interval : Nat} (h : 0 < interval) : InLoop (some (ticker interval)) := by
  have hne : interval ≠ 0 := by omega
  exact .inr (.inl (by rw [ticker,if_neg hne]))

/-- The stats reporter ends only if it gets no ticker, or if it looks at the flag while it is not
set. -/
theorem statsTask_spec [DecidableEq PeerId] (moment : RelayNode.Moment PeerId)
    (order : HashOrder Unit StreamId) :
    SameControl s (s.statsTask moment order) ∧
    (s.statsTask moment order).chunkProcessor = s.chunkProcessor ∧
    (s.statsTask moment order).messageProcessor = s.messageProcessor ∧
    (s.statsTask moment order).streamCleanup = s.streamCleanup ∧
    (s.statsTask moment order).messageQueue = s.messageQueue ∧
    (InLoop s.statsReporter → s.node.running = true ∨ s.statsReporter ≠ some .test →
      (s.statsReporter = some .begin → 0 < s.node.config.statsInterval) →
      InLoop (s.statsTask moment order).statsReporter) := by
  unfold statsTask
  split
  · next hbegin =>
    exact ⟨⟨rfl,rfl,rfl,rfl⟩,rfl,rfl,rfl,rfl,fun _ _ hpos => inLoop_ticker (hpos hbegin)⟩
  · next htest =>
    refine ⟨⟨rfl,rfl,rfl,rfl⟩,rfl,rfl,rfl,rfl,?_⟩
    rintro _ (hrunning | hne) _
    · exact .inr (.inr (by simp [hrunning]))
    · exact absurd htest hne
  · exact ⟨⟨rfl,rfl,rfl,rfl⟩,rfl,rfl,rfl,rfl,fun _ _ _ => .inr (.inl rfl)⟩
  · exact ⟨.refl s,rfl,rfl,rfl,rfl,fun h _ _ => h⟩

theorem cleanupTask_spec (moment : RelayNode.Moment PeerId) (order : HashOrder Unit StreamId) :
    SameControl s (s.cleanupTask moment order) ∧
    (s.cleanupTask moment order).chunkProcessor = s.chunkProcessor ∧
    (s.cleanupTask moment order).messageProcessor = s.messageProcessor ∧
    (s.cleanupTask moment order).statsReporter = s.statsReporter ∧
    (s.cleanupTask moment order).messageQueue = s.messageQueue ∧
    (InLoop s.streamCleanup → s.node.running = true ∨ s.streamCleanup ≠ some .test →
      (s.streamCleanup = some .begin → 0 < s.node.config.cleanupInterval) →
      InLoop (s.cleanupTask moment order).streamCleanup) := by
  unfold cleanupTask
  split
  · next hbegin =>
    exact ⟨⟨rfl,rfl,rfl,rfl⟩,rfl,rfl,rfl,rfl,fun _ _ hpos => inLoop_ticker (hpos hbegin)⟩
  · next htest =>
    refine ⟨⟨rfl,rfl,rfl,rfl⟩,rfl,rfl,rfl,rfl,?_⟩
    rintro _ (hrunning | hne) _
    · exact .inr (.inr (by simp [hrunning]))
    · exact absurd htest hne
  · split
    · exact ⟨⟨rfl,rfl,RelayNode.removeStreamInternal_running _,rfl⟩,rfl,rfl,rfl,rfl,
        fun _ _ _ => inLoop_ite⟩
    · exact ⟨⟨rfl,rfl,rfl,rfl⟩,rfl,rfl,rfl,rfl,fun _ _ _ => inLoop_ite⟩
  · exact ⟨.refl s,rfl,rfl,rfl,rfl,fun h _ _ => h⟩

end Sections

section Invariant

variable {s s' : RelayService PeerId}

theorem SameControl.spawned (h : SameControl s s') : s'.spawned = s.spawned := by
  simp only [RelayService.spawned,h.call,h.started]

/-- A start that has spawned a task is under way or has set the flag. -/
theorem Alive.of_spawned (h : Alive s) (hpos : 0 < s.spawned) :
    s.node.running = true ∨ ∃ stage, s.call = some (.start stage) := by
  cases hcall : s.call with
  | some call =>
    cases call with
    | start stage => exact .inr ⟨stage,rfl⟩
    | stop stage => simp [spawned,hcall] at hpos
  | none =>
    have hstarted : s.started = true := by
      by_contra hnot
      simp [spawned,hcall,hnot] at hpos
    exact .inl (h.flag hstarted).1

/-- The invariant is kept by whatever leaves the calls alone and no task that it needs out of its
loop. -/
theorem Alive.frame (h : Alive s) (hsame : SameControl s s')
    (hchunk : 0 < s.spawned → s.chunkProcessor = some .test → s'.chunkProcessor = some .test)
    (hmessage : 0 < s.spawned → s.messageProcessor = some .test →
      s'.messageProcessor = some .test)
    (hstats : 0 < s.spawned → InLoop s.statsReporter → InLoop s'.statsReporter)
    (hcleanup : 0 < s.spawned → InLoop s.streamCleanup → InLoop s'.streamCleanup)
    (haborted : s.messageProcessor = none → s'.messageProcessor = none)
    (hqueue : ∀ msg ∈ s'.messageQueue, msg ≠ .stop) : Alive s' where
  chunk hpos := by
    rw [hsame.spawned] at hpos
    exact hchunk hpos (h.chunk hpos)
  message hpos := by
    rw [hsame.spawned] at hpos
    exact hmessage (by omega) (h.message hpos)
  stats hpos := by
    rw [hsame.spawned] at hpos
    exact hstats (by omega) (h.stats hpos)
  cleanup hpos := by
    rw [hsame.spawned] at hpos
    exact hcleanup (by omega) (h.cleanup hpos)
  flag := by
    rw [hsame.started,hsame.running,hsame.call]
    exact h.flag
  taken := by
    rw [hsame.spawned,hsame.running,hsame.call,hsame.messageReceiver]
    exact h.taken
  aborted := by
    rw [hsame.call]
    exact fun hcall => haborted (h.aborted hcall)
  noStop := hqueue

theorem alive_sendMessage (h : Alive s) {msg : RelayMessage PeerId} (hmsg : msg ≠ .stop) :
    Alive (s.sendMessage msg) := by
  obtain ⟨hsame,hchunk,hmessage,hstats,hcleanup⟩ := sendMessage_frame (s := s) msg
  apply h.frame hsame
  · exact fun _ hin => hchunk.trans hin
  · exact fun _ hin => hmessage.trans hin
  · exact fun _ hin => hstats ▸ hin
  · exact fun _ hin => hcleanup ▸ hin
  · exact fun hnone => hmessage.trans hnone
  · intro msg' hmsg'
    rcases mem_sendMessage hmsg' with hold | rfl
    · exact h.noStop msg' hold
    · exact hmsg

theorem alive_publishChunk (h : Alive s) (chunk : StreamChunk PeerId) :
    Alive (s.publishChunk chunk) := by
  unfold publishChunk
  split_ifs
  · exact h
  · exact h.frame ⟨rfl,rfl,rfl,rfl⟩ (fun _ => id) (fun _ => id) (fun _ => id) (fun _ => id) id
      h.noStop
  · exact h

/-- Before its last section `start` has not returned. -/
theorem Alive.not_started (h : Alive s) {call : ControlCall} (hcall : s.call = some call) :
    s.started = false := by
  by_contra hnot
  have hnone := (h.flag (by simpa using hnot)).2
  rw [hcall] at hnone
  cases hnone

theorem alive_startProceeds (h : Alive s) {stage : StartStage}
    (hcall : s.call = some (.start stage))
    (hchunk : stage = .chunkProcessor → s.chunkReceiver = true)
    (hmessage : stage = .messageProcessor → s.messageReceiver = true) :
    Alive (s.startProceeds stage) := by
  have hstarted := h.not_started hcall
  have hflag : ∀ P : Prop, s.started = true → P := by
    intro P hnot
    rw [hstarted] at hnot
    cases hnot
  cases stage with
  | chunkProcessor =>
    refine ⟨fun _ => ?_,?_,?_,?_,hflag _,?_,?_,h.noStop⟩
    · simp [startProceeds,hchunk rfl]
    · simp [startProceeds,spawned]
    · simp [startProceeds,spawned]
    · simp [startProceeds,spawned]
    · rintro (hmany | hrunning | ⟨_,hstop⟩)
      · simp [startProceeds,spawned] at hmany
      · exact h.taken (.inr (.inl hrunning))
      · cases hstop
    · exact fun hstop => by cases hstop
  | messageProcessor =>
    have hone : s.spawned = 1 := by simp [spawned,hcall]
    refine ⟨fun _ => h.chunk (by omega),fun _ => ?_,?_,?_,hflag _,fun _ => rfl,?_,h.noStop⟩
    · simp [startProceeds,hmessage rfl]
    · simp [startProceeds,spawned]
    · simp [startProceeds,spawned]
    · exact fun hstop => by cases hstop
  | statsReporter =>
    have htwo : s.spawned = 2 := by simp [spawned,hcall]
    refine ⟨fun _ => h.chunk (by omega),fun _ => h.message (by omega),fun _ => .inl rfl,?_,
      hflag _,fun _ => h.taken (.inl (by omega)),?_,h.noStop⟩
    · simp [startProceeds,spawned]
    · exact fun hstop => by cases hstop
  | streamCleanup =>
    have hthree : s.spawned = 3 := by simp [spawned,hcall]
    exact ⟨fun _ => h.chunk (by omega),fun _ => h.message (by omega),fun _ => h.stats (by omega),
      fun _ => .inl rfl,hflag _,fun _ => h.taken (.inl (by omega)),(fun hstop => by cases hstop),
      h.noStop⟩
  | setRunning =>
    have hfour : s.spawned = 4 := by simp [spawned,hcall]
    exact ⟨fun _ => h.chunk (by omega),fun _ => h.message (by omega),fun _ => h.stats (by omega),
      fun _ => h.cleanup (by omega),fun _ => ⟨rfl,rfl⟩,fun _ => h.taken (.inl (by omega)),
      (fun hstop => by cases hstop),h.noStop⟩

/-- The `Stop` that `stop` sends after it has aborted the processors finds the channel closed. -/
theorem alive_stopProceeds (h : Alive s) {stage : StopStage}
    (hcall : s.call = some (.stop stage)) : Alive (s.stopProceeds stage) := by
  have hstarted := h.not_started hcall
  have hreceiver : s.messageReceiver = false := h.taken (.inr (.inr ⟨stage,hcall⟩))
  have hflag : ∀ P : Prop, s.started = true → P := by
    intro P hnot
    rw [hstarted] at hnot
    cases hnot
  cases stage with
  | abort =>
    refine ⟨?_,?_,?_,?_,hflag _,fun _ => hreceiver,fun _ => rfl,h.noStop⟩ <;>
      simp [stopProceeds,spawned]
  | sendStop =>
    have hclosed : s.sendMessage .stop = s := by
      simp [sendMessage,messageOpen,hreceiver,h.aborted hcall]
    simp only [stopProceeds,hclosed]
    refine ⟨?_,?_,?_,?_,hflag _,fun _ => hreceiver,(fun hstop => by cases hstop),h.noStop⟩ <;>
      simp [spawned,hstarted]

end Invariant

section Runs

theorem alive_new (localPeerId : PeerId) (config : RelayConfig) (hasHandler : Bool) (now : Nat) :
    Alive (new localPeerId config hasHandler now) := by
  refine ⟨?_,?_,?_,?_,?_,?_,?_,?_⟩ <;> simp [new,spawned]

variable {s : RelayService PeerId}

theorem alive_callStart (h : Alive s) (hrunning : s.node.running = false) :
    Alive { s with call := some (.start .chunkProcessor) } := by
  have hflag : ∀ P : Prop, s.started = true → P := by
    intro P hstarted
    have hset := (h.flag hstarted).1
    rw [hrunning] at hset
    cases hset
  refine ⟨?_,?_,?_,?_,hflag _,?_,?_,h.noStop⟩ <;> simp [spawned,hrunning]

theorem alive_callStop (h : Alive s) (hrunning : s.node.running = true) :
    Alive { s with
      node := { s.node with running := false }
      call := some (.stop .abort)
      started := false } := by
  refine ⟨?_,?_,?_,?_,?_,fun _ => h.taken (.inr (.inl hrunning)),?_,h.noStop⟩ <;> simp [spawned]

theorem alive_callProceeds (h : Alive s)
    (hchunk : s.call = some (.start .chunkProcessor) → s.chunkReceiver = true)
    (hmessage : s.call = some (.start .messageProcessor) → s.messageReceiver = true) :
    Alive s.callProceeds := by
  cases hcall : s.call with
  | none => simpa only [callProceeds,hcall] using h
  | some call =>
    cases call with
    | start stage =>
      rw [hcall] at hchunk hmessage
      simpa only [callProceeds,hcall] using alive_startProceeds h hcall
        (fun heq => hchunk (by rw [heq])) (fun heq => hmessage (by rw [heq]))
    | stop stage => simpa only [callProceeds,hcall] using alive_stopProceeds h hcall

theorem alive_chunkTask [DecidableEq PeerId] (h : Alive s) (moment : RelayNode.Moment PeerId)
    (ok : Bool) (hok : s.Steady (moment,.chunkTask ok)) : Alive (s.chunkTask moment ok) := by
  obtain ⟨hsame,hmessage,hstats,hcleanup,hqueue,hchunk⟩ := chunkTask_spec (s := s) moment ok
  apply h.frame hsame
  · intro hpos htest
    rcases hchunk with hchunk | ⟨_,hrunning,hidle,hne⟩
    · exact hchunk.trans htest
    · rcases h.of_spawned hpos with hset | ⟨stage,hcall⟩
      · rw [hrunning] at hset
        cases hset
      · rcases hok stage hcall htest with hempty | hbusy
        · exact absurd hempty hne
        · exact absurd hidle hbusy
  · exact fun _ hin => hmessage.trans hin
  · exact fun _ hin => hstats ▸ hin
  · exact fun _ hin => hcleanup ▸ hin
  · exact fun hnone => hmessage.trans hnone
  · exact hqueue ▸ h.noStop

theorem alive_messageTask [DecidableEq PeerId] (h : Alive s) (moment : RelayNode.Moment PeerId)
    (ok : Bool) (hok : s.Steady (moment,.messageTask ok)) : Alive (s.messageTask moment ok) := by
  obtain ⟨hsame,hchunk,hstats,hcleanup,hqueue,hmessage⟩ := messageTask_spec (s := s) moment ok
  apply h.frame hsame
  · exact fun _ hin => hchunk.trans hin
  · intro hpos htest
    rcases hmessage with hmessage | ⟨_,hidle,hne,hrunning | hstop⟩
    · exact hmessage.trans htest
    · rcases h.of_spawned hpos with hset | ⟨stage,hcall⟩
      · rw [hrunning] at hset
        cases hset
      · rcases hok stage hcall htest with hempty | hbusy
        · exact absurd hempty hne
        · exact absurd hidle hbusy
    · exact absurd rfl (h.noStop _ hstop)
  · exact fun _ hin => hstats ▸ hin
  · exact fun _ hin => hcleanup ▸ hin
  · intro hnone
    rcases hmessage with hmessage | ⟨htest,_⟩
    · exact hmessage.trans hnone
    · rw [hnone] at htest
      cases htest
  · exact fun msg hmsg => h.noStop msg (hqueue msg hmsg)

/-- A task that looks at the flag only when no start is under way finds it set. -/
theorem Alive.set_or_ne (h : Alive s) (hpos : 0 < s.spawned) {task : Option Loop}
    (hok : ∀ stage, s.call = some (.start stage) → task ≠ some .test) :
    s.node.running = true ∨ task ≠ some .test := by
  rcases h.of_spawned hpos with hset | ⟨stage,hcall⟩
  · exact .inl hset
  · exact .inr (hok stage hcall)

theorem alive_statsTask [DecidableEq PeerId] (h : Alive s) (moment : RelayNode.Moment PeerId)
    (order : HashOrder Unit StreamId) (hok : s.Steady (moment,.statsTask order)) :
    Alive (s.statsTask moment order) := by
  obtain ⟨hsame,hchunk,hmessage,hcleanup,hqueue,hstats⟩ := statsTask_spec (s := s) moment order
  apply h.frame hsame
  · exact fun _ hin => hchunk.trans hin
  · exact fun _ hin => hmessage.trans hin
  · exact fun hpos hin => hstats hin (h.set_or_ne hpos hok.1) hok.2
  · exact fun _ hin => hcleanup ▸ hin
  · exact fun hnone => hmessage.trans hnone
  · exact hqueue ▸ h.noStop

theorem alive_cleanupTask [DecidableEq PeerId] (h : Alive s) (moment : RelayNode.Moment PeerId)
    (order : HashOrder Unit StreamId) (hok : s.Steady (moment,.cleanupTask order)) :
    Alive (s.cleanupTask moment order) := by
  obtain ⟨hsame,hchunk,hmessage,hstats,hqueue,hcleanup⟩ := cleanupTask_spec (s := s) moment order
  apply h.frame hsame
  · exact fun _ hin => hchunk.trans hin
  · exact fun _ hin => hmessage.trans hin
  · exact fun _ hin => hstats ▸ hin
  · exact fun hpos hin => hcleanup hin (h.set_or_ne hpos hok.1) hok.2
  · exact fun hnone => hmessage.trans hnone
  · exact hqueue ▸ h.noStop

theorem alive_step [DecidableEq PeerId] (h : Alive s)
    (e : RelayNode.Moment PeerId × ServiceEvent PeerId) (hok : s.Steady e) : Alive (s.step e) := by
  obtain ⟨moment,event⟩ := e
  cases event with
  | start =>
    simp only [step]
    split_ifs with hguard
    · exact h
    · have hidle : s.call = none ∧ s.node.running = false := by simpa using hguard
      exact alive_callStart h hidle.2
  | stop =>
    simp only [step]
    split_ifs with hguard
    · exact h
    · have hbusy : s.call = none ∧ s.node.running = true := by simpa using hguard
      exact alive_callStop h hbusy.2
  | callProceeds => exact alive_callProceeds h hok.1 hok.2
  | publishChunk chunk => exact alive_publishChunk h chunk
  | addStream => exact alive_sendMessage h (fun heq => by cases heq)
  | removeStream => exact alive_sendMessage h (fun heq => by cases heq)
  | addSubscriber => exact alive_sendMessage h (fun heq => by cases heq)
  | removeSubscriber => exact alive_sendMessage h (fun heq => by cases heq)
  | requestChunks => exact alive_sendMessage h (fun heq => by cases heq)
  | chunkTask ok => exact alive_chunkTask h moment ok hok
  | messageTask ok => exact alive_messageTask h moment ok hok
  | statsTask order => exact alive_statsTask h moment order hok
  | cleanupTask order => exact alive_cleanupTask h moment order hok

theorem Alive.allInLoop (h : Alive s) (hstarted : s.started = true) : AllInLoop s := by
  have hfour : s.spawned = 4 := by simp [spawned,(h.flag hstarted).2,hstarted]
  exact ⟨h.chunk (by omega),h.message (by omega),h.stats (by omega),h.cleanup (by omega)⟩

/-- In runs in which the node is started only while it has its receivers, the tickers get periods,
and no task looks at the flag before it is set, the four tasks are running from each start to the
next stop. -/
theorem alive_after_start [DecidableEq PeerId] (localPeerId : PeerId) (config : RelayConfig)
    (hasHandler : Bool) (now : Nat) (es : List (RelayNode.Moment PeerId × ServiceEvent PeerId))
    (h : Along step Steady (new localPeerId config hasHandler now) es) :
    ∀ pre, pre <+: es → (pre.foldl step (new localPeerId config hasHandler now)).started = true →
      AllInLoop (pre.foldl step (new localPeerId config hasHandler now)) := by
  intro pre hpre
  have halive := (h.of_prefix hpre).invariant Alive
    (alive_new localPeerId config hasHandler now) (fun _ e hs hok => alive_step hs e hok)
  exact halive.allInLoop

/-- A call of `start`, all its sections. -/
def starting : List (ServiceEvent Nat) :=
  [.start,.callProceeds,.callProceeds,.callProceeds,.callProceeds,.callProceeds]

def atNoon (es : List (ServiceEvent Nat)) : List (RelayNode.Moment Nat × ServiceEvent Nat) :=
  es.map (fun e => (⟨.ascending,12⟩,e))

theorem numbers_injective :
    Function.Injective (fun id : StreamId => id.bytes.map UInt8.toNat) := by
  rintro ⟨x⟩ ⟨y⟩ h
  exact congrArg StreamId.mk (List.map_injective_iff.mpr (fun _ _ => UInt8.toNat_inj.mp) h)

instance : LinearOrder StreamId := .lift' _ numbers_injective

/-- The node is started, its processors take a chunk and a stream, the stats reporter reports and
the cleanup looks through the streams. -/
def startedOnce : List (RelayNode.Moment Nat × ServiceEvent Nat) :=
  atNoon (starting++[.publishChunk ⟨7,⟨[1]⟩,[42],0,7,"video",true,none⟩,.chunkTask true,
    .addStream ⟨[1]⟩ 1,.messageTask true]++List.replicate 3 (.statsTask .sorted)++
    List.replicate 3 (.cleanupTask .sorted))

theorem alive_after_start_once :
    (startedOnce.foldl step (new 0 .default false 0)).started = true ∧
    AllInLoop (startedOnce.foldl step (new 0 .default false 0)) := by
  have hidle : ∀ call : ControlCall, (none : Option ControlCall) ≠ some call :=
    fun _ heq => by cases heq
  have hsteady : Along step Steady (new 0 .default false 0) startedOnce := by
    refine ⟨trivial,⟨fun _ => rfl,?_⟩,⟨?_,fun _ => rfl⟩,⟨?_,?_⟩,⟨?_,?_⟩,⟨?_,?_⟩,trivial,?_,trivial,
      ?_,⟨?_,?_⟩,⟨?_,?_⟩,⟨?_,?_⟩,⟨?_,?_⟩,⟨?_,?_⟩,⟨?_,?_⟩,trivial⟩
    iterate 8 exact fun hcall => by cases hcall
    · exact fun stage hcall => absurd hcall (hidle _)
    · exact fun stage hcall => absurd hcall (hidle _)
    iterate 6
      · exact fun stage hcall => absurd hcall (hidle _)
      · exact fun _ => by decide
  have hstarted : (startedOnce.foldl step (new 0 .default false 0)).started = true := by
    decide +kernel
  exact ⟨hstarted,alive_after_start 0 .default false 0 startedOnce hsteady startedOnce
    (List.prefix_refl _) hstarted⟩

/-- A chunk is published before the node is started, and the chunk processor takes it before the
flag is set. -/
def earlyChunk : List (RelayNode.Moment Nat × ServiceEvent Nat) :=
  atNoon [.publishChunk ⟨7,⟨[1]⟩,[42],0,7,"video",true,none⟩,.start,.callProceeds,.chunkTask true,
    .callProceeds,.callProceeds,.callProceeds,.callProceeds]

/-- The node is started, stopped and started again. -/
def startedTwice : List (RelayNode.Moment Nat × ServiceEvent Nat) :=
  atNoon (starting++[.stop,.callProceeds,.callProceeds]++starting)

/-- The node has no time between two reports. -/
def hurried : RelayConfig := { RelayConfig.default with statsInterval := 0 }

def reporterStarts : List (RelayNode.Moment Nat × ServiceEvent Nat) :=
  atNoon (starting++[.statsTask .sorted])

theorem processors_dead_after_start :
    ((earlyChunk.foldl step (new 0 .default false 0)).started = true ∧
      (earlyChunk.foldl step (new 0 .default false 0)).chunkProcessor = some .left) ∧
    ((startedTwice.foldl step (new 0 .default false 0)).started = true ∧
      (startedTwice.foldl step (new 0 .default false 0)).chunkProcessor = none ∧
      (startedTwice.foldl step (new 0 .default false 0)).messageProcessor = none) ∧
    ((reporterStarts.foldl step (new 0 hurried false 0)).started = true ∧
      (reporterStarts.foldl step (new 0 hurried false 0)).statsReporter = some .left) ∧
    ∀ run ∈ [(RelayConfig.default,earlyChunk),(RelayConfig.default,startedTwice),
        (hurried,reporterStarts)],
      ¬ ∀ pre, pre <+: run.2 → (pre.foldl step (new 0 run.1 false 0)).started = true →
        AllInLoop (pre.foldl step (new 0 run.1 false 0)) := by
  have hearly : (earlyChunk.foldl step (new 0 .default false 0)).started = true ∧
      (earlyChunk.foldl step (new 0 .default false 0)).chunkProcessor = some .left := by
    decide +kernel
  have htwice : (startedTwice.foldl step (new 0 .default false 0)).started = true ∧
      (startedTwice.foldl step (new 0 .default false 0)).chunkProcessor = none ∧
      (startedTwice.foldl step (new 0 .default false 0)).messageProcessor = none := by
    decide +kernel
  have hhurried : (reporterStarts.foldl step (new 0 hurried false 0)).started = true ∧
      (reporterStarts.foldl step (new 0 hurried false 0)).statsReporter = some .left := by
    decide +kernel
  refine ⟨hearly,htwice,hhurried,?_⟩
  intro run hrun halive
  simp only [List.mem_cons,List.not_mem_nil,or_false] at hrun
  rcases hrun with rfl | rfl | rfl
  · have hloop := (halive earlyChunk (List.prefix_refl _) hearly.1).chunk
    rw [hearly.2] at hloop
    cases hloop
  · have hloop := (halive startedTwice (List.prefix_refl _) htwice.1).chunk
    rw [htwice.2.1] at hloop
    cases hloop
  · have hloop := (halive reporterStarts (List.prefix_refl _) hhurried.1).stats
    rw [hhurried.2] at hloop
    rcases hloop with hloop | hloop | hloop <;> cases hloop

end Runs

end RelayService

end OpenBroadcast.Relay
