import OpenBroadcast.Streaming.StreamManager

namespace OpenBroadcast.Streaming

open Media

namespace StreamManager

variable {blake3 : Bytes → Digest} {m : StreamManager}

section Outputs

/-- What the task hands out in its next section. -/
def outputs (blake3 : Bytes → Digest) (m : StreamManager) : TaskStage → List Output
  | .initSegment => m.publishInit blake3
  | .repeatInit _ => m.publishInit blake3
  | .segment _ (segment::_) =>
    if segment.isInit || (m.receiverCount = 0 && !m.enableP2p) then []
    else m.sendSegment blake3 segment
  | _ => []

theorem runTask_handedOut (stage : TaskStage) :
    (m.runTask blake3 stage).1.handedOut = m.handedOut++m.outputs blake3 stage := by
  have hnone : m.handedOut = m.handedOut++[] := (List.append_nil _).symm
  cases stage with
  | waiting => exact hnone
  | topic => exact hnone
  | initSegment => rfl
  | repeatInit loaded => rfl
  | finishing => exact hnone
  | ended => exact hnone
  | samples =>
    simp only [runTask]
    cases m.tasks.any TaskStage.holdsSamples with
    | true => exact hnone
    | false => cases m.videoSamples <;> exact hnone
  | segment loaded rest =>
    cases rest with
    | nil => exact hnone
    | cons segment rest =>
      simp only [runTask,outputs]
      cases hinit : segment.isInit with
      | true => exact hnone
      | false =>
        by_cases hdone : (m.receiverCount = 0 && !m.enableP2p) = true
        · simp [hdone]
        · simp [hdone,handOut]

theorem publishInit_eq_nil_iff :
    m.publishInit blake3 = [] ↔ m.target = none ∨ m.initializationSegment = none := by
  unfold publishInit publishData
  cases m.target with
  | none => simp
  | some id =>
    cases m.initializationSegment with
    | none => simp
    | some data => simp

variable (blake3 m) in
theorem sendSegment_eq_nil_iff (segment : StreamSegment) :
    m.sendSegment blake3 segment = [] ↔ m.receiverCount = 0 ∧ m.target = none := by
  unfold sendSegment publishData
  rw [List.append_eq_nil_iff]
  apply and_congr
  · by_cases hreceivers : 0 < m.receiverCount
    · simp [hreceivers]
      omega
    · simp [hreceivers]
      omega
  · cases m.target <;> simp

/-- Nothing is left to hand out in the next section: there is neither an initialization segment that
the task could publish, nor somebody to send a segment to, nor a stream to publish. -/
def Idle (m : StreamManager) : TaskStage → Prop
  | .initSegment => m.target = none ∨ m.initializationSegment = none
  | .repeatInit _ => m.target = none ∨ m.initializationSegment = none
  | .segment _ (segment::_) => segment.isInit = true ∨ m.receiverCount = 0 ∧ m.target = none
  | _ => True

theorem outputs_eq_nil_iff (stage : TaskStage) : m.outputs blake3 stage = [] ↔ m.Idle stage := by
  cases stage with
  | waiting => exact iff_of_true rfl trivial
  | topic => exact iff_of_true rfl trivial
  | samples => exact iff_of_true rfl trivial
  | finishing => exact iff_of_true rfl trivial
  | ended => exact iff_of_true rfl trivial
  | initSegment => exact publishInit_eq_nil_iff
  | repeatInit loaded => exact publishInit_eq_nil_iff
  | segment loaded rest =>
    cases rest with
    | nil => exact iff_of_true rfl trivial
    | cons segment rest =>
      have hsend := sendSegment_eq_nil_iff blake3 m segment
      show (if _ then [] else m.sendSegment blake3 segment) = [] ↔ _ ∨ _
      split_ifs with hskip
      · refine iff_of_true rfl ?_
        simp only [Bool.or_eq_true,Bool.and_eq_true,decide_eq_true_eq,Bool.not_eq_true'] at hskip
        rcases hskip with hinit | ⟨hreceivers,hp2p⟩
        · exact .inl hinit
        · exact .inr ⟨hreceivers,by simp [target,hp2p]⟩
      · rw [hsend]
        refine ⟨.inr,?_⟩
        rintro (hinit | h)
        · exact absurd (by simp [hinit]) hskip
        · exact h

end Outputs

section Runs

/-- After the return of `stop_streaming`, until the next start, the step hands nothing out. -/
def Quiet (blake3 : Bytes → Digest) (m : StreamManager) (e : ManagerEvent) : Prop :=
  m.stopped = true → (m.step blake3 e).handedOut = m.handedOut

instance (blake3 : Bytes → Digest) (m : StreamManager) (e : ManagerEvent) :
    Decidable (m.Quiet blake3 e) := inferInstanceAs (Decidable (_ = true → _))

/-- After the return of `stop_streaming`, until the next start, a task that goes on has nothing to
hand out. -/
def IdleWhenStopped (m : StreamManager) : ManagerEvent → Prop
  | .taskProceeds k => m.stopped = true → ∀ stage, m.tasks[k]? = some stage → m.Idle stage
  | _ => True

/-- Only the tasks hand something out. -/
theorem quiet_iff (e : ManagerEvent) : m.Quiet blake3 e ↔ m.IdleWhenStopped e := by
  have hsame : ∀ e : ManagerEvent, (m.step blake3 e).handedOut = m.handedOut →
      (m.Quiet blake3 e ↔ True) := fun e h => iff_of_true (fun _ => h) trivial
  cases e with
  | startStreaming => exact hsame _ rfl
  | stopStreaming => exact hsame _ rfl
  | setInitialization data => exact hsame _ rfl
  | subscribe => exact hsame _ rfl
  | dropReceiver => exact hsame _ rfl
  | loadSamples segments =>
    apply hsame
    simp only [step]
    split_ifs <;> rfl
  | startProceeds k ok =>
    apply hsame
    simp only [step,startProceeds]
    split
    · rfl
    · split_ifs <;> rfl
    · split_ifs <;> rfl
  | stopProceeds k =>
    apply hsame
    simp only [step,stopProceeds]
    split <;> rfl
  | taskProceeds k =>
    apply imp_congr_right
    intro _
    simp only [step,taskProceeds]
    cases hstage : m.tasks[k]? with
    | none => simp
    | some stage =>
      show (m.runTask blake3 stage).1.handedOut = m.handedOut ↔ _
      rw [runTask_handedOut,List.append_right_eq_self,outputs_eq_nil_iff]
      simp

/-- The tasks hand nothing out after `stop_streaming` has returned, exactly in the runs in which
they then have nothing left to hand out. -/
theorem stop_streaming_stops_iff (blake3 : Bytes → Digest) (m : StreamManager)
    (es : List ManagerEvent) :
    Along (step blake3) (Quiet blake3) m es ↔ Along (step blake3) IdleWhenStopped m es :=
  along_congr (fun _ e => quiet_iff e) m es

/-- The task is in its loop over these segments. -/
def InLoop (loaded : List StreamSegment) : TaskStage → Prop
  | .segment l _ => l = loaded
  | .repeatInit l => l = loaded
  | _ => False

theorem runTask_inLoop (hp2p : m.enableP2p = true) {loaded : List StreamSegment}
    {stage : TaskStage} (h : InLoop loaded stage) : InLoop loaded (m.runTask blake3 stage).2 := by
  cases stage with
  | repeatInit l => exact h
  | segment l rest =>
    cases rest with
    | nil =>
      simp only [runTask,hp2p,if_true]
      exact h
    | cons segment rest =>
      simp only [runTask,hp2p,Bool.not_true,Bool.and_false,Bool.false_eq_true,if_false]
      split_ifs <;> exact h
  | waiting => cases h
  | topic => cases h
  | initSegment => cases h
  | samples => cases h
  | finishing => cases h
  | ended => cases h

variable (blake3 m) in
theorem runTask_frame (stage : TaskStage) :
    (m.runTask blake3 stage).1.enableP2p = m.enableP2p ∧
    (m.runTask blake3 stage).1.tasks = m.tasks := by
  cases stage with
  | samples =>
    simp only [runTask]
    cases m.tasks.any TaskStage.holdsSamples with
    | true => exact ⟨rfl,rfl⟩
    | false => cases m.videoSamples <;> exact ⟨rfl,rfl⟩
  | segment loaded rest =>
    cases rest with
    | nil => exact ⟨rfl,rfl⟩
    | cons segment rest =>
      simp only [runTask]
      split_ifs <;> exact ⟨rfl,rfl⟩
  | waiting => exact ⟨rfl,rfl⟩
  | topic => exact ⟨rfl,rfl⟩
  | initSegment => exact ⟨rfl,rfl⟩
  | repeatInit loaded => exact ⟨rfl,rfl⟩
  | finishing => exact ⟨rfl,rfl⟩
  | ended => exact ⟨rfl,rfl⟩

/-- A task that publishes goes round for ever, whatever is called. -/
theorem p2p_task_never_ends (blake3 : Bytes → Digest) {k : Nat} {stage : TaskStage}
    {loaded : List StreamSegment} (hp2p : m.enableP2p = true) (hstage : m.tasks[k]? = some stage)
    (hloop : InLoop loaded stage) (es : List ManagerEvent) :
    ∃ stage', (es.foldl (step blake3) m).tasks[k]? = some stage' ∧ InLoop loaded stage' := by
  have hrun := (along_true (step blake3) m es).invariant
    (fun m => m.enableP2p = true ∧ ∃ stage, m.tasks[k]? = some stage ∧ InLoop loaded stage)
    ⟨hp2p,stage,hstage,hloop⟩
  refine (hrun ?_).2
  rintro m e ⟨hp2p,stage,hstage,hloop⟩ _
  cases e with
  | startStreaming => exact ⟨hp2p,stage,hstage,hloop⟩
  | stopStreaming => exact ⟨hp2p,stage,hstage,hloop⟩
  | setInitialization data => exact ⟨hp2p,stage,hstage,hloop⟩
  | subscribe => exact ⟨hp2p,stage,hstage,hloop⟩
  | dropReceiver => exact ⟨hp2p,stage,hstage,hloop⟩
  | loadSamples segments =>
    simp only [step]
    split_ifs <;> exact ⟨hp2p,stage,hstage,hloop⟩
  | stopProceeds j =>
    simp only [step,stopProceeds]
    split <;> exact ⟨hp2p,stage,hstage,hloop⟩
  | startProceeds j ok =>
    simp only [step,startProceeds]
    split
    · exact ⟨hp2p,stage,hstage,hloop⟩
    · split_ifs <;> exact ⟨hp2p,stage,hstage,hloop⟩
    · split_ifs
      · exact ⟨hp2p,stage,hstage,hloop⟩
      · exact ⟨hp2p,stage,hstage,hloop⟩
      · refine ⟨hp2p,stage,?_,hloop⟩
        obtain ⟨hlt,_⟩ := List.getElem?_eq_some_iff.mp hstage
        exact (List.getElem?_append_left hlt).trans hstage
  | taskProceeds j =>
    simp only [step,taskProceeds]
    cases hj : m.tasks[j]? with
    | none => exact ⟨hp2p,stage,hstage,hloop⟩
    | some other =>
      have hframe := runTask_frame blake3 m other
      refine ⟨hframe.1.trans hp2p,?_⟩
      dsimp only
      rw [hframe.2]
      by_cases hjk : j = k
      · subst hjk
        rw [hstage] at hj
        cases hj
        obtain ⟨hlt,_⟩ := List.getElem?_eq_some_iff.mp hstage
        exact ⟨_,List.getElem?_set_self hlt,runTask_inLoop hp2p hloop⟩
      · exact ⟨stage,(List.getElem?_set_ne hjk).trans hstage,hloop⟩

theorem sampleBytes_short : ([1] : Bytes).length < 2^64 := by decide

def sampleSegment : StreamSegment :=
  ⟨⟨[1]⟩,0,0,0,.video,[1],true,1,sampleBytes_short,sampleBytes_short⟩

/-- A stream of one segment is started, and stopped when its task has the segments. -/
def stoppedAtOnce : List ManagerEvent :=
  [.loadSamples [sampleSegment],.startStreaming,.startProceeds 0 true,.startProceeds 0 true,
    .taskProceeds 0,.taskProceeds 0,.taskProceeds 0,.taskProceeds 0,.stopStreaming,.stopProceeds 0,
    .stopProceeds 0,.taskProceeds 0]

theorem stopped_task_publishes :
    let blake3 : Bytes → Digest := fun _ => ⟨List.replicate 32 0,List.length_replicate⟩
    let m := withP2p ⟨[1],sampleBytes_short⟩
    let last := stoppedAtOnce.foldl (step blake3) m
    last.stopped = true ∧ last.isStreaming = false ∧
    last.handedOut =
      [.publish [1] (WireSegment.codec.encode (WireSegment.ofSegment blake3 sampleSegment))] ∧
    ¬ Along (step blake3) (Quiet blake3) m stoppedAtOnce := by
  intro blake3 m last
  exact ⟨by decide,by decide,by decide,by decide⟩

end Runs

end StreamManager

end OpenBroadcast.Streaming
