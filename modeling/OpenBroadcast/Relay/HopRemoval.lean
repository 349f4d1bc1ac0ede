import OpenBroadcast.Relay.Node

namespace OpenBroadcast.Relay

variable {PeerId : Type} [DecidableEq PeerId]

/-- The chunk does not tell where it came from. -/
def Anonymous (me : PeerId) (c : StreamChunk PeerId) : Prop :=
  c.source = none ∨ c.source = some me

/-- The work of a task holds only anonymous chunks ready to be sent. -/
def WorkAnonymous (me : PeerId) : Work PeerId → Prop
  | .send _ queue => ∀ call ∈ queue, Anonymous me call.2
  | _ => True

namespace RelayNode

/-- What a replay request selects from the buffer. -/
def replayed (s : RelayNode PeerId) (id : StreamId) (sequence : Nat) :
    List (StreamChunk PeerId) :=
  match s.streams.lookup id with
  | none => []
  | some stream => if s.hasHandler then stream.getChunksSince sequence else []

/-- Every chunk that a replay request selects from the buffer is anonymous. -/
def ReplayAnonymous (s : RelayNode PeerId) (e : Moment PeerId × RelayEvent PeerId) : Prop :=
  match e.2 with
  | .message (.requestChunks id _ sequence) =>
    ∀ c ∈ s.replayed id sequence, Anonymous s.localPeerId c
  | _ => True

/-- Hop removal is on, and whatever has been sent or is about to be is anonymous. -/
structure HopsRemoved (me : PeerId) (s : RelayNode PeerId) : Prop where
  localPeer : s.localPeerId = me
  enabled : s.config.enableHopRemoval = true
  sent : ∀ call ∈ s.calls, Anonymous me call.2
  chunkWork : WorkAnonymous me s.chunkWork
  messageWork : WorkAnonymous me s.messageWork

/-- The parts of the node that hop removal depends on. -/
def output (s : RelayNode PeerId) :
    PeerId × RelayConfig × List (PeerId × StreamChunk PeerId) × Work PeerId × Work PeerId :=
  (s.localPeerId,s.config,s.calls,s.chunkWork,s.messageWork)

omit [DecidableEq PeerId] in
theorem HopsRemoved.of_output {me : PeerId} {s s' : RelayNode PeerId} (h : HopsRemoved me s)
    (hs : s'.output = s.output) : HopsRemoved me s' := by
  simp only [output,Prod.mk.injEq] at hs
  obtain ⟨hl,hc,hcalls,hcw,hmw⟩ := hs
  exact ⟨hl.trans h.localPeer,by rw [hc]; exact h.enabled,by rw [hcalls]; exact h.sent,
    by rw [hcw]; exact h.chunkWork,by rw [hmw]; exact h.messageWork⟩

omit [DecidableEq PeerId] in
theorem output_addStream (s : RelayNode PeerId) (id : StreamId) (publisher : PeerId)
    (now : Nat) : (s.addStreamInternal id publisher now).1.output = s.output := by
  unfold addStreamInternal
  split_ifs <;> rfl

omit [DecidableEq PeerId] in
theorem output_removeStream (s : RelayNode PeerId) (id : StreamId) :
    (s.removeStreamInternal id).1.output = s.output := by
  unfold removeStreamInternal
  split_ifs <;> rfl

theorem output_addSubscriber (s : RelayNode PeerId) (id : StreamId) (p : PeerId) :
    (s.addSubscriberInternal id p).1.output = s.output := by
  unfold addSubscriberInternal
  cases s.streams.lookup id <;> rfl

theorem output_removeSubscriber (s : RelayNode PeerId) (id : StreamId) (p : PeerId) :
    (s.removeSubscriberInternal id p).1.output = s.output := by
  unfold removeSubscriberInternal
  cases s.streams.lookup id with
  | none => rfl
  | some stream =>
    dsimp only
    split_ifs <;> rfl

omit [DecidableEq PeerId] in
/-- What the second section of `process_chunk_internal` leaves to be sent. -/
theorem bufferChunk_queue (order : HashOrder Unit PeerId) (s : RelayNode PeerId)
    (chunk : StreamChunk PeerId) (now : Nat) :
    (bufferChunk order s chunk now).1.output = s.output ∧
    ∀ queue, (bufferChunk order s chunk now).2 = .ok queue →
      ∀ call ∈ queue, call.2 = s.relayChunk chunk := by
  unfold bufferChunk
  cases s.streams.lookup chunk.streamId with
  | none => exact ⟨rfl,by simp⟩
  | some stream =>
    dsimp only
    split_ifs
    · refine ⟨rfl,?_⟩
      intro queue hq call hcall
      cases hq
      obtain ⟨p,_,rfl⟩ := List.mem_map.mp hcall
      rfl
    · exact ⟨rfl,by simp⟩

omit [DecidableEq PeerId] in
theorem proceed_hopsRemoved (order : HashOrder Unit PeerId) (me : PeerId)
    (s : RelayNode PeerId) (now : Nat) (ok : Bool) (w : Work PeerId) (h : HopsRemoved me s)
    (hw : WorkAnonymous me w) :
    HopsRemoved me (s.proceed order now ok w).1 ∧
    WorkAnonymous me (s.proceed order now ok w).2 := by
  cases w with
  | idle => exact ⟨h,trivial⟩
  | relay chunk =>
    obtain ⟨hout,hqueue⟩ := bufferChunk_queue order s chunk now
    refine ⟨h.of_output hout,?_⟩
    simp only [proceed]
    cases hr : (bufferChunk order s chunk now).2 with
    | error e => trivial
    | ok queue =>
      intro call hcall
      rw [hqueue queue hr call hcall,relayChunk,if_pos h.enabled]
      exact Or.inr (by rw [h.localPeer])
  | send givesUp queue =>
    cases queue with
    | nil => exact ⟨h,trivial⟩
    | cons call queue =>
      have hcall := hw call (by simp)
      refine ⟨⟨h.localPeer,h.enabled,?_,h.chunkWork,h.messageWork⟩,?_⟩
      · intro c hc
        simp only [proceed,List.mem_append,List.mem_singleton] at hc
        rcases hc with hc | rfl
        · exact h.sent c hc
        · exact hcall
      · simp only [proceed]
        split_ifs
        · trivial
        · exact fun c hc => hw c (by simp [hc])

omit [DecidableEq PeerId] in
theorem mem_request_queue (s : RelayNode PeerId) (id : StreamId) (p : PeerId) (sequence : Nat)
    (queue : List (PeerId × StreamChunk PeerId))
    (h : s.handleRequestChunksInternal id p sequence = .ok queue) :
    queue = (s.replayed id sequence).map (fun c => (p,c)) := by
  unfold handleRequestChunksInternal at h
  unfold replayed
  cases hl : s.streams.lookup id with
  | none => simp [hl] at h
  | some stream =>
    simp only [hl] at h ⊢
    split_ifs at h with hh
    cases h
    rw [if_pos hh]

theorem message_hopsRemoved (me : PeerId) (s : RelayNode PeerId) (now : Nat)
    (msg : RelayMessage PeerId) (h : HopsRemoved me s)
    (ok : ∀ id p sequence, msg = .requestChunks id p sequence →
      ∀ c ∈ s.replayed id sequence, Anonymous me c) : HopsRemoved me (s.handleMessage now msg) := by
  cases msg with
  | chunk chunk => exact ⟨h.localPeer,h.enabled,h.sent,h.chunkWork,trivial⟩
  | addStream id publisher => exact h.of_output (output_addStream s id publisher now)
  | removeStream id => exact h.of_output (output_removeStream s id)
  | addSubscriber id p => exact h.of_output (output_addSubscriber s id p)
  | removeSubscriber id p => exact h.of_output (output_removeSubscriber s id p)
  | requestChunks id p sequence =>
    refine ⟨h.localPeer,h.enabled,h.sent,h.chunkWork,?_⟩
    simp only [handleMessage]
    cases hr : s.handleRequestChunksInternal id p sequence with
    | error e => trivial
    | ok queue =>
      intro call hcall
      rw [mem_request_queue s id p sequence queue hr] at hcall
      obtain ⟨c,hc,rfl⟩ := List.mem_map.mp hcall
      exact ok id p sequence rfl c hc
  | stop => exact ⟨h.localPeer,h.enabled,h.sent,h.chunkWork,h.messageWork⟩

theorem step_hopsRemoved (me : PeerId) (s : RelayNode PeerId)
    (e : Moment PeerId × RelayEvent PeerId) (h : HopsRemoved me s) (ok : ReplayAnonymous s e) :
    HopsRemoved me (s.step e) := by
  obtain ⟨moment,event⟩ := e
  unfold step
  by_cases hrun : (!s.running) = true
  · rw [if_pos hrun]
    exact h
  · rw [if_neg hrun]
    cases event with
    | publish chunk =>
      dsimp only
      split
      · split_ifs
        · exact h
        · exact ⟨h.localPeer,h.enabled,h.sent,trivial,h.messageWork⟩
      · exact h
    | message msg =>
      dsimp only
      split
      · split_ifs
        · exact h
        · apply message_hopsRemoved me s moment.now msg h
          intro id p sequence heq c hc
          subst heq
          exact h.localPeer ▸ ok c hc
      · exact h
    | chunkTask answer =>
      obtain ⟨h',hw⟩ := proceed_hopsRemoved moment.order me s moment.now answer s.chunkWork h
        h.chunkWork
      exact ⟨h'.localPeer,h'.enabled,h'.sent,hw,h'.messageWork⟩
    | messageTask answer =>
      obtain ⟨h',hw⟩ := proceed_hopsRemoved moment.order me s moment.now answer s.messageWork h
        h.messageWork
      exact ⟨h'.localPeer,h'.enabled,h'.sent,h'.chunkWork,hw⟩
    | report order => exact h.of_output rfl
    | findInactive order =>
      dsimp only
      split
      · exact h.of_output rfl
      · exact h
    | removeInactive =>
      dsimp only
      split
      · exact h
      · rename_i id rest _
        have h' := h.of_output (output_removeStream s id)
        exact ⟨h'.localPeer,h'.enabled,h'.sent,h'.chunkWork,h'.messageWork⟩
    | stop => exact ⟨h.localPeer,h.enabled,h.sent,trivial,trivial⟩

end RelayNode

/-- The chunk without its source. -/
def StreamChunk.erased (c : StreamChunk PeerId) : StreamChunk PeerId := { c with source := none }

/-- The stream with the sources of all chunks it holds erased. -/
def StreamRelay.erased (s : StreamRelay PeerId) : StreamRelay PeerId :=
  { s with
    buffer := s.buffer.map StreamChunk.erased
    initSegment := s.initSegment.map StreamChunk.erased
    keyframeBuffer := s.keyframeBuffer.map StreamChunk.erased }

/-- What is left of the work of a task without the source of the chunk that came in. -/
def Work.erased : Work PeerId → Work PeerId
  | .relay chunk => .relay chunk.erased
  | w => w

/-- The event with the source of an incoming chunk erased. -/
def RelayEvent.erased : RelayEvent PeerId → RelayEvent PeerId
  | .publish chunk => .publish chunk.erased
  | .message (.chunk chunk) => .message (.chunk chunk.erased)
  | e => e

omit [DecidableEq PeerId] in
theorem map_trim {α β : Type} (f : α → β) (max : Nat) (l : List α) :
    (StreamRelay.trim max l).map f = StreamRelay.trim max (l.map f) := by
  simp [StreamRelay.trim,List.map_drop]

omit [DecidableEq PeerId] in
theorem erased_addChunk (s : StreamRelay PeerId) (c : StreamChunk PeerId) (max now : Nat) :
    (s.addChunk c max now).erased = s.erased.addChunk c.erased max now := by
  have hi : StreamRelay.isInit c.erased = StreamRelay.isInit c := rfl
  have hv : StreamRelay.isVideo c.erased = StreamRelay.isVideo c := rfl
  have hk : c.erased.isKeyframe = c.isKeyframe := rfl
  have hs : c.erased.sequence = c.sequence := rfl
  have hl : s.erased.lastSequence = s.lastSequence := rfl
  unfold StreamRelay.addChunk
  simp only [hi,hv,hk,hs,hl]
  split_ifs <;> simp [StreamRelay.erased,map_trim,StreamChunk.erased]

namespace RelayNode

/-- Two nodes agree but for the sources of the chunks they hold. -/
structure Agree (s s' : RelayNode PeerId) : Prop where
  localPeerId : s.localPeerId = s'.localPeerId
  config : s.config = s'.config
  hasHandler : s.hasHandler = s'.hasHandler
  stats : s.stats = s'.stats
  toRemove : s.toRemove = s'.toRemove
  running : s.running = s'.running
  stopped : s.stopped = s'.stopped
  calls : s.calls = s'.calls
  streams : ∀ id, (s.streams.lookup id).map StreamRelay.erased =
    (s'.streams.lookup id).map StreamRelay.erased
  chunkWork : s.chunkWork.erased = s'.chunkWork.erased
  messageWork : s.messageWork.erased = s'.messageWork.erased

omit [DecidableEq PeerId] in
/-- Either the stream is missing on both sides, or it is there with the same contents but
for the sources. -/
theorem Agree.lookup_cases {s s' : RelayNode PeerId} (h : Agree s s') (id : StreamId) :
    (s.streams.lookup id = none ∧ s'.streams.lookup id = none) ∨
    ∃ t t', s.streams.lookup id = some t ∧ s'.streams.lookup id = some t' ∧
      t.erased = t'.erased := by
  have hid := h.streams id
  cases hl : s.streams.lookup id with
  | none =>
    rw [hl] at hid
    exact Or.inl ⟨rfl,Option.map_eq_none_iff.mp hid.symm⟩
  | some t =>
    rw [hl] at hid
    obtain ⟨t',ht',he⟩ := Option.map_eq_some_iff.mp hid.symm
    exact Or.inr ⟨t,t',rfl,ht',he.symm⟩

section Streams

variable {m m' : HashMap StreamId (StreamRelay PeerId)}
  (h : ∀ id, (m.lookup id).map StreamRelay.erased = (m'.lookup id).map StreamRelay.erased)

include h

omit [DecidableEq PeerId] in
theorem agree_keys : m.keys = m'.keys := by
  ext id
  have hid := congrArg Option.isSome (h id)
  rw [Option.isSome_map,Option.isSome_map] at hid
  rw [Finmap.mem_keys,Finmap.mem_keys,← Finmap.lookup_isSome,← Finmap.lookup_isSome,hid]

omit [DecidableEq PeerId] in
theorem agree_insert (id : StreamId) {t t' : StreamRelay PeerId} (ht : t.erased = t'.erased)
    (x : StreamId) :
    ((m.insert id t).lookup x).map StreamRelay.erased =
      ((m'.insert id t').lookup x).map StreamRelay.erased := by
  by_cases hx : x = id
  · subst hx; simp [ht]
  · simp [hx,h x]

omit [DecidableEq PeerId] in
theorem agree_erase (id x : StreamId) :
    ((m.erase id).lookup x).map StreamRelay.erased =
      ((m'.erase id).lookup x).map StreamRelay.erased := by
  by_cases hx : x = id
  · subst hx; simp
  · simp [hx,h x]

omit [DecidableEq PeerId] in
/-- Iteration in the same order meets the same streams but for the sources. -/
theorem agree_iter (order : HashOrder Unit StreamId) :
    (order.iter () m).map (fun e => (e.1,e.2.erased)) =
      (order.iter () m').map (fun e => (e.1,e.2.erased)) := by
  have image : ∀ k : HashMap StreamId (StreamRelay PeerId),
      (order.iter () k).map (fun e => (e.1,e.2.erased)) =
        (order.order () k.keys).filterMap
          (fun id => ((k.lookup id).map StreamRelay.erased).map (fun t => (id,t))) := by
    intro k
    rw [HashOrder.iter,List.map_filterMap]
    apply List.filterMap_congr
    intro id _
    cases k.lookup id <;> rfl
  rw [image,image,agree_keys h]
  apply List.filterMap_congr
  intro id _
  rw [h id]

end Streams

omit [DecidableEq PeerId] in
theorem exists_source {c c' : StreamChunk PeerId} (h : c.erased = c'.erased) :
    ∃ source, c' = { c with source := source } := by
  cases c
  cases c'
  simp only [StreamChunk.erased,StreamChunk.mk.injEq] at h
  obtain ⟨rfl,rfl,rfl,rfl,rfl,rfl,rfl,_⟩ := h
  exact ⟨_,rfl⟩

omit [DecidableEq PeerId] in
theorem addStream_agree {s s' : RelayNode PeerId} (h : Agree s s') (id : StreamId)
    (publisher : PeerId) (now : Nat) :
    Agree (s.addStreamInternal id publisher now).1 (s'.addStreamInternal id publisher now).1 := by
  have hmem : id ∈ s.streams ↔ id ∈ s'.streams := by
    rw [← Finmap.mem_keys,← Finmap.mem_keys,agree_keys h.streams]
  unfold addStreamInternal
  by_cases hid : id ∈ s.streams
  · rw [if_pos hid,if_pos (hmem.mp hid)]
    exact h
  · rw [if_neg hid,if_neg (fun h' => hid (hmem.mpr h'))]
    have streams := agree_insert h.streams id (Eq.refl (StreamRelay.new id publisher now).erased)
    exact { h with
      stats := by
        dsimp only
        rw [h.stats,agree_keys streams]
      streams := streams }

omit [DecidableEq PeerId] in
theorem removeStream_agree {s s' : RelayNode PeerId} (h : Agree s s') (id : StreamId) :
    Agree (s.removeStreamInternal id).1 (s'.removeStreamInternal id).1 := by
  have hmem : id ∈ s.streams ↔ id ∈ s'.streams := by
    rw [← Finmap.mem_keys,← Finmap.mem_keys,agree_keys h.streams]
  unfold removeStreamInternal
  by_cases hid : id ∈ s.streams
  · rw [if_pos hid,if_pos (hmem.mp hid)]
    have streams := agree_erase h.streams id
    exact { h with
      stats := by
        dsimp only
        rw [h.stats,agree_keys streams]
      streams := streams }
  · rw [if_neg hid,if_neg (fun h' => hid (hmem.mpr h'))]
    exact h

theorem addSubscriber_agree {s s' : RelayNode PeerId} (h : Agree s s') (id : StreamId)
    (p : PeerId) :
    Agree (s.addSubscriberInternal id p).1 (s'.addSubscriberInternal id p).1 := by
  unfold addSubscriberInternal
  rcases h.lookup_cases id with ⟨hl,hl'⟩ | ⟨t,t',hl,hl',ht⟩
  · rw [hl,hl']
    exact h
  · rw [hl,hl']
    have hsub : (t.addSubscriber p).1.erased = (t'.addSubscriber p).1.erased :=
      congrArg (fun t => (t.addSubscriber p).1) ht
    exact { h with
      stats := by
        dsimp only
        rw [h.stats]
      streams := agree_insert h.streams id hsub }

theorem removeSubscriber_agree {s s' : RelayNode PeerId} (h : Agree s s') (id : StreamId)
    (p : PeerId) :
    Agree (s.removeSubscriberInternal id p).1 (s'.removeSubscriberInternal id p).1 := by
  unfold removeSubscriberInternal
  rcases h.lookup_cases id with ⟨hl,hl'⟩ | ⟨t,t',hl,hl',ht⟩
  · rw [hl,hl']
    exact h
  · rw [hl,hl']
    have hsub : (t.removeSubscriber p).1.erased = (t'.removeSubscriber p).1.erased :=
      congrArg (fun t => (t.removeSubscriber p).1) ht
    have hfound : (t.removeSubscriber p).2 = (t'.removeSubscriber p).2 :=
      congrArg (fun t => (t.removeSubscriber p).2) ht
    have streams := agree_insert h.streams id hsub
    dsimp only
    rw [hfound]
    by_cases hr : (t'.removeSubscriber p).2 = true
    · rw [if_pos hr,if_pos hr]
      exact { h with
        stats := by
          dsimp only
          rw [h.stats]
        streams := streams }
    · rw [if_neg hr,if_neg hr]
      exact { h with streams := streams }

omit [DecidableEq PeerId] in
theorem bufferChunk_agree {s s' : RelayNode PeerId} (h : Agree s s')
    (hon : s.config.enableHopRemoval = true) (order : HashOrder Unit PeerId)
    {c c' : StreamChunk PeerId} (hc : c.erased = c'.erased) (now : Nat) :
    Agree (bufferChunk order s c now).1 (bufferChunk order s' c' now).1 ∧
    (bufferChunk order s c now).2 = (bufferChunk order s' c' now).2 := by
  obtain ⟨source,rfl⟩ := exists_source hc
  unfold bufferChunk
  dsimp only
  rcases h.lookup_cases c.streamId with ⟨hl,hl'⟩ | ⟨t,t',hl,hl',ht⟩
  · rw [hl,hl']
    exact ⟨h,rfl⟩
  · rw [hl,hl']
    have hadd : (t.addChunk c s.config.maxBufferSize now).erased =
        (t'.addChunk { c with source := source } s'.config.maxBufferSize now).erased := by
      rw [erased_addChunk,erased_addChunk,ht,h.config]
      rfl
    have hsub : (t.addChunk c s.config.maxBufferSize now).subscribers =
        (t'.addChunk { c with source := source } s'.config.maxBufferSize now).subscribers := by
      have hsub := congrArg StreamRelay.subscribers hadd
      exact hsub
    have streams := agree_insert h.streams c.streamId hadd
    dsimp only
    by_cases hh : s.hasHandler = true
    · rw [if_pos hh,if_pos (h.hasHandler ▸ hh)]
      refine ⟨{ h with streams := streams },?_⟩
      dsimp only
      rw [hsub]
      simp only [relayChunk,← h.config,hon,if_true,h.localPeerId]
    · rw [if_neg hh,if_neg (h.hasHandler ▸ hh)]
      exact ⟨{ h with streams := streams },rfl⟩

omit [DecidableEq PeerId] in
theorem proceed_agree {s s' : RelayNode PeerId} (h : Agree s s')
    (hon : s.config.enableHopRemoval = true) (order : HashOrder Unit PeerId) (now : Nat)
    (ok : Bool) {w w' : Work PeerId} (hw : w.erased = w'.erased) :
    Agree (s.proceed order now ok w).1 (s'.proceed order now ok w').1 ∧
    (s.proceed order now ok w).2.erased = (s'.proceed order now ok w').2.erased := by
  cases w with
  | idle =>
    cases w' with
    | idle => exact ⟨h,rfl⟩
    | relay c' => cases hw
    | send g q => cases hw
  | relay c =>
    cases w' with
    | idle => cases hw
    | relay c' =>
      obtain ⟨agree,same⟩ := bufferChunk_agree h hon order (Work.relay.inj hw) now
      exact ⟨agree,by simp only [proceed]; rw [same]⟩
    | send g q => cases hw
  | send g q =>
    cases w' with
    | idle => cases hw
    | relay c' => cases hw
    | send g' q' =>
      cases hw
      cases q with
      | nil => exact ⟨h,rfl⟩
      | cons call q =>
        refine ⟨{ h with calls := ?_ },rfl⟩
        simp only [proceed]
        rw [h.calls]

omit [DecidableEq PeerId] in
theorem recordChunk_agree {s s' : RelayNode PeerId} (h : Agree s s') {c c' : StreamChunk PeerId}
    (hc : c.erased = c'.erased) : Agree (s.recordChunk c) (s'.recordChunk c') := by
  obtain ⟨source,rfl⟩ := exists_source hc
  exact { h with
    stats := by
      simp only [recordChunk]
      rw [h.stats] }

theorem reportStats_agree {s s' : RelayNode PeerId} (h : Agree s s')
    (order : HashOrder Unit StreamId) (now : Nat) :
    Agree (s.reportStats order now) (s'.reportStats order now) := by
  have peers : ∀ m : HashMap StreamId (StreamRelay PeerId),
      (order.iter () m).foldl
        (fun peers e => insert e.2.publisher (peers ∪ e.2.subscribers)) (∅ : Finset PeerId) =
      ((order.iter () m).map (fun e => (e.1,e.2.erased))).foldl
        (fun peers e => insert e.2.publisher (peers ∪ e.2.subscribers)) ∅ := by
    intro m
    rw [List.foldl_map]
    rfl
  exact { h with
    stats := by
      simp only [reportStats]
      rw [peers,peers,agree_iter h.streams order,agree_keys h.streams,h.stats] }

omit [DecidableEq PeerId] in
theorem findInactive_agree {s s' : RelayNode PeerId} (h : Agree s s')
    (order : HashOrder Unit StreamId) (now : Nat) :
    Agree (s.findInactive order now) (s'.findInactive order now) := by
  have found : ∀ (m : HashMap StreamId (StreamRelay PeerId)) (timeout : Nat),
      ((order.iter () m).filter (fun e => e.2.isInactive timeout now)).map Prod.fst =
      ((((order.iter () m).map (fun e => (e.1,e.2.erased)))).filter
        (fun e => e.2.isInactive timeout now)).map Prod.fst := by
    intro m timeout
    rw [List.filter_map,List.map_map]
    rfl
  exact { h with
    toRemove := by
      simp only [findInactive]
      rw [found,found,agree_iter h.streams order,h.config] }

/-- A replay request selects the same chunks, sources included, in both nodes. -/
def ReplaySame (s : RelayNode PeerId × RelayNode PeerId)
    (e : (Moment PeerId × RelayEvent PeerId) × (Moment PeerId × RelayEvent PeerId)) : Prop :=
  match e.1.2 with
  | .message (.requestChunks id _ sequence) => s.1.replayed id sequence = s.2.replayed id sequence
  | _ => True

/-- Both runs side by side. -/
def stepBoth (s : RelayNode PeerId × RelayNode PeerId)
    (e : (Moment PeerId × RelayEvent PeerId) × (Moment PeerId × RelayEvent PeerId)) :
    RelayNode PeerId × RelayNode PeerId :=
  (s.1.step e.1,s.2.step e.2)

omit [DecidableEq PeerId] in
theorem request_agree {s s' : RelayNode PeerId} (h : Agree s s') (id : StreamId) (p : PeerId)
    (sequence : Nat) (hsame : s.replayed id sequence = s'.replayed id sequence) :
    s.handleRequestChunksInternal id p sequence =
      s'.handleRequestChunksInternal id p sequence := by
  unfold replayed at hsame
  unfold handleRequestChunksInternal
  rcases h.lookup_cases id with ⟨hl,hl'⟩ | ⟨t,t',hl,hl',_⟩
  · rw [hl,hl']
  · rw [hl,hl'] at hsame ⊢
    dsimp only at hsame ⊢
    by_cases hh : s.hasHandler = true
    · have hh' : s'.hasHandler = true := h.hasHandler ▸ hh
      rw [if_pos hh,if_pos hh'] at hsame ⊢
      rw [hsame]
    · rw [if_neg hh,if_neg (h.hasHandler ▸ hh)]

/-- The same message, other than an incoming chunk, on both sides. -/
theorem message_agree {s s' : RelayNode PeerId} (h : Agree s s') (now : Nat)
    (msg : RelayMessage PeerId)
    (hsame : ∀ id p sequence, msg = .requestChunks id p sequence →
      s.replayed id sequence = s'.replayed id sequence) :
    Agree (s.handleMessage now msg) (s'.handleMessage now msg) := by
  cases msg with
  | chunk c => exact { recordChunk_agree h rfl with messageWork := rfl }
  | addStream id publisher => exact addStream_agree h id publisher now
  | removeStream id => exact removeStream_agree h id
  | addSubscriber id p => exact addSubscriber_agree h id p
  | removeSubscriber id p => exact removeSubscriber_agree h id p
  | requestChunks id p sequence =>
    exact { h with
      messageWork := by
        simp only [handleMessage]
        rw [request_agree h id p sequence (hsame id p sequence rfl)] }
  | stop => exact { h with stopped := rfl }

omit [DecidableEq PeerId] in
/-- An event brings a chunk, in one of two ways, or is its own erasure. -/
theorem erased_kind (e : RelayEvent PeerId) :
    (∃ c, e = .publish c) ∨ (∃ c, e = .message (.chunk c)) ∨
    (e.erased = e ∧ (∀ c, e ≠ .publish c) ∧ ∀ c, e ≠ .message (.chunk c)) := by
  cases e with
  | message msg => cases msg <;> simp [RelayEvent.erased]
  | _ => simp [RelayEvent.erased]

omit [DecidableEq PeerId] in
/-- Two events that only differ in the source of an incoming chunk. -/
theorem erased_cases {e e' : RelayEvent PeerId} (h : e.erased = e'.erased) :
    e = e' ∨
    (∃ c c', c.erased = c'.erased ∧ e = .publish c ∧ e' = .publish c') ∨
    (∃ c c', c.erased = c'.erased ∧ e = .message (.chunk c) ∧ e' = .message (.chunk c')) := by
  rcases erased_kind e with ⟨c,rfl⟩ | ⟨c,rfl⟩ | ⟨he,hp,hm⟩ <;>
    rcases erased_kind e' with ⟨c',rfl⟩ | ⟨c',rfl⟩ | ⟨he',hp',hm'⟩
  · exact Or.inr (Or.inl ⟨c,c',RelayEvent.publish.inj h,rfl,rfl⟩)
  · cases h
  · exact absurd (he'.symm.trans h.symm) (hp' _)
  · cases h
  · exact Or.inr (Or.inr ⟨c,c',RelayMessage.chunk.inj (RelayEvent.message.inj h),rfl,rfl⟩)
  · exact absurd (he'.symm.trans h.symm) (hm' _)
  · exact absurd (he.symm.trans h) (hp _)
  · exact absurd (he.symm.trans h) (hm _)
  · exact Or.inl (he.symm.trans (h.trans he'))

omit [DecidableEq PeerId] in
/-- A task is idle on both sides or on neither. -/
theorem idle_cases {w w' : Work PeerId} (h : w.erased = w'.erased) :
    (w = .idle ∧ w' = .idle) ∨ (w ≠ .idle ∧ w' ≠ .idle) := by
  cases w <;> cases w' <;> simp_all [Work.erased]

theorem step_busy_publish {s : RelayNode PeerId} (moment : Moment PeerId)
    (c : StreamChunk PeerId) (h : s.chunkWork ≠ .idle) : s.step (moment,.publish c) = s := by
  unfold step
  cases hw : s.chunkWork <;> simp_all

theorem step_busy_message {s : RelayNode PeerId} (moment : Moment PeerId)
    (msg : RelayMessage PeerId) (h : s.messageWork ≠ .idle) : s.step (moment,.message msg) = s := by
  unfold step
  cases hw : s.messageWork <;> simp_all

theorem step_publish_idle {s : RelayNode PeerId} (moment : Moment PeerId)
    (c : StreamChunk PeerId) (hrun : s.running = true) (h : s.chunkWork = .idle) :
    s.step (moment,.publish c) =
      if c.data.length > s.config.maxChunkSize then s
      else { s.recordChunk c with chunkWork := .relay c } := by
  simp [step,hrun,h]

theorem step_message_idle {s : RelayNode PeerId} (moment : Moment PeerId)
    (msg : RelayMessage PeerId) (hrun : s.running = true) (h : s.messageWork = .idle) :
    s.step (moment,.message msg) = if s.stopped then s else s.handleMessage moment.now msg := by
  simp [step,hrun,h]

theorem step_stopped {s : RelayNode PeerId} (e : Moment PeerId × RelayEvent PeerId)
    (hrun : s.running ≠ true) : s.step e = s := by
  simp [step,hrun]

/-- A chunk that comes in on both sides, from different sources. -/
theorem publish_agree {s s' : RelayNode PeerId} (h : Agree s s') (moment : Moment PeerId)
    {c c' : StreamChunk PeerId} (hc : c.erased = c'.erased) (hrun : s.running = true) :
    Agree (s.step (moment,.publish c)) (s'.step (moment,.publish c')) := by
  have hlen : c.data.length = c'.data.length := by
    have hdata := congrArg StreamChunk.data hc
    exact congrArg List.length hdata
  rcases idle_cases h.chunkWork with ⟨hw,hw'⟩ | ⟨hw,hw'⟩
  · rw [step_publish_idle moment c hrun hw,
      step_publish_idle moment c' (h.running ▸ hrun) hw',hlen,h.config]
    split_ifs
    · exact h
    · exact { recordChunk_agree h hc with chunkWork := congrArg Work.relay hc }
  · rw [step_busy_publish moment c hw,step_busy_publish moment c' hw']
    exact h

theorem chunkMessage_agree {s s' : RelayNode PeerId} (h : Agree s s') (moment : Moment PeerId)
    {c c' : StreamChunk PeerId} (hc : c.erased = c'.erased) (hrun : s.running = true) :
    Agree (s.step (moment,.message (.chunk c))) (s'.step (moment,.message (.chunk c'))) := by
  rcases idle_cases h.messageWork with ⟨hw,hw'⟩ | ⟨hw,hw'⟩
  · rw [step_message_idle moment _ hrun hw,
      step_message_idle moment _ (h.running ▸ hrun) hw',h.stopped]
    split_ifs
    · exact h
    · exact { recordChunk_agree h hc with messageWork := congrArg Work.relay hc }
  · rw [step_busy_message moment _ hw,step_busy_message moment _ hw']
    exact h

/-- The same event on both sides. -/
theorem same_agree {s s' : RelayNode PeerId} (h : Agree s s')
    (hon : s.config.enableHopRemoval = true) (moment : Moment PeerId) (e : RelayEvent PeerId)
    (hsame : ReplaySame (s,s') ((moment,e),(moment,e))) (hrun : s.running = true) :
    Agree (s.step (moment,e)) (s'.step (moment,e)) := by
  have hrun' : s'.running = true := h.running ▸ hrun
  cases e with
  | publish c => exact publish_agree h moment rfl hrun
  | message msg =>
    rcases idle_cases h.messageWork with ⟨hw,hw'⟩ | ⟨hw,hw'⟩
    · rw [step_message_idle moment msg hrun hw,step_message_idle moment msg hrun' hw',h.stopped]
      split_ifs
      · exact h
      · apply message_agree h moment.now msg
        intro id p sequence heq
        subst heq
        exact hsame
    · rw [step_busy_message moment msg hw,step_busy_message moment msg hw']
      exact h
  | chunkTask ok =>
    obtain ⟨agree,work⟩ := proceed_agree h hon moment.order moment.now ok h.chunkWork
    simp only [step,hrun,hrun']
    exact { agree with chunkWork := work }
  | messageTask ok =>
    obtain ⟨agree,work⟩ := proceed_agree h hon moment.order moment.now ok h.messageWork
    simp only [step,hrun,hrun']
    exact { agree with messageWork := work }
  | report order =>
    simp only [step,hrun,hrun']
    exact reportStats_agree h order moment.now
  | findInactive order =>
    simp only [step,hrun,hrun',← h.toRemove]
    cases s.toRemove with
    | nil => exact findInactive_agree h order moment.now
    | cons id rest => exact h
  | removeInactive =>
    simp only [step,hrun,hrun',← h.toRemove]
    cases s.toRemove with
    | nil => exact h
    | cons id rest => exact { removeStream_agree h id with toRemove := rfl }
  | stop =>
    simp only [step,hrun,hrun']
    exact { h with running := rfl, chunkWork := rfl, messageWork := rfl }

theorem step_agree {s s' : RelayNode PeerId} (h : Agree s s')
    (hon : s.config.enableHopRemoval = true) (moment : Moment PeerId)
    {e e' : RelayEvent PeerId} (he : e.erased = e'.erased)
    (hsame : ReplaySame (s,s') ((moment,e),(moment,e'))) :
    Agree (s.step (moment,e)) (s'.step (moment,e')) := by
  by_cases hrun : s.running = true
  · rcases erased_cases he with rfl | ⟨c,c',hc,rfl,rfl⟩ | ⟨c,c',hc,rfl,rfl⟩
    · exact same_agree h hon moment e hsame hrun
    · exact publish_agree h moment hc hrun
    · exact chunkMessage_agree h moment hc hrun
  · rw [step_stopped _ hrun,step_stopped _ (h.running ▸ hrun)]
    exact h

/-- A pair of events at the same moment that differ at most in the source of an incoming
chunk. -/
def SameButSource
    (e : (Moment PeerId × RelayEvent PeerId) × (Moment PeerId × RelayEvent PeerId)) : Prop :=
  e.1.1 = e.2.1 ∧ e.1.2.erased = e.2.2.erased

omit [DecidableEq PeerId] in
theorem config_of_output {s s' : RelayNode PeerId} (h : s'.output = s.output) :
    s'.config = s.config :=
  congrArg (fun o => o.2.1) h

omit [DecidableEq PeerId] in
theorem config_proceed (order : HashOrder Unit PeerId) (s : RelayNode PeerId) (now : Nat)
    (ok : Bool) (w : Work PeerId) : (s.proceed order now ok w).1.config = s.config := by
  cases w with
  | idle => rfl
  | relay chunk => exact config_of_output (bufferChunk_queue order s chunk now).1
  | send givesUp queue => cases queue <;> rfl

theorem config_step (s : RelayNode PeerId) (e : Moment PeerId × RelayEvent PeerId) :
    (s.step e).config = s.config := by
  obtain ⟨moment,event⟩ := e
  by_cases hrun : s.running = true
  · cases event with
    | publish c =>
      by_cases hw : s.chunkWork = .idle
      · rw [step_publish_idle moment c hrun hw]
        split_ifs <;> rfl
      · rw [step_busy_publish moment c hw]
    | message msg =>
      by_cases hw : s.messageWork = .idle
      · rw [step_message_idle moment msg hrun hw]
        split_ifs
        · rfl
        · cases msg with
          | addStream id publisher => exact config_of_output (output_addStream s id publisher _)
          | removeStream id => exact config_of_output (output_removeStream s id)
          | addSubscriber id p => exact config_of_output (output_addSubscriber s id p)
          | removeSubscriber id p => exact config_of_output (output_removeSubscriber s id p)
          | _ => rfl
      · rw [step_busy_message moment msg hw]
    | chunkTask ok =>
      simp only [step,hrun]
      exact config_proceed moment.order s moment.now ok s.chunkWork
    | messageTask ok =>
      simp only [step,hrun]
      exact config_proceed moment.order s moment.now ok s.messageWork
    | report order => simp [step,hrun,reportStats]
    | findInactive order =>
      simp only [step,hrun]
      cases s.toRemove <;> rfl
    | removeInactive =>
      simp only [step,hrun]
      cases s.toRemove with
      | nil => rfl
      | cons id rest => exact config_of_output (output_removeStream s id)
    | stop => simp [step,hrun]
  · rw [step_stopped _ hrun]

omit [DecidableEq PeerId] in
theorem start_agree (me : PeerId) (config : RelayConfig) (hasHandler : Bool) (now : Nat) :
    Agree (start me config hasHandler now) (start me config hasHandler now) := by
  constructor <;> intros <;> rfl

theorem foldl_stepBoth (ps : List ((Moment PeerId × RelayEvent PeerId) ×
    (Moment PeerId × RelayEvent PeerId))) (s s' : RelayNode PeerId) :
    ps.foldl stepBoth (s,s') = ((ps.map Prod.fst).foldl step s,(ps.map Prod.snd).foldl step s') := by
  induction ps generalizing s s' with
  | nil => rfl
  | cons p ps ih => exact ih _ _

theorem run_agree {s s' : RelayNode PeerId} (h : Agree s s')
    (hon : s.config.enableHopRemoval = true)
    (ps : List ((Moment PeerId × RelayEvent PeerId) × (Moment PeerId × RelayEvent PeerId)))
    (hps : ∀ p ∈ ps, SameButSource p) (ok : Along stepBoth ReplaySame (s,s') ps) :
    Agree (ps.foldl stepBoth (s,s')).1 (ps.foldl stepBoth (s,s')).2 := by
  induction ps generalizing s s' with
  | nil => exact h
  | cons p ps ih =>
    obtain ⟨⟨moment,e⟩,⟨moment',e'⟩⟩ := p
    obtain ⟨hsame,rest⟩ := ok
    obtain ⟨hmoment,he⟩ := hps ((moment,e),(moment',e')) (by simp)
    have hmoment : moment = moment' := hmoment
    subst hmoment
    apply ih (step_agree h hon moment he hsame) _ (fun p hp => hps p (by simp [hp])) rest
    rw [config_step]
    exact hon

/-- With hop removal on: in every run whose replay requests only select anonymous chunks,
every chunk passed to the handler is anonymous; and two runs that only differ in the
sources of incoming chunks, and whose replay requests select the same chunks, make the same
calls of the handler. -/
theorem hop_removal (me : PeerId) (config : RelayConfig) (hasHandler : Bool) (now : Nat)
    (on : config.enableHopRemoval = true) :
    (∀ es, Along step ReplayAnonymous (start me config hasHandler now) es →
      ∀ call ∈ (es.foldl step (start me config hasHandler now)).calls, Anonymous me call.2) ∧
    ∀ ps, (∀ p ∈ ps, SameButSource p) →
      Along stepBoth ReplaySame
        (start me config hasHandler now,start me config hasHandler now) ps →
      ((ps.map Prod.fst).foldl step (start me config hasHandler now)).calls =
        ((ps.map Prod.snd).foldl step (start me config hasHandler now)).calls := by
  constructor
  · intro es ok
    have start : HopsRemoved me (start me config hasHandler now) :=
      ⟨rfl,on,by simp [start],trivial,trivial⟩
    exact (ok.invariant (HopsRemoved me) start (step_hopsRemoved me)).sent
  · intro ps hps ok
    have final := run_agree (start_agree me config hasHandler now) on ps hps ok
    rw [foldl_stepBoth] at final
    exact final.calls

/-- A chunk of the stream `[1]`, number 7, from the given source. -/
def sampleChunk (source : Option Nat) : StreamChunk Nat :=
  ⟨7,⟨[1]⟩,[42],0,7,"video",true,source⟩

/-- The publisher 1 has a stream with the subscriber 2, publishes a chunk, and the peer 3
asks for the chunks since the given number. -/
def replayRun (source : Option Nat) (sequence : Nat) : List (Moment Nat × RelayEvent Nat) :=
  [.message (.addStream ⟨[1]⟩ 1),.message (.addSubscriber ⟨[1]⟩ 2),
    .publish (sampleChunk source),.chunkTask true,.chunkTask true,.chunkTask true,
    .message (.requestChunks ⟨[1]⟩ 3 sequence),.messageTask true].map
      (fun e => (⟨.ascending,0⟩,e))

set_option maxRecDepth 20000 in
theorem hop_removal_fanOut :
    ((replayRun (some 1) 7).foldl step (start 0 .default true 0)).calls =
      [(2,sampleChunk (some 0))] ∧
    (∀ call ∈ ((replayRun (some 1) 7).foldl step (start 0 .default true 0)).calls,
      Anonymous 0 call.2) ∧
    ((replayRun (some 1) 7).foldl step (start 0 .default true 0)).calls =
      ((replayRun (some 9) 7).foldl step (start 0 .default true 0)).calls := by
  refine ⟨by decide +kernel,(hop_removal 0 .default true 0 rfl).1 (replayRun (some 1) 7) ?_,
    (hop_removal 0 .default true 0 rfl).2
      ((replayRun (some 1) 7).zip (replayRun (some 9) 7)) ?_ ?_⟩
  · refine ⟨trivial,trivial,trivial,trivial,trivial,trivial,?_,trivial,trivial⟩
    intro c hc
    rw [show replayed _ _ _ = [] by decide +kernel] at hc
    cases hc
  · simp [replayRun,SameButSource,RelayEvent.erased,StreamChunk.erased,sampleChunk]
  · refine ⟨trivial,trivial,trivial,trivial,trivial,trivial,?_,trivial,trivial⟩
    change replayed _ _ _ = replayed _ _ _
    decide +kernel

set_option maxRecDepth 20000 in
theorem replay_reveals_source :
    ((replayRun (some 1) 0).foldl step (start 0 .default true 0)).calls =
      [(2,sampleChunk (some 0)),(3,sampleChunk (some 1))] ∧
    (∃ call ∈ ((replayRun (some 1) 0).foldl step (start 0 .default true 0)).calls,
      ¬ Anonymous 0 call.2) ∧
    ((replayRun (some 1) 0).foldl step (start 0 .default true 0)).calls ≠
      ((replayRun (some 9) 0).foldl step (start 0 .default true 0)).calls := by
  have calls : ∀ source ∈ [some 1,some 9],
      ((replayRun source 0).foldl step (start 0 .default true 0)).calls =
        [(2,sampleChunk (some 0)),(3,sampleChunk source)] := by decide +kernel
  have first := calls (some 1) (by simp)
  refine ⟨first,⟨(3,sampleChunk (some 1)),by rw [first]; simp,by simp [Anonymous,sampleChunk]⟩,?_⟩
  rw [first,calls (some 9) (by simp)]
  simp [sampleChunk]

end RelayNode

end OpenBroadcast.Relay
