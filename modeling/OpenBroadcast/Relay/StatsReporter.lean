import Mathlib.Algebra.Ring.Nat
import Mathlib.Data.Finset.Union
import OpenBroadcast.Framework.MapSizes
import OpenBroadcast.Relay.Node

namespace OpenBroadcast.Relay

variable {PeerId : Type} [DecidableEq PeerId]

section Peers

/-- The publisher and the subscribers of a stream. -/
def StreamRelay.peers (stream : StreamRelay PeerId) : Finset PeerId :=
  insert stream.publisher stream.subscribers

/-- The peers of all streams. -/
def peersOf (streams : HashMap StreamId (StreamRelay PeerId)) : Finset PeerId :=
  streams.keys.biUnion (fun id => (streams.lookup id).elim ∅ StreamRelay.peers)

variable {streams : HashMap StreamId (StreamRelay PeerId)} {id : StreamId}
  {stream : StreamRelay PeerId} {p : PeerId}

theorem mem_peersOf :
    p ∈ peersOf streams ↔ ∃ id stream, streams.lookup id = some stream ∧ p ∈ stream.peers := by
  simp only [peersOf,Finset.mem_biUnion,Finmap.mem_keys]
  constructor
  · rintro ⟨id,hid,hp⟩
    obtain ⟨stream,hstream⟩ := Finmap.mem_iff.mp hid
    rw [hstream] at hp
    exact ⟨id,stream,hstream,hp⟩
  · rintro ⟨id,stream,hstream,hp⟩
    refine ⟨id,Finmap.mem_of_lookup_eq_some hstream,?_⟩
    rw [hstream]
    exact hp

/-- The peers as the stats reporter collects them. -/
def uniquePeers (order : HashOrder Unit StreamId)
    (streams : HashMap StreamId (StreamRelay PeerId)) : Finset PeerId :=
  (order.iter () streams).foldl
    (fun peers e => insert e.2.publisher (peers ∪ e.2.subscribers)) ∅

theorem uniquePeers_eq (order : HashOrder Unit StreamId)
    (streams : HashMap StreamId (StreamRelay PeerId)) :
    uniquePeers order streams = peersOf streams := by
  have hfold : ∀ (l : List (StreamId × StreamRelay PeerId)) (peers : Finset PeerId) (p : PeerId),
      p ∈ l.foldl (fun peers e => insert e.2.publisher (peers ∪ e.2.subscribers)) peers ↔
        p ∈ peers ∨ ∃ e ∈ l, p ∈ e.2.peers := by
    intro l
    induction l with
    | nil => simp
    | cons e l ih =>
      intro peers p
      rw [List.foldl_cons,ih]
      simp only [StreamRelay.peers,Finset.mem_insert,Finset.mem_union,List.mem_cons,
        exists_eq_or_imp]
      grind
  ext p
  rw [uniquePeers,hfold,mem_peersOf]
  simp [HashOrder.mem_iter]

theorem peersOf_insert :
    peersOf (streams.insert id stream) = stream.peers ∪ peersOf (streams.erase id) := by
  ext p
  rw [Finset.mem_union,mem_peersOf,mem_peersOf]
  constructor
  · rintro ⟨other,found,hfound,hp⟩
    by_cases hother : other = id
    · subst hother
      rw [Finmap.lookup_insert] at hfound
      cases hfound
      exact .inl hp
    · rw [Finmap.lookup_insert_of_ne _ hother] at hfound
      refine .inr ⟨other,found,?_,hp⟩
      rwa [Finmap.lookup_erase_ne hother]
  · rintro (hp | ⟨other,found,hfound,hp⟩)
    · exact ⟨id,stream,Finmap.lookup_insert _,hp⟩
    · have hother : other ≠ id := by
        rintro rfl
        simp at hfound
      rw [Finmap.lookup_erase_ne hother] at hfound
      refine ⟨other,found,?_,hp⟩
      rwa [Finmap.lookup_insert_of_ne _ hother]

theorem peersOf_of_lookup (h : streams.lookup id = some stream) :
    peersOf streams = stream.peers ∪ peersOf (streams.erase id) := by
  have hsame : streams.insert id stream = streams := by
    apply Finmap.ext_lookup
    intro other
    by_cases hother : other = id
    · rw [hother,Finmap.lookup_insert,h]
    · rw [Finmap.lookup_insert_of_ne _ hother]
  rw [← peersOf_insert,hsame]

theorem peersOf_insert_of_notMem (h : id ∉ streams) :
    peersOf (streams.insert id stream) = stream.peers ∪ peersOf streams := by
  have hsame : streams.erase id = streams := by
    apply Finmap.ext_lookup
    intro other
    by_cases hother : other = id
    · rw [hother,Finmap.lookup_erase,Finmap.lookup_eq_none.mpr h]
    · rw [Finmap.lookup_erase_ne hother]
  rw [peersOf_insert,hsame]

end Peers

namespace RelayNode

/-- One turn of the stats reporter, on a clock with `perSecond` readings in a second. -/
def reportStatsAt (perSecond : Nat) (s : RelayNode PeerId) (order : HashOrder Unit StreamId)
    (now : Nat) : RelayNode PeerId :=
  let stats := { s.stats with
    activeStreams := s.streams.keys.card
    connectedPeers := (uniquePeers order s.streams).card }
  let elapsed := (now-stats.periodStart)/perSecond
  let stats := if elapsed > 0 then
      { stats with outgoingBandwidth := stats.bytesRelayed/elapsed }
    else stats
  { s with stats := stats.resetPeriod now }

theorem reportStatsAt_one (s : RelayNode PeerId) (order : HashOrder Unit StreamId) (now : Nat) :
    s.reportStatsAt 1 order now = s.reportStats order now := by
  simp only [reportStatsAt,reportStats,uniquePeers,Nat.div_one]

/-- An event at a node whose clock has `perSecond` readings in a second. -/
def stepAt (perSecond : Nat) (s : RelayNode PeerId) (e : Moment PeerId × RelayEvent PeerId) :
    RelayNode PeerId :=
  match e.2 with
  | .report order => if s.running then s.reportStatsAt perSecond order e.1.now else s
  | _ => s.step e

theorem stepAt_one (s : RelayNode PeerId) (e : Moment PeerId × RelayEvent PeerId) :
    s.stepAt 1 e = s.step e := by
  obtain ⟨now,e⟩ := e
  cases e with
  | report order =>
    simp only [stepAt,step,reportStatsAt_one]
    cases s.running <;> rfl
  | _ => rfl

/-- The statistics are those of the streams, as the reporter would count them. -/
def Agrees (s : RelayNode PeerId) : Prop :=
  s.stats.activeStreams = s.streams.keys.card ∧
  ∀ order, s.stats.connectedPeers = (uniquePeers order s.streams).card

theorem agrees_iff (s : RelayNode PeerId) :
    s.Agrees ↔ s.stats.activeStreams = s.streams.keys.card ∧
      s.stats.connectedPeers = (peersOf s.streams).card := by
  unfold Agrees
  simp only [uniquePeers_eq]
  have hsome : Nonempty (HashOrder Unit StreamId) := inferInstance
  simp

/-- A stream may go without being missed if other streams have all of its peers. -/
def Spare (s : RelayNode PeerId) (id : StreamId) : Prop :=
  ∀ stream, s.streams.lookup id = some stream → stream.peers ⊆ peersOf (s.streams.erase id)

/-- A message changes the number of peers by what its handler adds to the statistics. -/
def MessageCounts (s : RelayNode PeerId) : RelayMessage PeerId → Prop
  | .addStream id publisher => id ∉ s.streams → publisher ∈ peersOf s.streams
  | .removeStream id => s.Spare id
  | .addSubscriber id p => id ∈ s.streams → p ∉ peersOf s.streams
  | .removeSubscriber id p => ∀ stream, s.streams.lookup id = some stream →
      p ∈ stream.subscribers → p ∉ peersOf (s.streams.insert id (stream.removeSubscriber p).1)
  | _ => True

section Handlers

variable {s : RelayNode PeerId} {id : StreamId} {p : PeerId}

theorem addStream_agrees_iff (h : s.Agrees) (publisher : PeerId) (now : Nat) :
    (id ∉ s.streams → publisher ∈ peersOf s.streams) ↔
      (s.addStreamInternal id publisher now).1.Agrees := by
  rw [agrees_iff] at h
  by_cases hid : id ∈ s.streams
  · rw [addStreamInternal,if_pos hid,agrees_iff]
    exact iff_of_true (fun hnot => absurd hid hnot) h
  · have hpeers : peersOf (s.streams.insert id (StreamRelay.new id publisher now)) =
        insert publisher (peersOf s.streams) := by
      rw [peersOf_insert_of_notMem hid,Finset.insert_eq]
      rfl
    rw [addStreamInternal,if_neg hid,agrees_iff]
    simp only [hpeers,h.2,true_and]
    rw [Finset.card_insert_eq_ite]
    by_cases hpub : publisher ∈ peersOf s.streams <;> simp [hid,hpub]

theorem removeStream_agrees_iff (h : s.Agrees) (id : StreamId) :
    s.Spare id ↔ (s.removeStreamInternal id).1.Agrees := by
  rw [agrees_iff] at h
  by_cases hid : id ∈ s.streams
  · obtain ⟨stream,hstream⟩ := Finmap.mem_iff.mp hid
    have hpeers := peersOf_of_lookup hstream
    rw [removeStreamInternal,if_pos hid,agrees_iff]
    simp only [h.2,true_and]
    constructor
    · intro hspare
      rw [hpeers,Finset.union_eq_right.mpr (hspare stream hstream)]
    · intro hcard found hfound
      have hsub : peersOf (s.streams.erase id) ⊆ peersOf s.streams := by
        rw [hpeers]
        exact Finset.subset_union_right
      have hsame := Finset.eq_of_subset_of_card_le hsub (by omega)
      rw [hstream] at hfound
      cases hfound
      rw [hsame,hpeers]
      exact Finset.subset_union_left
  · rw [removeStreamInternal,if_neg hid,agrees_iff]
    refine iff_of_true ?_ h
    intro stream hstream
    exact absurd (Finmap.mem_of_lookup_eq_some hstream) hid

theorem addSubscriber_agrees_iff (h : s.Agrees) (id : StreamId) (p : PeerId) :
    (id ∈ s.streams → p ∉ peersOf s.streams) ↔ (s.addSubscriberInternal id p).1.Agrees := by
  rw [agrees_iff] at h
  cases hstream : s.streams.lookup id with
  | none =>
    have hid := Finmap.lookup_eq_none.mp hstream
    rw [addSubscriberInternal,hstream,agrees_iff]
    exact iff_of_true (fun hmem => absurd hmem hid) h
  | some stream =>
    have hid := Finmap.mem_of_lookup_eq_some hstream
    have hpeers : peersOf (s.streams.insert id (stream.addSubscriber p).1) =
        insert p (peersOf s.streams) := by
      rw [peersOf_insert,peersOf_of_lookup hstream,← Finset.insert_union]
      congr 1
      exact Finset.insert_comm stream.publisher p stream.subscribers
    have hcount : (s.streams.insert id (stream.addSubscriber p).1).keys.card =
        s.streams.keys.card := HashMap.card_insert_of_mem hid _
    rw [addSubscriberInternal,hstream,agrees_iff]
    simp only [hpeers,hcount,h.1,h.2,true_and]
    rw [Finset.card_insert_eq_ite]
    by_cases hp : p ∈ peersOf s.streams <;> simp [hid,hp]

theorem streams_removeSubscriberInternal {stream : StreamRelay PeerId}
    (h : s.streams.lookup id = some stream) (p : PeerId) :
    (s.removeSubscriberInternal id p).1.streams =
      s.streams.insert id (stream.removeSubscriber p).1 := by
  rw [removeSubscriberInternal,h]
  dsimp only
  split_ifs <;> rfl

theorem stats_removeSubscriberInternal {stream : StreamRelay PeerId}
    (h : s.streams.lookup id = some stream) (p : PeerId) :
    (s.removeSubscriberInternal id p).1.stats =
      if p ∈ stream.subscribers then
        { s.stats with connectedPeers := s.stats.connectedPeers-1 } else s.stats := by
  rw [removeSubscriberInternal,h]
  have hzero : (if s.stats.connectedPeers > 0 then s.stats.connectedPeers-1
      else s.stats.connectedPeers) = s.stats.connectedPeers-1 := by
    split_ifs <;> omega
  simp only [StreamRelay.removeSubscriber,decide_eq_true_eq,hzero]
  split_ifs <;> rfl

theorem removeSubscriber_agrees_iff (h : s.Agrees) (id : StreamId) (p : PeerId) :
    (∀ stream, s.streams.lookup id = some stream → p ∈ stream.subscribers →
      p ∉ peersOf (s.streams.insert id (stream.removeSubscriber p).1)) ↔
      (s.removeSubscriberInternal id p).1.Agrees := by
  rw [agrees_iff] at h
  cases hstream : s.streams.lookup id with
  | none =>
    rw [removeSubscriberInternal,hstream,agrees_iff]
    exact iff_of_true (fun _ hnone => nomatch hnone) h
  | some stream =>
    have hid := Finmap.mem_of_lookup_eq_some hstream
    have hcount : (s.streams.insert id (stream.removeSubscriber p).1).keys.card =
        s.streams.keys.card := HashMap.card_insert_of_mem hid _
    rw [agrees_iff,streams_removeSubscriberInternal hstream,stats_removeSubscriberInternal hstream,
      hcount]
    by_cases hp : p ∈ stream.subscribers
    · -- The peer was counted, so that there is something to subtract from.
      have hback : insert p (stream.subscribers.erase p) = stream.subscribers :=
        Finset.insert_erase hp
      have hpeers : peersOf s.streams =
          insert p (peersOf (s.streams.insert id (stream.removeSubscriber p).1)) := by
        rw [peersOf_insert,peersOf_of_lookup hstream,← Finset.insert_union]
        congr 1
        show insert stream.publisher stream.subscribers =
          insert p (insert stream.publisher (stream.subscribers.erase p))
        rw [Finset.insert_comm,hback]
      have hpos : 0 < s.stats.connectedPeers := by
        rw [h.2,hpeers]
        exact Finset.card_pos.mpr ⟨p,Finset.mem_insert_self ..⟩
      have hcard := h.2
      rw [hpeers,Finset.card_insert_eq_ite] at hcard
      simp only [if_pos hp,h.1,true_and]
      constructor
      · intro hnot
        rw [if_neg (hnot stream rfl hp)] at hcard
        omega
      · intro heq found hfound _ hmem
        cases hfound
        rw [if_pos hmem] at hcard
        omega
    · have hpeers : peersOf (s.streams.insert id (stream.removeSubscriber p).1) =
          peersOf s.streams := by
        rw [StreamRelay.removeSubscriber,Finset.erase_eq_of_notMem hp,peersOf_insert,
          peersOf_of_lookup hstream]
      rw [hpeers,if_neg hp]
      refine iff_of_true ?_ h
      intro found hfound hmem
      cases hfound
      exact absurd hmem hp

/-- A chunk leaves the peers of its stream as they are. -/
theorem bufferChunk_agrees (h : s.Agrees) (order : HashOrder Unit PeerId)
    (chunk : StreamChunk PeerId) (now : Nat) : (bufferChunk order s chunk now).1.Agrees := by
  rw [agrees_iff] at h
  rw [bufferChunk]
  cases hstream : s.streams.lookup chunk.streamId with
  | none =>
    rw [agrees_iff]
    exact h
  | some stream =>
    have hid := Finmap.mem_of_lookup_eq_some hstream
    have hsame : (stream.addChunk chunk s.config.maxBufferSize now).peers = stream.peers := by
      simp only [StreamRelay.addChunk,StreamRelay.peers]
      split_ifs <;> rfl
    have hpeers : peersOf (s.streams.insert chunk.streamId
        (stream.addChunk chunk s.config.maxBufferSize now)) = peersOf s.streams := by
      rw [peersOf_insert,hsame,← peersOf_of_lookup hstream]
    have hcount : (s.streams.insert chunk.streamId
        (stream.addChunk chunk s.config.maxBufferSize now)).keys.card = s.streams.keys.card :=
      HashMap.card_insert_of_mem hid _
    dsimp only
    split_ifs <;> rw [agrees_iff] <;> exact ⟨h.1.trans hcount.symm,h.2.trans (by rw [hpeers])⟩

theorem reportStatsAt_agrees (perSecond : Nat) (s : RelayNode PeerId)
    (order : HashOrder Unit StreamId) (now : Nat) : (s.reportStatsAt perSecond order now).Agrees := by
  rw [agrees_iff,← uniquePeers_eq order]
  simp only [reportStatsAt,RelayStats.resetPeriod]
  split_ifs <;> exact ⟨rfl,rfl⟩

/-- What the reporter has computed is gone as soon as the period is reset. -/
theorem outgoingBandwidth_reportStatsAt (perSecond : Nat) (s : RelayNode PeerId)
    (order : HashOrder Unit StreamId) (now : Nat) :
    (s.reportStatsAt perSecond order now).stats.outgoingBandwidth = 0 := rfl

theorem handleMessage_agrees_iff (h : s.Agrees) (now : Nat) (msg : RelayMessage PeerId) :
    s.MessageCounts msg ↔ (s.handleMessage now msg).Agrees := by
  cases msg with
  | addStream id publisher => exact addStream_agrees_iff h publisher now
  | removeStream id => exact removeStream_agrees_iff h id
  | addSubscriber id p => exact addSubscriber_agrees_iff h id p
  | removeSubscriber id p => exact removeSubscriber_agrees_iff h id p
  | chunk chunk => exact iff_of_true trivial h
  | requestChunks id p sequence => exact iff_of_true trivial h
  | stop => exact iff_of_true trivial h

end Handlers

/-- An event changes the number of peers by what it adds to the statistics. -/
def Counts (s : RelayNode PeerId) : RelayEvent PeerId → Prop
  | .message msg => s.messageWork = .idle → s.stopped = false → s.MessageCounts msg
  | .removeInactive => ∀ id ∈ s.toRemove.head?, s.Spare id
  | _ => True

/-- The streams and their figures are the same. -/
def SameCounts (s s' : RelayNode PeerId) : Prop :=
  s'.streams = s.streams ∧ s'.stats.activeStreams = s.stats.activeStreams ∧
    s'.stats.connectedPeers = s.stats.connectedPeers

omit [DecidableEq PeerId] in
theorem SameCounts.refl (s : RelayNode PeerId) : SameCounts s s := ⟨rfl,rfl,rfl⟩

theorem SameCounts.agrees_iff {s s' : RelayNode PeerId} (h : SameCounts s s') :
    s'.Agrees ↔ s.Agrees := by
  rw [RelayNode.agrees_iff,RelayNode.agrees_iff,h.1,h.2.1,h.2.2]

omit [DecidableEq PeerId] in
theorem proceed_cases (s : RelayNode PeerId) (order : HashOrder Unit PeerId) (now : Nat) (ok : Bool)
    (work : Work PeerId) : SameCounts s (s.proceed order now ok work).1 ∨
      ∃ chunk, (s.proceed order now ok work).1 = (bufferChunk order s chunk now).1 := by
  cases work with
  | idle => exact .inl (.refl s)
  | relay chunk => exact .inr ⟨chunk,rfl⟩
  | send givesUp queue =>
    cases queue with
    | nil => exact .inl (.refl s)
    | cons call queue => exact .inl ⟨rfl,rfl,rfl⟩

/-- What an event can do to the streams: nothing, a chunk is buffered, a message is handled, or the
reporter has its turn. -/
theorem stepAt_cases (perSecond : Nat) (s : RelayNode PeerId)
    (e : Moment PeerId × RelayEvent PeerId) :
    ((s.running = true → s.Counts e.2) ∧ (SameCounts s (s.stepAt perSecond e) ∨
      (∃ chunk, SameCounts (bufferChunk e.1.order s chunk e.1.now).1 (s.stepAt perSecond e)) ∨
      ∃ order, s.stepAt perSecond e = s.reportStatsAt perSecond order e.1.now)) ∨
    ∃ msg, ((s.running = true → s.Counts e.2) ↔ s.MessageCounts msg) ∧
      SameCounts (s.handleMessage e.1.now msg) (s.stepAt perSecond e) := by
  obtain ⟨m,e⟩ := e
  cases hrunning : s.running with
  | false =>
    have hsame : s.stepAt perSecond (m,e) = s := by
      cases e <;> simp [stepAt,step,hrunning]
    rw [hsame]
    exact .inl ⟨fun hrun => (nomatch hrun),.inl (.refl s)⟩
  | true =>
    have htask (t : RelayNode PeerId) (ok : Bool) (work : Work PeerId)
        (ht : SameCounts (s.proceed m.order m.now ok work).1 t) : SameCounts s t ∨
        ∃ chunk, SameCounts (bufferChunk m.order s chunk m.now).1 t := by
      rcases s.proceed_cases m.order m.now ok work with hsame | ⟨chunk,hchunk⟩
      · exact .inl ⟨ht.1.trans hsame.1,ht.2.1.trans hsame.2.1,ht.2.2.trans hsame.2.2⟩
      · rw [hchunk] at ht
        exact .inr ⟨chunk,ht⟩
    simp only [true_imp_iff]
    cases e with
    | publish chunk =>
      refine .inl ⟨trivial,.inl ?_⟩
      simp only [stepAt,step,hrunning]
      cases s.chunkWork with
      | idle =>
        dsimp only [Bool.not_true,Bool.false_eq_true]
        split_ifs <;> exact ⟨rfl,rfl,rfl⟩
      | relay other => exact .refl s
      | send givesUp queue => exact .refl s
    | message msg =>
      simp only [stepAt,step,hrunning,Counts]
      cases hwork : s.messageWork with
      | idle =>
        cases hstopped : s.stopped with
        | true => exact .inl ⟨fun _ hnot => (nomatch hnot),.inl (.refl s)⟩
        | false =>
          simp only [true_imp_iff]
          exact .inr ⟨msg,Iff.rfl,.refl _⟩
      | relay other => exact .inl ⟨fun hnot => (nomatch hnot),.inl (.refl s)⟩
      | send givesUp queue => exact .inl ⟨fun hnot => (nomatch hnot),.inl (.refl s)⟩
    | chunkTask ok =>
      simp only [stepAt,step,hrunning]
      have hcases := htask _ ok s.chunkWork ⟨rfl,rfl,rfl⟩
      exact .inl ⟨trivial,hcases.imp_right .inl⟩
    | messageTask ok =>
      simp only [stepAt,step,hrunning]
      have hcases := htask _ ok s.messageWork ⟨rfl,rfl,rfl⟩
      exact .inl ⟨trivial,hcases.imp_right .inl⟩
    | report order =>
      simp only [stepAt,hrunning]
      exact .inl ⟨trivial,.inr (.inr ⟨order,rfl⟩)⟩
    | findInactive order =>
      refine .inl ⟨trivial,.inl ?_⟩
      simp only [stepAt,step,hrunning]
      cases s.toRemove with
      | nil => exact ⟨rfl,rfl,rfl⟩
      | cons id rest => exact .refl s
    | removeInactive =>
      simp only [stepAt,step,hrunning,Counts]
      cases s.toRemove with
      | nil => exact .inl ⟨fun _ hnone => (nomatch hnone),.inl (.refl s)⟩
      | cons id rest =>
        simp only [List.head?_cons,Option.mem_some_iff,forall_eq']
        exact .inr ⟨.removeStream id,Iff.rfl,⟨rfl,rfl,rfl⟩⟩
    | stop =>
      simp only [stepAt,step,hrunning]
      exact .inl ⟨trivial,.inl ⟨rfl,rfl,rfl⟩⟩

theorem stepAt_agrees_iff {s : RelayNode PeerId} (h : s.Agrees) (perSecond : Nat)
    (e : Moment PeerId × RelayEvent PeerId) :
    (s.running = true → s.Counts e.2) ↔ (s.stepAt perSecond e).Agrees := by
  rcases s.stepAt_cases perSecond e with ⟨hcounts,hcases⟩ | ⟨msg,hcounts,hsame⟩
  · refine iff_of_true hcounts ?_
    rcases hcases with hsame | ⟨chunk,hsame⟩ | ⟨order,hturn⟩
    · exact hsame.agrees_iff.mpr h
    · exact hsame.agrees_iff.mpr (bufferChunk_agrees h e.1.order chunk e.1.now)
    · rw [hturn]
      exact reportStatsAt_agrees perSecond s order e.1.now
  · rw [hcounts,hsame.agrees_iff]
    exact handleMessage_agrees_iff h e.1.now msg

/-- The number of streams is right after every event. -/
def StreamsCounted (s : RelayNode PeerId) : Prop := s.stats.activeStreams = s.streams.keys.card

omit [DecidableEq PeerId] in
theorem bufferChunk_streamsCounted {s : RelayNode PeerId} (h : s.StreamsCounted)
    (order : HashOrder Unit PeerId) (chunk : StreamChunk PeerId) (now : Nat) :
    (bufferChunk order s chunk now).1.StreamsCounted := by
  rw [bufferChunk]
  cases hstream : s.streams.lookup chunk.streamId with
  | none => exact h
  | some stream =>
    have hcount := HashMap.card_insert_of_mem (Finmap.mem_of_lookup_eq_some hstream)
      (stream.addChunk chunk s.config.maxBufferSize now)
    dsimp only
    split_ifs <;> exact h.trans hcount.symm

theorem handleMessage_streamsCounted {s : RelayNode PeerId} (h : s.StreamsCounted) (now : Nat)
    (msg : RelayMessage PeerId) : (s.handleMessage now msg).StreamsCounted := by
  cases msg with
  | addStream id publisher =>
    rw [handleMessage,addStreamInternal]
    split_ifs
    · exact h
    · exact rfl
  | removeStream id =>
    rw [handleMessage,removeStreamInternal]
    split_ifs
    · exact rfl
    · exact h
  | addSubscriber id p =>
    rw [handleMessage,addSubscriberInternal]
    cases hstream : s.streams.lookup id with
    | none => exact h
    | some stream =>
      exact h.trans (HashMap.card_insert_of_mem (Finmap.mem_of_lookup_eq_some hstream) _).symm
  | removeSubscriber id p =>
    rw [handleMessage]
    cases hstream : s.streams.lookup id with
    | none =>
      rw [removeSubscriberInternal,hstream]
      exact h
    | some stream =>
      have hcount := HashMap.card_insert_of_mem (Finmap.mem_of_lookup_eq_some hstream)
        (stream.removeSubscriber p).1
      rw [StreamsCounted,streams_removeSubscriberInternal hstream,
        stats_removeSubscriberInternal hstream,hcount]
      split_ifs <;> exact h
  | chunk chunk => exact h
  | requestChunks id p sequence => exact h
  | stop => exact h

omit [DecidableEq PeerId] in
theorem SameCounts.streamsCounted {s s' : RelayNode PeerId} (hsame : SameCounts s s')
    (h : s.StreamsCounted) : s'.StreamsCounted := by
  rw [StreamsCounted,hsame.1,hsame.2.1]
  exact h

theorem stepAt_streamsCounted {s : RelayNode PeerId} (h : s.StreamsCounted) (perSecond : Nat)
    (e : Moment PeerId × RelayEvent PeerId) : (s.stepAt perSecond e).StreamsCounted := by
  rcases s.stepAt_cases perSecond e with ⟨_,hcases⟩ | ⟨msg,_,hsame⟩
  · rcases hcases with hsame | ⟨chunk,hsame⟩ | ⟨order,hturn⟩
    · exact hsame.streamsCounted h
    · exact hsame.streamsCounted (bufferChunk_streamsCounted h e.1.order chunk e.1.now)
    · rw [hturn]
      exact (reportStatsAt_agrees perSecond s order e.1.now).1
  · exact hsame.streamsCounted (handleMessage_streamsCounted h e.1.now msg)

end RelayNode

/-- A node with the bytes that had been relayed at the last turn of its stats reporter and, if the
last event was such a turn and a second had passed, the bandwidth that is due. -/
structure Reported (PeerId : Type) where
  node : RelayNode PeerId
  bytesBefore : Nat
  due : Option Nat

namespace Reported

/-- The whole seconds of the measurement period. -/
def elapsed (perSecond : Nat) (r : Reported PeerId) (now : Nat) : Nat :=
  (now-r.node.stats.periodStart)/perSecond

/-- The bytes recorded since the last turn of the reporter. -/
def recorded (r : Reported PeerId) : Nat := r.node.stats.bytesRelayed-r.bytesBefore

def step (perSecond : Nat) (r : Reported PeerId)
    (e : RelayNode.Moment PeerId × RelayEvent PeerId) : Reported PeerId :=
  let node := r.node.stepAt perSecond e
  match e.2 with
  | .report _ =>
    if r.node.running then
      ⟨node,r.node.stats.bytesRelayed,
        if 0 < r.elapsed perSecond e.1.now then some (r.recorded/r.elapsed perSecond e.1.now)
        else none⟩
    else { r with due := none }
  | _ => ⟨node,r.bytesBefore,none⟩

/-- A node that has just been started. -/
def start (localPeerId : PeerId) (config : RelayConfig) (hasHandler : Bool) (now : Nat) :
    Reported PeerId :=
  ⟨.start localPeerId config hasHandler now,0,none⟩

/-- The statistics agree with the streams, and a turn of the reporter leaves the bandwidth of its
period. -/
def Right (r : Reported PeerId) : Prop :=
  r.node.Agrees ∧ ∀ bandwidth ∈ r.due, r.node.stats.outgoingBandwidth = bandwidth

/-- An event counts the peers as the reporter does, and a turn of the reporter has no bandwidth to
show: its period was shorter than a second, or had fewer bytes than seconds. -/
def KeepsRight (perSecond : Nat) (r : Reported PeerId)
    (e : RelayNode.Moment PeerId × RelayEvent PeerId) : Prop :=
  r.node.running = true → r.node.Counts e.2 ∧
    match e.2 with
    | .report _ => r.elapsed perSecond e.1.now = 0 ∨ r.recorded < r.elapsed perSecond e.1.now
    | _ => True

theorem due_report {r : Reported PeerId} (h : r.node.running = true) (perSecond : Nat)
    (m : RelayNode.Moment PeerId) (order : HashOrder Unit StreamId) :
    (r.step perSecond (m,.report order)).due =
      if 0 < r.elapsed perSecond m.now then some (r.recorded/r.elapsed perSecond m.now)
      else none := by
  simp only [step,h,if_true]

theorem step_right_iff {r : Reported PeerId} (h : r.Right) (perSecond : Nat)
    (e : RelayNode.Moment PeerId × RelayEvent PeerId) :
    r.KeepsRight perSecond e ↔ (r.step perSecond e).Right := by
  have hagrees := RelayNode.stepAt_agrees_iff h.1 perSecond e
  have hplain (node : RelayNode PeerId) (bytes : Nat) : Right ⟨node,bytes,none⟩ ↔ node.Agrees :=
    and_iff_left (fun bandwidth hnone => nomatch hnone)
  obtain ⟨m,e⟩ := e
  cases e with
  | report order =>
    cases hrunning : r.node.running with
    | false =>
      simp only [KeepsRight,step,hrunning]
      exact iff_of_true (fun hrun => nomatch hrun) ((hplain r.node r.bytesBefore).mpr h.1)
    | true =>
      have hturn := RelayNode.reportStatsAt_agrees perSecond r.node order m.now
      have hreset := RelayNode.outgoingBandwidth_reportStatsAt perSecond r.node order m.now
      simp only [KeepsRight,step,hrunning,RelayNode.stepAt,RelayNode.Counts,true_and,true_imp_iff,
        if_true]
      by_cases hpos : 0 < r.elapsed perSecond m.now
      · have hnone : r.recorded < r.elapsed perSecond m.now ↔
            r.recorded/r.elapsed perSecond m.now = 0 := by
          rw [Nat.div_eq_zero_iff]
          omega
        rw [if_pos hpos,or_iff_right (by omega),hnone]
        constructor
        · rintro hzero
          refine ⟨hturn,?_⟩
          intro bandwidth hdue
          cases hdue
          exact hreset.trans hzero.symm
        · intro hright
          exact (hright.2 _ rfl).symm.trans hreset
      · rw [if_neg hpos]
        exact iff_of_true (.inl (by omega)) ((hplain _ _).mpr hturn)
  | _ =>
    simp only [KeepsRight,step,and_true]
    rw [hplain]
    exact hagrees

theorem node_foldl (perSecond : Nat) (r : Reported PeerId)
    (es : List (RelayNode.Moment PeerId × RelayEvent PeerId)) :
    (es.foldl (step perSecond) r).node = es.foldl (RelayNode.stepAt perSecond) r.node := by
  induction es generalizing r with
  | nil => rfl
  | cons e es ih =>
    have hnode : (r.step perSecond e).node = r.node.stepAt perSecond e := by
      obtain ⟨m,e⟩ := e
      cases e with
      | report order =>
        cases hrunning : r.node.running <;> simp [step,RelayNode.stepAt,hrunning]
      | _ => rfl
    rw [List.foldl_cons,List.foldl_cons,ih,hnode]

/-- The number of streams is right all along the events of a node. From where the statistics are
right, as they are at the start, they stay right exactly as long as every event counts the peers as
the reporter does and no turn of the reporter has a bandwidth to show. -/
theorem statistics_right_iff (perSecond : Nat) (localPeerId : PeerId) (config : RelayConfig)
    (hasHandler : Bool) (now : Nat) :
    (start localPeerId config hasHandler now).Right ∧
    ∀ pre es : List (RelayNode.Moment PeerId × RelayEvent PeerId),
      let r := pre.foldl (step perSecond) (start localPeerId config hasHandler now)
      r.node.stats.activeStreams = r.node.streams.keys.card ∧
      (r.Right →
        ((∀ more, more <+: es → (more.foldl (step perSecond) r).Right) ↔
          Along (step perSecond) (KeepsRight perSecond) r es)) := by
  refine ⟨?_,?_⟩
  · constructor
    · rw [RelayNode.agrees_iff]
      exact ⟨rfl,rfl⟩
    · intro bandwidth hdue
      cases hdue
  · intro pre es r
    constructor
    · have hcounted := (along_true (RelayNode.stepAt perSecond)
        (.start localPeerId config hasHandler now) pre).invariant RelayNode.StreamsCounted rfl
        (fun s e h _ => RelayNode.stepAt_streamsCounted h perSecond e)
      have hnode : r.node = pre.foldl (RelayNode.stepAt perSecond) _ :=
        node_foldl perSecond (start localPeerId config hasHandler now) pre
      rw [hnode]
      exact hcounted
    · intro h
      exact (along_iff_prefixes Right h (fun r e h => step_right_iff h perSecond e)).symm

/-- Once the reporter has counted a stream's publisher, a new subscriber is counted as well. -/
theorem statistics_right_after_report :
    let order : HashOrder Unit StreamId :=
      ⟨fun _ s => s.toList,fun _ s => s.nodup_toList,fun _ _ _ => Finset.mem_toList⟩
    let m : RelayNode.Moment Nat := ⟨.ascending,0⟩
    let r := [(m,.message (.addStream ⟨[120]⟩ 7)),(m,.report order)].foldl (step 1)
      (start 0 .default true 0)
    ∀ more, more <+: [(m,.message (.addSubscriber ⟨[120]⟩ 8))] → (more.foldl (step 1) r).Right := by
  intro order m r
  have hpeers : peersOf r.node.streams = {7} := rfl
  have hright : r.Right := by
    constructor
    · exact RelayNode.reportStatsAt_agrees 1 _ order 0
    · have hnone : r.due = none := by
        show (((start 0 .default true 0).step 1 (m,.message (.addStream ⟨[120]⟩ 7))).step 1
          (m,.report order)).due = none
        rw [due_report rfl,elapsed]
        exact if_neg (by show ¬ 0 < (0-0)/1; decide)
      intro bandwidth hdue
      rw [hnone] at hdue
      cases hdue
  refine (((statistics_right_iff 1 0 .default true 0).2 _ _).2 hright).mpr ⟨?_,trivial⟩
  intro _
  refine ⟨?_,trivial⟩
  intro _ _ _
  rw [hpeers]
  decide

/-- A stream without a subscriber has one peer, and the statistics have none. Then ten bytes in two
seconds are reported as no bandwidth. -/
theorem statistics_disagree :
    let order : HashOrder Unit StreamId :=
      ⟨fun _ s => s.toList,fun _ s => s.nodup_toList,fun _ _ _ => Finset.mem_toList⟩
    let m (now : Nat) : RelayNode.Moment Nat := ⟨.ascending,now⟩
    let added := (start 0 .default true 0).step 1 (m 0,.message (.addStream ⟨[120]⟩ 7))
    let chunk : StreamChunk Nat := ⟨0,⟨[120]⟩,List.replicate 10 0,0,0,"video",false,none⟩
    let published := added.step 1 (m 1,.publish chunk)
    let reported := published.step 1 (m 2,.report order)
    added.node.stats.connectedPeers = 0 ∧ ¬ added.Right ∧
    reported.due = some 5 ∧ reported.node.stats.outgoingBandwidth = 0 ∧ ¬ reported.Right := by
  intro order m added chunk published reported
  have hnone : added.node.stats.connectedPeers = 0 := rfl
  have hpeers : peersOf added.node.streams = {7} := rfl
  have hbytes : published.recorded = 10 := rfl
  have hsecs : published.elapsed 1 (m 2).now = 2 := by
    show (2-0)/1 = 2
    rfl
  have hdue : reported.due = some 5 := by
    rw [due_report rfl,hbytes,hsecs]
    rfl
  have hzero : reported.node.stats.outgoingBandwidth = 0 := rfl
  refine ⟨hnone,?_,hdue,hzero,?_⟩
  · intro h
    have hcard := ((RelayNode.agrees_iff _).mp h.1).2
    rw [hnone,hpeers] at hcard
    cases hcard
  · intro h
    have hfive := h.2 5 hdue
    rw [hzero] at hfive
    cases hfive

end Reported

end OpenBroadcast.Relay
