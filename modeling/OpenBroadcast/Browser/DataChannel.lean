import OpenBroadcast.Browser.StreamClient
import OpenBroadcast.Framework.Boxes

namespace OpenBroadcast.Browser

open ArrayBuffer

section Bytes

/-- The slices of a list of bytes, from the start. -/
theorem flatten_slices (n k : Nat) (b : Bytes) :
    ((List.range k).map (fun i => (b.drop (i*n)).take (min (i*n+n) b.length-i*n))).flatten =
      b.take (k*n) := by
  induction k with
  | zero => simp
  | succ k ih =>
    have hslice : (b.drop (k*n)).take (min (k*n+n) b.length-k*n) = (b.drop (k*n)).take n := by
      by_cases hle : k*n+n ≤ b.length
      · have hwhole : min (k*n+n) b.length-k*n = n := by omega
        rw [hwhole]
      · have hrest : (b.drop (k*n)).length ≤ min (k*n+n) b.length-k*n := by
          rw [List.length_drop]
          omega
        have hall : (b.drop (k*n)).length ≤ n := by
          rw [List.length_drop]
          omega
        rw [List.take_of_length_le hrest,List.take_of_length_le hall]
    have hnext : (k+1)*n = k*n+n := Nat.succ_mul k n
    rw [List.range_succ,List.map_append,List.flatten_append,ih,hnext,List.take_add]
    simp [hslice]

instance : ArrayBuffer Bytes where
  byteLength := List.length
  slice b start stop := (b.drop start).take (stop-start)
  assembleChunks := List.flatten
  assemble_slices := by
    intro n b hn _
    rw [flatten_slices]
    apply List.take_of_length_le
    have hdiv := Nat.div_add_mod (b.length+n-1) n
    have hmod := Nat.mod_lt (b.length+n-1) hn
    rw [Nat.mul_comm]
    omega

end Bytes

variable {PeerId ι β : Type} [ArrayBuffer β]

variable (PeerId ι) in
/-- The slices of a buffer that is sent in chunks make up the buffer. -/
theorem sendChunked_eq (buffer : β) (hlength : 0 < byteLength buffer) :
    ∃ slices : List β, assembleChunks slices = buffer ∧
      (sendChunked buffer : List (Frame PeerId ι β)) =
        .text (.chunkStart (byteLength buffer))::(slices.map Frame.binary++[.text .chunkEnd]) := by
  refine ⟨_,assemble_slices maxChunkSize buffer (by decide) hlength,?_⟩
  simp [sendChunked,Function.comp_def]

/-- What a client keeps for one peer between the messages of its channel. -/
structure Slots (PeerId β : Type) where
  pending : Option (SegmentHeader PeerId)
  chunks : Option (ChunkState β)

namespace Slots

def empty : Slots PeerId β := ⟨none,none⟩

/-- What a message from `peer` makes of the slots, and the segments that it completes. -/
def push (peer : PeerId) (s : Slots PeerId β) :
    Frame PeerId ι β → Slots PeerId β × List (Option (SegmentHeader PeerId) × β)
  | .text (.chunkStart size) => ({ s with chunks := some ⟨[],0,size⟩ },[])
  | .text .chunkEnd =>
    match s.chunks with
    | some state => (empty,[(s.pending,assembleChunks state.chunks)])
    | none => (s,[])
  | .text (.header h) => if h.typed then ({ s with pending := some (h.pending peer) },[]) else (s,[])
  | .text (.streamInfo _) => (s,[])
  | .text .requestInit => (s,[])
  | .binary data =>
    match s.chunks with
    | some state =>
      let state := ⟨state.chunks++[data],state.totalSize+byteLength data,state.expectedSize⟩
      ({ s with chunks := some state },[])
    | none => ({ s with pending := none },[(s.pending,data)])

def decode (peer : PeerId) (s : Slots PeerId β) :
    List (Frame PeerId ι β) → Slots PeerId β × List (Option (SegmentHeader PeerId) × β)
  | [] => (s,[])
  | f::fs =>
    let (s,segments) := s.push peer f
    let (s,later) := s.decode peer fs
    (s,segments++later)

theorem decode_append (peer : PeerId) (s : Slots PeerId β) (fs gs : List (Frame PeerId ι β)) :
    s.decode peer (fs++gs) =
      (((s.decode peer fs).1.decode peer gs).1,
        (s.decode peer fs).2++((s.decode peer fs).1.decode peer gs).2) := by
  induction fs generalizing s with
  | nil => rfl
  | cons f fs ih =>
    simp only [List.cons_append,decode,ih]
    simp

/-- Between the markers, what is binary is collected. -/
theorem decode_binaries (peer : PeerId) (pending : Option (SegmentHeader PeerId))
    (state : ChunkState β) (slices : List β) :
    ∃ total, Slots.decode peer ⟨pending,some state⟩
      (slices.map Frame.binary : List (Frame PeerId ι β)) =
      (⟨pending,some ⟨state.chunks++slices,total,state.expectedSize⟩⟩,[]) := by
  induction slices generalizing state with
  | nil => exact ⟨state.totalSize,by simp [decode]⟩
  | cons data slices ih =>
    obtain ⟨total,htotal⟩ :=
      ih ⟨state.chunks++[data],state.totalSize+byteLength data,state.expectedSize⟩
    refine ⟨total,?_⟩
    simp only [List.map_cons,decode,push]
    rw [htotal]
    simp

theorem decode_sendChunked (peer : PeerId) (s : Slots PeerId β) (buffer : β)
    (hlength : 0 < byteLength buffer) :
    s.decode peer (sendChunked buffer : List (Frame PeerId ι β)) =
      (empty,[(s.pending,buffer)]) := by
  obtain ⟨slices,hjoined,hframes⟩ := sendChunked_eq PeerId ι buffer hlength
  obtain ⟨total,htotal⟩ :=
    decode_binaries (ι := ι) peer s.pending ⟨[],0,byteLength buffer⟩ slices
  rw [hframes]
  simp only [decode,push]
  rw [decode_append,htotal]
  simp [decode,push,hjoined]

/-- A segment that comes when nothing is left over is completed once, with its header. -/
theorem decode_segment (peer : PeerId) (h : SegmentHeader PeerId) (buffer : β) :
    (empty : Slots PeerId β).decode peer (sendSegmentToPeer h buffer : List (Frame PeerId ι β)) =
      (empty,[(if h.typed then some (h.pending peer) else none,buffer)]) := by
  unfold sendSegmentToPeer
  by_cases ht : h.typed
  · split_ifs with hsize
    · have hpositive : 0 < byteLength buffer := by omega
      simp [decode,push,ht,decode_sendChunked,hpositive]
    · simp [decode,push,ht,empty]
  · split_ifs with hsize
    · have hpositive : 0 < byteLength buffer := by omega
      simp [decode,push,ht,decode_sendChunked,hpositive,empty]
    · simp [decode,push,ht,empty]

end Slots

/-- What a receiver makes of an item from `peer`. -/
def Item.segments (peer : PeerId) :
    Item PeerId ι β → List (Option (SegmentHeader PeerId) × β)
  | .segment h buffer => [(if h.typed then some (h.pending peer) else none,buffer)]
  | _ => []

theorem Slots.decode_items (peer : PeerId) (items : List (Item PeerId ι β)) :
    (empty : Slots PeerId β).decode peer (items.flatMap Item.frames) =
      (empty,items.flatMap (Item.segments peer)) := by
  induction items with
  | nil => rfl
  | cons item items ih =>
    have hitem : (empty : Slots PeerId β).decode peer item.frames =
        (empty,item.segments peer) := by
      cases item with
      | streamInfo data => rfl
      | requestInit => rfl
      | segment h buffer => exact decode_segment peer h buffer
    rw [List.flatMap_cons,decode_append,hitem,ih,List.flatMap_cons]

/-- What is sent, and to whom. -/
def sends (effects : List (ClientEffect PeerId ι β)) : List (PeerId × Item PeerId ι β) :=
  effects.filterMap (fun
    | .send peer item => some (peer,item)
    | _ => none)

omit [ArrayBuffer β] in
@[simp] theorem sends_append (xs ys : List (ClientEffect PeerId ι β)) :
    sends (xs++ys) = sends xs++sends ys := by
  simp [sends]

/-- The items that are sent to a peer. -/
def itemsTo [DecidableEq PeerId] (peer : PeerId) (effects : List (ClientEffect PeerId ι β)) :
    List (Item PeerId ι β) :=
  effects.filterMap (fun
    | .send p item => if p = peer then some item else none
    | _ => none)

omit [ArrayBuffer β] in
@[simp] theorem itemsTo_append [DecidableEq PeerId] (peer : PeerId) (xs ys : List (ClientEffect PeerId ι β)) :
    itemsTo peer (xs++ys) = itemsTo peer xs++itemsTo peer ys := by
  simp [itemsTo]

omit [ArrayBuffer β] in
theorem mem_of_itemsTo [DecidableEq PeerId] {effects : List (ClientEffect PeerId ι β)} {q : PeerId}
    {item : Item PeerId ι β} (h : item ∈ itemsTo q effects) : .send q item ∈ effects := by
  obtain ⟨e,he,hsome⟩ := List.mem_filterMap.mp h
  cases e with
  | send peer item' =>
    by_cases hp : peer = q
    · have heq : item' = item := by simpa [hp] using hsome
      rw [← hp,← heq]
      exact he
    · simp [hp] at hsome
  | streamInfo data => cases hsome
  | received peer header buffer => cases hsome
  | relayReady => cases hsome

/-- The segments from `peer` that `processReceivedSegment` is called with, and their headers. -/
def receivedFrom [DecidableEq PeerId] (peer : PeerId) (effects : List (ClientEffect PeerId ι β)) :
    List (Option (SegmentHeader PeerId) × β) :=
  effects.filterMap (fun
    | .received p header buffer => if p = peer then some (header,buffer) else none
    | _ => none)

namespace StreamClient

variable [DecidableEq PeerId]

omit [ArrayBuffer β] in
@[simp] theorem receivedFrom_nil (peer : PeerId) :
    receivedFrom peer ([] : List (ClientEffect PeerId ι β)) = [] := rfl

omit [ArrayBuffer β] in
@[simp] theorem receivedFrom_append (peer : PeerId) (xs ys : List (ClientEffect PeerId ι β)) :
    receivedFrom peer (xs++ys) = receivedFrom peer xs++receivedFrom peer ys := by
  simp [receivedFrom]

def slots (c : StreamClient PeerId ι β) (peer : PeerId) : Slots PeerId β :=
  ⟨c.pendingSegmentHeader.lookup peer,c.incomingChunks.lookup peer⟩

/-- What leaves the slots alone and processes no segment. -/
structure Silent (c : StreamClient PeerId ι β)
    (r : StreamClient PeerId ι β × List (ClientEffect PeerId ι β)) : Prop where
  pending : r.1.pendingSegmentHeader = c.pendingSegmentHeader
  chunks : r.1.incomingChunks = c.incomingChunks
  effects : ∀ peer, receivedFrom peer r.2 = []

section Silent

variable {c : StreamClient PeerId ι β}

omit [ArrayBuffer β] in
theorem Silent.slots {r : StreamClient PeerId ι β × List (ClientEffect PeerId ι β)}
    (h : Silent c r) (peer : PeerId) : r.1.slots peer = c.slots peer := by
  simp [StreamClient.slots,h.pending,h.chunks]

omit [ArrayBuffer β] in
theorem receivedFrom_sends {α : Type} (peer : PeerId) (l : List α) (f : α → PeerId)
    (g : α → Item PeerId ι β) :
    receivedFrom peer (l.map (fun x => ClientEffect.send (f x) (g x))) = [] := by
  simp [receivedFrom]

omit [ArrayBuffer β] in
theorem checkRelayReady_silent : Silent c c.checkRelayReady := by
  unfold checkRelayReady
  split_ifs
  · exact ⟨rfl,rfl,fun _ => rfl⟩
  · exact ⟨rfl,rfl,fun _ => rfl⟩

omit [ArrayBuffer β] in
theorem cacheReceived_silent (h : SegmentHeader PeerId) (buffer : β) :
    Silent c (c.cacheReceived h buffer) := by
  have hready : Silent c ({ c with cachedInitSegment := some buffer }.checkRelayReady) := by
    have hsame := checkRelayReady_silent (c := { c with cachedInitSegment := some buffer })
    exact ⟨hsame.pending,hsame.chunks,hsame.effects⟩
  unfold cacheReceived
  dsimp only
  split_ifs
  · exact ⟨hready.pending,hready.chunks,hready.effects⟩
  · exact ⟨rfl,rfl,fun _ => rfl⟩
  · exact hready
  · exact ⟨rfl,rfl,fun _ => rfl⟩

theorem relayReceived_silent (h : SegmentHeader PeerId) (buffer : β) (peer : PeerId) :
    Silent c (c.relayReceived h buffer peer) := by
  unfold relayReceived
  dsimp only
  split_ifs
  · refine ⟨by simp [addSeenSequence,pushSegment],by simp [addSeenSequence,pushSegment],?_⟩
    intro p
    simp only [relaySegmentToPeers]
    split_ifs
    · rfl
    · exact receivedFrom_sends p _ _ _
  · exact ⟨rfl,rfl,fun _ => rfl⟩

theorem forwardSegmentToPeers_silent (buffer : β) (chunkType : String) (isKeyframe : Bool)
    (now : Nat) : Silent c (c.forwardSegmentToPeers buffer chunkType isKeyframe now) := by
  unfold forwardSegmentToPeers
  dsimp only
  split_ifs <;> exact ⟨rfl,rfl,fun p => by simp [receivedFrom]⟩

theorem receivedFrom_sendCachedDataToPeer (target peer : PeerId) (now : Nat) :
    receivedFrom peer (c.sendCachedDataToPeer target now) = [] := by
  unfold sendCachedDataToPeer
  split_ifs
  · rfl
  · exact receivedFrom_sends peer _ _ _

theorem channelOpened_silent (peer : PeerId) (now : Nat) :
    Silent c (c.channelOpened peer now) := by
  refine ⟨rfl,rfl,fun p => ?_⟩
  unfold channelOpened
  dsimp only
  rw [receivedFrom_append]
  have hrequest : receivedFrom p [(.send peer .requestInit : ClientEffect PeerId ι β)] = [] := rfl
  split_ifs <;> simp [receivedFrom_sendCachedDataToPeer,hrequest]

end Silent

section Messages

variable {c : StreamClient PeerId ι β}

/-- `processReceivedSegment` takes the header of the peer, and is called once. -/
theorem processReceivedSegment_slots (peer p : PeerId) (buffer : β) :
    (c.processReceivedSegment peer buffer).1.slots p =
      (if p = peer then ⟨none,(c.slots p).chunks⟩ else c.slots p) ∧
    receivedFrom p (c.processReceivedSegment peer buffer).2 =
      if p = peer then [((c.slots p).pending,buffer)] else [] := by
  have htaken : (c.takeHeader peer).slots p =
      if p = peer then ⟨none,(c.slots p).chunks⟩ else c.slots p := by
    split_ifs with hp
    · subst hp
      simp [slots,takeHeader]
    · simp [slots,takeHeader,hp]
  have hcall : ∀ header : Option (SegmentHeader PeerId),
      c.pendingSegmentHeader.lookup peer = header →
      receivedFrom p [(.received peer header buffer : ClientEffect PeerId ι β)] =
        if p = peer then [((c.slots p).pending,buffer)] else [] := by
    intro header hheader
    split_ifs with hp
    · subst hp
      simp [receivedFrom,slots,hheader]
    · have hne : peer ≠ p := fun h => hp h.symm
      simp [receivedFrom,hne]
  cases hheader : c.pendingSegmentHeader.lookup peer with
  | none =>
    rw [processReceivedSegment_none hheader]
    exact ⟨htaken,hcall none hheader⟩
  | some h =>
    have hcached := cacheReceived_silent (c := c.takeHeader peer) h buffer
    have hrelayed := relayReceived_silent
      (c := ((c.takeHeader peer).cacheReceived h buffer).1) h buffer peer
    rw [processReceivedSegment_some hheader]
    refine ⟨?_,?_⟩
    · rw [hrelayed.slots,hcached.slots]
      exact htaken
    · rw [receivedFrom_append,hcached.effects,List.nil_append,← List.singleton_append,
        receivedFrom_append,hrelayed.effects,List.append_nil]
      exact hcall (some h) hheader

/-- A message of a peer goes to its slots and to nobody else's. -/
theorem message_slots (peer p : PeerId) (data : Frame PeerId ι β) (now : Nat) :
    (c.handleDataChannelMessage peer data now).1.slots p =
      (if p = peer then ((c.slots p).push p data).1 else c.slots p) ∧
    receivedFrom p (c.handleDataChannelMessage peer data now).2 =
      if p = peer then ((c.slots p).push p data).2 else [] := by
  have hunchanged : ∀ f : Frame PeerId ι β, ((c.slots p).push p f) = (c.slots p,[]) →
      c.slots p = (if p = peer then ((c.slots p).push p f).1 else c.slots p) := by
    intro f hf
    rw [hf,ite_self]
  cases data with
  | text m =>
    cases m with
    | chunkStart size =>
      refine ⟨?_,by simp [handleDataChannelMessage,handleControlMessage,Slots.push]⟩
      by_cases hp : p = peer
      · subst hp
        simp [handleDataChannelMessage,handleControlMessage,slots,Slots.push]
      · simp [handleDataChannelMessage,handleControlMessage,slots,hp]
    | chunkEnd =>
      simp only [handleDataChannelMessage,handleControlMessage]
      cases hstate : c.incomingChunks.lookup peer with
      | none =>
        by_cases hp : p = peer
        · subst hp
          simp [slots,Slots.push,hstate]
        · simp [hp]
      | some state =>
        obtain ⟨hslots,hcalls⟩ := processReceivedSegment_slots
          (c := { c with incomingChunks := c.incomingChunks.erase peer }) peer p
          (assembleChunks state.chunks)
        dsimp only
        rw [hslots,hcalls]
        by_cases hp : p = peer
        · subst hp
          simp [slots,Slots.push,Slots.empty,hstate]
        · simp [slots,hp]
    | streamInfo data =>
      have hready := checkRelayReady_silent (c := { c with cachedStreamInfo := some data })
      simp only [handleDataChannelMessage,handleControlMessage]
      refine ⟨?_,?_⟩
      · rw [hready.slots]
        exact hunchanged (.text (.streamInfo data)) rfl
      · have heffects := hready.effects p
        simpa [receivedFrom,Slots.push] using heffects
    | header h =>
      simp only [handleDataChannelMessage,handleControlMessage]
      by_cases ht : h.typed
      · rw [if_pos ht]
        by_cases hp : p = peer
        · subst hp
          simp [slots,Slots.push,ht]
        · simp [slots,hp]
      · rw [if_neg ht]
        have hpush : (c.slots p).push p (.text (.header h) : Frame PeerId ι β) = (c.slots p,[]) := by
          simp [Slots.push,ht]
        exact ⟨hunchanged _ hpush,by simp [hpush]⟩
    | requestInit =>
      simp only [handleDataChannelMessage,handleControlMessage]
      have hsame := hunchanged (.text .requestInit) rfl
      by_cases hopen : c.dataChannels.get peer = some true
      · rw [if_pos hopen]
        exact ⟨hsame,by simp [receivedFrom_sendCachedDataToPeer,Slots.push]⟩
      · rw [if_neg hopen]
        exact ⟨hsame,by simp [Slots.push]⟩
  | binary data =>
    simp only [handleDataChannelMessage]
    cases hstate : c.incomingChunks.lookup peer with
    | none =>
      obtain ⟨hslots,hcalls⟩ := processReceivedSegment_slots (c := c) peer p data
      dsimp only
      rw [hslots,hcalls]
      by_cases hp : p = peer
      · subst hp
        simp [slots,Slots.push,hstate]
      · simp [hp]
    | some state =>
      by_cases hp : p = peer
      · subst hp
        simp [slots,Slots.push,hstate]
      · simp [slots,hp]

end Messages

section Runs

/-- What an event brings from `peer`. -/
def eventFrames (peer : PeerId) : StreamEvent PeerId ι β → List (Frame PeerId ι β)
  | .message p data => if p = peer then [data] else []
  | _ => []

def framesFrom (peer : PeerId) (es : List (Nat × StreamEvent PeerId ι β)) :
    List (Frame PeerId ι β) :=
  es.flatMap (fun e => eventFrames peer e.2)

/-- The channel to `peer` or the whole connection to it is closed. -/
def Closes (peer : PeerId) : StreamEvent PeerId ι β → Prop
  | .channelClosed p => p = peer
  | .closePeerConnection p => p = peer
  | _ => False

variable {c : StreamClient PeerId ι β} {peer : PeerId}

theorem step_slots (now : Nat) (e : StreamEvent PeerId ι β) (hopen : ¬ Closes peer e) :
    (c.step now e).1.slots peer = ((c.slots peer).decode peer (eventFrames peer e)).1 ∧
    receivedFrom peer (c.step now e).2 = ((c.slots peer).decode peer (eventFrames peer e)).2 := by
  cases e with
  | setupDataChannel p => exact ⟨rfl,rfl⟩
  | channelOpened p =>
    have hsilent := channelOpened_silent (c := c) p now
    exact ⟨hsilent.slots peer,hsilent.effects peer⟩
  | channelClosed p =>
    have hne : peer ≠ p := fun h => hopen h.symm
    exact ⟨by simp [step,channelClosed,slots,hne,eventFrames,Slots.decode],rfl⟩
  | closePeerConnection p =>
    have hne : peer ≠ p := fun h => hopen h.symm
    exact ⟨by simp [step,closePeerConnection,slots,hne,eventFrames,Slots.decode],rfl⟩
  | message p data =>
    obtain ⟨hslots,hcalls⟩ := message_slots (c := c) p peer data now
    simp only [step,eventFrames]
    rw [hslots,hcalls]
    by_cases hp : peer = p
    · subst hp
      simp [Slots.decode]
    · have hne : p ≠ peer := fun h => hp h.symm
      simp [hp,hne,Slots.decode]
  | forward buffer chunkType isKeyframe =>
    have hsilent := forwardSegmentToPeers_silent (c := c) buffer chunkType isKeyframe now
    exact ⟨hsilent.slots peer,hsilent.effects peer⟩
  | cacheStreamInfo data => exact ⟨rfl,rfl⟩
  | cacheInitSegment buffer => exact ⟨rfl,rfl⟩
  | becomePublisher => exact ⟨rfl,rfl⟩
  | disconnect => exact ⟨rfl,rfl⟩

/-- While the channel is open, its messages are decoded one after the other. -/
theorem run_slots (es : List (Nat × StreamEvent PeerId ι β))
    (hopen : ∀ e ∈ es, ¬ Closes peer e.2) :
    (c.run es).1.slots peer = ((c.slots peer).decode peer (framesFrom peer es)).1 ∧
    receivedFrom peer (c.run es).2 = ((c.slots peer).decode peer (framesFrom peer es)).2 := by
  induction es generalizing c with
  | nil => exact ⟨rfl,rfl⟩
  | cons e es ih =>
    obtain ⟨now,e⟩ := e
    obtain ⟨hslots,hcalls⟩ := step_slots (c := c) now e (hopen (now,e) (by simp))
    obtain ⟨hslots',hcalls'⟩ :=
      ih (c := (c.step now e).1) (fun e he => hopen e (List.mem_cons_of_mem _ he))
    have hframes : framesFrom peer ((now,e)::es) = eventFrames peer e++framesFrom peer es := rfl
    rw [hframes,Slots.decode_append]
    rw [hslots] at hslots' hcalls'
    rw [run_cons]
    exact ⟨hslots',by rw [receivedFrom_append,hcalls,hcalls']⟩

/-- As long as nothing comes from a peer, nothing is kept for it. -/
theorem run_slots_empty (es : List (Nat × StreamEvent PeerId ι β))
    (hnothing : framesFrom peer es = []) (hempty : c.slots peer = .empty) :
    (c.run es).1.slots peer = .empty := by
  induction es generalizing c with
  | nil => exact hempty
  | cons e es ih =>
    obtain ⟨now,e⟩ := e
    obtain ⟨hfirst,hrest⟩ := List.append_eq_nil_iff.mp hnothing
    have hevent : eventFrames peer e = [] := hfirst
    have hstep : (c.step now e).1.slots peer = .empty := by
      by_cases hclose : Closes peer e
      · obtain ⟨hpending,hchunks⟩ := Slots.mk.inj hempty
        cases e with
        | channelClosed p =>
          have hp : p = peer := hclose
          subst hp
          simp [step,channelClosed,slots,hchunks,Slots.empty]
        | closePeerConnection p =>
          have hp : p = peer := hclose
          subst hp
          simp [step,closePeerConnection,slots,hpending,Slots.empty]
        | _ => exact hclose.elim
      · rw [(step_slots now e hclose).1,hevent]
        exact hempty
    exact ih hrest hstep

end Runs

end StreamClient

/-- The segments among what is sent. -/
def Item.segment? : Item PeerId ι β → Option (SegmentHeader PeerId × β)
  | .segment h buffer => some (h,buffer)
  | _ => none

open StreamClient in
/-- What a client sends over one channel arrives: the receiver may have done anything before a
message of this peer came, and goes on with other peers in between. -/
theorem segments_processed_in_order [DecidableEq PeerId] (streamId : String) (isPublisher : Bool)
    (peer : PeerId) (before es : List (Nat × StreamEvent PeerId ι Bytes))
    (items : List (Item PeerId ι Bytes)) (hbefore : framesFrom peer before = [])
    (hopen : ∀ e ∈ es, ¬ Closes peer e.2)
    (hframes : framesFrom peer es = items.flatMap Item.frames)
    (htyped : ∀ h buffer, Item.segment h buffer ∈ items → h.typed) :
    receivedFrom peer (((new streamId isPublisher).run before).1.run es).2 =
      (items.filterMap Item.segment?).map (fun s => (some (s.1.pending peer),s.2)) := by
  have hnew : (new streamId isPublisher : StreamClient PeerId ι Bytes).slots peer = .empty := by
    simp [slots,new,Slots.empty]
  have hempty := run_slots_empty before hbefore hnew
  rw [(run_slots es hopen).2,hempty,hframes,Slots.decode_items]
  clear hframes
  induction items with
  | nil => rfl
  | cons item items ih =>
    have hrest := ih (fun h buffer hmem => htyped h buffer (List.mem_cons_of_mem _ hmem))
    cases item with
    | streamInfo data => exact hrest
    | requestInit => exact hrest
    | segment h buffer =>
      have ht : h.typed := htyped h buffer (by simp)
      simpa [Item.segments,Item.segment?,ht] using hrest

/-- The messages of these items, as they come from `peer`. -/
def messagesOf (peer : PeerId) (now : Nat) (items : List (Item PeerId ι β)) :
    List (Nat × StreamEvent PeerId ι β) :=
  (items.flatMap Item.frames).map (fun data => (now,.message peer data))

theorem framesFrom_messagesOf [DecidableEq PeerId] (peer : PeerId) (now : Nat)
    (items : List (Item PeerId ι β)) :
    StreamClient.framesFrom peer (messagesOf peer now items) = items.flatMap Item.frames := by
  simp [StreamClient.framesFrom,messagesOf,StreamClient.eventFrames,List.flatMap_map]

theorem messagesOf_open [DecidableEq PeerId] (peer : PeerId) (now : Nat)
    (items : List (Item PeerId ι β)) :
    ∀ e ∈ messagesOf peer now items, ¬ StreamClient.Closes peer e.2 := by
  intro e he
  obtain ⟨data,_,rfl⟩ := List.mem_map.mp he
  exact id

def oneByteTooLong : Bytes := List.replicate 16001 7

def videoHeader (sequence : Int) (size : Nat) : SegmentHeader Nat :=
  ⟨true,"video",sequence,size,false,0,some 3,none⟩

/-- A segment in two chunks, a request and an empty segment, after a `stream_info`. -/
def chunkedItems : List (Item Nat Unit Bytes) :=
  [.streamInfo (),.segment (videoHeader 0 16001) oneByteTooLong,.requestInit,
    .segment (videoHeader 1 0) []]

open StreamClient in
theorem segments_processed_in_order_chunked :
    receivedFrom 1 (((new "stream" false).run [(0,.channelOpened 1)]).1.run
      (messagesOf 1 0 chunkedItems)).2 =
      [(some ((videoHeader 0 16001).pending 1),oneByteTooLong),
        (some ((videoHeader 1 0).pending 1),[])] := by
  have htyped : ∀ h buffer, Item.segment h buffer ∈ chunkedItems → h.typed := by
    intro h buffer hmem
    simp only [chunkedItems,List.mem_cons,List.not_mem_nil,or_false] at hmem
    rcases hmem with hmem | hmem | hmem | hmem
    · cases hmem
    · cases hmem
      rfl
    · cases hmem
    · cases hmem
      rfl
  exact segments_processed_in_order "stream" false 1 [(0,.channelOpened 1)]
    (messagesOf 1 0 chunkedItems) chunkedItems rfl (messagesOf_open 1 0 chunkedItems)
    (framesFrom_messagesOf 1 0 chunkedItems) htyped

end OpenBroadcast.Browser
