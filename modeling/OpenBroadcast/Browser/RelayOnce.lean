import OpenBroadcast.Browser.DataChannel
import OpenBroadcast.Framework.Run

namespace OpenBroadcast.Browser

open ArrayBuffer

variable {PeerId ι β σ : Type}

/-- A segment that has come with a header: the client when it has cached what it caches of it, and
before it relays it. -/
structure Arrival (PeerId ι β : Type) where
  peer : PeerId
  client : StreamClient PeerId ι β
  header : SegmentHeader PeerId
  buffer : β

namespace Arrival

def ttl (a : Arrival PeerId ι β) : Int := a.header.ttl.getD maxRelayTTL

/-- Whether a subscriber that relays has processed the segment. -/
def relaying (a : Arrival PeerId ι β) : Bool := a.client.canRelay && !a.client.isPublisher

variable [DecidableEq PeerId] [ArrayBuffer β]

/-- The other open channels. -/
def others (a : Arrival PeerId ι β) : List PeerId :=
  a.client.openPeers.filter (fun peer => peer ≠ a.peer)

/-- The segment as it goes on, with one hop less to live. -/
def relayedItem (a : Arrival PeerId ι β) : Item PeerId ι β :=
  .segment (a.header.relayHeader (byteLength a.buffer) (a.ttl-1)) a.buffer

end Arrival

variable [DecidableEq PeerId] [ArrayBuffer β]

namespace StreamClient

/-- The call of `processReceivedSegment` that an event leads to: from whom, in which state of the
client, and with which buffer. -/
def processing (c : StreamClient PeerId ι β) :
    StreamEvent PeerId ι β → Option (PeerId × StreamClient PeerId ι β × β)
  | .message peer (.text .chunkEnd) =>
    (c.incomingChunks.lookup peer).map (fun state =>
      (peer,{ c with incomingChunks := c.incomingChunks.erase peer },assembleChunks state.chunks))
  | .message peer (.binary data) =>
    if (c.incomingChunks.lookup peer).isSome then none else some (peer,c,data)
  | _ => none

def arrival (c : StreamClient PeerId ι β) (e : StreamEvent PeerId ι β) :
    Option (Arrival PeerId ι β) :=
  (c.processing e).bind (fun (peer,c,buffer) =>
    (c.pendingSegmentHeader.lookup peer).map (fun h =>
      ⟨peer,((c.takeHeader peer).cacheReceived h buffer).1,h,buffer⟩))

section Steps

variable {c : StreamClient PeerId ι β}

/-- The part of the client that the check for duplicates reads. -/
def SameSeen (c c' : StreamClient PeerId ι β) : Prop :=
  c'.streamId = c.streamId ∧ c'.seenSequences = c.seenSequences

omit [DecidableEq PeerId] [ArrayBuffer β] in
theorem checkRelayReady_sameSeen : SameSeen c c.checkRelayReady.1 := by
  unfold checkRelayReady
  split_ifs <;> exact ⟨rfl,rfl⟩

omit [DecidableEq PeerId] [ArrayBuffer β] in
theorem cacheReceived_sameSeen (h : SegmentHeader PeerId) (buffer : β) :
    SameSeen c (c.cacheReceived h buffer).1 := by
  have hready := checkRelayReady_sameSeen (c := { c with cachedInitSegment := some buffer })
  unfold cacheReceived
  dsimp only
  split_ifs
  · exact hready
  · exact ⟨rfl,rfl⟩
  · exact hready
  · exact ⟨rfl,rfl⟩

/-- A call of `processReceivedSegment` is all that its event does. -/
theorem step_of_processing {e : StreamEvent PeerId ι β} {peer : PeerId}
    {c' : StreamClient PeerId ι β} {buffer : β} (h : c.processing e = some (peer,c',buffer)) :
    SameSeen c c' ∧ ∀ now, c.step now e = c'.processReceivedSegment peer buffer := by
  cases e with
  | message p data =>
    cases data with
    | text m =>
      cases m with
      | chunkEnd =>
        obtain ⟨state,hstate,heq⟩ := Option.map_eq_some_iff.mp h
        cases heq
        refine ⟨⟨rfl,rfl⟩,fun now => ?_⟩
        simp [step_message,handleDataChannelMessage,handleControlMessage,hstate]
      | _ => cases h
    | binary data =>
      simp only [processing] at h
      split_ifs at h with hchunks
      cases h
      have hnone : c.incomingChunks.lookup peer = none := by simpa using hchunks
      refine ⟨⟨rfl,rfl⟩,fun now => ?_⟩
      simp [step_message,handleDataChannelMessage,hnone]
  | _ => cases h

theorem message_of_not_processing {peer : PeerId} {data : Frame PeerId ι β}
    (h : c.processing (.message peer data) = none) (now : Nat) :
    SameSeen c (c.handleDataChannelMessage peer data now).1 := by
  cases data with
  | text m =>
    simp only [handleDataChannelMessage]
    cases m with
    | chunkStart size => exact ⟨rfl,rfl⟩
    | chunkEnd =>
      have hnone : c.incomingChunks.lookup peer = none := Option.map_eq_none_iff.mp h
      simp only [handleControlMessage,hnone]
      exact ⟨rfl,rfl⟩
    | streamInfo data => exact checkRelayReady_sameSeen (c := { c with cachedStreamInfo := some data })
    | header header =>
      simp only [handleControlMessage]
      split_ifs <;> exact ⟨rfl,rfl⟩
    | requestInit =>
      simp only [handleControlMessage]
      split_ifs <;> exact ⟨rfl,rfl⟩
  | binary data =>
    simp only [processing] at h
    split_ifs at h with hchunks
    obtain ⟨state,hstate⟩ := Option.isSome_iff_exists.mp hchunks
    simp only [handleDataChannelMessage,hstate]
    exact ⟨rfl,rfl⟩

theorem step_of_not_processing {e : StreamEvent PeerId ι β} (h : c.processing e = none)
    (now : Nat) : SameSeen c (c.step now e).1 := by
  cases e with
  | message peer data => exact message_of_not_processing h now
  | forward buffer chunkType isKeyframe =>
    simp only [step,forwardSegmentToPeers]
    split_ifs <;> exact ⟨rfl,rfl⟩
  | _ => exact ⟨rfl,rfl⟩

/-- What an event does that brings no segment with a header. -/
theorem step_of_no_arrival {e : StreamEvent PeerId ι β} (h : c.arrival e = none) (now : Nat) :
    SameSeen c (c.step now e).1 := by
  cases hprocessing : c.processing e with
  | none => exact step_of_not_processing hprocessing now
  | some call =>
    obtain ⟨peer,c',buffer⟩ := call
    obtain ⟨hsame,hstep⟩ := step_of_processing hprocessing
    have hheader : c'.pendingSegmentHeader.lookup peer = none := by
      simpa [arrival,hprocessing] using h
    rw [hstep,processReceivedSegment_none hheader]
    exact hsame

omit [DecidableEq PeerId] [ArrayBuffer β] in
theorem sends_checkRelayReady : sends c.checkRelayReady.2 = [] := by
  unfold checkRelayReady
  split_ifs <;> rfl

omit [DecidableEq PeerId] [ArrayBuffer β] in
theorem sends_cacheReceived (h : SegmentHeader PeerId) (buffer : β) :
    sends (c.cacheReceived h buffer).2 = [] := by
  unfold cacheReceived
  dsimp only
  split_ifs
  · exact sends_checkRelayReady
  · rfl
  · exact sends_checkRelayReady
  · rfl

/-- What an event does that brings a segment: it is relayed, if the check lets it. -/
theorem step_of_arrival {e : StreamEvent PeerId ι β} {a : Arrival PeerId ι β}
    (h : c.arrival e = some a) (now : Nat) :
    SameSeen c a.client ∧
    (c.step now e).1 = (a.client.relayReceived a.header a.buffer a.peer).1 ∧
    sends (c.step now e).2 = sends (a.client.relayReceived a.header a.buffer a.peer).2 := by
  obtain ⟨⟨peer,c',buffer⟩,hprocessing,hmap⟩ := Option.bind_eq_some_iff.mp h
  obtain ⟨header,hheader,rfl⟩ := Option.map_eq_some_iff.mp hmap
  obtain ⟨hsame,hstep⟩ := step_of_processing hprocessing
  obtain ⟨hstream,hseen⟩ := cacheReceived_sameSeen (c := c'.takeHeader peer) header buffer
  rw [hstep,processReceivedSegment_some hheader]
  refine ⟨⟨hstream.trans hsame.1,hseen.trans hsame.2⟩,rfl,?_⟩
  rw [sends_append,sends_cacheReceived]
  rfl

/-- The other peers get the segment, if it is let through with a hop to live. -/
theorem sends_relayReceived (a : Arrival PeerId ι β) (httl : 1 < a.ttl) :
    sends (a.client.relayReceived a.header a.buffer a.peer).2 =
      if a.client.relays a.header then a.others.map (fun peer => (peer,a.relayedItem)) else [] := by
  unfold relayReceived
  split_ifs with hrelays
  · have hpositive : ¬ a.header.ttl.getD maxRelayTTL-1 ≤ 0 := by
      unfold Arrival.ttl at httl
      omega
    have hpeers : ((a.client.addSeenSequence (a.client.dedupKey a.header)).pushSegment a.header
        a.buffer).openPeers = a.client.openPeers := by
      simp [openPeers,pushSegment,addSeenSequence]
    simp only [relaySegmentToPeers,if_neg hpositive,hpeers]
    simp [sends,Arrival.others,Arrival.relayedItem,Arrival.ttl,List.filterMap_map]
  · rfl

end Steps

end StreamClient

/-- A segment that got past the check for duplicates. -/
structure Mark (σ : Type) where
  ident : σ
  sequence : Int
  forwarded : Bool

def Mark.key (streamId : String) (m : Mark σ) : DedupKey := ⟨streamId,m.sequence⟩

/-- A client, and the segments that got past its check for duplicates so far. -/
structure Relay (PeerId ι β σ : Type) where
  client : StreamClient PeerId ι β
  marked : List (Mark σ)

namespace Relay

section Model

variable (ident : SegmentHeader PeerId → β → σ)

omit [DecidableEq PeerId] [ArrayBuffer β] in
def new (streamId : String) (isPublisher : Bool) : Relay PeerId ι β σ :=
  ⟨.new streamId isPublisher,[]⟩

omit [DecidableEq PeerId] [ArrayBuffer β] in
def markOf (a : Arrival PeerId ι β) : Mark σ :=
  ⟨ident a.header a.buffer,a.header.sequence,decide (1 < a.ttl)⟩

def step (r : Relay PeerId ι β σ) (e : Nat × StreamEvent PeerId ι β) : Relay PeerId ι β σ where
  client := (r.client.step e.1 e.2).1
  marked :=
    match r.client.arrival e.2 with
    | some a => if a.client.relays a.header then r.marked++[markOf ident a] else r.marked
    | none => r.marked

omit [DecidableEq PeerId] [ArrayBuffer β] in
/-- The segments that the client has relayed. -/
def relayed (r : Relay PeerId ι β σ) : List σ := (r.marked.filter (·.forwarded)).map Mark.ident

/-- A segment with a hop to live that a relaying subscriber processes is forwarded to all its other
open channels if it has not relayed it yet, and to none if it is among the last 500 relayed. -/
def Forwards (r : Relay PeerId ι β σ) (e : Nat × StreamEvent PeerId ι β) : Prop :=
  ∀ a, r.client.arrival e.2 = some a → a.relaying → 1 < a.ttl →
    (ident a.header a.buffer ∉ r.relayed →
      sends (r.client.step e.1 e.2).2 = a.others.map (fun peer => (peer,a.relayedItem))) ∧
    (ident a.header a.buffer ∈ r.relayed.rtake maxSeenSequences →
      sends (r.client.step e.1 e.2).2 = [])

/-- With another open channel: a segment that has not been relayed has a sequence number that none
of the last 500 has that got past the check, and one among the last 500 relayed does not. -/
def Keyed (r : Relay PeerId ι β σ) (e : Nat × StreamEvent PeerId ι β) : Prop :=
  ∀ a, r.client.arrival e.2 = some a → a.relaying → 1 < a.ttl → a.others ≠ [] →
    (ident a.header a.buffer ∉ r.relayed →
      ∀ m ∈ r.marked.rtake maxSeenSequences, m.sequence ≠ a.header.sequence) ∧
    (ident a.header a.buffer ∈ r.relayed.rtake maxSeenSequences →
      ∃ m ∈ r.marked.rtake maxSeenSequences, m.sequence = a.header.sequence)

end Model

section Seen

variable {ident : SegmentHeader PeerId → β → σ} {r : Relay PeerId ι β σ}

/-- The client knows the keys of the last 500 that got past the check. -/
def SeenRecent (r : Relay PeerId ι β σ) : Prop :=
  r.client.seenSequences =
    (r.marked.rtake maxSeenSequences).map (Mark.key r.client.streamId)

theorem map_rtake {α γ : Type} (f : α → γ) (l : List α) (n : Nat) :
    (l.rtake n).map f = (l.map f).rtake n := by
  simp [List.rtake,List.map_drop]

omit [DecidableEq PeerId] [ArrayBuffer β] in
/-- What the marks say about a client, they say about one with the same keys. -/
theorem seen_of_sameSeen {c : StreamClient PeerId ι β} (hsame : StreamClient.SameSeen r.client c)
    (h : SeenRecent r) :
    c.seenSequences = (r.marked.rtake maxSeenSequences).map (Mark.key c.streamId) := by
  rw [hsame.1,hsame.2]
  exact h

theorem step_seenRecent (e : Nat × StreamEvent PeerId ι β) (h : SeenRecent r) :
    SeenRecent (r.step ident e) := by
  unfold SeenRecent
  cases harrival : r.client.arrival e.2 with
  | none =>
    have hsame := StreamClient.step_of_no_arrival harrival e.1
    simp only [step,harrival]
    exact seen_of_sameSeen hsame h
  | some a =>
    obtain ⟨hsame,hstep,_⟩ := StreamClient.step_of_arrival harrival e.1
    have hseen := seen_of_sameSeen hsame h
    simp only [step,harrival,hstep,StreamClient.relayReceived]
    by_cases hrelays : a.client.relays a.header = true
    · rw [if_pos hrelays,if_pos hrelays]
      have hfresh : a.client.dedupKey a.header ∉ a.client.seenSequences := by
        simp only [StreamClient.relays,Bool.and_eq_true,decide_eq_true_eq] at hrelays
        exact hrelays.1.2
      simp only [StreamClient.pushSegment,StreamClient.addSeenSequence,if_neg hfresh]
      rw [hseen,map_rtake,rtake_snoc_rtake,map_rtake,List.map_append]
      rfl
    · rw [if_neg hrelays,if_neg hrelays]
      exact hseen

omit [DecidableEq PeerId] [ArrayBuffer β] in
/-- The check lets a segment through if and only if none of the last 500 has its number. -/
theorem relays_iff {a : Arrival PeerId ι β} (hrelaying : a.relaying = true) (httl : 1 < a.ttl)
    (hsame : StreamClient.SameSeen r.client a.client) (h : SeenRecent r) :
    a.client.relays a.header = true ↔
      ∀ m ∈ r.marked.rtake maxSeenSequences, m.sequence ≠ a.header.sequence := by
  have hpositive : 0 < a.header.ttl.getD maxRelayTTL := by
    unfold Arrival.ttl at httl
    omega
  have hrelaying : (a.client.canRelay && !a.client.isPublisher) = true := hrelaying
  simp only [StreamClient.relays,hrelaying,hpositive,Bool.true_and,decide_true,Bool.and_true,
    decide_eq_true_eq]
  rw [seen_of_sameSeen hsame h]
  constructor
  · intro hfresh m hm heq
    apply hfresh
    exact List.mem_map.mpr ⟨m,hm,by rw [Mark.key,heq]; rfl⟩
  · intro hnone hmem
    obtain ⟨m,hm,hkey⟩ := List.mem_map.mp hmem
    exact hnone m hm (congrArg DedupKey.sequence hkey)

theorem forwards_iff (e : Nat × StreamEvent PeerId ι β) (h : SeenRecent r) :
    Forwards ident r e ↔ Keyed ident r e := by
  unfold Forwards Keyed
  apply forall_congr'
  intro a
  apply forall_congr'
  intro harrival
  apply forall_congr'
  intro hrelaying
  apply forall_congr'
  intro httl
  obtain ⟨hsame,_,hsends⟩ := StreamClient.step_of_arrival harrival e.1
  have hrelays := relays_iff hrelaying httl hsame h
  rw [hsends,StreamClient.sends_relayReceived a httl]
  by_cases hothers : a.others = []
  · simp [hothers]
  · have hsome : (∃ m ∈ r.marked.rtake maxSeenSequences, m.sequence = a.header.sequence) ↔
        ¬ a.client.relays a.header = true := by
      rw [hrelays]
      simp
    have hsent : a.others.map (fun peer => (peer,a.relayedItem)) ≠ [] := by
      simpa using hothers
    rw [← hrelays,hsome]
    generalize a.others.map (fun peer => (peer,a.relayedItem)) = sent at hsent
    by_cases hthrough : a.client.relays a.header = true
    · simp [hthrough,hothers,hsent]
    · simp [hthrough,hothers,hsent.symm]

/-- Along any run of a client: it forwards each segment once if and only if the sequence numbers
tell the segments apart. -/
theorem relays_once_iff (ident : SegmentHeader PeerId → β → σ) (streamId : String)
    (isPublisher : Bool) (es : List (Nat × StreamEvent PeerId ι β)) :
    Along (step ident) (Forwards ident) (new streamId isPublisher) es ↔
      Along (step ident) (Keyed ident) (new streamId isPublisher) es := by
  have start : SeenRecent (new streamId isPublisher : Relay PeerId ι β σ) := by
    simp [SeenRecent,new,StreamClient.new]
  exact along_congr_of_invariant SeenRecent (along_true _ _ es) start
    (fun _ e h _ => step_seenRecent e h) (fun _ e h _ => forwards_iff e h)

end Seen

section Publishers

/-- A publisher 1 sends an init segment and a keyframe to the relayer 5. -/
def firstPublisher : List (Nat × StreamEvent Nat Nat Bytes) :=
  [(0,.cacheStreamInfo 7),(0,.channelOpened 5),(0,.forward [1] "initialization" false),
    (0,.forward [2] "video" true)]

/-- A publisher 2 sends it a keyframe, its first segment. -/
def secondPublisher : List (Nat × StreamEvent Nat Nat Bytes) :=
  [(0,.channelOpened 5),(0,.forward [3] "video" true)]

/-- What the relayer gets, which has a channel to 6, too. -/
def twoPublishers : List (Nat × StreamEvent Nat Nat Bytes) :=
  [(0,.channelOpened 1),(0,.channelOpened 2),(0,.channelOpened 6)]++
  messagesOf 1 0 (itemsTo 5 ((StreamClient.new "stream" true).run firstPublisher).2)++
  messagesOf 2 0 (itemsTo 5 ((StreamClient.new "stream" true).run secondPublisher).2)

set_option maxRecDepth 20000 in
/-- Both number their segments from 0, so the first one of the second is taken for a duplicate. -/
theorem second_publisher_not_relayed :
    ¬ Along (step (fun _ payload => payload)) (Forwards (fun _ payload => payload))
      (new "stream" false) twoPublishers := by
  intro h
  let state : Relay Nat Nat Bytes Bytes := twoPublishers.dropLast.foldl
    (step (fun _ payload => payload)) (new "stream" false)
  have hsplit : twoPublishers = twoPublishers.dropLast++[(0,.message 2 (.binary [3]))] := by
    decide +kernel
  rw [hsplit] at h
  have hlast := h.last
  have facts : (state.client.arrival (.message 2 (.binary [3]))).map
      (fun a => (a.relaying,decide (1 < a.ttl),a.buffer,a.others)) =
      some (true,true,[3],[1,6]) := by decide +kernel
  obtain ⟨a,harrival,heq⟩ := Option.map_eq_some_iff.mp facts
  simp only [Prod.mk.injEq,decide_eq_true_eq] at heq
  obtain ⟨hrelaying,httl,hbuffer,hothers⟩ := heq
  have hnew : a.buffer ∉ state.relayed := by
    rw [hbuffer]
    decide +kernel
  have hnothing : sends (state.client.step 0 (.message 2 (.binary [3]))).2 = [] := by
    decide +kernel
  have hsent := (hlast a harrival hrelaying httl).1 hnew
  have hempty := hnothing.symm.trans hsent
  rw [hothers] at hempty
  cases hempty

end Publishers

end Relay

end OpenBroadcast.Browser
