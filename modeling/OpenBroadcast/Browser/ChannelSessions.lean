import OpenBroadcast.Browser.DataChannel

namespace OpenBroadcast.Browser.StreamClient

open ArrayBuffer

variable {PeerId ι β : Type} [DecidableEq PeerId] [ArrayBuffer β]

/-- The events from a new data channel with `peer` on, as long as it is open. -/
def NewChannel (peer : PeerId) (es : List (Nat × StreamEvent PeerId ι β)) : Prop :=
  ∃ now rest, es = (now,.setupDataChannel peer)::rest ∧ ∀ e ∈ rest, ¬ Closes peer e.2

/-- What `processReceivedSegment` is called with for `peer` after some events and for others. -/
def callsAfter (c : StreamClient PeerId ι β) (peer : PeerId)
    (history es : List (Nat × StreamEvent PeerId ι β)) :
    List (Option (SegmentHeader PeerId) × β) :=
  receivedFrom peer ((c.run history).1.run es).2

/-- Where the last message of a channel leaves a header without its segment, the `onclose` of the
channel comes after it, and where it leaves a segment without its end, `closePeerConnection` does. -/
def LeavesNothing (peer : PeerId) (s : Slots PeerId β)
    (closing : List (Nat × StreamEvent PeerId ι β)) : Prop :=
  (s.pending = none ∨ ∃ e ∈ closing, e.2 = .channelClosed peer) ∧
    (s.chunks = none ∨ ∃ e ∈ closing, e.2 = .closePeerConnection peer)

section Closing

variable {c : StreamClient PeerId ι β} {peer : PeerId}

/-- Each way to close a channel clears one slot of its peer. -/
theorem step_slots_closes (now : Nat) {e : StreamEvent PeerId ι β} (hclose : Closes peer e) :
    e = .channelClosed peer ∧ (c.step now e).1.slots peer = ⟨none,(c.slots peer).chunks⟩ ∨
    e = .closePeerConnection peer ∧
      (c.step now e).1.slots peer = ⟨(c.slots peer).pending,none⟩ := by
  cases e with
  | channelClosed p =>
    have hp : p = peer := hclose
    subst hp
    exact .inl ⟨rfl,by simp [step,channelClosed,slots]⟩
  | closePeerConnection p =>
    have hp : p = peer := hclose
    subst hp
    exact .inr ⟨rfl,by simp [step,closePeerConnection,slots]⟩
  | _ => exact hclose.elim

theorem step_slots_nothing (now : Nat) {e : StreamEvent PeerId ι β} (hopen : ¬ Closes peer e)
    (hnothing : eventFrames peer e = []) : (c.step now e).1.slots peer = c.slots peer := by
  rw [(step_slots now e hopen).1,hnothing]
  rfl

/-- An event that brings nothing from a peer clears one slot of it at most. -/
theorem step_slots_silent (now : Nat) (e : StreamEvent PeerId ι β)
    (hnothing : eventFrames peer e = []) :
    ((c.step now e).1.slots peer).pending = none ↔
      (c.slots peer).pending = none ∨ e = .channelClosed peer := by
  by_cases hclose : Closes peer e
  · obtain ⟨rfl,hslots⟩ | ⟨rfl,hslots⟩ := step_slots_closes (c := c) now hclose
    · simp [hslots]
    · simp [hslots]
  · have hother : e ≠ .channelClosed peer := by
      rintro rfl
      exact hclose rfl
    simp [step_slots_nothing now hclose hnothing,hother]

theorem step_chunks_silent (now : Nat) (e : StreamEvent PeerId ι β)
    (hnothing : eventFrames peer e = []) :
    ((c.step now e).1.slots peer).chunks = none ↔
      (c.slots peer).chunks = none ∨ e = .closePeerConnection peer := by
  by_cases hclose : Closes peer e
  · obtain ⟨rfl,hslots⟩ | ⟨rfl,hslots⟩ := step_slots_closes (c := c) now hclose
    · simp [hslots]
    · simp [hslots]
  · have hother : e ≠ .closePeerConnection peer := by
      rintro rfl
      exact hclose rfl
    simp [step_slots_nothing now hclose hnothing,hother]

/-- What is left for a peer after events that bring nothing from it. -/
theorem run_slots_silent (closing : List (Nat × StreamEvent PeerId ι β))
    (hnothing : framesFrom peer closing = []) :
    (c.run closing).1.slots peer = .empty ↔ LeavesNothing peer (c.slots peer) closing := by
  induction closing generalizing c with
  | nil =>
    simp only [LeavesNothing,List.not_mem_nil,false_and,exists_false,or_false]
    constructor
    · intro h
      have hempty : c.slots peer = .empty := h
      rw [hempty]
      exact ⟨rfl,rfl⟩
    · intro h
      show c.slots peer = ⟨none,none⟩
      rw [← h.1,← h.2]
  | cons e closing ih =>
    obtain ⟨now,e⟩ := e
    obtain ⟨hevent,hrest⟩ := List.append_eq_nil_iff.mp hnothing
    have hpending := step_slots_silent (c := c) now e hevent
    have hchunks := step_chunks_silent (c := c) now e hevent
    rw [run_cons,ih hrest]
    unfold LeavesNothing
    rw [hpending,hchunks]
    simp only [List.mem_cons,exists_eq_or_imp,or_assoc]

end Closing

section Sessions

variable {c c' : StreamClient PeerId ι β} {peer : PeerId}

theorem calls_newChannel {es : List (Nat × StreamEvent PeerId ι β)} (hes : NewChannel peer es) :
    receivedFrom peer (c.run es).2 = ((c.slots peer).decode peer (framesFrom peer es)).2 := by
  obtain ⟨now,rest,rfl,hopen⟩ := hes
  have hall : ∀ e ∈ (now,StreamEvent.setupDataChannel peer)::rest, ¬ Closes peer e.2 := by
    intro e he
    rcases List.mem_cons.mp he with rfl | he
    · exact id
    · exact hopen e he
  exact (run_slots _ hall).2

/-- The binary message that tells slots in which something is left from empty ones. -/
theorem calls_differ (hslots : c.slots peer ≠ .empty) (hslots' : c'.slots peer = .empty) :
    ∃ es : List (Nat × StreamEvent PeerId ι β), NewChannel peer es ∧
      receivedFrom peer (c.run es).2 ≠ receivedFrom peer (c'.run es).2 := by
  let data : β := assembleChunks []
  let es : List (Nat × StreamEvent PeerId ι β) :=
    [(0,.setupDataChannel peer),(0,.message peer (.binary data))]
  have hes : NewChannel peer es := ⟨0,_,rfl,by simp [Closes]⟩
  have hframes : framesFrom peer es = [.binary data] := by
    simp [es,framesFrom,eventFrames]
  refine ⟨es,hes,?_⟩
  rw [calls_newChannel hes,calls_newChannel hes,hframes,hslots']
  cases hchunks : (c.slots peer).chunks with
  | some state => simp [Slots.decode,Slots.push,hchunks,Slots.empty]
  | none =>
    cases hpending : (c.slots peer).pending with
    | some h => simp [Slots.decode,Slots.push,hchunks,hpending,Slots.empty]
    | none =>
      have hempty : c.slots peer = .empty := by
        show c.slots peer = ⟨none,none⟩
        rw [← hpending,← hchunks]
      exact absurd hempty hslots

/-- The segments of a new channel with a peer are those of a client that has had no other channel
with it, exactly if the earlier channel has left nothing: `before` ends with its last message, and
`closing` with its end. -/
theorem session_isolated_iff (streamId : String) (isPublisher : Bool) (peer : PeerId)
    (before closing other : List (Nat × StreamEvent PeerId ι β))
    (hclosing : framesFrom peer closing = []) (hother : framesFrom peer other = []) :
    let fresh : StreamClient PeerId ι β := new streamId isPublisher
    (∀ es, NewChannel peer es →
      fresh.callsAfter peer (before++closing) es = fresh.callsAfter peer other es) ↔
    LeavesNothing peer ((fresh.run before).1.slots peer) closing := by
  intro fresh
  have hnew : fresh.slots peer = .empty := by
    simp [fresh,slots,new,Slots.empty]
  have hnever := run_slots_empty other hother hnew
  have hrun : ∀ c : StreamClient PeerId ι β,
      (c.run (before++closing)).1 = ((c.run before).1.run closing).1 := by
    intro c
    induction before generalizing c with
    | nil => rfl
    | cons e before ih => exact ih (c.step e.1 e.2).1
  have hleft := run_slots_silent (c := (fresh.run before).1) closing hclosing
  rw [← hleft,← hrun]
  constructor
  · intro hsame
    by_contra hslots
    obtain ⟨es,hes,hdiffer⟩ := calls_differ hslots hnever
    exact hdiffer (hsame es hes)
  · intro hempty es hes
    unfold callsAfter
    rw [calls_newChannel hes,calls_newChannel hes,hempty,hnever]

end Sessions

section Examples

/-- The channel closes in the middle of a segment that comes in chunks. -/
def cutSegment : List (Nat × StreamEvent Nat Unit Bytes) :=
  [(0,.setupDataChannel 1),(0,.channelOpened 1),(0,.message 1 (.text (.header (videoHeader 0 16001)))),
    (0,.message 1 (.text (.chunkStart 16001))),(0,.message 1 (.binary [7]))]

/-- A new channel with a segment that comes at once. -/
def wholeSegment : List (Nat × StreamEvent Nat Unit Bytes) :=
  [(1,.setupDataChannel 1),(1,.channelOpened 1),(1,.message 1 (.text (.header (videoHeader 1 1)))),
    (1,.message 1 (.binary [8]))]

/-- Both ways of closing together leave nothing, and the new segment is received. -/
theorem session_isolated_both_closed :
    (new "stream" false).callsAfter 1
        (cutSegment++[(0,.closePeerConnection 1),(0,.channelClosed 1)]) wholeSegment =
      (new "stream" false).callsAfter 1 [] wholeSegment ∧
    (new "stream" false).callsAfter 1 [] wholeSegment =
      [(some ((videoHeader 1 1).pending 1),[8])] := by
  have hopen : NewChannel 1 wholeSegment := ⟨1,_,rfl,by simp [Closes]⟩
  refine ⟨?_,by decide⟩
  refine (session_isolated_iff "stream" false 1 cutSegment
    [(0,.closePeerConnection 1),(0,.channelClosed 1)] [] rfl rfl).mpr ?_ wholeSegment hopen
  constructor
  · exact .inr ⟨(0,.channelClosed 1),by simp,rfl⟩
  · exact .inr ⟨(0,.closePeerConnection 1),by simp,rfl⟩

/-- The segment of the new channel is swallowed. -/
theorem new_channel_swallowed :
    NewChannel 1 wholeSegment ∧
    (new "stream" false).callsAfter 1 (cutSegment++[(0,.channelClosed 1)]) wholeSegment = [] ∧
    (new "stream" false).callsAfter 1 [] wholeSegment =
      [(some ((videoHeader 1 1).pending 1),[8])] := by
  have hopen : NewChannel 1 wholeSegment := ⟨1,_,rfl,by simp [Closes]⟩
  exact ⟨hopen,by decide,by decide⟩

end Examples

end OpenBroadcast.Browser.StreamClient
