import OpenBroadcast.Browser.Viewer
import OpenBroadcast.Framework.Collections
import OpenBroadcast.Framework.ListRelations

namespace OpenBroadcast.Browser

/-- The chunks that a listener has left. -/
def BufferListener.rest : BufferListener → List PendingChunk
  | .processNext rest => rest
  | .callEndOfStream => []

def BufferListener.isWaiting (l : BufferListener) : Bool := !l.rest.isEmpty

def bytesOf (l : List PendingChunk) : Bytes := (l.map PendingChunk.buffer).flatten

@[simp] theorem bytesOf_append (l l' : List PendingChunk) :
    bytesOf (l++l') = bytesOf l++bytesOf l' := by
  simp [bytesOf]

@[simp] theorem bytesOf_cons (chunk : PendingChunk) (l : List PendingChunk) :
    bytesOf (chunk::l) = chunk.buffer++bytesOf l := by
  simp [bytesOf]

@[simp] theorem bytesOf_nil : bytesOf [] = [] := rfl

namespace Viewer

def listeners (s : Viewer) : List BufferListener := s.sourceBuffers.flatMap SourceBuffer.listeners

/-- What was queued before the source buffer was opened and has not been appended yet. -/
def waiting (s : Viewer) : List PendingChunk := s.listeners.flatMap BufferListener.rest

/-- The buffer is idle, and no event is on its way. -/
def Settled (s : Viewer) : Prop :=
  s.isOpened = true ∧ s.conversions = [] ∧
    ∀ sb ∈ s.sourceBuffers, sb.updating = false ∧ sb.updateends = 0

/-- More is to come of what is collected of a segment. -/
def Collecting (s : Viewer) : Prop :=
  s.initSegmentChunks = [] ∨ s.expects (fun n => decide (s.initSize < n)) = true

/-- When the page is settled, nothing is queued, and all that it has received is appended in order,
up to an initialization segment that it has a part of. -/
def Complete (s : Viewer) : Prop :=
  s.Settled → s.pendingChunks = [] ∧
    s.appended.flatten++s.initSegmentChunks.flatten = s.received.flatten ∧ s.Collecting

section Conditions

/-- The chunk becomes a part of an initialization segment. -/
def collects (s : Viewer) (buffer : Bytes) : Bool :=
  s.isInitChunk || s.isOrphan buffer ||
    (decide (s.nextChunkType = some "initialization_complete") && !buffer.isEmpty)

/-- The buffer can take something now, and nothing older is waiting for it. -/
def CanAppend (b : Answers) (s : Viewer) (buffer : Bytes) : Prop :=
  s.isOpened = true ∧ s.mediaSourceReady = true ∧ s.isUpdating = false ∧ s.waiting = [] ∧
    b.accepts buffer = true

/-- A part of a segment is of one whose size is known, and the last one finds the buffer ready for
the first segment. Another chunk is queued before the opening, and afterwards finds the buffer
ready. -/
def Takes (b : Answers) (s : Viewer) (buffer : Bytes) : Prop :=
  if s.collects buffer then
    s.expects (fun _ => true) = true ∧
      (s.expects (fun n => decide (n ≤ s.initSize+buffer.length)) = true →
        s.initSegmentComplete = false ∧ s.CanAppend b (s.initSegmentChunks.flatten++buffer))
  else if s.nextChunkType = some "initialization_complete" then True
  else
    s.initSegmentChunks = [] ∧
      (s.isOpened = true → s.readyState = .open ∧ s.CanAppend b buffer ∧ b.attached = true ∧
        b.videoError = false ∧ 8 ≤ buffer.length ∧ s.isAudio = false)

/-- Nothing of what was received is lost or overtaken at an event. -/
def LosesNothing (s : Viewer) (e : Answers × ViewerEvent) : Prop :=
  match e.2 with
  | .chunkInfo chunkType _ => chunkType = "initialization" → s.initSegmentChunks = []
  | .binary buffer isBlob => isBlob = false → s.conversions = [] ∧ s.Takes e.1 buffer
  | .converted k ok => ∀ frame ∈ s.conversions[k]?, k = 0 ∧ ok = true ∧ s.Takes e.1 frame.buffer
  | .sourceopen created => created = true → ∀ chunk ∈ s.pendingChunks.head?,
      e.1.accepts chunk.buffer = true
  | .updateend k => ∀ sb ∈ s.sourceBuffers[k]?, ∀ l ∈ sb.listeners, ∀ chunk ∈ l.rest.head?,
      e.1.accepts chunk.buffer = true
  | _ => True

instance (b : Answers) (s : Viewer) (buffer : Bytes) : Decidable (s.CanAppend b buffer) :=
  inferInstanceAs (Decidable (_ ∧ _))

instance (b : Answers) (s : Viewer) (buffer : Bytes) : Decidable (s.Takes b buffer) :=
  inferInstanceAs (Decidable (ite _ _ _))

instance (s : Viewer) : (e : Answers × ViewerEvent) → Decidable (s.LosesNothing e)
  | (_,.chunkInfo chunkType _) =>
    inferInstanceAs (Decidable (chunkType = "initialization" → s.initSegmentChunks = []))
  | (b,.binary buffer isBlob) =>
    inferInstanceAs (Decidable (isBlob = false → s.conversions = [] ∧ s.Takes b buffer))
  | (b,.converted k ok) => inferInstanceAs (Decidable
      (∀ frame ∈ s.conversions[k]?, k = 0 ∧ ok = true ∧ s.Takes b frame.buffer))
  | (b,.sourceopen created) => inferInstanceAs (Decidable
      (created = true → ∀ chunk ∈ s.pendingChunks.head?, b.accepts chunk.buffer = true))
  | (b,.updateend k) => inferInstanceAs (Decidable (∀ sb ∈ s.sourceBuffers[k]?,
      ∀ l ∈ sb.listeners, ∀ chunk ∈ l.rest.head?, b.accepts chunk.buffer = true))
  | (_,.ends) => .isTrue trivial
  | (_,.sourceended) => .isTrue trivial
  | (_,.sourceclose) => .isTrue trivial
  | (_,.appendDone _) => .isTrue trivial
  | (_,.clientChanges _) => .isTrue trivial

end Conditions

/-- Everything that was received is appended, waits for the buffer with one of the listeners `all`,
is queued, collected or being converted, in this order. -/
structure Ordered (all : List BufferListener) (s : Viewer) : Prop where
  solo : all.countP BufferListener.isWaiting ≤ 1
  order : s.appended.flatten++bytesOf (all.flatMap BufferListener.rest)++bytesOf s.pendingChunks++
    s.initSegmentChunks.flatten++(s.conversions.map BinaryFrame.buffer).flatten =
      s.received.flatten
  drained : s.isOpened = true → s.pendingChunks = []
  awaited : ∀ sb ∈ s.sourceBuffers, sb.updating = false → sb.updateends = 0 →
    ∀ l ∈ sb.listeners, l.rest = []

/-- Moreover what is collected is not complete. -/
structure Held (all : List BufferListener) (s : Viewer) : Prop extends Ordered all s where
  collecting : s.Collecting

section Listeners

variable {b : Answers} {s s' : Viewer} {all all' : List BufferListener} {l : BufferListener}

theorem Held.perm (h : Held all s) (hperm : all.Perm all') : Held all' s := by
  refine ⟨⟨?_,?_,h.drained,h.awaited⟩,h.collecting⟩
  · rw [← hperm.countP_eq]
    exact h.solo
  · rw [← flatMap_eq_of_perm hperm h.solo]
    exact h.order

theorem Held.drop (h : Held (l::all) s) (hl : l.rest = []) : Held all s := by
  refine ⟨⟨?_,?_,h.drained,h.awaited⟩,h.collecting⟩
  · have hsolo := h.solo
    rw [List.countP_cons] at hsolo
    omega
  · have horder := h.order
    rwa [List.flatMap_cons,hl,List.nil_append] at horder

theorem Held.add (h : Held all s) (hl : l.rest = []) : Held (l::all) s := by
  refine ⟨⟨?_,?_,h.drained,h.awaited⟩,h.collecting⟩
  · have hquiet : l.isWaiting = false := by simp [BufferListener.isWaiting,hl]
    rw [List.countP_cons,hquiet]
    exact h.solo
  · rw [List.flatMap_cons,hl,List.nil_append]
    exact h.order

theorem listeners_listen (hopened : s.isOpened = true) (l : BufferListener) :
    (s.listen l).listeners.Perm (l::s.listeners) := by
  unfold listen listeners
  cases hbuffers : s.sourceBuffers with
  | nil => simp [isOpened,hbuffers] at hopened
  | cons sb rest =>
    simp only [List.flatMap_cons,List.append_assoc]
    exact List.perm_middle

@[simp] theorem isOpened_listen (s : Viewer) (l : BufferListener) :
    (s.listen l).isOpened = s.isOpened := by
  unfold listen isOpened
  cases hbuffers : s.sourceBuffers <;> simp [hbuffers]

/-- A listener with chunks left waits for a buffer that is updating. -/
theorem Held.listen (h : Held all s) (hl : l.rest = [] ∨ s.isUpdating = true) :
    Held all (s.listen l) := by
  unfold Viewer.listen
  cases hbuffers : s.sourceBuffers with
  | nil => exact h
  | cons sb rest =>
    have hopened : s.isOpened = true := by simp [isOpened,hbuffers]
    refine ⟨⟨h.solo,h.order,fun _ => h.drained hopened,?_⟩,h.collecting⟩
    intro sb' hsb' hidle hnone l' hl'
    rcases List.mem_cons.mp hsb' with rfl | hrest
    · rcases List.mem_append.mp hl' with hold | hnew
      · exact h.awaited sb (by simp [hbuffers]) hidle hnone l' hold
      · rw [List.mem_singleton.mp hnew]
        rcases hl with hquiet | hupdating
        · exact hquiet
        · simp [isUpdating,hbuffers] at hupdating
          exact absurd hupdating (by simpa using hidle)
    · exact h.awaited sb' (by simp [hbuffers,hrest]) hidle hnone l' hl'

end Listeners

section Appends

variable {b : Answers} {s : Viewer} {all : List BufferListener}

/-- The page after its buffer has taken something. -/
def took (s : Viewer) (buffer : Bytes) : Viewer :=
  { s with
    readyState := s.readyState.reopened
    sourceBuffers := s.sourceBuffers.modifyHead (fun sb => { sb with updating := true })
    appended := s.appended++[buffer] }

theorem appendBuffer_eq {buffer : Bytes} (hopened : s.isOpened = true)
    (hidle : s.isUpdating = false) (haccepts : b.accepts buffer = true) :
    s.appendBuffer b buffer = some (s.took buffer) := by
  unfold appendBuffer took
  cases hbuffers : s.sourceBuffers with
  | nil => simp [isOpened,hbuffers] at hopened
  | cons sb rest =>
    have hidle' : sb.updating = false := by simpa [isUpdating,hbuffers] using hidle
    simp [hidle',haccepts]

@[simp] theorem listeners_took (s : Viewer) (buffer : Bytes) :
    (s.took buffer).listeners = s.listeners := by
  unfold took listeners
  cases s.sourceBuffers <;> rfl

@[simp] theorem isOpened_took (s : Viewer) (buffer : Bytes) :
    (s.took buffer).isOpened = s.isOpened := by
  unfold took isOpened
  cases s.sourceBuffers <;> rfl

theorem isUpdating_took (hopened : s.isOpened = true) (buffer : Bytes) :
    (s.took buffer).isUpdating = true := by
  unfold took isUpdating
  cases hbuffers : s.sourceBuffers with
  | nil => simp [isOpened,hbuffers] at hopened
  | cons sb rest => simp

/-- The oldest chunk that waits goes first. -/
theorem Held.took {chunk : PendingChunk} {rest : List PendingChunk}
    (h : Held (.processNext (chunk::rest)::all) s) :
    Held (.processNext rest::all) (s.took chunk.buffer) := by
  refine ⟨⟨?_,?_,?_,?_⟩,h.collecting⟩
  · have hsolo := h.solo
    have hwaits : (BufferListener.processNext (chunk::rest)).isWaiting = true := rfl
    rw [List.countP_cons_of_pos hwaits] at hsolo
    rw [List.countP_cons]
    split_ifs <;> omega
  · have horder := h.order
    simp only [List.flatMap_cons,BufferListener.rest,bytesOf_append,bytesOf_cons] at horder ⊢
    simp only [Viewer.took,List.flatten_append,List.flatten_singleton]
    rw [← horder]
    simp only [List.append_assoc]
  · intro hopened
    rw [isOpened_took] at hopened
    exact h.drained hopened
  · intro sb hsb hidle hnone l hl
    unfold Viewer.took at hsb
    cases hbuffers : s.sourceBuffers with
    | nil => simp [hbuffers] at hsb
    | cons first others =>
      simp only [hbuffers,List.modifyHead_cons,List.mem_cons] at hsb
      rcases hsb with rfl | hrest
      · cases hidle
      · exact h.awaited sb (by simp [hbuffers,hrest]) hidle hnone l hl

theorem countP_of_flatMap_nil (h : all.flatMap BufferListener.rest = []) :
    all.countP BufferListener.isWaiting = 0 := by
  rw [List.countP_eq_zero]
  intro l hl
  have hnil := List.flatMap_eq_nil_iff.mp h l hl
  simp [BufferListener.isWaiting,hnil]

/-- What is received when nothing older is left goes first as well. -/
theorem Held.next {frame : BinaryFrame}
    (h : Held all { s with conversions := frame::s.conversions })
    (hwaiting : all.flatMap BufferListener.rest = []) (hpending : s.pendingChunks = [])
    (hchunks : s.initSegmentChunks = []) :
    Held (.processNext [⟨frame.buffer,none⟩]::all) s := by
  refine ⟨⟨?_,?_,h.drained,h.awaited⟩,h.collecting⟩
  · rw [List.countP_cons,countP_of_flatMap_nil hwaiting]
    split_ifs <;> omega
  · have horder := h.order
    simp only [hwaiting,hpending,hchunks] at horder
    simp only [List.flatMap_cons,hwaiting,hpending,hchunks,BufferListener.rest]
    simpa using horder

/-- So does a segment that has been collected. -/
theorem Ordered.assembled (h : Ordered all s) (hwaiting : all.flatMap BufferListener.rest = [])
    (hpending : s.pendingChunks = []) :
    Held (.processNext [⟨s.initSegmentChunks.flatten,none⟩]::all)
      { s with initSegmentChunks := [] } := by
  refine ⟨⟨?_,?_,h.drained,h.awaited⟩,.inl rfl⟩
  · rw [List.countP_cons,countP_of_flatMap_nil hwaiting]
    split_ifs <;> omega
  · have horder := h.order
    simp only [hwaiting,hpending] at horder
    simp only [List.flatMap_cons,hwaiting,hpending,BufferListener.rest]
    simpa using horder

end Appends

section Dispatch

variable {b : Answers} {s : Viewer} {all : List BufferListener}

@[simp] theorem isOpened_processNext (b : Answers) (rest : List PendingChunk) (s : Viewer) :
    (processNext b rest s).isOpened = s.isOpened := by
  induction rest generalizing s with
  | nil => rfl
  | cons chunk rest ih =>
    unfold processNext
    split_ifs
    · exact isOpened_listen s _
    · dsimp only
      cases happend : { s with nextChunkType := chunk.chunkType }.appendBuffer b chunk.buffer with
      | none => exact ih _
      | some t =>
        have hopened := (appendBuffer_forwardless happend).2.2.1
        exact (isOpened_listen t _).trans hopened

/-- `processNext` appends its next chunk, or waits with what it has left. -/
theorem Held.processNext {rest : List PendingChunk}
    (h : Held (.processNext rest::(all++s.listeners)) s) (hopened : s.isOpened = true)
    (haccepts : ∀ chunk ∈ rest.head?, b.accepts chunk.buffer = true) :
    Held (all++(Viewer.processNext b rest s).listeners) (Viewer.processNext b rest s) := by
  cases rest with
  | nil => exact h.drop rfl
  | cons chunk rest =>
    have hlisten (t : Viewer) (l : BufferListener) (ht : t.isOpened = true) :
        (l::(all++t.listeners)).Perm (all++(t.listen l).listeners) :=
      List.perm_middle.symm.trans ((listeners_listen ht l).symm.append_left all)
    unfold Viewer.processNext
    cases hupdating : s.isUpdating with
    | true =>
      rw [if_pos rfl]
      exact (h.listen (.inr hupdating)).perm (hlisten s _ hopened)
    | false =>
      rw [if_neg Bool.false_ne_true]
      set t : Viewer := { s with nextChunkType := chunk.chunkType }
      have happend : t.appendBuffer b chunk.buffer = some (t.took chunk.buffer) :=
        appendBuffer_eq hopened hupdating (haccepts chunk rfl)
      have ht : Held (.processNext (chunk::rest)::(all++s.listeners)) t :=
        ⟨⟨h.solo,h.order,h.drained,h.awaited⟩,h.collecting⟩
      have htook : (t.took chunk.buffer).isOpened = true := (isOpened_took t _).trans hopened
      have hlisteners : (t.took chunk.buffer).listeners = s.listeners := listeners_took t _
      have hheld := ht.took.listen (l := .processNext rest)
        (.inr (isUpdating_took (s := t) hopened chunk.buffer))
      have hperm := hlisten (t.took chunk.buffer) (.processNext rest) htook
      rw [hlisteners] at hperm
      simp only [happend]
      exact hheld.perm hperm

theorem Held.callEndOfStream (h : Held all s) : Held all s.callEndOfStream := by
  unfold Viewer.callEndOfStream
  split_ifs
  · exact ⟨⟨h.solo,h.order,h.drained,h.awaited⟩,h.collecting⟩
  · exact h

@[simp] theorem sourceBuffers_callEndOfStream (s : Viewer) :
    s.callEndOfStream.sourceBuffers = s.sourceBuffers := by
  unfold callEndOfStream
  split_ifs <;> rfl

theorem isOpened_notify (l : BufferListener) : (notify b s l).isOpened = s.isOpened := by
  cases l with
  | processNext rest => exact isOpened_processNext b rest s
  | callEndOfStream => rw [notify,isOpened,sourceBuffers_callEndOfStream,isOpened]

/-- The listeners of an event are called one after the other. -/
theorem Held.notify {l : List BufferListener} (h : Held (l++s.listeners) s)
    (hopened : s.isOpened = true)
    (haccepts : ∀ x ∈ l, ∀ chunk ∈ x.rest.head?, b.accepts chunk.buffer = true) :
    Held (l.foldl (Viewer.notify b) s).listeners (l.foldl (Viewer.notify b) s) := by
  induction l generalizing s with
  | nil => exact h
  | cons x l ih =>
    have hx := haccepts x List.mem_cons_self
    have hrest := fun y hy => haccepts y (List.mem_cons_of_mem x hy)
    refine ih ?_ ((isOpened_notify x).trans hopened) hrest
    cases x with
    | processNext rest => exact h.processNext hopened hx
    | callEndOfStream =>
      have hsame : s.callEndOfStream.listeners = s.listeners := by
        rw [listeners,sourceBuffers_callEndOfStream,listeners]
      show Held (l++s.callEndOfStream.listeners) s.callEndOfStream
      rw [hsame]
      exact (h.drop rfl).callEndOfStream

/-- The listeners of a buffer are no longer among those of the page. -/
theorem listeners_dispatched {l : List SourceBuffer} {k : Nat} {sb : SourceBuffer}
    (h : l[k]? = some sb) :
    (l.flatMap SourceBuffer.listeners).Perm
      (sb.listeners++(l.modify k dispatched).flatMap SourceBuffer.listeners) := by
  induction l generalizing k with
  | nil => cases h
  | cons first l ih =>
    cases k with
    | zero =>
      cases h
      exact .refl _
    | succ k =>
      rw [List.getElem?_cons_succ] at h
      rw [List.modify_succ_cons,List.flatMap_cons,List.flatMap_cons]
      have hmove := List.perm_append_comm_assoc first.listeners sb.listeners
        ((l.modify k dispatched).flatMap SourceBuffer.listeners)
      exact ((ih h).append_left _).trans hmove

theorem Held.updateend (h : Held s.listeners s) (k : Nat)
    (haccepts : ∀ sb ∈ s.sourceBuffers[k]?, ∀ l ∈ sb.listeners, ∀ chunk ∈ l.rest.head?,
      b.accepts chunk.buffer = true) :
    Held (s.handleUpdateend b k).listeners (s.handleUpdateend b k) := by
  unfold handleUpdateend
  cases hk : s.sourceBuffers[k]? with
  | none => exact h
  | some sb =>
    dsimp only
    split_ifs with hnone
    · exact h
    set t : Viewer := { s with sourceBuffers := s.sourceBuffers.modify k dispatched }
    have hopened : s.isOpened = true := by
      cases hbuffers : s.sourceBuffers with
      | nil => simp [hbuffers] at hk
      | cons first others => simp [isOpened,hbuffers]
    have htopened : t.isOpened = true := by
      cases hbuffers : s.sourceBuffers with
      | nil => simp [hbuffers] at hk
      | cons first others => cases k <;> simp [t,isOpened,hbuffers]
    have ht : Held s.listeners t := by
      refine ⟨⟨h.solo,h.order,fun _ => h.drained hopened,?_⟩,h.collecting⟩
      intro sb' hsb' hidle hzero l hl
      rcases mem_modify hsb' with hold | ⟨sb'',_,rfl⟩
      · exact h.awaited sb' hold hidle hzero l hl
      · cases hl
    have hperm : s.listeners.Perm (sb.listeners++t.listeners) := listeners_dispatched hk
    exact (ht.perm hperm).notify htopened (haccepts sb hk)

theorem Held.appendDone (h : Held s.listeners s) (k : Nat) :
    Held { s with sourceBuffers := s.sourceBuffers.modify k finishAppend }.listeners
      { s with sourceBuffers := s.sourceBuffers.modify k finishAppend } := by
  have hkept (sb : SourceBuffer) : (finishAppend sb).listeners = sb.listeners := by
    unfold finishAppend
    split_ifs <;> rfl
  have hsame : (s.sourceBuffers.modify k finishAppend).flatMap SourceBuffer.listeners =
      s.listeners := by
    unfold listeners
    generalize s.sourceBuffers = l
    induction l generalizing k with
    | nil => simp
    | cons sb l ih =>
      cases k with
      | zero => simp [hkept]
      | succ k => simp [ih]
  show Held ((s.sourceBuffers.modify k finishAppend).flatMap SourceBuffer.listeners) _
  rw [hsame]
  refine ⟨⟨h.solo,h.order,?_,?_⟩,h.collecting⟩
  · intro hopened
    have hopened' : s.isOpened = true := by
      cases hbuffers : s.sourceBuffers with
      | nil => simp [isOpened,hbuffers] at hopened
      | cons sb rest => simp [isOpened,hbuffers]
    exact h.drained hopened'
  · intro sb hsb hidle hnone l hl
    rcases mem_modify hsb with hold | ⟨sb',hsb',rfl⟩
    · exact h.awaited sb hold hidle hnone l hl
    · rw [hkept] at hl
      -- A buffer that was updating has its event now.
      cases hupdating : sb'.updating with
      | true => simp [finishAppend,hupdating] at hnone
      | false =>
        have hnone' : sb'.updateends = 0 := by simpa [finishAppend,hupdating] using hnone
        exact h.awaited sb' (List.mem_of_getElem? hsb') hupdating hnone' l hl

end Dispatch

section Frames

variable {b : Answers} {s : Viewer} {all : List BufferListener}

theorem cacheInitSegment_eq (s : Viewer) (buffer : Bytes) :
    ∃ calls, s.cacheInitSegment buffer = { s with calls := calls } := by
  unfold cacheInitSegment
  split_ifs
  · exact ⟨_,rfl⟩
  · exact ⟨s.calls,rfl⟩

/-- A segment is complete where the buffer can take it. -/
theorem Ordered.assemble (h : Ordered s.listeners s) (hcomplete : s.initSegmentComplete = false)
    (happend : s.CanAppend b s.initSegmentChunks.flatten) :
    Held (s.assembleAndAppendInitSegment b).listeners (s.assembleAndAppendInitSegment b) := by
  obtain ⟨hopened,hready,hidle,hwaiting,haccepts⟩ := happend
  unfold assembleAndAppendInitSegment
  by_cases hnone : s.initSegmentChunks = []
  · rw [if_pos (.inl hnone)]
    exact ⟨h,.inl hnone⟩
  · have hnot : ¬ (s.initSegmentChunks = [] ∨ s.initSegmentComplete = true) := by
      simp [hnone,hcomplete]
    rw [if_neg hnot]
    set combined := s.initSegmentChunks.flatten
    obtain ⟨calls,hcalls⟩ := cacheInitSegment_eq s combined
    simp only [hcalls]
    set t : Viewer := { s with calls := calls }
    have hflags : (t.mediaSourceReady && !t.isUpdating) = true := by
      show (s.mediaSourceReady && !s.isUpdating) = true
      rw [hready,hidle]
      rfl
    have htake : t.appendBuffer b combined = some (t.took combined) :=
      appendBuffer_eq hopened hidle haccepts
    have ht : Ordered s.listeners t := ⟨h.solo,h.order,h.drained,h.awaited⟩
    have hheld := (ht.assembled hwaiting (h.drained hopened)).took.drop rfl
    have hlast : Held (t.took combined).listeners
        { t.took combined with initSegmentChunks := [] } := by
      rw [listeners_took]
      exact hheld
    rw [if_pos hflags,htake]
    dsimp only
    split_ifs <;> exact ⟨⟨hlast.solo,hlast.order,hlast.drained,hlast.awaited⟩,hlast.collecting⟩

theorem Held.collect {frame : BinaryFrame}
    (h : Held s.listeners { s with conversions := frame::s.conversions })
    (hexpects : s.expects (fun _ => true) = true)
    (hlast : s.expects (fun n => decide (n ≤ s.initSize+frame.buffer.length)) = true →
      s.initSegmentComplete = false ∧
        s.CanAppend b (s.initSegmentChunks.flatten++frame.buffer)) :
    Held (s.collectInitChunk b frame.buffer).listeners (s.collectInitChunk b frame.buffer) := by
  set t : Viewer := { s with initSegmentChunks := s.initSegmentChunks++[frame.buffer] } with ht
  have hsize : t.initSize = s.initSize+frame.buffer.length := by
    simp [t,initSize]
  have hkept : Ordered t.listeners t := by
    refine ⟨h.solo,?_,h.drained,h.awaited⟩
    have horder := h.order
    simp only [List.map_cons,List.flatten_cons] at horder
    simp only [t,List.flatten_append,List.flatten_singleton]
    rw [← horder]
    simp only [listeners,List.append_assoc]
  unfold collectInitChunk
  simp only [← ht,hsize]
  cases hexpected : s.expectedInitSize with
  | none => simp [expects,hexpected] at hexpects
  | some n =>
    have hsome : t.expectedInitSize = some n := hexpected
    have hpos : (n != 0) = true := by simpa [expects,hexpected] using hexpects
    simp only [expects,hexpected,hsome,Option.any_some,hpos,Bool.true_and,decide_eq_true_eq]
      at hlast ⊢
    split_ifs with hreached
    · obtain ⟨hcomplete,happend⟩ := hlast hreached
      have hflat : t.initSegmentChunks.flatten = s.initSegmentChunks.flatten++frame.buffer := by
        simp [t]
      apply hkept.assemble hcomplete
      rw [hflat]
      exact happend
    · refine ⟨hkept,.inr ?_⟩
      simp only [expects,hsome,Option.any_some,hpos,Bool.true_and,decide_eq_true_eq,hsize]
      omega

/-- A chunk that the page takes is held like everything before it. -/
theorem Held.process {frame : BinaryFrame}
    (h : Held s.listeners { s with conversions := frame::s.conversions })
    (htakes : s.Takes b frame.buffer) :
    Held (s.processStreamChunk b frame.buffer).listeners (s.processStreamChunk b frame.buffer) := by
  set t : Viewer := { s with chunksReceived := s.chunksReceived+1 } with ht
  have hcounted : Held t.listeners { t with conversions := frame::t.conversions } :=
    ⟨⟨h.solo,h.order,h.drained,h.awaited⟩,h.collecting⟩
  have hcleared (u : Viewer) (hu : Held u.listeners u) :
      Held { u with nextChunkType := none }.listeners { u with nextChunkType := none } :=
    ⟨⟨hu.solo,hu.order,hu.drained,hu.awaited⟩,hu.collecting⟩
  have hcollect (hcollects : s.collects frame.buffer = true) :
      Held (t.collectInitChunk b frame.buffer).listeners (t.collectInitChunk b frame.buffer) := by
    rw [Takes,if_pos hcollects] at htakes
    exact hcounted.collect htakes.1 htakes.2
  unfold processStreamChunk
  simp only [← ht]
  by_cases hinit : t.isInitChunk = true
  · have hcollects : s.collects frame.buffer = true := by
      have hinit' : s.isInitChunk = true := hinit
      simp [collects,hinit']
    rw [if_pos hinit]
    exact hcleared (t.collectInitChunk b frame.buffer) (hcollect hcollects)
  rw [if_neg hinit]
  by_cases horphan : t.isOrphan frame.buffer = true
  · have hcollects : s.collects frame.buffer = true := by
      have horphan' : s.isOrphan frame.buffer = true := horphan
      simp [collects,horphan']
    rw [if_pos horphan]
    exact hcollect hcollects
  rw [if_neg horphan]
  have hinit' : s.isInitChunk = false := Bool.not_eq_true _ ▸ hinit
  have horphan' : s.isOrphan frame.buffer = false := Bool.not_eq_true _ ▸ horphan
  by_cases hcomplete : t.nextChunkType = some "initialization_complete"
  · have hcomplete' : s.nextChunkType = some "initialization_complete" := hcomplete
    rw [if_pos hcomplete]
    by_cases hempty : frame.buffer = []
    · -- Nothing comes with the frame.
      rw [if_pos hempty]
      have horder := hcounted.order
      simp only [List.map_cons,hempty,List.flatten_cons,List.nil_append] at horder
      exact ⟨⟨h.solo,horder,h.drained,h.awaited⟩,h.collecting⟩
    · rw [if_neg hempty]
      have hcollects : s.collects frame.buffer = true := by
        simp [collects,hcomplete',hempty]
      exact hcleared (t.collectInitChunk b frame.buffer) (hcollect hcollects)
  rw [if_neg hcomplete]
  have hcomplete' : s.nextChunkType ≠ some "initialization_complete" := hcomplete
  have hcollects : ¬ s.collects frame.buffer = true := by
    simp [collects,hinit',horphan',hcomplete']
  rw [Takes,if_neg hcollects,if_neg hcomplete'] at htakes
  obtain ⟨hchunks,hopen⟩ := htakes
  cases hopened : s.isOpened with
  | false =>
    -- Before the opening the chunk is queued behind the others.
    have hnone : s.sourceBuffers = [] := by simpa [isOpened] using hopened
    have hready : t.isReady = false := by
      have hnone' : t.sourceBuffers = [] := hnone
      simp [isReady,hnone']
    have hlisteners : s.listeners = [] := by simp [listeners,hnone]
    simp only [hready,Bool.not_false,if_true]
    refine ⟨⟨h.solo,?_,?_,h.awaited⟩,h.collecting⟩
    · have horder := hcounted.order
      have hchunks' : t.initSegmentChunks = [] := hchunks
      have hlisteners' : t.listeners = [] := hlisteners
      simp only [hlisteners',hchunks',List.map_cons,List.flatten_cons,List.flatten_nil] at horder
      show t.appended.flatten++bytesOf (t.listeners.flatMap BufferListener.rest)++
        bytesOf (t.pendingChunks++[⟨frame.buffer,t.nextChunkType⟩])++
        t.initSegmentChunks.flatten++(t.conversions.map BinaryFrame.buffer).flatten =
          t.received.flatten
      rw [← horder,hlisteners',hchunks']
      simp [bytesOf]
    · intro hopened'
      have hfalse : s.isOpened = true := hopened'
      rw [hopened] at hfalse
      cases hfalse
  | true =>
    obtain ⟨hsource,happend,hattached,herror,hlength,haudio⟩ := hopen hopened
    obtain ⟨_,hmedia,hidle,hwaiting,haccepts⟩ := happend
    have hready : t.isReady = true := by
      have hsome : s.sourceBuffers.isEmpty = false := by simpa [isOpened] using hopened
      show (s.mediaSourceReady && decide (s.readyState = .open) && !s.sourceBuffers.isEmpty &&
        !s.isUpdating) = true
      rw [hmedia,hsome,hidle,decide_eq_true hsource]
      rfl
    have hskip : (!b.attached || b.videoError || decide (frame.buffer.length < 8)) = false := by
      simp [hattached,herror]
      omega
    simp only [hready,hskip,Bool.not_true,Bool.false_eq_true,if_false]
    obtain ⟨calls,hcalls⟩ : ∃ calls, (if boxType frame.buffer = ftyp then
        t.cacheInitSegment frame.buffer else t) = { t with calls := calls } := by
      split_ifs
      · exact cacheInitSegment_eq t frame.buffer
      · exact ⟨t.calls,rfl⟩
    rw [hcalls]
    set u : Viewer := { t with calls := calls }
    have hheld : Held t.listeners { u with conversions := frame::u.conversions } :=
      ⟨⟨h.solo,h.order,h.drained,h.awaited⟩,h.collecting⟩
    have htook := (hheld.next hwaiting (h.drained hopened) hchunks).took.drop rfl
    have htake : u.appendBuffer b frame.buffer = some (u.took frame.buffer) :=
      appendBuffer_eq hopened hidle haccepts
    have haudio' : ¬ u.isAudio = true := fun htrue => Bool.false_ne_true (haudio.symm.trans htrue)
    rw [if_neg haudio',htake,Option.getD_some]
    apply hcleared (u.took frame.buffer)
    rw [listeners_took]
    exact htook

theorem Held.forward {frame : BinaryFrame}
    (h : Held s.listeners { s with conversions := frame::s.conversions })
    (htakes : s.Takes b frame.buffer) :
    Held (s.processStreamChunkAndForward b frame).listeners
      (s.processStreamChunkAndForward b frame) := by
  have hprocessed := h.process htakes
  unfold processStreamChunkAndForward
  dsimp only
  split_ifs
  · exact ⟨⟨hprocessed.solo,hprocessed.order,hprocessed.drained,hprocessed.awaited⟩,
      hprocessed.collecting⟩
  · exact ⟨⟨hprocessed.solo,hprocessed.order,hprocessed.drained,hprocessed.awaited⟩,
      hprocessed.collecting⟩
  · exact hprocessed

end Frames

section Runs

variable {b : Answers} {s : Viewer}

theorem Held.finalizeMediaSource (h : Held s.listeners s) :
    Held s.finalizeMediaSource.listeners s.finalizeMediaSource := by
  unfold Viewer.finalizeMediaSource
  split_ifs with hopen hupdating
  · have hopened : s.isOpened = true := by
      cases hbuffers : s.sourceBuffers with
      | nil => simp [isUpdating,hbuffers] at hupdating
      | cons sb rest => simp [isOpened,hbuffers]
    have hadded := (h.listen (l := .callEndOfStream) (.inl rfl)).add (l := .callEndOfStream) rfl
    exact hadded.perm (listeners_listen hopened _).symm
  · rw [listeners,sourceBuffers_callEndOfStream]
    exact h.callEndOfStream
  · exact h

theorem Held.sourceopen (h : Held s.listeners s) (created : Bool)
    (haccepts : created = true → ∀ chunk ∈ s.pendingChunks.head?, b.accepts chunk.buffer = true) :
    Held (s.sourceopen b created).listeners (s.sourceopen b created) := by
  cases created with
  | false => exact ⟨⟨h.solo,h.order,h.drained,h.awaited⟩,h.collecting⟩
  | true =>
    set t : Viewer := { s with
      readyState := .open
      sourceBuffers := ⟨false,0,[]⟩::s.sourceBuffers
      mediaSourceReady := true
      pendingChunks := [] } with ht
    have hlisteners : t.listeners = s.listeners := by simp [t,listeners]
    have hawaited : ∀ sb ∈ t.sourceBuffers, sb.updating = false → sb.updateends = 0 →
        ∀ l ∈ sb.listeners, l.rest = [] := by
      intro sb hsb hidle hnone l hl
      rcases List.mem_cons.mp hsb with rfl | hrest
      · cases hl
      · exact h.awaited sb hrest hidle hnone l hl
    have hnext : Held (.processNext s.pendingChunks::([]++t.listeners)) t := by
      rw [List.nil_append,hlisteners]
      refine ⟨⟨?_,?_,fun _ => rfl,hawaited⟩,h.collecting⟩
      · cases hopened : s.isOpened with
        | true =>
          have hquiet : (BufferListener.processNext s.pendingChunks).isWaiting = false := by
            rw [h.drained hopened]
            rfl
          rw [List.countP_cons,hquiet]
          exact h.solo
        | false =>
          have hnone : s.listeners = [] := by
            have hbuffers : s.sourceBuffers = [] := by simpa [isOpened] using hopened
            simp [listeners,hbuffers]
          rw [hnone,List.countP_cons,List.countP_nil]
          split_ifs <;> omega
      · have horder := h.order
        cases hopened : s.isOpened with
        | true =>
          have hpending := h.drained hopened
          rw [hpending] at horder ⊢
          exact horder
        | false =>
          have hnone : s.listeners = [] := by
            have hbuffers : s.sourceBuffers = [] := by simpa [isOpened] using hopened
            simp [listeners,hbuffers]
          rw [hnone] at horder ⊢
          simpa [t,BufferListener.rest] using horder
    exact hnext.processNext rfl (haccepts rfl)

theorem Held.step (h : Held s.listeners s) {e : Answers × ViewerEvent} (hloses : s.LosesNothing e) :
    Held (s.step e).listeners (s.step e) := by
  obtain ⟨b,e⟩ := e
  cases e with
  | chunkInfo chunkType size =>
    show Held (s.handleChunkInfo chunkType size).listeners (s.handleChunkInfo chunkType size)
    unfold handleChunkInfo
    dsimp only
    split_ifs with hinit hend
    · have hchunks := hloses hinit
      have horder := h.order
      rw [hchunks] at horder
      exact ⟨⟨h.solo,horder,h.drained,h.awaited⟩,.inl rfl⟩
    · apply Held.finalizeMediaSource
      exact ⟨⟨h.solo,h.order,h.drained,h.awaited⟩,h.collecting⟩
    · exact ⟨⟨h.solo,h.order,h.drained,h.awaited⟩,h.collecting⟩
  | binary buffer isBlob =>
    have horder := h.order
    cases isBlob with
    | true =>
      refine ⟨⟨h.solo,?_,h.drained,h.awaited⟩,h.collecting⟩
      show s.appended.flatten++bytesOf (s.listeners.flatMap BufferListener.rest)++
        bytesOf s.pendingChunks++s.initSegmentChunks.flatten++
        ((s.conversions++[(⟨buffer,s.announced⟩ : BinaryFrame)]).map BinaryFrame.buffer).flatten =
          (s.received++[buffer]).flatten
      simp only [List.map_append,List.flatten_append,← horder]
      simp
    | false =>
      obtain ⟨hnone,htakes⟩ := hloses rfl
      set t : Viewer := { s with announced := none, received := s.received++[buffer] }
      have ht : Held t.listeners { t with conversions := ⟨buffer,s.announced⟩::t.conversions } := by
        refine ⟨⟨h.solo,?_,h.drained,h.awaited⟩,h.collecting⟩
        show s.appended.flatten++bytesOf (s.listeners.flatMap BufferListener.rest)++
          bytesOf s.pendingChunks++s.initSegmentChunks.flatten++
          (((⟨buffer,s.announced⟩ : BinaryFrame)::s.conversions).map BinaryFrame.buffer).flatten =
            (s.received++[buffer]).flatten
        rw [hnone] at horder ⊢
        rw [List.flatten_append,← horder]
        simp
      exact ht.forward htakes
  | converted k ok =>
    show Held (s.handleConverted b k ok).listeners (s.handleConverted b k ok)
    unfold handleConverted
    cases hk : s.conversions[k]? with
    | none => exact h
    | some frame =>
      obtain ⟨rfl,rfl,htakes⟩ := hloses frame hk
      dsimp only
      rw [if_pos rfl]
      set t : Viewer := { s with conversions := s.conversions.eraseIdx 0 }
      have hback : frame::t.conversions = s.conversions := by
        cases hconversions : s.conversions with
        | nil => simp [hconversions] at hk
        | cons first others =>
          rw [hconversions] at hk
          cases hk
          simp [t,hconversions]
      have ht : Held t.listeners { t with conversions := frame::t.conversions } := by
        rw [hback]
        exact h
      exact ht.forward htakes
  | sourceopen created => exact h.sourceopen created hloses
  | ends => exact ⟨⟨h.solo,h.order,h.drained,h.awaited⟩,h.collecting⟩
  | sourceended => exact ⟨⟨h.solo,h.order,h.drained,h.awaited⟩,h.collecting⟩
  | sourceclose => exact ⟨⟨h.solo,h.order,h.drained,h.awaited⟩,h.collecting⟩
  | appendDone k => exact h.appendDone k
  | updateend k => exact h.updateend k hloses
  | clientChanges c => exact ⟨⟨h.solo,h.order,h.drained,h.awaited⟩,h.collecting⟩

theorem Held.complete (h : Held s.listeners s) : s.Complete := by
  intro hsettled
  obtain ⟨hopened,hnone,hidle⟩ := hsettled
  have hpending := h.drained hopened
  have hwaiting : s.listeners.flatMap BufferListener.rest = [] := by
    rw [List.flatMap_eq_nil_iff]
    intro l hl
    obtain ⟨sb,hsb,hmem⟩ := List.mem_flatMap.mp hl
    exact h.awaited sb hsb (hidle sb hsb).1 (hidle sb hsb).2 l hmem
  have horder := h.order
  rw [hwaiting,hpending,hnone] at horder
  refine ⟨hpending,?_,h.collecting⟩
  simpa using horder

theorem held_new : Held new.listeners new :=
  ⟨⟨Nat.zero_le 1,rfl,fun _ => rfl,fun _ hsb => nomatch hsb⟩,.inl rfl⟩

end Runs

/-- All along the events of a page every frame is forwarded under the type announced for it exactly
if each is announced as the type that its processing leaves; and as long as nothing is lost or
overtaken at an event, whatever was received is appended in order whenever the page is settled. -/
theorem frames_forwarded_and_appended (es : List (Answers × ViewerEvent)) :
    ((∀ pre, pre <+: es → (pre.foldl step new).TypesKept) ↔
      Along step ForwardsAnnounced new es) ∧
    (Along step LosesNothing new es → ∀ pre, pre <+: es → (pre.foldl step new).Complete) := by
  refine ⟨types_kept_iff es,?_⟩
  intro h pre hpre
  have hheld := (h.of_prefix hpre).invariant (fun s => Held s.listeners s) held_new
    (fun s e hs hloses => hs.step hloses)
  exact hheld.complete

/-- A browser that takes everything. -/
def willing : Answers := ⟨true,false,fun _ => true⟩

def mediaSegment (x : UInt8) : Bytes := [0,0,0,9,0x6d,0x6f,0x6f,0x66,x]

/-- A page that relays gets a segment before its source is open and one afterwards. -/
theorem two_segments_appended :
    let es := ([.clientChanges (some ⟨true,false,1⟩),.chunkInfo "video" 9,
      .binary (mediaSegment 1) true,.converted 0 true,.sourceopen true,.appendDone 0,.updateend 0,
      .chunkInfo "video" 9,.binary (mediaSegment 2) true,.converted 0 true,.appendDone 0,
      .updateend 0] : List ViewerEvent).map (fun e => (willing,e))
    (es.foldl step new).TypesKept ∧ (es.foldl step new).Complete := by
  intro es
  have hforwards : Along step ForwardsAnnounced new es := by
    decide +kernel
  have hloses : Along step LosesNothing new es := by
    decide +kernel
  obtain ⟨htypes,happended⟩ := frames_forwarded_and_appended es
  exact ⟨htypes.mpr hforwards es (List.prefix_refl es),happended hloses es (List.prefix_refl es)⟩

/-- A page that publishes forwards an initialization segment as a video segment; and the next
segment, which comes while the buffer is busy, stays in the queue. -/
theorem next_segment_stays :
    let es := ([.clientChanges (some ⟨true,false,1⟩),.sourceopen true,.chunkInfo "init_video" 9,
      .binary (mediaSegment 1) true,.converted 0 true,.chunkInfo "video" 9,
      .binary (mediaSegment 2) true,.converted 0 true,.appendDone 0,.updateend 0] :
      List ViewerEvent).map (fun e => (willing,e))
    let s := es.foldl step new
    ClientCall.forward (mediaSegment 1) "video" false (some "init_video") ∈ s.calls ∧
    s.sourceBuffers = [⟨false,0,[]⟩] ∧ s.conversions = [] ∧
    s.pendingChunks = [⟨mediaSegment 2,some "video"⟩] ∧ s.appended = [mediaSegment 1] ∧
    ¬ s.TypesKept ∧ ¬ s.Complete := by
  intro es s
  have hcall : ClientCall.forward (mediaSegment 1) "video" false (some "init_video") ∈ s.calls := by
    decide +kernel
  have hbuffers : s.sourceBuffers = [⟨false,0,[]⟩] := by
    decide +kernel
  have hnone : s.conversions = [] := by
    decide +kernel
  have hpending : s.pendingChunks = [⟨mediaSegment 2,some "video"⟩] := by
    decide +kernel
  have happended : s.appended = [mediaSegment 1] := by
    decide +kernel
  refine ⟨hcall,hbuffers,hnone,hpending,happended,?_,?_⟩
  · intro h
    have hkept : "video" = "init_video" := h _ hcall "init_video" rfl
    revert hkept
    decide
  · intro h
    have hsettled : s.Settled := by
      refine ⟨by simp [isOpened,hbuffers],hnone,?_⟩
      intro sb hsb
      rw [hbuffers,List.mem_singleton] at hsb
      rw [hsb]
      exact ⟨rfl,rfl⟩
    have hqueue := (h hsettled).1
    rw [hpending] at hqueue
    cases hqueue

end Viewer

end OpenBroadcast.Browser
