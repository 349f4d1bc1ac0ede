import OpenBroadcast.Browser.DataChannel
import OpenBroadcast.Framework.Run

namespace OpenBroadcast.Browser

/-- An element of `pendingChunks`. -/
structure PendingChunk where
  buffer : Bytes
  chunkType : Option String
  deriving DecidableEq, Repr

/-- What waits for one `updateend` of a source buffer: `processNext` with the chunks that it has
left, or the end of the stream. -/
inductive BufferListener where
  | processNext (rest : List PendingChunk)
  | callEndOfStream
  deriving DecidableEq, Repr

/-- A source buffer with its listeners that are called once. `updateends` counts the events that
the browser has not dispatched yet. -/
structure SourceBuffer where
  updating : Bool
  updateends : Nat
  listeners : List BufferListener
  deriving DecidableEq, Repr

/-- No media source is the same as a closed one. -/
inductive ReadyState where
  | closed
  | open
  | ended
  deriving DecidableEq, Repr

/-- A media source that has ended is open again once something is appended. -/
def ReadyState.reopened : ReadyState → ReadyState
  | .ended => .open
  | r => r

/-- What the viewer asks its WebRTC client for. -/
structure ClientRole where
  isPublisher : Bool
  canRelay : Bool
  connectedPeers : Nat
  deriving DecidableEq, Repr

/-- What the viewer calls its WebRTC client with. A segment that is the binary frame of the server
has the type that was announced for the frame. -/
inductive ClientCall where
  | cacheInitSegment (buffer : Bytes)
  | forward (buffer : Bytes) (chunkType : String) (isKeyframe : Bool) (announced : Option String)
  deriving DecidableEq, Repr

/-- A binary frame with the type of the last `chunk_info` before it. -/
structure BinaryFrame where
  buffer : Bytes
  announced : Option String
  deriving DecidableEq, Repr

/-- What the browser answers while an event is handled. -/
structure Answers where
  attached : Bool
  videoError : Bool
  accepts : Bytes → Bool

/-- The page as far as it plays a stream. The source buffers are those that the page has created,
the last one first; that is `videoSourceBuffer`, and there is never an `audioSourceBuffer`.
Recorded besides: the blobs that are being converted, what the next frame was announced as, what
has been received and appended so far, and the calls of the client. -/
structure Viewer where
  nextChunkType : Option String
  chunksReceived : Nat
  initSegmentChunks : List Bytes
  expectedInitSize : Option Nat
  initSegmentComplete : Bool
  pendingChunks : List PendingChunk
  mediaSourceReady : Bool
  readyState : ReadyState
  sourceBuffers : List SourceBuffer
  webrtcClient : Option ClientRole
  conversions : List BinaryFrame
  announced : Option String
  received : List Bytes
  appended : List Bytes
  calls : List ClientCall
  deriving DecidableEq, Repr

def boxType (buffer : Bytes) : Bytes := (buffer.drop 4).take 4

def ftyp : Bytes := [0x66,0x74,0x79,0x70]

def moof : Bytes := [0x6d,0x6f,0x6f,0x66]

namespace Viewer

def new : Viewer := ⟨none,0,[],none,false,[],false,.closed,[],none,[],none,[],[],[]⟩

section MediaSource

/-- `videoSourceBuffer && videoSourceBuffer.updating`. -/
def isUpdating (s : Viewer) : Bool := s.sourceBuffers.head?.any SourceBuffer.updating

/-- `videoSourceBuffer.addEventListener('updateend', …, { once: true })`. -/
def listen (s : Viewer) (l : BufferListener) : Viewer :=
  match s.sourceBuffers with
  | [] => s
  | sb::rest =>
    { s with sourceBuffers := { sb with listeners := sb.listeners++[l] }::rest }

/-- `videoSourceBuffer.appendBuffer`, or an exception. -/
def appendBuffer (b : Answers) (s : Viewer) (buffer : Bytes) : Option Viewer :=
  match s.sourceBuffers with
  | [] => none
  | sb::rest =>
    if sb.updating || !b.accepts buffer then none
    else some { s with
      readyState := s.readyState.reopened
      sourceBuffers := { sb with updating := true }::rest
      appended := s.appended++[buffer] }

/-- The media source does not end while a buffer is updating. -/
def callEndOfStream (s : Viewer) : Viewer :=
  if s.readyState = .open ∧ ∀ sb ∈ s.sourceBuffers, sb.updating = false then
    { s with readyState := .ended }
  else s

def finalizeMediaSource (s : Viewer) : Viewer :=
  if s.readyState = .open then
    if s.isUpdating then s.listen .callEndOfStream else s.callEndOfStream
  else s

/-- The chunks that cannot be appended are skipped. -/
def processNext (b : Answers) : List PendingChunk → Viewer → Viewer
  | [],s => s
  | chunk::rest,s =>
    if s.isUpdating then s.listen (.processNext (chunk::rest))
    else
      let s := { s with nextChunkType := chunk.chunkType }
      match s.appendBuffer b chunk.buffer with
      | some s => s.listen (.processNext rest)
      | none => processNext b rest s

def processPendingChunks (b : Answers) (s : Viewer) : Viewer :=
  processNext b s.pendingChunks { s with pendingChunks := [] }

def notify (b : Answers) (s : Viewer) : BufferListener → Viewer
  | .processNext rest => processNext b rest s
  | .callEndOfStream => s.callEndOfStream

/-- The listener for `sourceopen`; the browser may not support the codecs or the buffer. -/
def sourceopen (b : Answers) (s : Viewer) (created : Bool) : Viewer :=
  let s := { s with readyState := .open }
  if created then
    processPendingChunks b { s with
      sourceBuffers := ⟨false,0,[]⟩::s.sourceBuffers
      mediaSourceReady := true }
  else { s with mediaSourceReady := false }

end MediaSource

section Chunks

def forwards (s : Viewer) : Bool :=
  s.webrtcClient.any (fun c => (c.isPublisher || c.canRelay) && decide (0 < c.connectedPeers))

def call (s : Viewer) (c : ClientCall) : Viewer := { s with calls := s.calls++[c] }

def cacheInitSegment (s : Viewer) (buffer : Bytes) : Viewer :=
  if s.webrtcClient.isSome then s.call (.cacheInitSegment buffer) else s

def initSize (s : Viewer) : Nat := (s.initSegmentChunks.map List.length).sum

/-- `expectedInitSize && …`. -/
def expects (s : Viewer) (p : Nat → Bool) : Bool := s.expectedInitSize.any (fun n => n != 0 && p n)

/-- A segment for which the buffer is not ready is dropped. -/
def assembleAndAppendInitSegment (b : Answers) (s : Viewer) : Viewer :=
  if s.initSegmentChunks = [] ∨ s.initSegmentComplete = true then s
  else
    let combined := s.initSegmentChunks.flatten
    let s := s.cacheInitSegment combined
    let s :=
      if s.mediaSourceReady && !s.isUpdating then
        match s.appendBuffer b combined with
        | some s =>
          let s := { s with initSegmentComplete := true }
          if s.forwards then s.call (.forward combined "initialization" false none) else s
        | none => s
      else s
    { s with initSegmentChunks := [] }

def collectInitChunk (b : Answers) (s : Viewer) (buffer : Bytes) : Viewer :=
  let s := { s with initSegmentChunks := s.initSegmentChunks++[buffer] }
  if s.expects (fun n => decide (n ≤ s.initSize)) then s.assembleAndAppendInitSegment b else s

/-- The type starts with `initialization_chunk_`. -/
def isInitChunk (s : Viewer) : Bool :=
  s.nextChunkType.any (fun t => "initialization_chunk_".toList.isPrefixOf t.toList)

/-- A chunk that would complete the segment is collected under any type, with a tolerance. -/
def isOrphan (s : Viewer) (buffer : Bytes) : Bool :=
  !s.initSegmentComplete && !s.initSegmentChunks.isEmpty &&
    s.expects (fun n => decide (buffer.length+s.initSize ≤ n+1000))

/-- The media source is ready, and its buffer is there and not updating. -/
def isReady (s : Viewer) : Bool :=
  s.mediaSourceReady && decide (s.readyState = .open) && !s.sourceBuffers.isEmpty && !s.isUpdating

/-- There is no buffer for these. -/
def isAudio (s : Viewer) : Bool :=
  decide (s.nextChunkType = some "init_audio") || decide (s.nextChunkType = some "audio")

def processStreamChunk (b : Answers) (s : Viewer) (buffer : Bytes) : Viewer :=
  let s := { s with chunksReceived := s.chunksReceived+1 }
  if s.isInitChunk then { s.collectInitChunk b buffer with nextChunkType := none }
  else if s.isOrphan buffer then s.collectInitChunk b buffer
  else if s.nextChunkType = some "initialization_complete" then
    { (if buffer = [] then s else s.collectInitChunk b buffer) with nextChunkType := none }
  else if !s.isReady then
    { s with pendingChunks := s.pendingChunks++[⟨buffer,s.nextChunkType⟩] }
  else if !b.attached || b.videoError || decide (buffer.length < 8) then s
  else
    let s := if boxType buffer = ftyp then s.cacheInitSegment buffer else s
    let s := if s.isAudio then s else (s.appendBuffer b buffer).getD s
    { s with nextChunkType := none }

/-- A segment that looks like a media segment is taken for a keyframe now and then. -/
def detectKeyframe (s : Viewer) (buffer : Bytes) : Bool :=
  if buffer.length < 8 then false
  else if boxType buffer = ftyp then true
  else decide (boxType buffer = moof) && s.chunksReceived%30 == 0

/-- `nextChunkType || 'video'`. -/
def carried (chunkType : Option String) : String :=
  match chunkType with
  | some t => if t = "" then "video" else t
  | none => "video"

/-- The source buffer has been created. -/
def isOpened (s : Viewer) : Bool := !s.sourceBuffers.isEmpty

def processStreamChunkAndForward (b : Answers) (s : Viewer) (frame : BinaryFrame) : Viewer :=
  let s := s.processStreamChunk b frame.buffer
  if s.forwards then
    s.call (.forward frame.buffer (carried s.nextChunkType) (s.detectKeyframe frame.buffer)
      (if s.isOpened then frame.announced else none))
  else s

end Chunks

section Messages

def handleChunkInfo (s : Viewer) (chunkType : String) (size : Nat) : Viewer :=
  let s := { s with nextChunkType := some chunkType, announced := some chunkType }
  if chunkType = "initialization" then
    { s with expectedInitSize := some size, initSegmentChunks := [] }
  else if chunkType = "end_of_stream" then s.finalizeMediaSource
  else s

/-- A frame that comes as a blob is converted first. -/
def handleBinary (b : Answers) (s : Viewer) (buffer : Bytes) (isBlob : Bool) : Viewer :=
  let frame := ⟨buffer,s.announced⟩
  let s := { s with announced := none, received := s.received++[buffer] }
  if isBlob then { s with conversions := s.conversions++[frame] }
  else s.processStreamChunkAndForward b frame

/-- The `k`th conversion ends, `ok` or not. -/
def handleConverted (b : Answers) (s : Viewer) (k : Nat) (ok : Bool) : Viewer :=
  match s.conversions[k]? with
  | none => s
  | some frame =>
    let s := { s with conversions := s.conversions.eraseIdx k }
    if ok then s.processStreamChunkAndForward b frame else s

end Messages

end Viewer

/-- What happens at the page. A source buffer is given by its place in the list. -/
inductive ViewerEvent where
  | chunkInfo (chunkType : String) (size : Nat)
  | binary (buffer : Bytes) (isBlob : Bool)
  | converted (k : Nat) (ok : Bool)
  | sourceopen (created : Bool)
  /-- The media source ends without the page, as it does on a decode error. -/
  | ends
  /-- `sourceended` or `error` of the media source. -/
  | sourceended
  | sourceclose
  | appendDone (k : Nat)
  | updateend (k : Nat)
  | clientChanges (c : Option ClientRole)
  deriving DecidableEq, Repr

namespace Viewer

def finishAppend (sb : SourceBuffer) : SourceBuffer :=
  if sb.updating then { sb with updating := false, updateends := sb.updateends+1 } else sb

def dispatched (sb : SourceBuffer) : SourceBuffer :=
  { sb with updateends := sb.updateends-1, listeners := [] }

/-- An `updateend` of a buffer is dispatched to the listeners that it has by then. -/
def handleUpdateend (b : Answers) (s : Viewer) (k : Nat) : Viewer :=
  match s.sourceBuffers[k]? with
  | none => s
  | some sb =>
    if sb.updateends = 0 then s
    else sb.listeners.foldl (notify b)
      { s with sourceBuffers := s.sourceBuffers.modify k dispatched }

def step (s : Viewer) (e : Answers × ViewerEvent) : Viewer :=
  match e.2 with
  | .chunkInfo chunkType size => s.handleChunkInfo chunkType size
  | .binary buffer isBlob => s.handleBinary e.1 buffer isBlob
  | .converted k ok => s.handleConverted e.1 k ok
  | .sourceopen created => s.sourceopen e.1 created
  | .ends => { s with readyState := .ended }
  | .sourceended => { s with mediaSourceReady := false }
  | .sourceclose => { s with readyState := .closed, mediaSourceReady := false }
  | .appendDone k => { s with sourceBuffers := s.sourceBuffers.modify k finishAppend }
  | .updateend k => s.handleUpdateend e.1 k
  | .clientChanges c => { s with webrtcClient := c }

/-- The types that a client was called with are those that were announced. -/
def ClientCall.Announced : ClientCall → Prop
  | .cacheInitSegment _ => True
  | .forward _ chunkType _ announced => ∀ t ∈ announced, chunkType = t

def TypesKept (s : Viewer) : Prop := ∀ c ∈ s.calls, ClientCall.Announced c

/-- The processing of a chunk leaves its type in place: it is collected as an orphan, queued, or not
looked at. -/
def KeepsType (b : Answers) (s : Viewer) (buffer : Bytes) : Prop :=
  s.isInitChunk = false ∧ (s.isOrphan buffer = true ∨
    s.nextChunkType ≠ some "initialization_complete" ∧
      (s.isReady = false ∨ b.attached = false ∨ b.videoError = true ∨ buffer.length < 8))

instance (b : Answers) (s : Viewer) (buffer : Bytes) : Decidable (s.KeepsType b buffer) :=
  inferInstanceAs (Decidable (_ ∧ _))

/-- The frame that is processed at an event, if any. -/
def processed (s : Viewer) : ViewerEvent → Option BinaryFrame
  | .binary buffer false => some ⟨buffer,s.announced⟩
  | .converted k true => s.conversions[k]?
  | _ => none

/-- A frame that is to be forwarded is announced as the type that its processing leaves. -/
def ForwardsAnnounced (s : Viewer) (e : Answers × ViewerEvent) : Prop :=
  ∀ frame ∈ s.processed e.2, s.isOpened = true → s.forwards = true → ∀ t ∈ frame.announced,
    carried (if s.KeepsType e.1 frame.buffer then s.nextChunkType else none) = t

instance (s : Viewer) (e : Answers × ViewerEvent) : Decidable (s.ForwardsAnnounced e) :=
  inferInstanceAs (Decidable (∀ frame ∈ s.processed e.2, _))

section Types

variable {b : Answers} {s s' s'' : Viewer}

/-- Nothing is forwarded under another type than announced, and the type of the next chunk stays. -/
def Forwardless (s s' : Viewer) : Prop :=
  (∀ c ∈ s'.calls, c ∈ s.calls ∨ ClientCall.Announced c) ∧ s'.nextChunkType = s.nextChunkType ∧
    s'.isOpened = s.isOpened ∧ s'.webrtcClient = s.webrtcClient

theorem Forwardless.of_eq (hcalls : s'.calls = s.calls) (htype : s'.nextChunkType = s.nextChunkType)
    (hopened : s'.isOpened = s.isOpened) (hclient : s'.webrtcClient = s.webrtcClient) :
    Forwardless s s' := by
  refine ⟨?_,htype,hopened,hclient⟩
  intro c hc
  rw [hcalls] at hc
  exact .inl hc

theorem Forwardless.refl (s : Viewer) : Forwardless s s := .of_eq rfl rfl rfl rfl

theorem Forwardless.trans (h : Forwardless s s') (h' : Forwardless s' s'') : Forwardless s s'' := by
  refine ⟨?_,h'.2.1.trans h.2.1,h'.2.2.1.trans h.2.2.1,h'.2.2.2.trans h.2.2.2⟩
  intro c hc
  rcases h'.1 c hc with hc' | hannounced
  · exact h.1 c hc'
  · exact .inr hannounced

theorem appendBuffer_frame {buffer : Bytes} (h : s.appendBuffer b buffer = some s') :
    s'.calls = s.calls ∧ s'.nextChunkType = s.nextChunkType ∧ s'.isOpened = s.isOpened ∧
      s'.webrtcClient = s.webrtcClient := by
  unfold appendBuffer at h
  cases hbuffers : s.sourceBuffers with
  | nil => simp [hbuffers] at h
  | cons sb rest =>
    simp only [hbuffers] at h
    split_ifs at h
    cases h
    simp [isOpened,hbuffers]

theorem appendBuffer_forwardless {buffer : Bytes} (h : s.appendBuffer b buffer = some s') :
    Forwardless s s' := by
  obtain ⟨hcalls,htype,hopened,hclient⟩ := appendBuffer_frame h
  exact .of_eq hcalls htype hopened hclient

theorem call_forwardless {c : ClientCall} (h : ClientCall.Announced c) :
    Forwardless s (s.call c) := by
  refine ⟨?_,rfl,rfl,rfl⟩
  intro c' hc'
  rcases List.mem_append.mp hc' with hc' | hc'
  · exact .inl hc'
  · rw [List.mem_singleton.mp hc']
    exact .inr h

theorem cacheInitSegment_forwardless (s : Viewer) (buffer : Bytes) :
    Forwardless s (s.cacheInitSegment buffer) := by
  unfold cacheInitSegment
  split_ifs
  · exact call_forwardless trivial
  · exact .refl s

theorem assemble_forwardless (b : Answers) (s : Viewer) :
    Forwardless s (s.assembleAndAppendInitSegment b) := by
  unfold assembleAndAppendInitSegment
  split_ifs with hnone
  · exact .refl s
  · have hcache := cacheInitSegment_forwardless s s.initSegmentChunks.flatten
    set combined := s.initSegmentChunks.flatten
    set t := s.cacheInitSegment combined
    apply hcache.trans
    dsimp only
    split_ifs with hready
    · cases happend : t.appendBuffer b combined with
      | none => exact .of_eq rfl rfl rfl rfl
      | some t' =>
        have happended := appendBuffer_forwardless happend
        apply happended.trans
        dsimp only
        split_ifs with hforwards
        · have hinit : ClientCall.Announced (.forward combined "initialization" false none) :=
            fun a hnone => nomatch hnone
          exact (call_forwardless hinit).trans (.of_eq rfl rfl rfl rfl)
        · exact .of_eq rfl rfl rfl rfl
    · exact .of_eq rfl rfl rfl rfl

theorem collect_forwardless (b : Answers) (s : Viewer) (buffer : Bytes) :
    Forwardless s (s.collectInitChunk b buffer) := by
  unfold collectInitChunk
  dsimp only
  split_ifs
  · exact (Forwardless.of_eq rfl rfl rfl rfl).trans (assemble_forwardless b _)
  · exact .of_eq rfl rfl rfl rfl

/-- What the processing of a chunk does to what is forwarded. -/
theorem processStreamChunk_spec (b : Answers) (s : Viewer) (buffer : Bytes) :
    (∀ c ∈ (s.processStreamChunk b buffer).calls, c ∈ s.calls ∨ ClientCall.Announced c) ∧
    (s.processStreamChunk b buffer).nextChunkType =
      (if s.KeepsType b buffer then s.nextChunkType else none) ∧
    (s.processStreamChunk b buffer).isOpened = s.isOpened ∧
    (s.processStreamChunk b buffer).webrtcClient = s.webrtcClient := by
  set t : Viewer := { s with chunksReceived := s.chunksReceived+1 } with ht
  have hcollect := collect_forwardless b t buffer
  have hcounted : Forwardless s t := .of_eq rfl rfl rfl rfl
  have hcleared (u : Viewer) (hu : Forwardless t u) :
      (∀ c ∈ u.calls, c ∈ s.calls ∨ ClientCall.Announced c) ∧
        u.isOpened = s.isOpened ∧ u.webrtcClient = s.webrtcClient :=
    ⟨(hcounted.trans hu).1,(hcounted.trans hu).2.2⟩
  unfold processStreamChunk
  simp only [← ht]
  by_cases hinit : t.isInitChunk = true
  · have hkeeps : ¬ s.KeepsType b buffer := fun h => Bool.false_ne_true (h.1.symm.trans hinit)
    rw [if_pos hinit,if_neg hkeeps]
    have hu := hcleared _ hcollect
    exact ⟨hu.1,rfl,hu.2⟩
  have hinit' : s.isInitChunk = false := Bool.not_eq_true _ ▸ hinit
  rw [if_neg hinit]
  by_cases horphan : t.isOrphan buffer = true
  · have hkeeps : s.KeepsType b buffer := ⟨hinit',.inl horphan⟩
    rw [if_pos horphan,if_pos hkeeps]
    exact hcounted.trans hcollect
  rw [if_neg horphan]
  by_cases hcomplete : t.nextChunkType = some "initialization_complete"
  · have hkeeps : ¬ s.KeepsType b buffer := by
      rintro ⟨_,h | h⟩
      · exact horphan h
      · exact h.1 hcomplete
    rw [if_pos hcomplete,if_neg hkeeps]
    by_cases hempty : buffer = []
    · rw [if_pos hempty]
      have hu := hcleared t (.refl t)
      exact ⟨hu.1,rfl,hu.2⟩
    · rw [if_neg hempty]
      have hu := hcleared _ hcollect
      exact ⟨hu.1,rfl,hu.2⟩
  rw [if_neg hcomplete]
  cases hready : t.isReady with
  | false =>
    have hkeeps : s.KeepsType b buffer := ⟨hinit',.inr ⟨hcomplete,.inl hready⟩⟩
    rw [if_pos hkeeps]
    exact Forwardless.of_eq rfl rfl rfl rfl
  | true =>
    simp only [Bool.not_true,Bool.false_eq_true,if_false]
    by_cases hskip : (!b.attached || b.videoError || decide (buffer.length < 8)) = true
    · have hkeeps : s.KeepsType b buffer := by
        refine ⟨hinit',.inr ⟨hcomplete,.inr ?_⟩⟩
        simpa [or_assoc] using hskip
      rw [if_pos hskip,if_pos hkeeps]
      exact hcounted
    · have hkeeps : ¬ s.KeepsType b buffer := by
        rintro ⟨_,h | ⟨_,h | h⟩⟩
        · exact horphan h
        · exact Bool.false_ne_true (h.symm.trans hready)
        · exact hskip (by simpa [or_assoc] using h)
      rw [if_neg hskip,if_neg hkeeps]
      have hcached : Forwardless t (if boxType buffer = ftyp then t.cacheInitSegment buffer else t) := by
        split_ifs
        · exact cacheInitSegment_forwardless t buffer
        · exact .refl t
      generalize (if boxType buffer = ftyp then t.cacheInitSegment buffer else t) = u at hcached ⊢
      have happended : Forwardless t (if u.isAudio then u else (u.appendBuffer b buffer).getD u) := by
        split_ifs
        · exact hcached
        · cases happend : u.appendBuffer b buffer with
          | none => exact hcached
          | some u' => exact hcached.trans (appendBuffer_forwardless happend)
      have hu := hcleared _ happended
      exact ⟨hu.1,rfl,hu.2⟩

/-- A frame is forwarded rightly exactly if it is announced as the type that its processing
leaves. -/
theorem process_kept_iff (h : s.TypesKept) (frame : BinaryFrame) :
    (s.isOpened = true → s.forwards = true → ∀ t ∈ frame.announced,
      carried (if s.KeepsType b frame.buffer then s.nextChunkType else none) = t) ↔
      (s.processStreamChunkAndForward b frame).TypesKept := by
  obtain ⟨hcalls,htype,hopened,hclient⟩ := processStreamChunk_spec b s frame.buffer
  have hkept : (s.processStreamChunk b frame.buffer).TypesKept := by
    intro c hc
    rcases hcalls c hc with hc' | hannounced
    · exact h c hc'
    · exact hannounced
  have hforwards : (s.processStreamChunk b frame.buffer).forwards = s.forwards := by
    rw [forwards,hclient]
    rfl
  unfold processStreamChunkAndForward
  simp only [hforwards,hopened,htype]
  cases hf : s.forwards with
  | false => simp [hkept]
  | true =>
    simp only [if_true,true_imp_iff]
    constructor
    · intro hannounced c hc
      rcases List.mem_append.mp hc with hc' | hc'
      · exact hkept c hc'
      · rw [List.mem_singleton.mp hc']
        cases ho : s.isOpened with
        | false => exact fun t hnone => nomatch hnone
        | true => exact hannounced ho
    · intro hall ho t ht
      have hlast := hall _ (List.mem_append_right _ (List.mem_singleton.mpr rfl))
      rw [if_pos ho] at hlast
      exact hlast t ht

theorem kept_of_calls (hcalls : s'.calls = s.calls) : s'.TypesKept ↔ s.TypesKept := by
  rw [TypesKept,TypesKept,hcalls]

theorem listen_calls (s : Viewer) (l : BufferListener) : (s.listen l).calls = s.calls := by
  unfold listen
  split <;> rfl

theorem callEndOfStream_calls (s : Viewer) : s.callEndOfStream.calls = s.calls := by
  unfold callEndOfStream
  split_ifs <;> rfl

theorem finalize_calls (s : Viewer) : s.finalizeMediaSource.calls = s.calls := by
  unfold finalizeMediaSource
  split_ifs
  · exact listen_calls s _
  · exact callEndOfStream_calls s
  · rfl

theorem processNext_calls (b : Answers) (rest : List PendingChunk) (s : Viewer) :
    (processNext b rest s).calls = s.calls := by
  induction rest generalizing s with
  | nil => rfl
  | cons chunk rest ih =>
    unfold processNext
    split_ifs
    · exact listen_calls s _
    · dsimp only
      cases happend : { s with nextChunkType := chunk.chunkType }.appendBuffer b chunk.buffer with
      | none => exact ih _
      | some t => exact (listen_calls t _).trans (appendBuffer_frame happend).1

theorem notify_calls (b : Answers) (l : List BufferListener) (s : Viewer) :
    (l.foldl (notify b) s).calls = s.calls := by
  induction l generalizing s with
  | nil => rfl
  | cons x l ih =>
    rw [List.foldl_cons,ih]
    cases x with
    | processNext rest => exact processNext_calls b rest s
    | callEndOfStream => exact callEndOfStream_calls s

theorem step_kept_iff (h : s.TypesKept) (e : Answers × ViewerEvent) :
    s.ForwardsAnnounced e ↔ (s.step e).TypesKept := by
  obtain ⟨b,e⟩ := e
  have hquiet (e : ViewerEvent) (hnone : s.processed e = none)
      (hcalls : (s.step (b,e)).calls = s.calls) :
      s.ForwardsAnnounced (b,e) ↔ (s.step (b,e)).TypesKept := by
    refine iff_of_true ?_ ((kept_of_calls hcalls).mpr h)
    intro frame hframe
    rw [hnone] at hframe
    cases hframe
  cases e with
  | chunkInfo chunkType size =>
    apply hquiet _ rfl
    show (s.handleChunkInfo chunkType size).calls = s.calls
    unfold handleChunkInfo
    dsimp only
    split_ifs
    · rfl
    · exact finalize_calls _
    · rfl
  | binary buffer isBlob =>
    cases isBlob with
    | true => exact hquiet _ rfl rfl
    | false =>
      have hframe := process_kept_iff (b := b)
        (s := { s with announced := none, received := s.received++[buffer] }) h ⟨buffer,s.announced⟩
      simp only [ForwardsAnnounced,processed,Option.mem_some_iff,forall_eq']
      exact hframe
  | converted k ok =>
    cases hk : s.conversions[k]? with
    | none =>
      apply hquiet
      · cases ok <;> simp [processed,hk]
      · simp [step,handleConverted,hk]
    | some frame =>
      cases ok with
      | false =>
        apply hquiet _ rfl
        simp [step,handleConverted,hk]
      | true =>
        have hframe := process_kept_iff (b := b)
          (s := { s with conversions := s.conversions.eraseIdx k }) h frame
        simp only [ForwardsAnnounced,processed,hk,Option.mem_some_iff,forall_eq',step,
          handleConverted,if_true]
        exact hframe
  | sourceopen created =>
    apply hquiet _ rfl
    cases created with
    | false => rfl
    | true => exact processNext_calls b _ _
  | updateend k =>
    apply hquiet _ rfl
    show (s.handleUpdateend b k).calls = s.calls
    unfold handleUpdateend
    split
    · rfl
    · split_ifs
      · rfl
      · exact notify_calls b _ _
  | ends => exact hquiet _ rfl rfl
  | sourceended => exact hquiet _ rfl rfl
  | sourceclose => exact hquiet _ rfl rfl
  | appendDone k => exact hquiet _ rfl rfl
  | clientChanges c => exact hquiet _ rfl rfl

/-- All along the events of a page every frame is forwarded under the type announced for it exactly
if each is announced as the type that its processing leaves. -/
theorem types_kept_iff (es : List (Answers × ViewerEvent)) :
    (∀ pre, pre <+: es → (pre.foldl step new).TypesKept) ↔ Along step ForwardsAnnounced new es := by
  refine (along_iff_prefixes TypesKept ?_ ?_).symm
  · intro c hc
    cases hc
  · exact fun s e h => step_kept_iff h e

end Types

end Viewer

end OpenBroadcast.Browser
