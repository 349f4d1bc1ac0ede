import OpenBroadcast.Browser.WebSocketClient

namespace OpenBroadcast.Browser

/-- A source buffer, with what waits for its turn. Recorded besides: what it has taken. -/
structure SourceBufferState where
  mimeType : String
  updating : Bool
  appendQueue : List Bytes
  appended : List Bytes

structure MediaManager where
  hasMediaSource : Bool
  videoBuffer : Option SourceBufferState
  audioBuffer : Option SourceBufferState

/-- What the browser does: which types it plays, which buffers it creates, which data they take,
and the texts of its errors. -/
structure Engine extends Script where
  isTypeSupported : String → Bool
  isChrome : Bool
  addSourceBuffer : String → Except String Unit
  appendBuffer : SourceBufferState → Bytes → Except String Unit
  notString : Option Json → String

structure CodecSupportResult where
  supported : Bool
  reason : Option String
  fallback : Option String

/-- `String.prototype.includes`. -/
def includes (text part : String) : Bool :=
  text.toList.tails.any (fun rest => part.toList.isPrefixOf rest)

namespace MediaManager

def checkCodecSupport (engine : Engine) (mimeType : String) : CodecSupportResult :=
  if engine.isTypeSupported mimeType then ⟨true,none,none⟩
  else if includes mimeType "ac-3" && engine.isChrome then
    ⟨false,some "Chrome does not support AC-3 codec in MSE",
      some "video/mp4; codecs=\"avc1.42C01E\""⟩
  else ⟨false,some ("Codec not supported: "++mimeType),none⟩

/-- The type of the buffer that is asked for, or one that stands in for it. -/
def finalMimeType (engine : Engine) (mimeType : String) : Except String String :=
  let support := checkCodecSupport engine mimeType
  if support.supported then .ok mimeType
  else
    match support.fallback with
    | some fallback =>
      if engine.isTypeSupported fallback then .ok fallback
      else .error ("Codec not supported: "++mimeType)
    | none => .error ("Codec not supported: "++mimeType)

def createVideoBuffer (engine : Engine) (m : MediaManager) (mimeType : String) :
    Except String MediaManager :=
  if !m.hasMediaSource then .error "MediaSource not initialized"
  else if m.videoBuffer.isSome then .error "Video buffer already exists"
  else do
    let final ← finalMimeType engine mimeType
    match engine.addSourceBuffer final with
    | .ok _ => .ok { m with videoBuffer := some ⟨final,false,[],[]⟩ }
    | .error e => .error ("Failed to create video buffer: "++e)

/-- Nothing stands in for the type of an audio buffer. -/
def createAudioBuffer (engine : Engine) (m : MediaManager) (mimeType : String) :
    Except String MediaManager :=
  if !m.hasMediaSource then .error "MediaSource not initialized"
  else if m.audioBuffer.isSome then .error "Audio buffer already exists"
  else if !(checkCodecSupport engine mimeType).supported then
    .error ("Codec not supported: "++mimeType)
  else
    match engine.addSourceBuffer mimeType with
    | .ok _ => .ok { m with audioBuffer := some ⟨mimeType,false,[],[]⟩ }
    | .error e => .error ("Failed to create audio buffer: "++e)

def appendToBuffer (engine : Engine) (b : SourceBufferState) (data : Bytes) :
    Except String SourceBufferState :=
  if b.updating || !b.appendQueue.isEmpty then
    .ok { b with appendQueue := b.appendQueue++[data] }
  else do
    engine.appendBuffer b data
    return { b with updating := true, appended := b.appended++[data] }

/-- The first of the data that waits, which is lost if the buffer does not take it. -/
def processAppendQueue (engine : Engine) (b : SourceBufferState) : SourceBufferState :=
  match b.appendQueue with
  | [] => b
  | data::rest =>
    match engine.appendBuffer { b with appendQueue := rest } data with
    | .ok _ => { b with updating := true, appendQueue := rest, appended := b.appended++[data] }
    | .error _ => { b with appendQueue := rest }

def appendVideoData (engine : Engine) (m : MediaManager) (data : Bytes) :
    Except String MediaManager :=
  match m.videoBuffer with
  | none => .error "Video buffer not initialized"
  | some b => do
    let b ← appendToBuffer engine b data
    return { m with videoBuffer := some b }

/-- The `updateend` of the video buffer. -/
def videoUpdateEnd (engine : Engine) (m : MediaManager) : MediaManager :=
  { m with
    videoBuffer := m.videoBuffer.map
      (fun b => processAppendQueue engine { b with updating := false }) }

end MediaManager

def getVideoMimeType (codec : String) : String :=
  match codec.toLower with
  | "h264" | "avc" => "video/mp4; codecs=\"avc1.42C01E\""
  | "hevc" | "h265" => "video/mp4; codecs=\"hev1.1.6.L93.90\""
  | "vp9" => "video/webm; codecs=\"vp09.00.10.08\""
  | "av1" => "video/mp4; codecs=\"av01.0.08M.08\""
  | "ac-3" => "video/mp4; codecs=\"ac-3\""
  | _ => "video/mp4; codecs=\""++codec++"\""

def getAudioMimeType (codec : String) : String :=
  match codec.toLower with
  | "aac" => "audio/mp4; codecs=\"mp4a.40.2\""
  | "opus" => "audio/webm; codecs=\"opus\""
  | "vorbis" => "audio/webm; codecs=\"vorbis\""
  | "mp3" => "audio/mpeg"
  | "ac-3" => "audio/mp4; codecs=\"ac-3\""
  | _ => "audio/mp4; codecs=\""++codec++"\""

inductive Component where
  | codec
  | media
  deriving DecidableEq, Repr

/-- The state of a `StreamManager` that the messages of its socket change. Recorded besides: the
data of the `init_segment` events, and the media segments that were appended. -/
structure StreamManager where
  webSocketClient : WebSocketClient
  mediaManager : MediaManager
  streamInfo : Option Json
  hasVideo : Bool
  hasAudio : Bool
  initialized : Bool
  chunksReceived : Nat
  initSegmentsReceived : Nat
  mediaSegmentsReceived : Nat
  lastError : Option (String × Component)
  errorCount : Nat
  initSegments : List Bytes
  mediaAppended : List Bytes

/-- What a manager is called with by its socket, its timers and its buffer. -/
inductive PageEvent where
  | client (input : ClientInput)
  | updateEnd

namespace StreamManager

/-- A manager whose media source is open, as it is before the socket is connected. -/
def new (maxMessageSize : Nat) : StreamManager where
  webSocketClient := .new maxMessageSize
  mediaManager := ⟨true,none,none⟩
  streamInfo := none
  hasVideo := false
  hasAudio := false
  initialized := false
  chunksReceived := 0
  initSegmentsReceived := 0
  mediaSegmentsReceived := 0
  lastError := none
  errorCount := 0
  initSegments := []
  mediaAppended := []

def handleError (s : StreamManager) (message : String) (component : Component) : StreamManager :=
  { s with lastError := some (message,component), errorCount := s.errorCount+1 }

def setupVideoBuffer (engine : Engine) (m : MediaManager) (codec : String) :
    Except String MediaManager :=
  let mimeType := getVideoMimeType codec
  let support := MediaManager.checkCodecSupport engine mimeType
  let (mimeType,support) :=
    match support.supported,support.fallback with
    | false,some fallback => (fallback,MediaManager.checkCodecSupport engine fallback)
    | _,_ => (mimeType,support)
  if !support.supported then .error ("Video codec not supported: "++codec)
  else m.createVideoBuffer engine mimeType

def setupAudioBuffer (engine : Engine) (m : MediaManager) (codec : String) :
    Except String MediaManager :=
  let mimeType := getAudioMimeType codec
  if !(MediaManager.checkCodecSupport engine mimeType).supported then
    .error ("Audio codec not supported: "++codec)
  else m.createAudioBuffer engine mimeType

/-- A track that is announced gets its buffer. A codec that is no text has no lower case. -/
def setupTrack (engine : Engine) (setup : MediaManager → String → Except String MediaManager)
    (m : MediaManager) (track : Option Json) : Except String MediaManager :=
  if Json.truthy track then
    match track.bind (Json.member "codec") with
    | some (.string codec) => setup m codec
    | codec => .error (engine.notString codec)
  else .ok m

def handleStreamInfo (engine : Engine) (s : StreamManager) (streamInfo : Json) : StreamManager :=
  let video := streamInfo.member "video"
  let audio := streamInfo.member "audio"
  let s := { s with
    streamInfo := some streamInfo
    hasVideo := Json.truthy video
    hasAudio := Json.truthy audio }
  match setupTrack engine (setupVideoBuffer engine) s.mediaManager video with
  | .error e => s.handleError e .codec
  | .ok m =>
    let s := { s with mediaManager := m }
    match setupTrack engine (setupAudioBuffer engine) m audio with
    | .error e => s.handleError e .codec
    | .ok m => { s with mediaManager := m, initialized := true }

def handleChunkInfo (s : StreamManager) (chunkInfo : Json) : StreamManager :=
  let s := { s with chunksReceived := s.chunksReceived+1 }
  if Json.hasText (chunkInfo.member "chunk_type") "init" then
    { s with initSegmentsReceived := s.initSegmentsReceived+1 }
  else { s with mediaSegmentsReceived := s.mediaSegmentsReceived+1 }

def handleInitSegment (engine : Engine) (s : StreamManager) (data : Bytes) : StreamManager :=
  let s := { s with initSegments := s.initSegments++[data] }
  match s.mediaManager.appendVideoData engine data with
  | .ok m => { s with mediaManager := m }
  | .error e => s.handleError e .media

def handleMediaSegment (engine : Engine) (s : StreamManager) (data : Bytes) : StreamManager :=
  match s.mediaManager.appendVideoData engine data with
  | .ok m => { s with mediaManager := m, mediaAppended := s.mediaAppended++[data] }
  | .error e => s.handleError e .media

/-- The listeners of `setupWebSocketEventHandlers`. -/
def handleEvent (engine : Engine) (s : StreamManager) : ClientEvent → StreamManager
  | .streamInfo detail => s.handleStreamInfo engine detail
  | .chunkInfo detail => s.handleChunkInfo detail
  | .initSegment data _ _ => s.handleInitSegment engine data
  | .binaryChunk _ isInit data => if isInit then s else s.handleMediaSegment engine data
  | .messageError _ _ _ | .parseError | .error _ | .message _ | .mediaSegment _ _ _
  | .chunkTimeout _ _ => s

def step (engine : Engine) (s : StreamManager) : PageEvent → StreamManager
  | .client input =>
    let (client,events) := s.webSocketClient.step engine.toScript input
    events.foldl (handleEvent engine) { s with webSocketClient := client }
  | .updateEnd => { s with mediaManager := s.mediaManager.videoUpdateEnd engine }

section Bare

variable {engine : Engine} {s : StreamManager}

/-- A manager without a video buffer, that has been handed no init segment and has appended
nothing. -/
structure Bare (s : StreamManager) : Prop where
  videoBuffer : s.mediaManager.videoBuffer = none
  initSegments : s.initSegments = []
  mediaAppended : s.mediaAppended = []

theorem bare_new (maxMessageSize : Nat) : (new maxMessageSize).Bare := ⟨rfl,rfl,rfl⟩

theorem createAudioBuffer_videoBuffer {m m' : MediaManager} {mimeType : String}
    (h : m.createAudioBuffer engine mimeType = .ok m') : m'.videoBuffer = m.videoBuffer := by
  unfold MediaManager.createAudioBuffer at h
  split_ifs at h
  cases hadd : engine.addSourceBuffer mimeType with
  | ok _ =>
    rw [hadd] at h
    cases h
    rfl
  | error e => simp [hadd] at h

/-- The buffer of an audio track leaves that of the video track alone. -/
theorem setupAudio_videoBuffer {m m' : MediaManager} {track : Option Json}
    (h : setupTrack engine (setupAudioBuffer engine) m track = .ok m') :
    m'.videoBuffer = m.videoBuffer := by
  unfold setupTrack at h
  split_ifs at h
  · split at h
    · unfold setupAudioBuffer at h
      dsimp only at h
      split_ifs at h
      exact createAudioBuffer_videoBuffer h
    · cases h
  · cases h
    rfl

theorem Bare.handleError (h : s.Bare) (message : String) (component : Component) :
    (s.handleError message component).Bare := ⟨h.videoBuffer,h.initSegments,h.mediaAppended⟩

/-- Without a `video` in the description there is no video buffer. -/
theorem Bare.handleStreamInfo (h : s.Bare) {streamInfo : Json}
    (hvideo : streamInfo.member "video" = none) :
    (s.handleStreamInfo engine streamInfo).Bare := by
  have hsetup : setupTrack engine (setupVideoBuffer engine) s.mediaManager none =
      .ok s.mediaManager := rfl
  unfold StreamManager.handleStreamInfo
  dsimp only
  rw [hvideo,hsetup]
  dsimp only
  cases haudio : setupTrack engine (setupAudioBuffer engine) s.mediaManager
      (streamInfo.member "audio") with
  | error e => exact ⟨h.videoBuffer,h.initSegments,h.mediaAppended⟩
  | ok m =>
    have hm : m.videoBuffer = none := (setupAudio_videoBuffer haudio).trans h.videoBuffer
    exact ⟨hm,h.initSegments,h.mediaAppended⟩

theorem Bare.handleChunkInfo (h : s.Bare) (chunkInfo : Json) :
    (s.handleChunkInfo chunkInfo).Bare := by
  unfold StreamManager.handleChunkInfo
  dsimp only
  split_ifs
  · exact ⟨h.videoBuffer,h.initSegments,h.mediaAppended⟩
  · exact ⟨h.videoBuffer,h.initSegments,h.mediaAppended⟩

theorem Bare.handleEvent (h : s.Bare) {e : ClientEvent} (hinit : e.initData = none)
    (hmedia : e.mediaData = none)
    (hvideo : ∀ detail, e = .streamInfo detail → detail.member "video" = none) :
    (s.handleEvent engine e).Bare := by
  cases e with
  | streamInfo detail => exact h.handleStreamInfo (hvideo detail rfl)
  | chunkInfo detail => exact h.handleChunkInfo detail
  | initSegment data totalSize chunkCount => simp [ClientEvent.initData] at hinit
  | binaryChunk sequence isInit data =>
    cases isInit with
    | true => exact h
    | false => simp [ClientEvent.mediaData] at hmedia
  | messageError _ _ _ => exact h
  | parseError => exact h
  | error _ => exact h
  | message _ => exact h
  | mediaSegment _ _ _ => exact h
  | chunkTimeout _ _ => exact h

theorem Bare.handleEvents (h : s.Bare) {events : List ClientEvent}
    (hevents : ∀ e ∈ events, e.initData = none ∧ e.mediaData = none ∧
      ∀ detail, e = .streamInfo detail → detail.member "video" = none) :
    (events.foldl (StreamManager.handleEvent engine) s).Bare := by
  induction events generalizing s with
  | nil => exact h
  | cons e events ih =>
    obtain ⟨hinit,hmedia,hvideo⟩ := hevents e List.mem_cons_self
    exact ih (h.handleEvent hinit hmedia hvideo)
      (fun e' he' => hevents e' (List.mem_cons_of_mem e he'))

end Bare

section Deaf

variable {engine : Engine} {s : StreamManager}

theorem handleStreamInfo_client (streamInfo : Json) :
    (s.handleStreamInfo engine streamInfo).webSocketClient = s.webSocketClient := by
  unfold handleStreamInfo
  dsimp only
  split
  · rfl
  · split <;> rfl

theorem handleChunkInfo_client (chunkInfo : Json) :
    (s.handleChunkInfo chunkInfo).webSocketClient = s.webSocketClient := by
  unfold handleChunkInfo
  dsimp only
  split_ifs <;> rfl

theorem handleInitSegment_client (data : Bytes) :
    (s.handleInitSegment engine data).webSocketClient = s.webSocketClient := by
  unfold handleInitSegment
  dsimp only
  split <;> rfl

theorem handleMediaSegment_client (data : Bytes) :
    (s.handleMediaSegment engine data).webSocketClient = s.webSocketClient := by
  unfold handleMediaSegment
  split <;> rfl

theorem handleEvent_client (e : ClientEvent) :
    (s.handleEvent engine e).webSocketClient = s.webSocketClient := by
  cases e with
  | streamInfo detail => exact handleStreamInfo_client detail
  | chunkInfo detail => exact handleChunkInfo_client detail
  | initSegment data _ _ => exact handleInitSegment_client data
  | binaryChunk _ isInit data =>
    cases isInit with
    | true => rfl
    | false => exact handleMediaSegment_client data
  | messageError _ _ _ => rfl
  | parseError => rfl
  | error _ => rfl
  | message _ => rfl
  | mediaSegment _ _ _ => rfl
  | chunkTimeout _ _ => rfl

theorem handleEvents_client (events : List ClientEvent) :
    (events.foldl (handleEvent engine) s).webSocketClient = s.webSocketClient := by
  induction events generalizing s with
  | nil => rfl
  | cons e events ih =>
    rw [List.foldl_cons,ih]
    exact handleEvent_client e

/-- A bare manager that waits for no init segment. -/
structure Deaf (s : StreamManager) : Prop extends s.Bare where
  keys : s.webSocketClient.AllKeys (fun key => chunkType key ≠ "init")

theorem deaf_new (maxMessageSize : Nat) : (new maxMessageSize).Deaf where
  toBare := bare_new maxMessageSize
  keys := WebSocketClient.allKeys_new maxMessageSize

/-- As long as no text announces an init segment or describes a video track in the places where
the client looks, nothing is handed over or appended. -/
theorem Deaf.client (h : s.Deaf) {input : ClientInput}
    (hkey : WebSocketClient.Announces engine.toScript (fun key => chunkType key ≠ "init") input)
    (hvideo : ∀ length m, input = .message (.text length (some m)) → m.member "video" = none) :
    (s.step engine (.client input)).Deaf := by
  have hevents : ∀ e ∈ (s.webSocketClient.step engine.toScript input).2,
      e.initData = none ∧ e.mediaData = none ∧
        ∀ detail, e = .streamInfo detail → detail.member "video" = none := by
    intro e he
    have hdispatched := WebSocketClient.dispatched_of_mem he
    refine ⟨hdispatched.initData h.keys,hdispatched.mediaData,?_⟩
    rintro detail rfl
    obtain ⟨length,rfl⟩ := hdispatched.of_streamInfo
    exact hvideo length detail rfl
  have hbare : Bare { s with
      webSocketClient := (s.webSocketClient.step engine.toScript input).1 } :=
    ⟨h.videoBuffer,h.initSegments,h.mediaAppended⟩
  refine ⟨hbare.handleEvents hevents,?_⟩
  show WebSocketClient.AllKeys (List.foldl _ _ _ : StreamManager).webSocketClient _
  rw [handleEvents_client]
  exact h.keys.step hkey

theorem Deaf.updateEnd (h : s.Deaf) : (s.step engine .updateEnd).Deaf := by
  have hbuffer : (s.mediaManager.videoUpdateEnd engine).videoBuffer = none := by
    simp [MediaManager.videoUpdateEnd,h.videoBuffer]
  exact ⟨⟨hbuffer,h.initSegments,h.mediaAppended⟩,h.keys⟩

end Deaf

end StreamManager

end OpenBroadcast.Browser
