import OpenBroadcast.Delivery.WebServer
import OpenBroadcast.Framework.Json
import OpenBroadcast.Framework.ListRelations

namespace OpenBroadcast.Delivery

open Media

/-- Whether the frame rate fits into an `f32` is up to who makes it; if not, it is written as
`null`. -/
structure VideoInfo where
  width : UInt32
  height : UInt32
  fps : Option ℚ
  codec : String
  mimeType : Option String

structure AudioInfo where
  sampleRate : UInt32
  channels : UInt16
  codec : String
  mimeType : Option String

structure StreamInfo where
  video : Option VideoInfo
  audio : Option AudioInfo

structure ChunkInfo where
  chunkType : String
  size : Nat
  timestamp : Nat

/-- The texts that go to a viewer. -/
inductive ClientMessage where
  | streamInfo (data : StreamInfo)
  | chunkInfo (data : ChunkInfo)
  | error (message : String)

section Serialize

def orNull {α : Type} (toJson : α → Json) (a : Option α) : Json :=
  (a.map toJson).getD .null

def VideoInfo.toJson (v : VideoInfo) : Json :=
  .object [("width",.integer v.width.toNat),("height",.integer v.height.toNat),
    ("fps",orNull .decimal v.fps),("codec",.string v.codec),
    ("mime_type",orNull .string v.mimeType)]

def AudioInfo.toJson (a : AudioInfo) : Json :=
  .object [("sample_rate",.integer a.sampleRate.toNat),("channels",.integer a.channels.toNat),
    ("codec",.string a.codec),("mime_type",orNull .string a.mimeType)]

def StreamInfo.toJson (s : StreamInfo) : Json :=
  .object [("video",orNull VideoInfo.toJson s.video),("audio",orNull AudioInfo.toJson s.audio)]

def ChunkInfo.toJson (c : ChunkInfo) : Json :=
  .object [("chunk_type",.string c.chunkType),("size",.integer c.size),
    ("timestamp",.integer c.timestamp)]

/-- The tag stands beside the fields of a variant, which for the two that are sent is `data`
alone. -/
def ClientMessage.toJson : ClientMessage → Json
  | .streamInfo data => .object [("type",.string "stream_info"),("data",data.toJson)]
  | .chunkInfo data => .object [("type",.string "chunk_info"),("data",data.toJson)]
  | .error message => .object [("type",.string "error"),("message",.string message)]

/-- What describes a stream or a chunk is one level down. -/
theorem ClientMessage.member_eq_none (m : ClientMessage) {name : String} (htype : name ≠ "type")
    (hdata : name ≠ "data") (hmessage : name ≠ "message") : m.toJson.member name = none := by
  cases m with
  | streamInfo data =>
    have h : name ∉ ["type","data"] := by simp [htype,hdata]
    exact Json.member_object_eq_none h
  | chunkInfo data =>
    have h : name ∉ ["type","data"] := by simp [htype,hdata]
    exact Json.member_object_eq_none h
  | error message =>
    have h : name ∉ ["type","message"] := by simp [htype,hmessage]
    exact Json.member_object_eq_none h

end Serialize

/-- A frame on the socket. -/
inductive Message where
  | text (m : ClientMessage)
  | binary (data : Bytes)
  | ping

/-- A segment that the stream protocol is about. -/
inductive Carried where
  | init (data : Bytes)
  | video (data : Bytes)
  deriving DecidableEq

/-- A frame that the handler sends. Recorded besides: the segment that is complete with it. -/
structure Outgoing where
  message : Message
  completes : Option Carried

def Carried.initData : Carried → Option Bytes
  | .init data => some data
  | .video _ => none

def Carried.videoData : Carried → Option Bytes
  | .video data => some data
  | .init _ => none

/-- The init segments that are complete with these frames. -/
def initsOf (frames : List Outgoing) : List Bytes :=
  frames.filterMap (fun f => f.completes.bind Carried.initData)

def videosOf (frames : List Outgoing) : List Bytes :=
  frames.filterMap (fun f => f.completes.bind Carried.videoData)

theorem Outgoing.completes_eq_none_iff (frame : Outgoing) : frame.completes = none ↔
    frame.completes.bind Carried.initData = none ∧
      frame.completes.bind Carried.videoData = none := by
  cases frame.completes with
  | none => simp
  | some carried => cases carried <;> simp [Carried.initData,Carried.videoData]

theorem initsOf_append (xs ys : List Outgoing) : initsOf (xs++ys) = initsOf xs++initsOf ys :=
  List.filterMap_append

theorem videosOf_append (xs ys : List Outgoing) : videosOf (xs++ys) = videosOf xs++videosOf ys :=
  List.filterMap_append

/-- What `handle_websocket` reads of the stream manager before it comes to its loop. -/
structure Readings where
  videoCodecInfo : Option (String × String)
  audioCodecInfo : Option (String × String)
  videoInitSegment : Option Bytes
  audioInitSegment : Option Bytes
  initializationSegment : Option Bytes

/-- The parser of JSON texts and the rounding to an `f32`, which may not be finite. -/
structure JsonReader where
  fromStr : String → Option Json
  toF32 : ℚ → Option ℚ

section Opening

def sendText (m : ClientMessage) : Outgoing := ⟨.text m,none⟩

def chunkInfo (chunkType : String) (size timestamp : Nat) : Outgoing :=
  sendText (.chunkInfo ⟨chunkType,size,timestamp⟩)

/-- The first message, with what stands in for a codec that is not known. -/
def Readings.streamInfo (r : Readings) : ClientMessage :=
  let video := r.videoCodecInfo.getD ("H.264","video/mp4; codecs=\"avc1.42E01E\"")
  .streamInfo {
    video := some ⟨640,480,some 30,video.1,some video.2⟩
    audio := r.audioCodecInfo.map (fun audio => ⟨48000,2,audio.1,some audio.2⟩) }

/-- The pieces of an init segment from one number on. -/
def pieceMessages (label : String) (whole : Bytes) (num offset : Nat) :
    List Bytes → List Outgoing
  | [] => []
  | piece::rest =>
    chunkInfo (label++"_chunk_"++toString num) piece.length offset::
      ⟨.binary piece,if rest.isEmpty then some (.init whole) else none⟩::
      pieceMessages label whole (num+1) (offset+piece.length) rest

def initMessages (label : String) (data : Bytes) : List Outgoing :=
  chunkInfo label data.length 0::
    if maxChunkSize < data.length then
      pieceMessages label data 1 0 (data.toChunks maxChunkSize)
    else [⟨.binary data,some (.init data)⟩]

/-- The audio segment is not cut into pieces. -/
def audioInitMessages (data : Bytes) : List Outgoing :=
  [chunkInfo "init_audio" data.length 0,⟨.binary data,some (.init data)⟩]

/-- The combined segment has a marker after its pieces. -/
def combinedInitMessages (data : Bytes) : List Outgoing :=
  initMessages "initialization" data++
    if maxChunkSize < data.length then [chunkInfo "initialization_complete" data.length 0] else []

def Readings.initSegments (r : Readings) : List Outgoing :=
  match r.videoInitSegment with
  | some video =>
    initMessages "init_video" video++r.audioInitSegment.toList.flatMap audioInitMessages
  | none => r.initializationSegment.toList.flatMap combinedInitMessages

/-- All that is sent before the loop. -/
def Readings.opening (r : Readings) : List Outgoing := sendText r.streamInfo::r.initSegments

end Opening

/-- What the `select!` of the loop comes to. A tick is the end of two seconds in which nothing else
happened. -/
inductive LoopEvent where
  | segment (s : StreamSegment)
  | lagged (n : Nat)
  | closed
  | disconnected
  | tick (heartbeatDue isStreaming : Bool)

section Loop

def ptsMs (s : StreamSegment) : Nat := s.ptsUs.toNat/1000

def unsigned (value : Json) (name : String) (default : Nat) : Nat :=
  ((value.member name).bind Json.asU64).getD default

def JsonReader.metadataInfo (reader : JsonReader) (metadata : Json) : ClientMessage :=
  .streamInfo {
    video := some {
      width := .ofNat (unsigned metadata "video_width" 640)
      height := .ofNat (unsigned metadata "video_height" 480)
      fps := reader.toF32 (((metadata.member "video_fps").bind Json.asNumber).getD 30)
      codec := "H.264"
      mimeType := some "video/mp4; codecs=\"avc1.42E01E\"" }
    audio := some {
      sampleRate := .ofNat (unsigned metadata "audio_sample_rate" 48000)
      channels := .ofNat (unsigned metadata "audio_channels" 2)
      codec := "AAC"
      mimeType := some "audio/mp4; codecs=\"mp4a.02.2\"" } }

def videoChunkType (s : StreamSegment) : String :=
  if s.mediaType = .initialization then "initialization"
  else if s.isKeyframe then "video-keyframe" else "video"

/-- What is sent for a segment. Metadata that is no JSON is passed over. -/
def JsonReader.segmentMessages (reader : JsonReader) (s : StreamSegment) : List Outgoing :=
  match s.mediaType with
  | .video => [chunkInfo (videoChunkType s) s.data.length (ptsMs s),
      ⟨.binary s.data,some (.video s.data)⟩]
  | .initialization => [chunkInfo (videoChunkType s) s.data.length (ptsMs s),
      ⟨.binary s.data,some (.init s.data)⟩]
  | .audio => [chunkInfo "audio" s.data.length (ptsMs s),⟨.binary s.data,none⟩]
  | .metadata =>
    match (fromUtf8 s.data).bind reader.fromStr with
    | some metadata => [sendText (reader.metadataInfo metadata)]
    | none => []

def JsonReader.loopMessages (reader : JsonReader) : LoopEvent → List Outgoing
  | .segment s => reader.segmentMessages s
  | .tick heartbeatDue isStreaming =>
    (if heartbeatDue then [⟨.ping,none⟩] else [])++
      if isStreaming then [] else [chunkInfo "end_of_stream" 0 0]
  | .lagged _ | .closed | .disconnected => []

def LoopEvent.ends : LoopEvent → Bool
  | .closed | .disconnected => true
  | .tick _ isStreaming => !isStreaming
  | .segment _ | .lagged _ => false

end Loop

section Sent

def Message.binary? : Message → Option Bytes
  | .binary data => some data
  | .text _ | .ping => none

/-- What goes in frames that are no texts. -/
def binariesOf (frames : List Outgoing) : List Bytes :=
  frames.filterMap (fun f => f.message.binary?)

theorem binariesOf_append (xs ys : List Outgoing) :
    binariesOf (xs++ys) = binariesOf xs++binariesOf ys :=
  List.filterMap_append

theorem binariesOf_pieceMessages (label : String) (whole : Bytes) (num offset : Nat)
    (pieces : List Bytes) : binariesOf (pieceMessages label whole num offset pieces) = pieces := by
  induction pieces generalizing num offset with
  | nil => rfl
  | cons piece rest ih =>
    have htail := ih (num+1) (offset+piece.length)
    simp [binariesOf,pieceMessages,chunkInfo,sendText,Message.binary?] at htail ⊢
    exact htail

theorem binariesOf_initMessages (label : String) (origin : StreamId) (data : Bytes) :
    binariesOf (initMessages label data) = (chunkFrames origin data).map Frame.data := by
  unfold initMessages chunkFrames
  split_ifs with hlong
  · have hpieces := binariesOf_pieceMessages label data 1 0 (data.toChunks maxChunkSize)
    have hframes : (Frame.data ∘ Frame.mk origin) = id := rfl
    rw [List.map_map,hframes,List.map_id]
    exact hpieces
  · rfl

theorem binariesOf_combinedInitMessages (origin : StreamId) (data : Bytes) :
    binariesOf (combinedInitMessages data) = (chunkFrames origin data).map Frame.data := by
  have hmarker : binariesOf (if maxChunkSize < data.length then
      [chunkInfo "initialization_complete" data.length 0] else []) = [] := by
    split_ifs <;> rfl
  rw [combinedInitMessages,binariesOf_append,hmarker,List.append_nil]
  exact binariesOf_initMessages "initialization" origin data

/-- What the handler of a viewer finds. -/
def WebServer.readings {PeerId : Type} (s : WebServer PeerId)
    (videoCodecInfo audioCodecInfo : Option (String × String)) : Readings where
  videoCodecInfo := videoCodecInfo
  audioCodecInfo := audioCodecInfo
  videoInitSegment := s.videoInit
  audioInitSegment := s.audioInit
  initializationSegment := s.node.initSegment

/-- Between its texts the handler sends the frames of the viewer. -/
theorem binariesOf_opening {PeerId : Type} (s : WebServer PeerId)
    (videoCodecInfo audioCodecInfo : Option (String × String)) :
    binariesOf (s.readings videoCodecInfo audioCodecInfo).opening =
      s.initFrames.map Frame.data := by
  show binariesOf (s.readings videoCodecInfo audioCodecInfo).initSegments = _
  unfold Readings.initSegments WebServer.initFrames WebServer.readings
  dsimp only
  cases s.videoInit with
  | none =>
    cases s.node.initSegment with
    | none => rfl
    | some data =>
      simp only [Option.toList,List.flatMap_cons,List.flatMap_nil,List.append_nil]
      exact binariesOf_combinedInitMessages s.initOrigin data
  | some video =>
    have hvideo := binariesOf_initMessages "init_video" s.segmentStreamId video
    rw [binariesOf_append,List.map_append,hvideo]
    cases s.audioInit <;> rfl

theorem binariesOf_segmentMessages (reader : JsonReader) (segment : StreamSegment) :
    binariesOf (reader.segmentMessages segment) = (Viewer.frameOf segment).map Frame.data := by
  unfold JsonReader.segmentMessages Viewer.frameOf
  cases segment.mediaType with
  | video => rfl
  | audio => rfl
  | initialization => rfl
  | metadata =>
    dsimp only
    cases (fromUtf8 segment.data).bind reader.fromStr <;> rfl

/-- The last piece completes the segment, and no other does. -/
theorem initsOf_pieceMessages (label : String) (whole : Bytes) (num offset : Nat)
    {pieces : List Bytes} (hne : pieces ≠ []) :
    initsOf (pieceMessages label whole num offset pieces) = [whole] := by
  induction pieces generalizing num offset with
  | nil => exact absurd rfl hne
  | cons piece rest ih =>
    cases rest with
    | nil => rfl
    | cons next rest =>
      have htail := ih (num+1) (offset+piece.length) (List.cons_ne_nil next rest)
      rw [pieceMessages]
      exact htail

theorem initsOf_initMessages (label : String) (data : Bytes) :
    initsOf (initMessages label data) = [data] := by
  unfold initMessages
  split_ifs with hlong
  · have hne : data.toChunks maxChunkSize ≠ [] := by
      intro hnil
      have hflat := flatten_toChunks maxChunkSize data
      rw [hnil] at hflat
      rw [← hflat] at hlong
      simp at hlong
    exact initsOf_pieceMessages label data 1 0 hne
  · rfl

/-- Each init segment that the handler reads is complete once before its loop. -/
theorem initsOf_opening (r : Readings) : initsOf r.opening =
    match r.videoInitSegment with
    | some video => video::r.audioInitSegment.toList
    | none => r.initializationSegment.toList := by
  show initsOf r.initSegments = _
  unfold Readings.initSegments
  cases r.videoInitSegment with
  | none =>
    cases r.initializationSegment with
    | none => rfl
    | some data =>
      have hmarker : initsOf (if maxChunkSize < data.length then
          [chunkInfo "initialization_complete" data.length 0] else []) = [] := by
        split_ifs <;> rfl
      simp only [Option.toList,List.flatMap_cons,List.flatMap_nil,List.append_nil]
      rw [combinedInitMessages,initsOf_append,hmarker,initsOf_initMessages]
      rfl
  | some video =>
    dsimp only
    rw [initsOf_append,initsOf_initMessages]
    cases r.audioInitSegment <;> rfl

theorem carried_segmentMessages (reader : JsonReader) (segment : StreamSegment) :
    initsOf (reader.segmentMessages segment) =
        (if segment.mediaType = .initialization then [segment.data] else []) ∧
      videosOf (reader.segmentMessages segment) =
        (if segment.mediaType = .video then [segment.data] else []) := by
  unfold JsonReader.segmentMessages
  cases segment.mediaType with
  | video => exact ⟨rfl,rfl⟩
  | audio => exact ⟨rfl,rfl⟩
  | initialization => exact ⟨rfl,rfl⟩
  | metadata =>
    dsimp only
    cases (fromUtf8 segment.data).bind reader.fromStr <;> exact ⟨rfl,rfl⟩

end Sent

end OpenBroadcast.Delivery
