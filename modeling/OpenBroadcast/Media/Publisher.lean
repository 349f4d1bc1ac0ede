import OpenBroadcast.Framework.Codec
import OpenBroadcast.Framework.Utf8
import OpenBroadcast.Media.TrackKinds

namespace OpenBroadcast.Media

structure StreamMetadata where
  title : String
  videoWidth : Nat
  videoHeight : Nat
  videoFps : Nat
  audioSampleRate : Nat
  audioChannels : Nat
  videoCodec : String
  audioCodec : String

/-- The counters of the builder for video and audio are not used by the publisher. -/
structure SegmentBuilder where
  streamId : StreamId
  metaSequence : UInt64
  idLength : streamId.bytes.length < 2^64

theorem length_sized (data : Sized UInt8) : data.val.length < 2^64 := data.property

namespace SegmentBuilder

def new (streamId : StreamId) (idLength : streamId.bytes.length < 2^64) : SegmentBuilder :=
  ⟨streamId,0,idLength⟩

def metadata (b : SegmentBuilder) (nowUs : UInt64) (data : Sized UInt8) :
    StreamSegment × SegmentBuilder :=
  ({ streamId := b.streamId
     sequence := b.metaSequence
     ptsUs := nowUs
     durationUs := 0
     mediaType := .metadata
     data := data.val
     isKeyframe := false
     trackId := 0
     idLength := b.idLength
     dataLength := length_sized data },
    { b with metaSequence := b.metaSequence+1 })

end SegmentBuilder

/-- `PublisherError::Media`; a panic stays one. -/
inductive PublisherError where
  | media (text : String)
  | panic
  deriving DecidableEq

/-- The text of an error of the parser behind another. -/
def PublisherError.ofMp4 (text : String) : Mp4Error → PublisherError
  | .io message => .media (text++message)
  | .panic => .panic

/-- What has been published when the call is over. -/
structure Publication where
  published : List StreamSegment
  builder : SegmentBuilder
  result : Except PublisherError Unit

section Publish

-- `serde_json::to_vec`, which does not fail for this structure.
variable (toVec : StreamMetadata → Sized UInt8)

def streamMetadata (fileName : Option String) (tracks : List ParsedTrack) : StreamMetadata :=
  let videoInfo := tracks.find? (fun t => t.mediaType == "vide")
  let audioInfo := tracks.find? (fun t => t.mediaType == "soun")
  { title := fileName.getD "Unknown"
    videoWidth := (videoInfo.map (fun _ => 1920)).getD 0
    videoHeight := (videoInfo.map (fun _ => 1080)).getD 0
    videoFps := 30
    audioSampleRate := (audioInfo.map (fun a => a.timescale)).getD 48000
    audioChannels := 2
    videoCodec := (videoInfo.map (fun v => v.codec)).getD "h264"
    audioCodec := (audioInfo.map (fun a => a.codec)).getD "aac" }

/-- The stop signal ends the loop over the media segments after some of them. -/
def publishMedia (stop : Option Nat) (mediaSegments : List StreamSegment) : List StreamSegment :=
  match stop with
  | some n => mediaSegments.take n
  | none => mediaSegments

/-- `publish_from_file` where the overlay takes all that is published. -/
def publishFromFile (b : SegmentBuilder) (fileName : Option String) (fileData : Bytes)
    (nowUs : UInt64) (stop : Option Nat) : Publication :=
  match ParserState.new.parse fileData with
  | .error e => ⟨[],b,.error (.ofMp4 "Failed to parse MP4: " e)⟩
  | .ok parser =>
    let (metadataSegment,b) := b.metadata nowUs (toVec (streamMetadata fileName parser.tracks))
    match parser.generateStreamSegments b.streamId with
    | .error e => ⟨[metadataSegment],b,.error (.ofMp4 "Failed to generate segments: " e)⟩
    | .ok (segments,_) =>
      if segments.isEmpty then
        ⟨[metadataSegment],b,.error (.media "No segments generated")⟩
      -- No vector has 2^64 elements.
      else if 2^64 ≤ segments.length then ⟨[metadataSegment],b,.error .panic⟩
      else
        ⟨metadataSegment::segments.filter (·.isInit)++
          publishMedia stop (segments.filter (fun s => !s.isInit)),b,.ok ()⟩

/-- The id under which the overlay knows the stream. -/
def overlayStreamId (streamId : StreamId) : Bytes :=
  if (fromUtf8 streamId.bytes).isSome then streamId.bytes else []

end Publish

section Numbering

theorem fromMseSegment_fields {mse : MseSegment} {streamId : StreamId} {sequence : Nat}
    {seg : StreamSegment} (h : StreamSegment.fromMseSegment mse streamId sequence = .ok seg) :
    seg.streamId = streamId ∧ seg.sequence = .ofNat sequence := by
  obtain ⟨_,_,h⟩ := bind_eq_ok.mp h
  obtain ⟨_,_,h⟩ := bind_eq_ok.mp h
  split_ifs at h with hlength
  cases h
  exact ⟨rfl,rfl⟩

namespace ParserState

variable {s s' : ParserState} {streamId : StreamId} {segments : List StreamSegment}

/-- The segments of a file are numbered by their positions. -/
theorem generateStreamSegments_sequence
    (h : s.generateStreamSegments streamId = .ok (segments,s')) :
    (∀ seg ∈ segments, seg.streamId = streamId) ∧
      segments.map (·.sequence) = (List.range segments.length).map UInt64.ofNat := by
  obtain ⟨⟨mse,_⟩,_,h⟩ := bind_eq_ok.mp h
  obtain ⟨_,hsegments,h⟩ := bind_eq_ok.mp h
  cases h
  have hall : List.Forall₂ (fun (pair : Nat × MseSegment) seg =>
      seg.streamId = streamId ∧ seg.sequence = .ofNat pair.1)
      (mse.mapIdx (fun i mse => (i,mse))) segments := by
    apply (mapM_eq_ok_iff.mp hsegments).imp
    rintro ⟨i,one⟩ seg hseg
    exact fromMseSegment_fields hseg
  constructor
  · intro seg hseg
    obtain ⟨_,_,hid,_⟩ := forall₂_mem_right hall hseg
    exact hid
  · have hlength : mse.length = segments.length := by simpa using hall.length_eq
    apply List.ext_getElem
    · simp
    · intro i hi _
      have hi : i < segments.length := by simpa using hi
      have hone := hall.get (i := i) (by simpa [hlength] using hi) hi
      simpa using hone.2

end ParserState

end Numbering

section Init

theorem RegularMp4.initSegment_trackId {p : RegularMp4} {init : MseSegment}
    (h : p.initSegment = .ok init) : init.trackId = 0 := by
  unfold RegularMp4.initSegment at h
  cases hmoov : p.lastBox tagMoov with
  | none => simp [hmoov] at h
  | some moov =>
    simp only [hmoov] at h
    obtain ⟨_,_,h⟩ := bind_eq_ok.mp h
    cases h
    rfl

theorem initSegments_trackId {p : Mp4Parser} {first : List MseSegment}
    (h : p.initSegments = .ok first) : first.length ≤ 1 ∧ ∀ seg ∈ first, seg.trackId = 0 := by
  obtain ⟨parts,_,h⟩ := bind_eq_ok.mp h
  cases h
  split_ifs <;> simp

/-- A box that makes bytes for an initialization segment. -/
def isInitBox (p : Mp4Parser) (b : Mp4Box) : Bool :=
  (b.header.boxType == tagFtyp || b.header.boxType == tagMoov) &&
    (8+b.content.length ≤ maxBoxSize || b.header.boxType == tagMoov && p.hasAc3Audio)

theorem serializeBox_eq_nil {b : Mp4Box} (htype : b.header.boxType.length = 4) :
    serializeBox b = [] ↔ maxBoxSize < 8+b.content.length := by
  have hwritten : ¬ toBe 4 (8+b.content.length)++b.header.boxType++b.content = [] := by
    intro hnil
    have hlength := congrArg List.length hnil
    simp [htype] at hlength
  unfold serializeBox
  rw [if_neg (by simp [htype])]
  split_ifs with hcontent hsum
  · simp only [true_iff]
    omega
  · simp only [hsum]
  · simp only [hwritten,hsum]

theorem initData_eq_nil {p : Mp4Parser} {b : Mp4Box} {part : Bytes}
    (h : p.initData b = .ok part) : part = [] ↔ isInitBox p b = false := by
  have hftyp : tagFtyp.length = 4 := rfl
  have hmoov : tagMoov.length = 4 := rfl
  have hdistinct : tagMoov ≠ tagFtyp := by decide
  unfold Mp4Parser.initData at h
  unfold isInitBox
  split_ifs at h with hkind hkind' hac3
  · cases h
    rw [serializeBox_eq_nil (by rw [hkind,hftyp])]
    simp [hkind,hdistinct.symm]
  · have hne : part ≠ [] := by
      obtain ⟨size,_,h⟩ := bind_eq_ok.mp h
      cases h
      intro hnil
      have hlength := congrArg List.length hnil
      simp [hmoov] at hlength
    simp [hkind',hac3,hne]
  · cases h
    rw [serializeBox_eq_nil (by rw [hkind',hmoov])]
    simp [hkind',hac3]
  · cases h
    simp [hkind,hkind']

/-- A fragmented file has an initialization segment if it has a box for it. -/
theorem initSegments_eq_nil {p : Mp4Parser} {first : List MseSegment}
    (h : p.initSegments = .ok first) : first = [] ↔ ∀ b ∈ p.boxes, isInitBox p b = false := by
  obtain ⟨parts,hparts,h⟩ := bind_eq_ok.mp h
  have hall := mapM_eq_ok_iff.mp hparts
  have hempty : parts.flatten.isEmpty = true ↔ ∀ b ∈ p.boxes, isInitBox p b = false := by
    rw [List.isEmpty_iff,List.flatten_eq_nil_iff]
    constructor
    · intro hnil b hb
      obtain ⟨part,hpart,hdata⟩ := forall₂_mem_left hall hb
      exact (initData_eq_nil hdata).mp (hnil part hpart)
    · intro hnone part hpart
      obtain ⟨b,hb,hdata⟩ := forall₂_mem_right hall hpart
      exact (initData_eq_nil hdata).mpr (hnone b hb)
  cases h
  rw [← hempty]
  split_ifs with hnil <;> simp [hnil]

namespace ParserState

variable {s s' : ParserState} {streamId : StreamId} {segments : List StreamSegment} {file : Bytes}

/-- A fragmented file without a box for an initialization segment. -/
def LacksInit (s : ParserState) : Prop :=
  s.isFragmented = true ∧ ∀ b ∈ s.boxes, isInitBox s.fragmented b = false

/-- At most one initialization segment, on the track 0, and behind it the media segments. -/
structure InitFirst (s : ParserState) (inits media : List StreamSegment) : Prop where
  isInit : ∀ seg ∈ inits, seg.isInit = true ∧ seg.trackId = 0
  atMostOne : inits.length ≤ 1
  isMedia : ∀ seg ∈ media, seg.isInit = false
  lacks : inits = [] ↔ s.LacksInit
  onlyVideo : s.LacksInit → ∀ seg ∈ media, seg.trackId = 1

theorem InitFirst.filter_isInit {s : ParserState} {inits media : List StreamSegment}
    (h : s.InitFirst inits media) : (inits++media).filter (·.isInit) = inits := by
  have hyes : inits.filter (·.isInit) = inits :=
    List.filter_eq_self.mpr (fun seg hseg => (h.isInit seg hseg).1)
  have hno : media.filter (·.isInit) = [] :=
    List.filter_eq_nil_iff.mpr (fun seg hseg => by simp [h.isMedia seg hseg])
  rw [List.filter_append,hyes,hno,List.append_nil]

theorem InitFirst.filter_isMedia {s : ParserState} {inits media : List StreamSegment}
    (h : s.InitFirst inits media) : (inits++media).filter (fun s => !s.isInit) = media := by
  have hno : inits.filter (fun s => !s.isInit) = [] :=
    List.filter_eq_nil_iff.mpr (fun seg hseg => by simp [(h.isInit seg hseg).1])
  have hyes : media.filter (fun s => !s.isInit) = media :=
    List.filter_eq_self.mpr (fun seg hseg => by simp [h.isMedia seg hseg])
  rw [List.filter_append,hyes,hno,List.nil_append]

theorem initFirst_of_labelled {first rest : List MseSegment}
    (hlabelled : List.Forall₂ Labelled (first++rest) segments)
    (hfirst : ∀ mse ∈ first, mse.segmentType = .initialization ∧ mse.trackId = 0)
    (hrest : ∀ mse ∈ rest, mse.segmentType = .media)
    (hone : first.length ≤ 1) (hlacks : first = [] ↔ s.LacksInit)
    (hvideo : s.LacksInit → ∀ mse ∈ rest, mse.trackId = 1) :
    ∃ inits media, segments = inits++media ∧ s.InitFirst inits media := by
  obtain ⟨inits,media,rfl,hinits,hmedia⟩ := forall₂_append hlabelled
  refine ⟨inits,media,rfl,?_,?_,?_,?_,?_⟩
  · intro seg hseg
    obtain ⟨mse,hmse,hlabel⟩ := forall₂_mem_right hinits hseg
    obtain ⟨htype,htrack⟩ := hfirst mse hmse
    have hkind := (mseMediaType_eq_initialization mse).mpr htype
    exact ⟨by simp [StreamSegment.isInit,hlabel.mediaType,hkind],by simp [hlabel.trackId,htrack]⟩
  · rw [← hinits.length_eq]
    exact hone
  · intro seg hseg
    obtain ⟨mse,hmse,hlabel⟩ := forall₂_mem_right hmedia hseg
    have hkind : StreamSegment.mseMediaType mse ≠ .initialization := by
      rw [ne_eq,mseMediaType_eq_initialization,hrest mse hmse]
      decide
    simp [StreamSegment.isInit,hlabel.mediaType,hkind]
  · rw [← hlacks,← List.length_eq_zero_iff,← List.length_eq_zero_iff,hinits.length_eq]
  · intro h seg hseg
    obtain ⟨mse,hmse,hlabel⟩ := forall₂_mem_right hmedia hseg
    rw [hlabel.trackId,hvideo h mse hmse]
    rfl

theorem generateStreamSegments_initFirst (hs : new.parse file = .ok s)
    (h : s.generateStreamSegments streamId = .ok (segments,s')) :
    ∃ inits media, segments = inits++media ∧ s.InitFirst inits media := by
  obtain ⟨mse,hmse,hlabelled⟩ := generateStreamSegments_labelled h
  cases hfragmented : s.isFragmented with
  | true =>
    obtain ⟨hextract,_⟩ := (generateMseSegments_fragmented hfragmented).mp hmse
    obtain ⟨first,media,hfirst,hmedia,rfl⟩ := Mp4Parser.extractFragmentedSegments_ok hextract
    have hone := mediaSegments_labels hmedia
    obtain ⟨hlength,htrack⟩ := initSegments_trackId hfirst
    apply initFirst_of_labelled hlabelled
    · exact fun seg hseg => ⟨initSegments_type hfirst seg hseg,htrack seg hseg⟩
    · intro seg hseg
      obtain ⟨_,_,htype,_⟩ := forall₂_mem_right hone hseg
      exact htype
    · exact hlength
    · rw [initSegments_eq_nil hfirst]
      exact ⟨fun hnone => ⟨hfragmented,hnone⟩,fun hlacks => hlacks.2⟩
    · intro _ seg hseg
      obtain ⟨_,_,_,hid⟩ := forall₂_mem_right hone hseg
      exact hid
  | false =>
    obtain ⟨c,hcreate,_⟩ := (generateMseSegments_regular hfragmented).mp hmse
    obtain ⟨init,media,hinit,rfl,htypes,_⟩ :=
      RegularMp4.createFragments_labels (parse_freshly hs) (parse_hasAc3Audio hs) hcreate
    have hhas : ¬ s.LacksInit := by
      intro hlacks
      have hno := hlacks.1
      simp [hfragmented] at hno
    have hparts : List.Forall₂ Labelled ([init]++media) segments := hlabelled
    apply initFirst_of_labelled hparts
    · simpa using ⟨s.regular.initSegment_type hinit,RegularMp4.initSegment_trackId hinit⟩
    · exact htypes
    · simp
    · simp [hhas]
    · exact fun hlacks => absurd hlacks hhas

end ParserState

end Init

end OpenBroadcast.Media
