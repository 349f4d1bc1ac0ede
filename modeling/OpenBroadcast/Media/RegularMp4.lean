import OpenBroadcast.Media.SampleTable

namespace OpenBroadcast.Media

def tagMvex : Bytes := [0x6d,0x76,0x65,0x78]
def tagTrex : Bytes := [0x74,0x72,0x65,0x78]

/-- A track with the fields that only the conversion of a regular file uses. -/
structure SampledTrack extends Mp4Track where
  trackId : UInt32
  codecParams : Option String
  sampleTable : Option SampleTable
  deriving DecidableEq

/-- The parser with the fields that only the conversion of a regular file uses. -/
structure RegularMp4 where
  boxes : List Mp4Box
  tracks : List SampledTrack
  fmp4Converter : FragmentedMp4Converter
  mdatPayloadOffset : Nat

section Emission

/-- What the two loops over groups of samples go on with. -/
structure Emission where
  converter : FragmentedMp4Converter
  decodeTime : Nat
  segments : List MseSegment

/-- The parameters of a loop over groups: how a sample becomes a frame, and what happens when no
fragment can be created. -/
structure GroupLoop where
  timescale : Nat
  trackId : UInt32
  frame : SampleEntry → Bytes → FrameData
  propagate : Bool

def videoFrame (se : SampleEntry) (data : Bytes) : FrameData :=
  .new data se.duration se.isKeyframe se.compositionOffset

/-- Audio frames are always sync samples. -/
def audioFrame (se : SampleEntry) (data : Bytes) : FrameData := .new data se.duration true 0

/-- The frames of a group, or nothing if a sample exceeds the `mdat`. -/
def groupFrames (frame : SampleEntry → Bytes → FrameData) (mdatOffset : Nat) (mdat : Bytes) :
    List SampleEntry → Except Mp4Error (Option (List FrameData))
  | [] => .ok (some [])
  | se::group =>
    if se.offset < mdatOffset then .error .panic
    else do
      let localOffset := se.offset-mdatOffset
      let stop ← checkedU64 (localOffset+se.size.toNat)
      if mdat.length < stop then return none
      else
        let data := (mdat.drop localOffset).take (stop-localOffset)
        let frames ← groupFrames frame mdatOffset mdat group
        return frames.map (fun frames => frame se data::frames)

/-- `(decode_time * 1000) / timescale`. -/
def timestampMs (decodeTime timescale : Nat) : Except Mp4Error Nat := do
  let scaled ← checkedU64 (decodeTime*1000)
  if timescale = 0 then .error .panic else return scaled/timescale

/-- The segment for the frames of a group. -/
def emitFrames (loop : GroupLoop) (frames : List FrameData) (st : Emission) :
    Except Mp4Error Emission := do
  let duration ← checkedU64 (totalDuration frames)
  let timestamp ← timestampMs st.decodeTime loop.timescale
  let st ← match st.converter.createFragmentV2 frames loop.trackId with
    | .ok (data,converter) =>
      .ok { st with
        converter := converter
        segments := st.segments++
          [⟨.media,data,some timestamp,some duration,true,loop.trackId.toNat⟩] }
    | .error (.io message) => if loop.propagate then .error (.io message) else .ok st
    | .error .panic => .error .panic
  let decodeTime ← checkedU64 (st.decodeTime+duration)
  return { st with decodeTime := decodeTime }

/-- A group with a sample that exceeds the `mdat` is skipped. -/
def emitGroup (loop : GroupLoop) (mdatOffset : Nat) (mdat : Bytes) (st : Emission)
    (group : List SampleEntry) : Except Mp4Error Emission := do
  match ← groupFrames loop.frame mdatOffset mdat group with
  | some frames => if frames.isEmpty then return st else emitFrames loop frames st
  | none => return st

end Emission

section Loops

variable (emit : Emission → List SampleEntry → Except Mp4Error Emission)

/-- The loop `for i in 0..=sample_entries.len()` from `i` on; `gopStart` is where the group begins
that is under way. -/
def gopLoop (entries : List SampleEntry) : Nat → Nat → Nat → Emission → Except Mp4Error Emission
  | 0,_,_,st => .ok st
  | n+1,i,gopStart,st =>
    let isGopBoundary :=
      if i = entries.length then true
      else if i = 0 then false
      else (entries[i]?.map SampleEntry.isKeyframe).getD false
    if isGopBoundary ∧ gopStart < i then do
      let st ← emit st ((entries.take i).drop gopStart)
      gopLoop entries n (i+1) i st
    else gopLoop entries n (i+1) gopStart st

/-- The loop `while chunk_start < audio_samples.len()`. -/
def chunkLoop (samplesPerChunk : Nat) :
    Nat → List SampleEntry → Emission → Except Mp4Error Emission
  | _,[],st => .ok st
  | 0,_,st => .ok st
  | n+1,entries,st => do
    let st ← emit st (entries.take samplesPerChunk)
    chunkLoop samplesPerChunk n (entries.drop samplesPerChunk) st

end Loops

namespace RegularMp4

variable (p : RegularMp4)

def hasAc3Audio : Bool :=
  p.tracks.any (fun t => t.mediaType == "soun" && t.codecParams == some "AC-3")

def createTrexBox (trackId : UInt32) : Except Mp4Error Bytes :=
  wrapBox tagTrex ([0,0,0,0]++toBe 4 trackId.toNat++[0,0,0,1]++List.replicate 12 0)

def createMvexBox : Except Mp4Error Bytes := do
  let trexes ← p.tracks.mapM (fun t => createTrexBox t.trackId)
  wrapBox tagMvex trexes.flatten

def createMseCompatibleMoov (moov : Mp4Box) : Except Mp4Error Bytes := do
  let content := if p.hasAc3Audio then createVideoOnlyMoov moov.content else moov.content
  let mvex ← p.createMvexBox
  wrapBox tagMoov (content++mvex)

def lastBox (kind : Bytes) : Option Mp4Box :=
  (p.boxes.filter (fun b => b.header.boxType == kind)).getLast?

def mdatData : Bytes := (p.lastBox tagMdat).elim [] Mp4Box.content

def initSegment : Except Mp4Error MseSegment := do
  let ftyp := (p.boxes.filter (fun b => b.header.boxType == tagFtyp)).flatMap serializeBox
  match p.lastBox tagMoov with
  | some moov => do
    let data ← p.createMseCompatibleMoov moov
    return ⟨.initialization,ftyp++data,none,none,true,0⟩
  | none => .error (.io "No moov box found in MP4")

def videoTrack : Option SampledTrack := p.tracks.find? (fun t => t.mediaType == "vide")

def timescale : Nat := (p.videoTrack.map (fun t => t.timescale)).getD 1000

def trackId : UInt32 := (p.videoTrack.map SampledTrack.trackId).getD 1

def videoLoop : GroupLoop := ⟨p.timescale,p.trackId,videoFrame,true⟩

/-- The groups of pictures of the video track, each as one segment. -/
def gopSegments (t : SampleTable) : Except Mp4Error Emission := do
  let entries ← t.resolveSampleOffsets
  if entries.isEmpty then .error (.io "Sample table resolved to zero samples")
  else
    gopLoop (emitGroup p.videoLoop p.mdatPayloadOffset p.mdatData) entries (entries.length+1) 0 0
      ⟨p.fmp4Converter,0,[]⟩

def chunkSize : Nat := 64*1024

/-- Without a sample table, the data is cut into pieces of 64 KiB. -/
def pieceSegments : Nat → Nat → Bytes → FragmentedMp4Converter →
    Except Mp4Error (List MseSegment × FragmentedMp4Converter)
  | _,_,[],c => .ok ([],c)
  | 0,_,_,c => .ok ([],c)
  | n+1,index,data,c => do
    let timestamp ← checkedU64 (index*1000)
    let frame := FrameData.new (data.take chunkSize) (.ofNat p.timescale) (index == 0) 0
    let (fragment,c) ← c.createFragment [frame] p.trackId
    let (segments,c) ← pieceSegments n (index+1) (data.drop chunkSize) c
    return (⟨.media,fragment,some timestamp,some p.timescale,index == 0,p.trackId.toNat⟩::segments,c)

def videoSegments : Except Mp4Error (List MseSegment × FragmentedMp4Converter) :=
  match p.videoTrack.bind SampledTrack.sampleTable with
  | some t => do
    let st ← p.gopSegments t
    return (st.segments,st.converter)
  | none => p.pieceSegments p.mdatData.length 0 p.mdatData p.fmp4Converter

def audioTrack : Option SampledTrack := p.tracks.find? (fun t => t.mediaType == "soun")

/-- About half a second of samples. -/
def samplesPerChunk (timescale : Nat) (first : SampleEntry) : Nat :=
  max 1 (timescale/2/max first.duration.toNat 1)

def audioLoop (t : SampledTrack) : GroupLoop := ⟨t.timescale,t.trackId,audioFrame,false⟩

def audioSegments : Except Mp4Error (List MseSegment) :=
  if p.hasAc3Audio then .ok []
  else
    match p.audioTrack with
    | none => .ok []
    | some track =>
      match track.sampleTable with
      | none => .ok []
      | some t => do
        let entries ← t.resolveSampleOffsets
        match entries with
        | [] => return []
        | first::_ => do
          let st ← chunkLoop (emitGroup (audioLoop track) p.mdatPayloadOffset p.mdatData)
            (samplesPerChunk track.timescale first) entries.length entries ⟨.new,0,[]⟩
          return st.segments

def createFragmentsFromRegularMp4 :
    Except Mp4Error (List MseSegment × FragmentedMp4Converter) := do
  let init ← p.initSegment
  if p.mdatData.isEmpty then return ([init],p.fmp4Converter)
  else
    let (video,converter) ← p.videoSegments
    let audio ← p.audioSegments
    return (init::video++audio,converter)

end RegularMp4

end OpenBroadcast.Media
