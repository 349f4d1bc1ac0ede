import OpenBroadcast.Media.Fragments

namespace OpenBroadcast.Media

def checkedU32 (n : Nat) : Except Mp4Error Nat := if n < 2^32 then .ok n else .error .panic

structure FrameData where
  data : Bytes
  duration : UInt32
  size : UInt32
  isKeyframe : Bool
  compositionOffset : Int32
  deriving DecidableEq

def FrameData.new (data : Bytes) (duration : UInt32) (isKeyframe : Bool)
    (compositionOffset : Int32) : FrameData where
  data := data
  duration := duration
  size := UInt32.ofNat data.length
  isKeyframe := isKeyframe
  compositionOffset := compositionOffset

/-- The frame was made by `new`, so that its size is that of its data, cut to 32 bits. -/
def FrameData.Built (f : FrameData) : Prop :=
  ∃ data duration isKeyframe compositionOffset,
    f = FrameData.new data duration isKeyframe compositionOffset

theorem FrameData.Built.size {f : FrameData} (h : f.Built) : f.size.toNat = f.data.length%2^32 := by
  obtain ⟨data,duration,isKeyframe,compositionOffset,rfl⟩ := h
  exact UInt32.toNat_ofNat'

def totalDuration (frames : List FrameData) : Nat := (frames.map (fun f => f.duration.toNat)).sum

structure FragmentedMp4Converter where
  sequenceNumber : Nat
  baseMediaDecodeTime : Nat
  deriving DecidableEq, Repr

namespace FragmentedMp4Converter

def new : FragmentedMp4Converter := ⟨1,0⟩

variable (s : FragmentedMp4Converter)

def createMfhd : Bytes := toBe 4 16++tagMfhd++[0,0,0,0]++toBe 4 s.sequenceNumber

/-- The flags say default-base-is-moof. -/
def createTfhd (trackId : UInt32) : Bytes := toBe 4 16++tagTfhd++[0,2,0,0]++toBe 4 trackId.toNat

def createTfdt : Bytes := toBe 4 16++tagTfdt++[0,0,0,0]++toBe 4 (s.baseMediaDecodeTime%2^32)

/-- Version 1 for a time that does not fit into 32 bits. -/
def createTfdtAuto : Bytes :=
  if 2^32-1 < s.baseMediaDecodeTime then
    toBe 4 20++tagTfdt++[1,0,0,0]++toBe 8 s.baseMediaDecodeTime
  else s.createTfdt

/-- The closed formula for the size of the `moof` with samples of `entry` bytes. -/
def moofSize (tfdtSize entry : Nat) (frames : List FrameData) : Except Mp4Error Nat := do
  let entries ← checkedU32 (frames.length%2^32*entry)
  checkedU32 (8+16+8+16+tfdtSize+8+12+entries)

def calculateMoofSize (frames : List FrameData) : Except Mp4Error Nat := moofSize 16 8 frames

def calculateMoofSizeV2 (frames : List FrameData) : Except Mp4Error Nat :=
  moofSize (if 2^32-1 < s.baseMediaDecodeTime then 20 else 16) 16 frames

/-- A `trun` of version 1, whose data begins behind the header of the `mdat`. -/
def trunBox (flags : Bytes) (moofSize : Nat) (entry : FrameData → Bytes)
    (frames : List FrameData) : Except Mp4Error Bytes := do
  let dataOffset ← checkedU32 (moofSize+8)
  wrapBox tagTrun ([1]++flags++toBe 4 (frames.length%2^32)++toBe 4 dataOffset++frames.flatMap entry)

def sampleEntry (f : FrameData) : Bytes := toBe 4 f.duration.toNat++toBe 4 f.size.toNat

/-- A frame that is not a keyframe depends on others and is no sync sample. -/
def sampleEntryV2 (f : FrameData) : Bytes :=
  toBe 4 f.duration.toNat++toBe 4 f.size.toNat++
    toBe 4 (if f.isKeyframe then 0x02000000 else 0x01010000)++
    toBe 4 f.compositionOffset.toBitVec.toNat

def createTrun (frames : List FrameData) : Except Mp4Error Bytes := do
  let size ← calculateMoofSize frames
  trunBox [0x00,0x03,0x01] size sampleEntry frames

def createTrunV2 (frames : List FrameData) : Except Mp4Error Bytes := do
  let size ← s.calculateMoofSizeV2 frames
  trunBox [0x00,0x0f,0x01] size sampleEntryV2 frames

def createTraf (frames : List FrameData) (trackId : UInt32) : Except Mp4Error Bytes := do
  let trun ← createTrun frames
  wrapBox tagTraf (createTfhd trackId++s.createTfdt++trun)

def createTrafV2 (frames : List FrameData) (trackId : UInt32) : Except Mp4Error Bytes := do
  let trun ← s.createTrunV2 frames
  wrapBox tagTraf (createTfhd trackId++s.createTfdtAuto++trun)

def createMoof (frames : List FrameData) (trackId : UInt32) : Except Mp4Error Bytes := do
  let traf ← s.createTraf frames trackId
  wrapBox tagMoof (s.createMfhd++traf)

def createMoofV2 (frames : List FrameData) (trackId : UInt32) : Except Mp4Error Bytes := do
  let traf ← s.createTrafV2 frames trackId
  wrapBox tagMoof (s.createMfhd++traf)

/-- The size is that which the frames say. -/
def createMdat (frames : List FrameData) : Except Mp4Error Bytes := do
  let dataSize ← checkedU32 (frames.map (fun f => f.size.toNat)).sum
  let boxSize ← checkedU32 (8+dataSize)
  return toBe 4 boxSize++tagMdat++frames.flatMap FrameData.data

/-- The same code again. -/
def createMdatV2 (frames : List FrameData) : Except Mp4Error Bytes := createMdat frames

/-- The counters for the next fragment. -/
def next (frames : List FrameData) : Except Mp4Error FragmentedMp4Converter := do
  let sequenceNumber ← checkedU32 (s.sequenceNumber+1)
  let duration ← checkedU64 (totalDuration frames)
  let baseMediaDecodeTime ← checkedU64 (s.baseMediaDecodeTime+duration)
  return ⟨sequenceNumber,baseMediaDecodeTime⟩

def createFragment (frames : List FrameData) (trackId : UInt32) :
    Except Mp4Error (Bytes × FragmentedMp4Converter) := do
  let moof ← s.createMoof frames trackId
  let mdat ← createMdat frames
  let s ← s.next frames
  return (moof++mdat,s)

def createFragmentV2 (frames : List FrameData) (trackId : UInt32) :
    Except Mp4Error (Bytes × FragmentedMp4Converter) := do
  let moof ← s.createMoofV2 frames trackId
  let mdat ← createMdatV2 frames
  let s ← s.next frames
  return (moof++mdat,s)

end FragmentedMp4Converter

end OpenBroadcast.Media
