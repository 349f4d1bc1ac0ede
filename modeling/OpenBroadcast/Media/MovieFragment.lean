import OpenBroadcast.Media.FragmentReader

namespace OpenBroadcast.Media

open RawBox

/-- A sample as a `trun` lists it. -/
structure RunSample where
  duration : Option Nat
  size : Option Nat
  flags : Option Nat
  compositionOffset : Option Int
  deriving DecidableEq, Repr

/-- The flags say sample-is-non-sync-sample or not. -/
def RunSample.isSync (s : RunSample) : Option Bool := s.flags.map (fun flags => !flags.testBit 16)

structure TrackRun where
  dataOffset : Option Int
  samples : List RunSample
  deriving DecidableEq, Repr

/-- A file of one `moof` and the `mdat` with its data, as a reader of ISO 14496-12 sees it. -/
structure MovieFragment where
  sequenceNumber : Nat
  tfhd : TfhdView
  baseMediaDecodeTime : Nat
  run : TrackRun
  payload : Bytes
  deriving DecidableEq, Repr

section Reader

def readMfhd (body : Bytes) : Option Nat :=
  if body.length = 8 ∧ body.take 4 = [0,0,0,0] then some (beNat (body.drop 4)) else none

/-- A time of 32 bits in version 0, and one of 64 bits in version 1. -/
def readDecodeTime (body : Bytes) : Option Nat :=
  (readTfdt body).map (fun _ => beNat (body.drop 4))

def readOptional (present : Bool) (data : Bytes) : Option Nat × Bytes :=
  if present then (some (beNat (data.take 4)),data.drop 4) else (none,data)

/-- In version 0 the composition offsets have no sign. -/
def readSamples (version : UInt8) (flags : Nat) : Nat → Bytes → List RunSample
  | 0,_ => []
  | n+1,data =>
    let (duration,data) := readOptional (flags.testBit 8) data
    let (size,data) := readOptional (flags.testBit 9) data
    let (sampleFlags,data) := readOptional (flags.testBit 10) data
    let (offset,data) := readOptional (flags.testBit 11) data
    ⟨duration,size,sampleFlags,
      offset.map (fun n : Nat => if version = 0 then (n : Int) else signed32 n)⟩::
      readSamples version flags n data

def readTrackRun (body : Bytes) : Option TrackRun :=
  let flags := beNat ((body.drop 1).take 3)
  let count := beNat ((body.drop 4).take 4)
  let before := 8+field flags 0+field flags 2
  let sample := field flags 8+field flags 9+field flags 10+field flags 11
  if body.length = before+count*sample then
    some
      { dataOffset :=
          if flags.testBit 0 then some (signed32 (beNat ((body.drop 8).take 4))) else none
        samples := readSamples (body.headD 0) flags count (body.drop before) }
  else none

/-- The bodies of the boxes that the data consists of, if these are of the given kinds. -/
def readKinds (kinds : List Bytes) (data : Bytes) : Option (List Bytes) := do
  let bs ← readBoxes data
  if bs.map RawBox.kind = kinds then some (bs.map RawBox.body) else none

def readMovieFragment (data : Bytes) : Option MovieFragment := do
  let [moof,mdat] ← readKinds [tagMoof,tagMdat] data | none
  let [mfhd,traf] ← readKinds [tagMfhd,tagTraf] moof | none
  let [tfhd,tfdt,trun] ← readKinds [tagTfhd,tagTfdt,tagTrun] traf | none
  let sequenceNumber ← readMfhd mfhd
  let tfhd ← readTfhd tfhd
  let time ← readDecodeTime tfdt
  let run ← readTrackRun trun
  return ⟨sequenceNumber,tfhd,time,run,mdat⟩

/-- Pieces of the given sizes, one after the other. -/
def cut : List Nat → Bytes → Option (List Bytes)
  | [],_ => some []
  | n::ns,data => do
    let rest ← if n ≤ data.length then cut ns (data.drop n) else none
    return data.take n::rest

/-- The bytes of the samples, by the offset of the run from the start of the `moof`. -/
def MovieFragment.sampleBytes (f : MovieFragment) (data : Bytes) : Option (List Bytes) := do
  let offset ← f.run.dataOffset
  let sizes ← f.run.samples.mapM (fun s => s.size.or f.tfhd.defaultSampleSize)
  if f.tfhd.flags.testBit 17 ∧ ¬ f.tfhd.flags.testBit 0 ∧ 0 ≤ offset then
    cut sizes (data.drop offset.toNat)
  else none

end Reader

section Reading

theorem readKinds_encodeAll (bs : List RawBox) (h : ∀ b ∈ bs, b.Fits) :
    readKinds (bs.map RawBox.kind) (encodeAll bs) = some (bs.map RawBox.body) := by
  simp [readKinds,readBoxes_encodeAll h]

@[simp] theorem readOptional_true (b rest : Bytes) (h : b.length = 4) :
    readOptional true (b++rest) = (some (beNat b),rest) := by
  simp [readOptional,List.take_left' h,List.drop_left' h]

theorem cut_flatten (bs : List Bytes) (rest : Bytes) :
    cut (bs.map List.length) (bs.flatten++rest) = some bs := by
  induction bs with
  | nil => rfl
  | cons b bs ih =>
    rw [List.map_cons,List.flatten_cons,List.append_assoc,cut,List.drop_left,List.take_left,
      if_pos (by simp),ih]
    rfl

end Reading

end OpenBroadcast.Media
