import OpenBroadcast.Media.Mp4Box

namespace OpenBroadcast.Media

/-- The flags of the `tfhd` box at the start of `data`: base-data-offset-present goes and
default-base-is-moof comes. -/
def fixSingleTfhdFlags (data : Bytes) (boxSize : Nat) : Bytes :=
  if boxSize < 16 ∨ data.length < 12 then data
  else
    let flags := beNat ((data.drop 9).take 3)
    if flags.testBit 17 && !flags.testBit 0 then data
    else data.take 9++toBe 3 ((flags &&& 0xfffffe) ||| 0x020000)++data.drop 12

/-- The search from one offset on. For a `traf` or `mfhd` it starts over behind the header
of the box, and runs from there to the end of the data. -/
def fixTfhdFlagsFrom : Nat → Bytes → Bytes
  | 0,data => data
  | n+1,data =>
    let boxSize := beNat (data.take 4)
    if data.length < 8 ∨ boxSize < 8 ∨ data.length < boxSize then data
    else
      let kind := (data.drop 4).take 4
      let data :=
        if kind = tagTfhd then fixSingleTfhdFlags data boxSize
        else if kind = tagTraf ∨ kind = tagMfhd then
          data.take 8++fixTfhdFlagsFrom n (data.drop 8)
        else data
      data.take boxSize++fixTfhdFlagsFrom n (data.drop boxSize)

def fixTfhdFlagsRecursive (data : Bytes) : Bytes := fixTfhdFlagsFrom data.length data

theorem length_fixSingleTfhdFlags (data : Bytes) (boxSize : Nat) :
    (fixSingleTfhdFlags data boxSize).length = data.length := by
  unfold fixSingleTfhdFlags
  split_ifs with hsmall
  · rfl
  · dsimp only
    split_ifs
    · rfl
    · simp only [List.length_append,List.length_take,List.length_drop,length_toBe]
      omega

/-- The search changes bytes where they are. -/
theorem length_fixTfhdFlagsFrom (n : Nat) (data : Bytes) :
    (fixTfhdFlagsFrom n data).length = data.length := by
  induction n generalizing data with
  | zero => rfl
  | succ n ih =>
    rw [fixTfhdFlagsFrom]
    dsimp only
    split_ifs with hstop htfhd hinner <;>
      simp only [List.length_append,List.length_take,List.length_drop,ih,
        length_fixSingleTfhdFlags] <;> omega

/-- The search is over before its rounds are, also where it starts over. -/
theorem fixTfhdFlagsFrom_enough {n m : Nat} {data : Bytes} (hn : data.length ≤ n)
    (hm : data.length ≤ m) : fixTfhdFlagsFrom n data = fixTfhdFlagsFrom m data := by
  induction n generalizing m data with
  | zero =>
    have hnil : data = [] := List.length_eq_zero_iff.mp (by omega)
    subst hnil
    cases m <;> rfl
  | succ n ih =>
    cases m with
    | zero =>
      have hnil : data = [] := List.length_eq_zero_iff.mp (by omega)
      subst hnil
      rfl
    | succ m =>
      rw [fixTfhdFlagsFrom,fixTfhdFlagsFrom]
      dsimp only
      by_cases hstop : data.length < 8 ∨ beNat (data.take 4) < 8 ∨
          data.length < beNat (data.take 4)
      · rw [if_pos hstop,if_pos hstop]
      · have hinner : fixTfhdFlagsFrom n (data.drop 8) = fixTfhdFlagsFrom m (data.drop 8) := by
          apply ih <;> rw [List.length_drop] <;> omega
        have hlen : (if (data.drop 4).take 4 = tagTfhd then
              fixSingleTfhdFlags data (beNat (data.take 4))
            else if (data.drop 4).take 4 = tagTraf ∨ (data.drop 4).take 4 = tagMfhd then
              data.take 8++fixTfhdFlagsFrom m (data.drop 8)
            else data).length = data.length := by
          split_ifs
          · exact length_fixSingleTfhdFlags data _
          · rw [List.length_append,length_fixTfhdFlagsFrom,← List.length_append,
              List.take_append_drop]
          · rfl
        rw [if_neg hstop,if_neg hstop,hinner]
        congr 1
        apply ih <;> rw [List.length_drop,hlen] <;> omega

/-- A box header is put before the content. -/
def wrapBox (kind content : Bytes) : Except Mp4Error Bytes := do
  let size ← boxSize32 content.length
  return toBe 4 size++kind++content

def fixMoofTfhdFlags (moof : Mp4Box) : Except Mp4Error Bytes :=
  wrapBox tagMoof (fixTfhdFlagsRecursive moof.content)

/-- `create_tfdt_box`: version 1, with a time of 64 bits. -/
def createTfdtBox (time : Nat) : Bytes := toBe 4 20++tagTfdt++[1,0,0,0]++toBe 8 time

section Children

variable {S : Type}

/-- The loop over the child boxes in `data`: it runs while a header fits into `limit`, and
ends at a box of size 0 or one that is not all there. -/
def forChildrenFrom (step : S → Bytes → Bytes → Except Mp4Error S) :
    Nat → Nat → Bytes → S → Except Mp4Error S
  | 0,_,_,s => .ok s
  | n+1,limit,data,s =>
    if limit < 8 ∨ data = [] then .ok s
    else if data.length < 8 then .error .panic
    else
      let childSize := beNat (data.take 4)
      if childSize = 0 ∨ data.length < childSize then .ok s
      else do
        let s ← step s ((data.drop 4).take 4) (data.take childSize)
        forChildrenFrom step n (limit-childSize) (data.drop childSize) s

def forChildren (step : S → Bytes → Bytes → Except Mp4Error S) (limit : Nat) (data : Bytes)
    (s : S) : Except Mp4Error S :=
  forChildrenFrom step data.length limit data s

theorem forChildrenFrom_enough (step : S → Bytes → Bytes → Except Mp4Error S) {n m limit : Nat}
    {data : Bytes} (hn : data.length ≤ n) (hm : data.length ≤ m) (s : S) :
    forChildrenFrom step n limit data s = forChildrenFrom step m limit data s := by
  induction n generalizing m limit data s with
  | zero =>
    have hnil : data = [] := List.length_eq_zero_iff.mp (by omega)
    subst hnil
    cases m <;> simp [forChildrenFrom]
  | succ n ih =>
    cases m with
    | zero =>
      have hnil : data = [] := List.length_eq_zero_iff.mp (by omega)
      subst hnil
      simp [forChildrenFrom]
    | succ m =>
      rw [forChildrenFrom,forChildrenFrom]
      split_ifs with hend hshort
      · rfl
      · rfl
      · dsimp only
        split_ifs with hstop
        · rfl
        · congr 1
          funext s
          apply ih <;> rw [List.length_drop] <;> omega

end Children

structure TrafParts where
  tfhd : Option Bytes
  hasTfdt : Bool
  content : Bytes
  deriving DecidableEq, Repr

def trafChild (time : Nat) (s : TrafParts) (kind child : Bytes) : Except Mp4Error TrafParts :=
  .ok (if kind = tagTfhd then { s with tfhd := some child }
    else if kind = tagTfdt then
      { s with hasTfdt := true, content := s.content++createTfdtBox time }
    else { s with content := s.content++child })

def ensureTrafHasTfdt (traf : Bytes) (time : Nat) : Except Mp4Error Bytes :=
  if traf.length < 8 then .error (.io "traf data too small")
  else do
    let trafSize := beNat (traf.take 4)
    let parts ← forChildren (trafChild time) (trafSize-8) (traf.drop 8) ⟨none,false,[]⟩
    let tfdt := if parts.hasTfdt then [] else createTfdtBox time
    wrapBox tagTraf (parts.tfhd.getD []++tfdt++parts.content)

def moofChild (time : Nat) (content kind child : Bytes) : Except Mp4Error Bytes :=
  if kind = tagTraf then do
    let traf ← ensureTrafHasTfdt child time
    return content++traf
  else .ok (content++child)

def ensureMoofHasTfdt (moof : Bytes) (time : Nat) : Except Mp4Error Bytes :=
  if moof.length < 8 then .error (.io "moof data too small")
  else if (moof.drop 4).take 4 ≠ tagMoof then .error (.io "Not a moof box")
  else do
    let moofSize := beNat (moof.take 4)
    let content ← forChildren (moofChild time) (moofSize-8) (moof.drop 8) []
    wrapBox tagMoof content

/-- A box met on the way through `rest`, which starts with it. -/
structure BoxAt where
  kind : Bytes
  size : Nat
  rest : Bytes
  deriving DecidableEq, Repr

def BoxAt.bytes (b : BoxAt) : Bytes := b.rest.take b.size

/-- The loop that ends at the first box that is not well formed. -/
def boxesFrom : Nat → Bytes → List BoxAt
  | 0,_ => []
  | n+1,data =>
    let boxSize := beNat (data.take 4)
    if data.length < 8 ∨ boxSize < 8 ∨ data.length < boxSize then []
    else ⟨(data.drop 4).take 4,boxSize,data⟩::boxesFrom n (data.drop boxSize)

def boxesIn (data : Bytes) : List BoxAt := boxesFrom data.length data

theorem boxesFrom_enough {n m : Nat} {data : Bytes} (hn : data.length ≤ n)
    (hm : data.length ≤ m) : boxesFrom n data = boxesFrom m data := by
  induction n generalizing m data with
  | zero =>
    have hnil : data = [] := List.length_eq_zero_iff.mp (by omega)
    subst hnil
    cases m <;> simp [boxesFrom]
  | succ n ih =>
    cases m with
    | zero =>
      have hnil : data = [] := List.length_eq_zero_iff.mp (by omega)
      subst hnil
      simp [boxesFrom]
    | succ m =>
      rw [boxesFrom,boxesFrom]
      split_ifs with hstop
      · rfl
      · congr 1
        apply ih <;> rw [List.length_drop] <;> omega

/-- Whether the first handler of an `mdia` box is said to be one for video, at the place
where the code looks for this. -/
def mdiaIsVideo (mdia : Bytes) : Option Bool :=
  (boxesIn (mdia.drop 8)).findSome? (fun b =>
    if b.kind = tagHdlr ∧ 16 ≤ b.rest.length then some ((b.rest.drop 12).take 4 == tagVide)
    else none)

def isVideoTrack (trak : Bytes) : Bool :=
  ((boxesIn (trak.drop 8)).findSome? (fun b =>
    if b.kind = tagMdia then mdiaIsVideo b.bytes else none)).getD false

def createVideoOnlyMoov (content : Bytes) : Bytes :=
  (boxesIn content).flatMap (fun b =>
    if b.kind = tagTrak ∧ !isVideoTrack b.bytes then [] else b.bytes)

inductive SegmentType where
  | initialization
  | media
  deriving DecidableEq, Repr

structure MseSegment where
  segmentType : SegmentType
  data : Bytes
  timestamp : Option Nat
  duration : Option Nat
  isKeyframe : Bool
  trackId : Nat
  deriving DecidableEq, Repr

/-- An SPS or PPS anywhere, or every fifth segment. -/
def hasParameterSet : Bytes → Bool
  | a::b::c::d::rest =>
    (a == 0 && b == 0 && c == 1 && (d &&& 0x1f == 7 || d &&& 0x1f == 8)) ||
      hasParameterSet (b::c::d::rest)
  | _ => false

def isLikelyKeyframe (data : Bytes) (index : Nat) : Bool :=
  index%5 == 0 || (decide (4 < data.length) && hasParameterSet data)

namespace Mp4Parser

def hasAc3Audio (p : Mp4Parser) : Bool :=
  p.tracks.any (fun t => t.mediaType == "soun" && t.codec == "AC-3")

/-- What a box adds to the initialization segment. -/
def initData (p : Mp4Parser) (b : Mp4Box) : Except Mp4Error Bytes :=
  if b.header.boxType = tagFtyp then .ok (serializeBox b)
  else if b.header.boxType = tagMoov then
    if p.hasAc3Audio then wrapBox tagMoov (createVideoOnlyMoov b.content)
    else .ok (serializeBox b)
  else .ok []

def initSegments (p : Mp4Parser) : Except Mp4Error (List MseSegment) := do
  let parts ← p.boxes.mapM p.initData
  let data := parts.flatten
  return if data.isEmpty then [] else [⟨.initialization,data,none,none,true,0⟩]

def videoTrack (p : Mp4Parser) : Option Mp4Track := p.tracks.find? (fun t => t.mediaType == "vide")

def timescale (p : Mp4Parser) : Nat := (p.videoTrack.map Mp4Track.timescale).getD 1000

def frameDuration (p : Mp4Parser) : Nat :=
  let fragmentCount := p.boxes.countP (fun b => b.header.boxType == tagMoof)
  let totalDuration := (p.videoTrack.map Mp4Track.duration).getD 0
  if 0 < fragmentCount ∧ 0 < totalDuration then totalDuration/fragmentCount
  else p.timescale/30

def millis (p : Mp4Parser) (time : Nat) : Except Mp4Error Nat := do
  let scaled ← checkedU64 (time*1000)
  if p.timescale = 0 then .error .panic else return scaled/p.timescale

/-- The bytes of the media segment for a `moof` and the `mdat` after it. -/
def mediaData (p : Mp4Parser) (index : Nat) (moof mdat : Mp4Box) : Except Mp4Error Bytes := do
  let fixed ← fixMoofTfhdFlags moof
  let time ← checkedU64 (index*p.frameDuration)
  let moof ← ensureMoofHasTfdt fixed time
  return moof++serializeBox mdat

def mediaSegment (p : Mp4Parser) (index : Nat) (moof mdat : Mp4Box) :
    Except Mp4Error MseSegment := do
  let data ← p.mediaData index moof mdat
  let timestamp ← p.millis (index*p.frameDuration)
  let duration ← p.millis p.frameDuration
  return ⟨.media,data,some timestamp,some duration,isLikelyKeyframe data index,1⟩

def isPair (a b : Mp4Box) : Bool :=
  a.header.boxType == tagMoof && b.header.boxType == tagMdat

def mediaSegments (p : Mp4Parser) : Nat → List Mp4Box → Except Mp4Error (List MseSegment)
  | index,a::b::rest =>
    if isPair a b then do
      let segment ← p.mediaSegment index a b
      let segments ← p.mediaSegments (index+1) rest
      return segment::segments
    else p.mediaSegments index (b::rest)
  | _,_ => .ok []

def extractFragmentedSegments (p : Mp4Parser) : Except Mp4Error (List MseSegment) := do
  let first ← p.initSegments
  let media ← p.mediaSegments 0 p.boxes
  return first++media

end Mp4Parser

end OpenBroadcast.Media
