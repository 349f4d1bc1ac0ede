import OpenBroadcast.Media.Ac3Filter
import OpenBroadcast.Media.ParserTotality

namespace OpenBroadcast.Media

/-- What stands in the `trak` from a child of its `mdia` on; the reads are not limited to the
`mdia`. -/
def childInTrak (mdia child : BoxAt) : Bytes := mdia.rest.drop (mdia.size-child.rest.length)

/-- The first `hdlr` in an `mdia` that is said to be long enough. -/
def findHdlr (mdia : BoxAt) : Option BoxAt :=
  (boxesIn mdia.content).find? (fun c => c.kind == tagHdlr && decide (16 ≤ c.rest.length))

/-- The handler type in the first `mdia` that has an `hdlr`. -/
def handlerType : List BoxAt → Except Mp4Error (Option Bytes)
  | [] => .ok none
  | b::bs =>
    if b.kind = tagMdia then
      match findHdlr b with
      | some hdlr => (sliceAt (childInTrak b hdlr) 16 20).map some
      | none => handlerType bs
    else handlerType bs

def trackHasHandlerType (trak keepType : Bytes) : Except Mp4Error Bool := do
  let found ← handlerType (boxesIn (trak.drop 8))
  return found == some keepType

def extractTrackIdFromTrak (trak : Bytes) : Option UInt32 :=
  (boxesIn (trak.drop 8)).findSome? (fun b =>
    if b.kind = tagTkhd ∧ 24 ≤ b.rest.length then some (readU32 20 b.rest) else none)

/-- A `trex` stays if it is one of a track that is kept, and all other boxes stay. -/
def keptInMvex (keptTrackIds : List UInt32) (b : BoxAt) : Bytes :=
  if b.kind = tagTrex then
    if 16 ≤ b.rest.length ∧ readU32 12 b.rest ∈ keptTrackIds then b.bytes else []
  else b.bytes

def filterMvexForTracks (mvex : Bytes) (keptTrackIds : List UInt32) : Except Mp4Error Bytes :=
  let content := (boxesIn (mvex.drop 8)).flatMap (keptInMvex keptTrackIds)
  if content.isEmpty then .ok [] else wrapBox tagMvex content

/-- What is kept of a child of the `moov`, and the track id that goes with it. -/
def keepChild (keepType : Bytes) (b : BoxAt) : Except Mp4Error (Bytes × Option UInt32) :=
  if b.kind = tagTrak then do
    let keep ← trackHasHandlerType b.bytes keepType
    return if keep then (b.bytes,extractTrackIdFromTrak b.bytes) else ([],none)
  else .ok (if b.kind = tagMvex then [] else b.bytes,none)

/-- The boxes that are kept, and behind them what is kept of the last `mvex`. -/
def filterMoovForTrackType (content keepType : Bytes) : Except Mp4Error Bytes := do
  let kept ← (boxesIn content).mapM (keepChild keepType)
  let mvex ←
    match ((boxesIn content).filter (fun b => b.kind == tagMvex)).getLast? with
    | some mvex => filterMvexForTracks mvex.bytes (kept.filterMap Prod.snd)
    | none => .ok []
  return kept.flatMap Prod.fst++mvex

/-- The source's `build_moov_box`. -/
def buildMoovBox (content : Bytes) : Except Mp4Error Bytes := wrapBox tagMoov content

namespace ParserState

variable (s : ParserState)

def hasVideoTrack : Bool := s.tracks.any (fun t => t.mediaType == "vide")

def hasAudioTrack : Bool := s.tracks.any (fun t => t.mediaType == "soun")

/-- `ftyp` and `moov` of the tracks of one type. -/
def separateInit (ftyp : Mp4Box) (content keepType : Bytes) : Except Mp4Error Bytes := do
  let filtered ← filterMoovForTrackType content keepType
  let moov ← buildMoovBox filtered
  return serializeBox ftyp++moov

def generateSeparateInitSegments : Except Mp4Error (Bytes × Option Bytes) :=
  match s.regular.lastBox tagFtyp with
  | none => .error (.io "No ftyp box found in MP4")
  | some ftyp =>
    match s.regular.lastBox tagMoov with
    | none => .error (.io "No moov box found in MP4")
    | some moov =>
      if !s.hasVideoTrack then .error (.io "No video track found in MP4")
      else do
        let video ← separateInit ftyp moov.content tagVide
        if s.hasAudioTrack then do
          let audio ← separateInit ftyp moov.content tagSoun
          return (video,some audio)
        else return (video,none)

end ParserState

end OpenBroadcast.Media
