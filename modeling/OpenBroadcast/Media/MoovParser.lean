import OpenBroadcast.Framework.Utf8
import OpenBroadcast.Media.RegularMp4

namespace OpenBroadcast.Media

def tagTkhd : Bytes := [0x74,0x6b,0x68,0x64]
def tagMdhd : Bytes := [0x6d,0x64,0x68,0x64]
def tagMinf : Bytes := [0x6d,0x69,0x6e,0x66]
def tagStbl : Bytes := [0x73,0x74,0x62,0x6c]
def tagStsd : Bytes := [0x73,0x74,0x73,0x64]
def tagStsz : Bytes := [0x73,0x74,0x73,0x7a]
def tagStts : Bytes := [0x73,0x74,0x74,0x73]
def tagStsc : Bytes := [0x73,0x74,0x73,0x63]
def tagStco : Bytes := [0x73,0x74,0x63,0x6f]
def tagCo64 : Bytes := [0x63,0x6f,0x36,0x34]
def tagStss : Bytes := [0x73,0x74,0x73,0x73]
def tagCtts : Bytes := [0x63,0x74,0x74,0x73]
def tagAvcC : Bytes := [0x61,0x76,0x63,0x43]
def tagEsds : Bytes := [0x65,0x73,0x64,0x73]

structure ParsedTrack extends SampledTrack where
  codecMimeType : String
  deriving DecidableEq

section Cursor

/-- `read_exact` of `n` bytes. Where it fails, the cursor is left at the end. -/
def readExact (n : Nat) (data : Bytes) : Option Bytes × Bytes :=
  if n ≤ data.length then (some (data.take n),data.drop n) else (none,[])

/-- `u32::from_be_bytes` of the four bytes at an offset. -/
def readU32 (offset : Nat) (data : Bytes) : UInt32 := .ofNat (beNat ((data.drop offset).take 4))

/-- A call whose error is looked at. A panic is not. -/
def attempt {α : Type} : Except Mp4Error α → Except Mp4Error (Except Mp4Error α)
  | .error .panic => .error .panic
  | result => .ok result

variable {S : Type}

/-- The loops over child boxes. What `step` gets is the code of a box, the length of its content
and what the cursor still has to read; what it returns is read in the next round. -/
def childrenFrom (step : S → Bytes → Nat → Bytes → Except Mp4Error (S × Bytes)) :
    Nat → Bytes → S → Except Mp4Error S
  | 0,_,s => .ok s
  | n+1,data,s =>
    let boxSize := beNat (data.take 4)
    if data.length < 8 ∨ boxSize < 8 then .ok s
    else do
      let (s,rest) ← step s ((data.drop 4).take 4) (boxSize-8) (data.drop 8)
      childrenFrom step n rest s

def children (step : S → Bytes → Nat → Bytes → Except Mp4Error (S × Bytes)) (data : Bytes)
    (s : S) : Except Mp4Error S := childrenFrom step data.length data s

end Cursor

section SampleTables

/-- As many entries of `width` bytes as are said to be there, or as there are. -/
def readEntries {α : Type} (width : Nat) (entry : Bytes → α) : Nat → Bytes → List α
  | 0,_ => []
  | n+1,data =>
    if data.length < width then []
    else entry data::readEntries width entry n (data.drop width)

/-- A table that is preceded by its number of entries. -/
def parseTable {α : Type} (width : Nat) (entry : Bytes → α) (data : Bytes) : List α :=
  if data.length < 8 then []
  else readEntries width entry (readU32 4 data).toNat (data.drop 8)

def parseStsz (data : Bytes) : List UInt32 :=
  if data.length < 12 then []
  else
    let defaultSize := readU32 4 data
    let count := (readU32 8 data).toNat
    if defaultSize ≠ 0 then List.replicate count defaultSize
    else readEntries 4 (readU32 0) count (data.drop 12)

def parseStts : Bytes → List (UInt32 × UInt32) := parseTable 8 (fun e => (readU32 0 e,readU32 4 e))

def parseStsc : Bytes → List (UInt32 × UInt32 × UInt32) :=
  parseTable 12 (fun e => (readU32 0 e,readU32 4 e,readU32 8 e))

def parseStco : Bytes → List UInt64 := parseTable 4 (fun e => .ofNat (readU32 0 e).toNat)

def parseCo64 : Bytes → List UInt64 := parseTable 8 (fun e => .ofNat (beNat (e.take 8)))

def parseStss : Bytes → List UInt32 := parseTable 4 (readU32 0)

def parseCtts : Bytes → List (UInt32 × Int32) :=
  parseTable 8 (fun e => (readU32 0 e,(readU32 4 e).toInt32))

end SampleTables

section SampleDescription

/-- The codec, its MIME type and its parameters. -/
structure CodecInfo where
  codec : String
  mimeType : String
  params : Option String
  deriving DecidableEq, Repr

/-- The content of the first box of a kind that has at least `least` bytes. A box that is not all
there ends the search. -/
def findEntryFrom (kind : Bytes) (least : Nat) : Nat → Bytes → Option Bytes
  | 0,_ => none
  | n+1,data =>
    let boxSize := beNat (data.take 4)
    if data.length < 8 then none
    else if (data.drop 4).take 4 = kind ∧ least ≤ boxSize then
      (readExact (boxSize-8) (data.drop 8)).1
    else if 8 ≤ boxSize then findEntryFrom kind least n (data.drop boxSize)
    else none

def findEntry (kind : Bytes) (least : Nat) (data : Bytes) : Option Bytes :=
  findEntryFrom kind least data.length data

/-- Two hexadecimal digits. -/
def hexByte (b : UInt8) : List Char := [Nat.digitChar (b.toNat/16),Nat.digitChar (b.toNat%16)]

/-- The box is taken from 11 bytes on, but its content is read up to the fourth byte. -/
def extractAvcProfile (data : Bytes) : Except Mp4Error String :=
  match findEntry tagAvcC 11 data with
  | none => .ok "42E01E"
  | some config =>
    if config.length < 4 then .error .panic
    else .ok (String.ofList (((config.drop 1).take 3).flatMap hexByte |>.map Char.toUpper))

/-- What follows the first tag `0x04` that has five bytes after it. -/
def decoderConfig : Bytes → Option Bytes
  | [] => none
  | tag::rest =>
    if rest.length < 5 then none
    else if tag = 4 then some rest
    else decoderConfig rest

def parseEsdsForAacObjectType (esds : Bytes) : UInt8 :=
  if esds.length < 20 then 2
  else
    match decoderConfig (esds.drop 4) with
    | none => 2
    | some rest => ((rest.dropWhile (fun b => b &&& 0x80 != 0)).drop 1).headD 2

def extractAacObjectType (data : Bytes) : UInt8 :=
  (findEntry tagEsds 20 data).elim 2 parseEsdsForAacObjectType

def aacCodecString (objectType : UInt8) : String :=
  if objectType = 0x05 then "mp4a.40.5"
  else if objectType = 0x1d then "mp4a.40.29"
  else "mp4a.40.2"

def parseStsdBox (data : Bytes) (mediaType : String) : Except Mp4Error CodecInfo :=
  if data.length < 8 then .error (.io "stsd box too small")
  else
    let remaining := data.drop 8
    if remaining.length < 8 then .error (.io "No sample description entries")
    else
      let format := fromUtf8Lossy ((remaining.drop 4).take 4)
      if mediaType = "vide" ∧ format = "avc1" then do
        let profileLevel ← extractAvcProfile (remaining.drop 8)
        return ⟨"H.264","video/mp4; codecs=\"avc1."++profileLevel++"\"",some profileLevel⟩
      else if mediaType = "soun" ∧ format = "mp4a" then
        let objectType :=
          extractAacObjectType (remaining.drop (if 36 < remaining.length then 36 else 8))
        .ok ⟨"AAC","audio/mp4; codecs=\""++aacCodecString objectType++"\"",
          some (String.ofList (hexByte objectType))⟩
      else if mediaType = "soun" ∧ "mp4a".toList.isPrefixOf format.toList then
        .ok ⟨"AAC","audio/mp4; codecs=\"mp4a.40.2\"",some "2"⟩
      else if mediaType = "soun" ∧ format = "ac-3" then
        .ok ⟨"AC-3","audio/mp4; codecs=\"ac-3\"",none⟩
      else if mediaType = "vide" then
        .ok ⟨"H.264","video/mp4; codecs=\"avc1.42E01E\"",none⟩
      else if mediaType = "soun" then
        .ok ⟨"AAC","audio/mp4; codecs=\"mp4a.40.2\"",none⟩
      else
        .error (.io ("Unsupported format: "++format++" for media type "++mediaType))

end SampleDescription

section Media

/-- What the loop over the boxes of an `stbl` has found. -/
structure StblState where
  codecResult : Option (Except Mp4Error CodecInfo)
  table : SampleTable

def SampleTable.default : SampleTable := ⟨[],[],[],[],[],[]⟩

def SampleTable.update (t : SampleTable) (kind data : Bytes) : SampleTable :=
  if kind = tagStsz then { t with sampleSizes := parseStsz data }
  else if kind = tagStts then { t with timeToSample := parseStts data }
  else if kind = tagStsc then { t with sampleToChunk := parseStsc data }
  else if kind = tagStco then { t with chunkOffsets := parseStco data }
  else if kind = tagCo64 then { t with chunkOffsets := parseCo64 data }
  else if kind = tagStss then { t with syncSamples := parseStss data }
  else if kind = tagCtts then { t with compositionOffsets := parseCtts data }
  else t

def stblStep (mediaType : String) (s : StblState) (kind : Bytes) (contentSize : Nat)
    (rest : Bytes) : Except Mp4Error (StblState × Bytes) :=
  match readExact contentSize rest with
  | (none,rest) => .ok (s,rest)
  | (some data,rest) =>
    if kind = tagStsd then do
      let result ← attempt (parseStsdBox data mediaType)
      return ({ s with codecResult := some result },rest)
    else .ok ({ s with table := s.table.update kind data },rest)

/-- The result, and the sample table that is pending now. -/
def parseStblBox (data : Bytes) (mediaType : String) (pending : Option SampleTable) :
    Except Mp4Error (Except Mp4Error CodecInfo × Option SampleTable) := do
  let s ← children (stblStep mediaType) data ⟨none,.default⟩
  return (s.codecResult.getD (.error (.io "No sample description found")),
    if s.table.sampleSizes.isEmpty then pending else some s.table)

def defaultCodec (mediaType : String) : CodecInfo :=
  if mediaType = "vide" then ⟨"H.264","video/mp4; codecs=\"avc1.42E01E\"",none⟩
  else if mediaType = "soun" then ⟨"AAC","audio/mp4; codecs=\"mp4a.40.2\"",none⟩
  else ⟨"Unknown","application/octet-stream",none⟩

/-- The first `stbl` that can be read decides, and the loop ends with it. -/
def minfStep (mediaType : String) (pending : Option SampleTable)
    (s : Option (Except Mp4Error CodecInfo × Option SampleTable)) (kind : Bytes)
    (contentSize : Nat) (rest : Bytes) :
    Except Mp4Error (Option (Except Mp4Error CodecInfo × Option SampleTable) × Bytes) :=
  if kind = tagStbl then
    match readExact contentSize rest with
    | (none,rest) => .ok (s,rest)
    | (some data,_) => do
      let result ← parseStblBox data mediaType pending
      return (some result,[])
  else .ok (s,rest.drop contentSize)

def parseMinfBox (data : Bytes) (mediaType : String) (pending : Option SampleTable) :
    Except Mp4Error (Except Mp4Error CodecInfo × Option SampleTable) := do
  let found ← children (minfStep mediaType pending) data none
  return found.getD (.ok (defaultCodec mediaType),pending)

/-- A box that is read if it is large enough: its value, and where the cursor is then. -/
def parseHeaderBox {α : Type} (least : Nat) (message : String)
    (value : Bytes → Except Mp4Error α) (contentSize : Nat) (rest : Bytes) :
    Except Mp4Error α × Bytes :=
  if contentSize < least then (.error (.io message),rest)
  else
    match readExact contentSize rest with
    | (none,rest) => (.error eof,rest)
    | (some data,rest) => (value data,rest)

def parseTkhdBox : Nat → Bytes → Except Mp4Error UInt32 × Bytes :=
  parseHeaderBox 12 "tkhd box too small" (fun data =>
    if 16 ≤ data.length then .ok (readU32 12 data) else .error (.io "tkhd box data too small"))

def parseMdhdBox : Nat → Bytes → Except Mp4Error (Nat × Nat) × Bytes :=
  parseHeaderBox 20 "mdhd box too small" (fun data =>
    .ok ((readU32 12 data).toNat,(readU32 16 data).toNat))

def parseHdlrBox : Nat → Bytes → Except Mp4Error String × Bytes :=
  parseHeaderBox 12 "hdlr box too small" (fun data =>
    .ok (fromUtf8Lossy ((data.drop 8).take 4)))

/-- What is known of the media of a track, and the pending sample table. -/
structure MdiaState where
  mediaType : String
  timescale : Nat
  duration : Nat
  codec : CodecInfo
  pending : Option SampleTable

def MdiaState.default (pending : Option SampleTable) : MdiaState := ⟨"",1000,0,⟨"","",none⟩,pending⟩

/-- After an error, the content is skipped from where the cursor is. -/
def orSkip {α S : Type} (result : Except Mp4Error α × Bytes) (contentSize : Nat) (s : S)
    (set : α → S) : S × Bytes :=
  match result with
  | (.ok a,rest) => (set a,rest)
  | (.error _,rest) => (s,rest.drop contentSize)

def mdiaStep (s : MdiaState) (kind : Bytes) (contentSize : Nat) (rest : Bytes) :
    Except Mp4Error (MdiaState × Bytes) :=
  if kind = tagMdhd then
    .ok (orSkip (parseMdhdBox contentSize rest) contentSize s
      (fun (timescale,duration) => { s with timescale := timescale, duration := duration }))
  else if kind = tagHdlr then
    .ok (orSkip (parseHdlrBox contentSize rest) contentSize s
      (fun handlerType => { s with mediaType := handlerType }))
  else if kind = tagMinf then
    match readExact contentSize rest with
    | (none,rest) => .ok (s,rest)
    | (some data,rest) => do
      let (result,pending) ← parseMinfBox data s.mediaType s.pending
      return ({ s with codec := result.toOption.getD s.codec, pending := pending },rest)
  else .ok (s,rest.drop contentSize)

def parseMdiaBox (data : Bytes) (pending : Option SampleTable) : Except Mp4Error MdiaState :=
  children mdiaStep data (.default pending)

/-- The track id and the last `mdia`. -/
structure TrakState where
  trackId : UInt32
  mdia : MdiaState

def trakStep (s : TrakState) (kind : Bytes) (contentSize : Nat) (rest : Bytes) :
    Except Mp4Error (TrakState × Bytes) :=
  if kind = tagTkhd then
    .ok (orSkip (parseTkhdBox contentSize rest) contentSize s
      (fun trackId => { s with trackId := trackId }))
  else if kind = tagMdia then
    match readExact contentSize rest with
    | (none,rest) => .ok (s,rest)
    | (some data,rest) => do
      let mdia ← parseMdiaBox data s.mdia.pending
      return ({ s with mdia := mdia },rest)
  else .ok (s,rest.drop contentSize)

/-- The track, if it has an id and a handler, and the sample table that stays pending. -/
def parseTrakBox (data : Bytes) : Except Mp4Error (Option ParsedTrack × Option SampleTable) := do
  let s ← children trakStep data ⟨0,.default none⟩
  if 0 < s.trackId ∧ s.mdia.mediaType ≠ "" then
    return (some {
      mediaType := s.mdia.mediaType
      timescale := s.mdia.timescale
      duration := s.mdia.duration
      codec := s.mdia.codec.codec
      trackId := s.trackId
      codecParams := s.mdia.codec.params
      sampleTable := s.mdia.pending
      codecMimeType := s.mdia.codec.mimeType },none)
  else return (none,s.mdia.pending)

/-- The tracks so far, and the pending sample table. -/
structure MoovState where
  tracks : List ParsedTrack
  pending : Option SampleTable
  deriving DecidableEq

def moovStep (s : MoovState) (kind : Bytes) (contentSize : Nat) (rest : Bytes) :
    Except Mp4Error (MoovState × Bytes) :=
  if kind = tagTrak then
    match readExact contentSize rest with
    | (none,rest) => .ok (s,rest)
    | (some data,rest) => do
      let (track,pending) ← parseTrakBox data
      return (⟨s.tracks++track.toList,pending⟩,rest)
  else .ok (s,rest.drop contentSize)

def parseMoovBox (s : MoovState) (data : Bytes) : Except Mp4Error MoovState :=
  children moovStep data s

end Media

/-- The content of a box that is all there. -/
def BoxAt.content (b : BoxAt) : Bytes := b.bytes.drop 8

theorem BoxAt.content_mk (kind : Bytes) (size : Nat) (data : Bytes) :
    BoxAt.content ⟨kind,size,data⟩ = (data.drop 8).take (size-8) := by
  unfold content bytes
  rw [List.drop_take]

theorem BoxAt.length_content_le (b : BoxAt) : b.content.length ≤ b.size := by
  unfold content bytes
  rw [List.length_drop,List.length_take]
  omega

section Walk

/-- A loop over child boxes whose cursor does not depend on what it has found: behind a content of
some length it goes on at `skip`. The boxes that it meets, up to the first one that is not all
there. -/
def walkFrom (skip : Bytes → Nat → Nat) : Nat → Bytes → List BoxAt
  | 0,_ => []
  | n+1,data =>
    let boxSize := beNat (data.take 4)
    if data.length < 8 ∨ boxSize < 8 ∨ data.length < boxSize then []
    else
      let kind := (data.drop 4).take 4
      ⟨kind,boxSize,data⟩::walkFrom skip n ((data.drop 8).drop (skip kind (boxSize-8)))

theorem walkFrom_plain (n : Nat) (data : Bytes) :
    walkFrom (fun _ contentSize => contentSize) n data = boxesFrom n data := by
  induction n generalizing data with
  | zero => rfl
  | succ n ih =>
    rw [walkFrom,boxesFrom]
    dsimp only
    by_cases hstop : data.length < 8 ∨ beNat (data.take 4) < 8 ∨ data.length < beNat (data.take 4)
    · rw [if_pos hstop,if_pos hstop]
    · have hsum : 8+(beNat (data.take 4)-8) = beNat (data.take 4) := by omega
      rw [if_neg hstop,if_neg hstop,ih,List.drop_drop,hsum]

variable {S : Type} {step : S → Bytes → Nat → Bytes → Except Mp4Error (S × Bytes)}
  {skip : Bytes → Nat → Nat} {act : S → Bytes → Bytes → Except Mp4Error S}

/-- What a step of a loop does with a box that is all there, and that one which is not changes
nothing and ends the loop. -/
structure Acts (step : S → Bytes → Nat → Bytes → Except Mp4Error (S × Bytes))
    (skip : Bytes → Nat → Nat) (act : S → Bytes → Bytes → Except Mp4Error S) : Prop where
  whole : ∀ s kind n rest, n ≤ rest.length →
    step s kind n rest = (act s kind (rest.take n)).map (fun s => (s,rest.drop (skip kind n)))
  cut : ∀ s kind n rest, rest.length < n → step s kind n rest = .ok (s,[])

theorem childrenFrom_nil (n : Nat) (s : S) : childrenFrom step n [] s = .ok s := by
  cases n <;> rfl

theorem readExact_whole {n : Nat} {rest : Bytes} (h : n ≤ rest.length) :
    readExact n rest = (some (rest.take n),rest.drop n) := if_pos h

theorem readExact_cut {n : Nat} {rest : Bytes} (h : rest.length < n) :
    readExact n rest = (none,[]) := if_neg (by omega)

/-- The loop is a fold over the boxes on its way. -/
theorem Acts.childrenFrom_eq (h : Acts step skip act) (n : Nat) (data : Bytes) (s : S) :
    childrenFrom step n data s =
      (walkFrom skip n data).foldlM (fun s b => act s b.kind b.content) s := by
  induction n generalizing data s with
  | zero => rfl
  | succ n ih =>
    rw [childrenFrom,walkFrom]
    dsimp only
    by_cases hheader : data.length < 8 ∨ beNat (data.take 4) < 8
    · rw [if_pos hheader,if_pos (by omega)]
      rfl
    · have hlength : (data.drop 8).length = data.length-8 := List.length_drop
      rw [if_neg hheader]
      by_cases hall : beNat (data.take 4) ≤ data.length
      · rw [if_neg (by omega),List.foldlM_cons,h.whole _ _ _ _ (by omega),BoxAt.content_mk]
        cases act s ((data.drop 4).take 4) ((data.drop 8).take (beNat (data.take 4)-8)) with
        | error e => rfl
        | ok s' => exact ih _ s'
      · rw [if_pos (by omega),h.cut _ _ _ _ (by omega)]
        exact childrenFrom_nil n s

def moovAct (s : MoovState) (kind content : Bytes) : Except Mp4Error MoovState :=
  if kind = tagTrak then do
    let (track,pending) ← parseTrakBox content
    return ⟨s.tracks++track.toList,pending⟩
  else .ok s

/-- Where the cursor goes on behind a content: at its end. -/
def plainSkip (_ : Bytes) (contentSize : Nat) : Nat := contentSize

theorem moovStep_acts : Acts moovStep plainSkip moovAct := by
  constructor
  · intro s kind n rest h
    unfold moovStep moovAct
    rw [readExact_whole h]
    split_ifs
    · dsimp only
      cases parseTrakBox (rest.take n) <;> rfl
    · rfl
  · intro s kind n rest h
    unfold moovStep
    rw [readExact_cut h,List.drop_eq_nil_iff.mpr (le_of_lt h)]
    split_ifs <;> rfl

end Walk

section Traks

/-- The invariant rule for the loops over child boxes. -/
theorem children_invariant {S : Type} {step : S → Bytes → Nat → Bytes → Except Mp4Error (S × Bytes)}
    (Inv : S → Prop) (hstep : ∀ s kind n rest s' rest', Inv s →
      step s kind n rest = .ok (s',rest') → Inv s') {data : Bytes} {s s' : S} (h0 : Inv s)
    (h : children step data s = .ok s') : Inv s' := by
  unfold children at h
  generalize data.length = n at h
  induction n generalizing data s with
  | zero =>
    cases h
    exact h0
  | succ n ih =>
    rw [childrenFrom] at h
    dsimp only at h
    split_ifs at h
    · cases h
      exact h0
    · obtain ⟨⟨s₁,rest⟩,hs₁,h⟩ := bind_eq_ok.mp h
      exact ih (hstep _ _ _ _ _ _ h0 hs₁) h

theorem attempt_eq_ok {α : Type} {x : Except Mp4Error α} {r : Except Mp4Error α}
    (h : attempt x = .ok r) : r = x := by
  unfold attempt at h
  split at h
  · cases h
  · cases h
    rfl

/-- The `trak` boxes of a `moov`. -/
def traks (data : Bytes) : List BoxAt := (boxesIn data).filter (fun b => b.kind == tagTrak)

def addTrak (m : MoovState) (trak : BoxAt) : Except Mp4Error MoovState := do
  let (track,pending) ← parseTrakBox (trak.bytes.drop 8)
  return ⟨m.tracks++track.toList,pending⟩

theorem childrenFrom_moovStep (n : Nat) (data : Bytes) (m : MoovState) :
    childrenFrom moovStep n data m =
      ((boxesFrom n data).filter (fun b => b.kind == tagTrak)).foldlM addTrak m := by
  have hact : ∀ (m : MoovState) (b : BoxAt), moovAct m b.kind b.content =
      if b.kind == tagTrak then addTrak m b else pure m := by
    intro m b
    unfold moovAct
    by_cases htrak : b.kind = tagTrak
    · rw [if_pos htrak,if_pos (by simpa using htrak)]
      rfl
    · rw [if_neg htrak,if_neg (by simpa using htrak)]
      rfl
  have hwalk : walkFrom plainSkip n data = boxesFrom n data := walkFrom_plain n data
  rw [moovStep_acts.childrenFrom_eq,hwalk,List.foldlM_filter]
  simp only [hact]

theorem parseMoovBox_eq (data : Bytes) (m : MoovState) :
    parseMoovBox m data = (traks data).foldlM addTrak m :=
  childrenFrom_moovStep data.length data m

def readTrak (trak : BoxAt) : Except Mp4Error (Option ParsedTrack × Option SampleTable) :=
  parseTrakBox (trak.bytes.drop 8)

/-- The tracks of some `trak` boxes come one after the other, whatever was there before. -/
theorem foldlM_addTrak_eq_ok {cs : List BoxAt} {m m' : MoovState} :
    cs.foldlM addTrak m = .ok m' ↔ ∃ found, cs.mapM readTrak = .ok found ∧
      m' = ⟨m.tracks++found.filterMap Prod.fst,(found.getLast?.map Prod.snd).getD m.pending⟩ := by
  induction cs generalizing m with
  | nil =>
    constructor
    · intro h
      cases h
      refine ⟨[],rfl,?_⟩
      rw [List.filterMap_nil,List.append_nil]
      rfl
    · intro h
      obtain ⟨found,hfound,rfl⟩ := h
      cases hfound
      rw [List.reverse_nil,List.filterMap_nil,List.append_nil]
      rfl
  | cons c cs ih =>
    have hpending : ∀ (r : Option ParsedTrack × Option SampleTable)
        (found : List (Option ParsedTrack × Option SampleTable)) (p : Option SampleTable),
        ((r::found).getLast?.map Prod.snd).getD p = (found.getLast?.map Prod.snd).getD r.2 := by
      intro r found p
      rw [List.getLast?_cons]
      cases found.getLast? <;> rfl
    have htracks : ∀ (r : Option ParsedTrack × Option SampleTable)
        (found : List (Option ParsedTrack × Option SampleTable)) (ts : List ParsedTrack),
        ts++(r::found).filterMap Prod.fst = ts++r.1.toList++found.filterMap Prod.fst := by
      intro r found ts
      rw [List.append_assoc]
      cases hr : r.1 <;> simp [hr]
    rw [List.foldlM_cons,List.mapM_cons,bind_eq_ok]
    simp only [ih,bind_eq_ok]
    constructor
    · intro h
      obtain ⟨_,hc,found,hfound,rfl⟩ := h
      obtain ⟨r,hr,hc⟩ := bind_eq_ok.mp hc
      cases hc
      exact ⟨r::found,⟨r,hr,found,hfound,rfl⟩,by rw [hpending,htracks]⟩
    · intro h
      obtain ⟨_,⟨r,hr,found,hfound,hall⟩,rfl⟩ := h
      cases hall
      refine ⟨⟨m.tracks++r.1.toList,r.2⟩,bind_eq_ok.mpr ⟨r,hr,rfl⟩,found,hfound,?_⟩
      rw [hpending,htracks]

end Traks

section Plain

/-- The codec has no parameter `AC-3`. -/
def CodecInfo.Plain (c : CodecInfo) : Prop := c.params ≠ some "AC-3"

/-- The sample sizes are counted with four bytes. -/
def Counted (pending : Option SampleTable) : Prop :=
  ∀ t, pending = some t → t.sampleSizes.length < 2^32

theorem ne_of_length {s : String} {n : Nat} (h : s.toList.length = n) (hn : n ≠ 4) :
    s ≠ "AC-3" := by
  intro hs
  rw [hs] at h
  exact hn h.symm

theorem hexByte_ne (b : UInt8) : String.ofList (hexByte b) ≠ "AC-3" := by
  apply ne_of_length (n := 2)
  · rw [String.toList_ofList]
    rfl
  · decide

theorem extractAvcProfile_ne {data : Bytes} {profile : String}
    (h : extractAvcProfile data = .ok profile) : profile ≠ "AC-3" := by
  unfold extractAvcProfile at h
  split at h
  · cases h
    decide
  · next config _ =>
    split_ifs at h with hshort
    cases h
    apply ne_of_length (n := 6)
    · have hthree : ((config.drop 1).take 3).length = 3 := by
        rw [List.length_take,List.length_drop]
        omega
      have htwo : ∀ b, (hexByte b).length = 2 := fun _ => rfl
      rw [String.toList_ofList,List.length_map,List.length_flatMap]
      simp only [htwo]
      rw [List.map_const',hthree]
      rfl
    · decide

theorem parseStsdBox_plain {data : Bytes} {mediaType : String} {c : CodecInfo}
    (h : parseStsdBox data mediaType = .ok c) : c.Plain := by
  unfold parseStsdBox at h
  dsimp only at h
  split_ifs at h
  · obtain ⟨profile,hprofile,h⟩ := bind_eq_ok.mp h
    cases h
    intro hac3
    exact extractAvcProfile_ne hprofile (Option.some.inj hac3)
  all_goals
    cases h
    simp [CodecInfo.Plain,hexByte_ne]

theorem length_readEntries {α : Type} (width : Nat) (entry : Bytes → α) (n : Nat) (data : Bytes) :
    (readEntries width entry n data).length ≤ n := by
  induction n generalizing data with
  | zero => exact le_refl _
  | succ n ih =>
    rw [readEntries]
    split_ifs
    · exact Nat.zero_le _
    · rw [List.length_cons]
      exact Nat.succ_le_succ (ih _)

theorem length_parseStsz (data : Bytes) : (parseStsz data).length < 2^32 := by
  have hcount : (readU32 8 data).toNat < 2^32 := (readU32 8 data).toNat_lt
  unfold parseStsz
  dsimp only
  split_ifs
  · decide
  · rwa [List.length_replicate]
  · exact lt_of_le_of_lt (length_readEntries _ _ _ _) hcount

theorem length_update {t : SampleTable} (h : t.sampleSizes.length < 2^32) (kind data : Bytes) :
    (t.update kind data).sampleSizes.length < 2^32 := by
  unfold SampleTable.update
  split_ifs
  · exact length_parseStsz data
  all_goals exact h

variable {data : Bytes} {mediaType : String} {pending : Option SampleTable}

def StblState.Plain (s : StblState) : Prop :=
  (∀ c, s.codecResult = some (.ok c) → c.Plain) ∧ s.table.sampleSizes.length < 2^32

theorem stblStep_plain {s s' : StblState} {kind rest rest' : Bytes} {n : Nat} (hs : s.Plain)
    (h : stblStep mediaType s kind n rest = .ok (s',rest')) : s'.Plain := by
  unfold stblStep at h
  split at h
  · cases h
    exact hs
  · split_ifs at h
    · obtain ⟨r,hr,h⟩ := bind_eq_ok.mp h
      cases h
      refine ⟨?_,hs.2⟩
      intro c hc
      cases hc
      exact parseStsdBox_plain (attempt_eq_ok hr).symm
    · cases h
      exact ⟨hs.1,length_update hs.2 _ _⟩

theorem parseStblBox_plain {result : Except Mp4Error CodecInfo × Option SampleTable}
    (hpending : Counted pending) (h : parseStblBox data mediaType pending = .ok result) :
    (∀ c, result.1 = .ok c → c.Plain) ∧ Counted result.2 := by
  obtain ⟨s,hs,h⟩ := bind_eq_ok.mp h
  cases h
  have hdefault : StblState.Plain ⟨none,.default⟩ := ⟨fun c hc => (by cases hc),by decide⟩
  have hinv : s.Plain :=
    children_invariant StblState.Plain (fun _ _ _ _ _ _ => stblStep_plain) hdefault hs
  constructor
  · intro c hc
    apply hinv.1 c
    cases hresult : s.codecResult with
    | none =>
      rw [hresult] at hc
      cases hc
    | some r =>
      rw [hresult] at hc
      exact congrArg some hc
  · dsimp only
    split_ifs
    · exact hpending
    · intro t ht
      cases ht
      exact hinv.2

theorem defaultCodec_plain (mediaType : String) : (defaultCodec mediaType).Plain := by
  unfold defaultCodec CodecInfo.Plain
  split_ifs <;> simp

theorem parseMinfBox_plain {result : Except Mp4Error CodecInfo × Option SampleTable}
    (hpending : Counted pending) (h : parseMinfBox data mediaType pending = .ok result) :
    (∀ c, result.1 = .ok c → c.Plain) ∧ Counted result.2 := by
  obtain ⟨found,hfound,h⟩ := bind_eq_ok.mp h
  cases h
  have hinv : ∀ r, found = some r → (∀ c, r.1 = .ok c → c.Plain) ∧ Counted r.2 := by
    apply children_invariant (fun found : Option (Except Mp4Error CodecInfo × Option SampleTable) =>
      ∀ r, found = some r → (∀ c, r.1 = .ok c → c.Plain) ∧ Counted r.2) _ _ hfound
    · intro s kind n rest s' rest' hinv hstep
      unfold minfStep at hstep
      split_ifs at hstep
      · split at hstep
        · cases hstep
          exact hinv
        · obtain ⟨r,hr,hstep⟩ := bind_eq_ok.mp hstep
          cases hstep
          intro r' hr'
          cases hr'
          exact parseStblBox_plain hpending hr
      · cases hstep
        exact hinv
    · intro r hr
      cases hr
  cases found with
  | none =>
    refine ⟨?_,hpending⟩
    intro c hc
    cases hc
    exact defaultCodec_plain mediaType
  | some r => exact hinv r rfl

def MdiaState.Plain (s : MdiaState) : Prop := s.codec.Plain ∧ Counted s.pending

theorem MdiaState.default_plain (hpending : Counted pending) : (MdiaState.default pending).Plain :=
  ⟨by simp [default,CodecInfo.Plain],hpending⟩

theorem orSkip_invariant {α S : Type} {result : Except Mp4Error α × Bytes} {n : Nat} {s s' : S}
    {set : α → S} {rest : Bytes} (Inv : S → Prop) (h0 : Inv s) (hset : ∀ a, Inv (set a))
    (h : orSkip result n s set = (s',rest)) : Inv s' := by
  unfold orSkip at h
  split at h
  · cases h
    exact hset _
  · cases h
    exact h0

theorem parseMdiaBox_plain {s : MdiaState} (hpending : Counted pending)
    (h : parseMdiaBox data pending = .ok s) : s.Plain := by
  apply children_invariant MdiaState.Plain _ (MdiaState.default_plain hpending) h
  intro s kind n rest s' rest' hinv hstep
  unfold mdiaStep at hstep
  split_ifs at hstep
  · apply orSkip_invariant MdiaState.Plain hinv _ (Except.ok.inj hstep)
    exact fun _ => hinv
  · apply orSkip_invariant MdiaState.Plain hinv _ (Except.ok.inj hstep)
    exact fun _ => hinv
  · split at hstep
    · cases hstep
      exact hinv
    · obtain ⟨⟨r,p⟩,hr,hstep⟩ := bind_eq_ok.mp hstep
      cases hstep
      obtain ⟨hcodec,hcounted⟩ := parseMinfBox_plain hinv.2 hr
      refine ⟨?_,hcounted⟩
      cases r with
      | error e => exact hinv.1
      | ok c => exact hcodec c rfl
  · cases hstep
    exact hinv

/-- What is known of every track, and of a sample table that stays pending. -/
theorem parseTrakBox_plain {track : Option ParsedTrack} {pending : Option SampleTable}
    (h : parseTrakBox data = .ok (track,pending)) :
    (∀ t, track = some t → t.codecParams ≠ some "AC-3" ∧ Counted t.sampleTable) ∧
    Counted pending := by
  have hnone : Counted none := fun t ht => by cases ht
  obtain ⟨s,hs,h⟩ := bind_eq_ok.mp h
  have hinv : s.mdia.Plain := by
    apply children_invariant (fun s : TrakState => s.mdia.Plain) _
      (MdiaState.default_plain hnone) hs
    intro s kind n rest s' rest' hinv hstep
    unfold trakStep at hstep
    split_ifs at hstep
    · apply orSkip_invariant (fun s : TrakState => s.mdia.Plain) hinv _ (Except.ok.inj hstep)
      exact fun _ => hinv
    · split at hstep
      · cases hstep
        exact hinv
      · obtain ⟨mdia,hmdia,hstep⟩ := bind_eq_ok.mp hstep
        cases hstep
        exact parseMdiaBox_plain hinv.2 hmdia
    · cases hstep
      exact hinv
  split_ifs at h
  · cases h
    refine ⟨?_,hnone⟩
    intro t ht
    cases ht
    exact hinv
  · cases h
    exact ⟨fun t ht => (by cases ht),hinv.2⟩

end Plain

end OpenBroadcast.Media
