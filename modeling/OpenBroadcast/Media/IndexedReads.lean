import OpenBroadcast.Media.MoovParser

namespace OpenBroadcast.Media

section Indexing

/-- `data[i]`. -/
def byteAt (data : Bytes) (i : Nat) : Except Mp4Error UInt8 :=
  match data[i]? with
  | some b => .ok b
  | none => .error .panic

/-- `&data[start..stop]`. -/
def sliceAt (data : Bytes) (start stop : Nat) : Except Mp4Error Bytes :=
  if start ≤ stop ∧ stop ≤ data.length then .ok ((data.drop start).take (stop-start))
  else .error .panic

/-- `u32::from_be_bytes` of four indexed bytes. -/
def u32At (data : Bytes) (i : Nat) : Except Mp4Error UInt32 := do
  let a ← byteAt data i
  let b ← byteAt data (i+1)
  let c ← byteAt data (i+2)
  let d ← byteAt data (i+3)
  return .ofNat (beNat [a,b,c,d])

def u64At (data : Bytes) (i : Nat) : Except Mp4Error UInt64 := do
  let a ← byteAt data i
  let b ← byteAt data (i+1)
  let c ← byteAt data (i+2)
  let d ← byteAt data (i+3)
  let e ← byteAt data (i+4)
  let f ← byteAt data (i+5)
  let g ← byteAt data (i+6)
  let h ← byteAt data (i+7)
  return .ofNat (beNat [a,b,c,d,e,f,g,h])

variable {data : Bytes} {i : Nat}

theorem byteAt_ok (h : i < data.length) : byteAt data i = .ok data[i] := by
  rw [byteAt,List.getElem?_eq_getElem h]

theorem sliceAt_ok {start stop : Nat} (hle : start ≤ stop) (h : stop ≤ data.length) :
    sliceAt data start stop = .ok ((data.drop start).take (stop-start)) :=
  if_pos ⟨hle,h⟩

theorem drop_take_succ (h : i < data.length) (n : Nat) :
    (data.drop i).take (n+1) = data[i]::(data.drop (i+1)).take n := by
  rw [List.drop_eq_getElem_cons h,List.take_succ_cons]

theorem u32At_ok (h : i+4 ≤ data.length) : u32At data i = .ok (readU32 i data) := by
  have hbytes : (data.drop i).take 4 =
      [data[i],data[i+1],data[i+2],data[i+3]] := by
    rw [drop_take_succ (by omega) 3,drop_take_succ (by omega) 2,drop_take_succ (by omega) 1,
      drop_take_succ (by omega) 0,List.take_zero]
  simp only [u32At,byteAt_ok (by omega : i < data.length),byteAt_ok (by omega : i+1 < data.length),
    byteAt_ok (by omega : i+2 < data.length),byteAt_ok (by omega : i+3 < data.length),bind,
    Except.bind,readU32,hbytes]
  rfl

theorem u64At_ok (h : i+8 ≤ data.length) :
    u64At data i = .ok (.ofNat (beNat ((data.drop i).take 8))) := by
  have hbytes : (data.drop i).take 8 = [data[i],data[i+1],data[i+2],data[i+3],data[i+4],
      data[i+5],data[i+6],data[i+7]] := by
    rw [drop_take_succ (by omega) 7,drop_take_succ (by omega) 6,drop_take_succ (by omega) 5,
      drop_take_succ (by omega) 4,drop_take_succ (by omega) 3,drop_take_succ (by omega) 2,
      drop_take_succ (by omega) 1,drop_take_succ (by omega) 0,List.take_zero]
  simp only [u64At,byteAt_ok (by omega : i < data.length),byteAt_ok (by omega : i+1 < data.length),
    byteAt_ok (by omega : i+2 < data.length),byteAt_ok (by omega : i+3 < data.length),
    byteAt_ok (by omega : i+4 < data.length),byteAt_ok (by omega : i+5 < data.length),
    byteAt_ok (by omega : i+6 < data.length),byteAt_ok (by omega : i+7 < data.length),bind,
    Except.bind,hbytes]
  rfl

theorem readU32_drop (skip offset : Nat) (data : Bytes) :
    readU32 offset (data.drop skip) = readU32 (skip+offset) data := by
  rw [readU32,readU32,List.drop_drop]

end Indexing

/-! The readers of single boxes as the code indexes them. -/

namespace Indexed

section Tables

variable {α : Type}

/-- The loop `for _ in 0..count` over entries, which it leaves where one is not all there. -/
def readEntries (width : Nat) (entry : Bytes → Nat → Except Mp4Error α) (data : Bytes) :
    Nat → Nat → Except Mp4Error (List α)
  | 0,_ => .ok []
  | n+1,offset =>
    if data.length < offset+width then .ok []
    else do
      let e ← entry data offset
      let es ← readEntries width entry data n (offset+width)
      return e::es

def parseTable (width : Nat) (entry : Bytes → Nat → Except Mp4Error α) (data : Bytes) :
    Except Mp4Error (List α) :=
  if data.length < 8 then .ok []
  else do
    let count ← u32At data 4
    readEntries width entry data count.toNat 8

def parseStsz (data : Bytes) : Except Mp4Error (List UInt32) :=
  if data.length < 12 then .ok []
  else do
    let defaultSize ← u32At data 4
    let count ← u32At data 8
    if defaultSize ≠ 0 then return List.replicate count.toNat defaultSize
    else readEntries 4 u32At data count.toNat 12

def pairAt (data : Bytes) (i : Nat) : Except Mp4Error (UInt32 × UInt32) := do
  let a ← u32At data i
  let b ← u32At data (i+4)
  return (a,b)

def parseStts : Bytes → Except Mp4Error (List (UInt32 × UInt32)) := parseTable 8 pairAt

def parseStsc : Bytes → Except Mp4Error (List (UInt32 × UInt32 × UInt32)) :=
  parseTable 12 (fun data i => do
    let firstChunk ← u32At data i
    let rest ← pairAt data (i+4)
    return (firstChunk,rest))

def parseStco : Bytes → Except Mp4Error (List UInt64) :=
  parseTable 4 (fun data i => do
    let offset ← u32At data i
    return .ofNat offset.toNat)

def parseCo64 : Bytes → Except Mp4Error (List UInt64) := parseTable 8 u64At

def parseStss : Bytes → Except Mp4Error (List UInt32) := parseTable 4 u32At

def parseCtts : Bytes → Except Mp4Error (List (UInt32 × Int32)) :=
  parseTable 8 (fun data i => do
    let (count,offset) ← pairAt data i
    return (count,offset.toInt32))

variable {width : Nat} {entry : Bytes → Nat → Except Mp4Error α} {value : Bytes → α}

theorem readEntries_eq {data : Bytes} (hwidth : 0 < width) (hentry : ∀ i, i+width ≤ data.length →
      entry data i = .ok (value (data.drop i))) (n offset : Nat) :
    readEntries width entry data n offset =
      .ok (Media.readEntries width value n (data.drop offset)) := by
  induction n generalizing offset with
  | zero => rfl
  | succ n ih =>
    have hlength : (data.drop offset).length = data.length-offset := List.length_drop
    rw [readEntries,Media.readEntries]
    by_cases h : data.length < offset+width
    · rw [if_pos h,if_pos (by omega)]
    · rw [if_neg h,if_neg (by omega),hentry offset (by omega)]
      simp only [bind,Except.bind,ih,List.drop_drop]
      rfl

theorem parseTable_eq {data : Bytes} (hwidth : 0 < width) (hentry : ∀ i, i+width ≤ data.length →
      entry data i = .ok (value (data.drop i))) :
    parseTable width entry data = .ok (Media.parseTable width value data) := by
  unfold parseTable Media.parseTable
  by_cases h : data.length < 8
  · rw [if_pos h,if_pos h]
  · rw [if_neg h,if_neg h,u32At_ok (by omega)]
    simp only [bind,Except.bind]
    rw [readEntries_eq hwidth hentry]

theorem pairAt_ok {data : Bytes} {i : Nat} (h : i+8 ≤ data.length) :
    pairAt data i = .ok (readU32 0 (data.drop i),readU32 4 (data.drop i)) := by
  simp only [pairAt,u32At_ok (by omega : i+4 ≤ data.length),
    u32At_ok (by omega : i+4+4 ≤ data.length),bind,Except.bind,readU32_drop]
  rfl

theorem parseStsz_eq (data : Bytes) : parseStsz data = .ok (Media.parseStsz data) := by
  unfold parseStsz Media.parseStsz
  by_cases h : data.length < 12
  · rw [if_pos h,if_pos h]
  · rw [if_neg h,if_neg h,u32At_ok (by omega),u32At_ok (by omega)]
    simp only [bind,Except.bind]
    split_ifs
    · rfl
    · apply readEntries_eq (by decide)
      intro i hi
      rw [u32At_ok (by omega),readU32_drop]
      rfl

theorem parseStts_eq (data : Bytes) : parseStts data = .ok (Media.parseStts data) :=
  parseTable_eq (by decide) (fun _ hi => pairAt_ok hi)

theorem parseStsc_eq (data : Bytes) : parseStsc data = .ok (Media.parseStsc data) := by
  apply parseTable_eq (by decide)
  intro i hi
  simp only [u32At_ok (by omega : i+4 ≤ data.length),pairAt_ok (by omega : i+4+8 ≤ data.length),
    bind,Except.bind,readU32_drop]
  rfl

theorem parseStco_eq (data : Bytes) : parseStco data = .ok (Media.parseStco data) := by
  apply parseTable_eq (by decide)
  intro i hi
  simp only [u32At_ok (by omega : i+4 ≤ data.length),bind,Except.bind,readU32_drop]
  rfl

theorem parseCo64_eq (data : Bytes) : parseCo64 data = .ok (Media.parseCo64 data) :=
  parseTable_eq (by decide) (fun _ hi => u64At_ok hi)

theorem parseStss_eq (data : Bytes) : parseStss data = .ok (Media.parseStss data) := by
  apply parseTable_eq (by decide)
  intro i hi
  rw [u32At_ok (by omega),readU32_drop]
  rfl

theorem parseCtts_eq (data : Bytes) : parseCtts data = .ok (Media.parseCtts data) := by
  apply parseTable_eq (by decide)
  intro i hi
  simp only [pairAt_ok hi,bind,Except.bind]
  rfl

end Tables

section Headers

/-- What `parse_tkhd_box`, `parse_mdhd_box` and `parse_hdlr_box` make of the content of the box,
which has at least as many bytes as they ask for. -/
def tkhdValue (data : Bytes) : Except Mp4Error UInt32 :=
  if 16 ≤ data.length then u32At data 12 else .error (.io "tkhd box data too small")

def mdhdValue (data : Bytes) : Except Mp4Error (Nat × Nat) := do
  let timescale ← u32At data 12
  let duration ← u32At data 16
  return (timescale.toNat,duration.toNat)

def hdlrValue (data : Bytes) : Except Mp4Error String := do
  let handlerType ← sliceAt data 8 12
  return fromUtf8Lossy handlerType

theorem parseHeaderBox_congr {α : Type} {least : Nat} {message : String}
    {value value' : Bytes → Except Mp4Error α}
    (h : ∀ data, least ≤ data.length → value data = value' data) (contentSize : Nat) (rest : Bytes) :
    parseHeaderBox least message value contentSize rest =
      parseHeaderBox least message value' contentSize rest := by
  unfold parseHeaderBox readExact
  by_cases hsmall : contentSize < least
  · rw [if_pos hsmall,if_pos hsmall]
  · rw [if_neg hsmall,if_neg hsmall]
    by_cases hall : contentSize ≤ rest.length
    · rw [if_pos hall]
      dsimp only
      rw [h _ (by rw [List.length_take]; omega)]
    · rw [if_neg hall]

theorem parseTkhdBox_eq (contentSize : Nat) (rest : Bytes) :
    parseTkhdBox contentSize rest =
      parseHeaderBox 12 "tkhd box too small" tkhdValue contentSize rest := by
  apply parseHeaderBox_congr
  intro data _
  unfold tkhdValue
  split_ifs with h
  · rw [u32At_ok (by omega)]
  · rfl

theorem parseMdhdBox_eq (contentSize : Nat) (rest : Bytes) :
    parseMdhdBox contentSize rest =
      parseHeaderBox 20 "mdhd box too small" mdhdValue contentSize rest := by
  apply parseHeaderBox_congr
  intro data hdata
  simp only [mdhdValue,u32At_ok (by omega : 12+4 ≤ data.length),
    u32At_ok (by omega : 16+4 ≤ data.length),bind,Except.bind]
  rfl

theorem parseHdlrBox_eq (contentSize : Nat) (rest : Bytes) :
    parseHdlrBox contentSize rest =
      parseHeaderBox 12 "hdlr box too small" hdlrValue contentSize rest := by
  apply parseHeaderBox_congr
  intro data hdata
  simp only [hdlrValue,sliceAt_ok (by omega : 8 ≤ 12) hdata,bind,Except.bind]
  rfl

end Headers

section Esds

/-- `while offset < esds_data.len() && (esds_data[offset] & 0x80) != 0`. -/
def skipLength (data : Bytes) : Nat → Nat → Except Mp4Error Nat
  | 0,offset => .ok offset
  | n+1,offset =>
    if offset < data.length then do
      let b ← byteAt data offset
      if b &&& 0x80 ≠ 0 then skipLength data n (offset+1) else return offset
    else .ok offset

/-- Where the value of a descriptor begins whose length begins at `offset`. -/
def afterLength (data : Bytes) (offset : Nat) : Except Mp4Error Nat := do
  let offset ← skipLength data data.length offset
  return if offset < data.length then offset+1 else offset

/-- The first place of a tag that has more than `margin` bytes behind it. -/
def findTag (data : Bytes) (tag : UInt8) (margin : Nat) : Nat → Nat → Except Mp4Error (Option Nat)
  | 0,_ => .ok none
  | n+1,offset =>
    if offset+margin < data.length then do
      let b ← byteAt data offset
      if b = tag then return some offset else findTag data tag margin n (offset+1)
    else .ok none

/-- What this finds is only logged. -/
def parseAudioSpecificConfig (asc : Bytes) : Except Mp4Error Unit :=
  if asc.isEmpty then .ok ()
  else do
    let _ ← byteAt asc 0
    if 2 ≤ asc.length then do
      let _ ← byteAt asc 1
      return ()
    else return ()

/-- The length of the configuration, and where it begins. -/
def configLength (data : Bytes) (offset : Nat) : Except Mp4Error (Nat × Nat) :=
  if offset < data.length then do
    let b ← byteAt data offset
    if b &&& 0x80 = 0 then return (b.toNat,offset+1)
    else do
      let offset ← skipLength data data.length offset
      if offset < data.length then do
        let b ← byteAt data offset
        return (b.toNat,offset+1)
      else return (0,offset)
  else .ok (0,offset)

def analyzeAudioSpecificConfig (data : Bytes) (decoderConfigStart : Nat) : Except Mp4Error Unit := do
  let offset ← afterLength data (decoderConfigStart+1)
  match ← findTag data 5 2 data.length (offset+13) with
  | none => return ()
  | some offset => do
    let (length,offset) ← configLength data (offset+1)
    if offset+length ≤ data.length then do
      let asc ← sliceAt data offset (offset+length)
      parseAudioSpecificConfig asc
    else return ()

def parseEsdsForAacObjectType (data : Bytes) : Except Mp4Error UInt8 :=
  if data.length < 20 then .ok 2
  else do
    let _ ← sliceAt data 0 (min 20 data.length)
    match ← findTag data 4 5 data.length 4 with
    | none => return 2
    | some decoderConfigStart => do
      let offset ← afterLength data (decoderConfigStart+1)
      if offset < data.length then do
        let objectType ← byteAt data offset
        analyzeAudioSpecificConfig data decoderConfigStart
        return objectType
      else return 2

variable {data : Bytes}

theorem drop_of_lt {offset : Nat} (h : offset < data.length) :
    data.drop offset = data[offset]::data.drop (offset+1) :=
  List.drop_eq_getElem_cons h

theorem skipLength_eq {n offset : Nat} (hn : data.length ≤ offset+n) :
    ∃ o, skipLength data n offset = .ok o ∧
      data.drop o = (data.drop offset).dropWhile (fun b => b &&& 0x80 != 0) := by
  induction n generalizing offset with
  | zero =>
    have hend : data.drop offset = [] := List.drop_eq_nil_iff.mpr (by omega)
    exact ⟨offset,rfl,by rw [hend]; rfl⟩
  | succ n ih =>
    rw [skipLength]
    by_cases h : offset < data.length
    · rw [if_pos h,byteAt_ok h,drop_of_lt h,List.dropWhile_cons]
      by_cases hbit : data[offset] &&& 0x80 = 0
      · exact ⟨offset,by simp [hbit,bind,Except.bind,pure,Except.pure],
          by rw [drop_of_lt h]; simp [hbit]⟩
      · obtain ⟨o,ho,hdrop⟩ := @ih (offset+1) (by omega)
        exact ⟨o,by simp [hbit,bind,Except.bind,ho],by simp [hbit,hdrop]⟩
    · have hend : data.drop offset = [] := List.drop_eq_nil_iff.mpr (by omega)
      exact ⟨offset,if_neg h,by rw [hend]; rfl⟩

theorem afterLength_eq (data : Bytes) (offset : Nat) :
    ∃ o, afterLength data offset = .ok o ∧
      data.drop o = ((data.drop offset).dropWhile (fun b => b &&& 0x80 != 0)).drop 1 := by
  obtain ⟨o,ho,hdrop⟩ := @skipLength_eq data data.length offset
    (Nat.le_add_left data.length offset)
  unfold afterLength
  rw [ho,← hdrop,List.drop_drop]
  by_cases h : o < data.length
  · exact ⟨o+1,by simp [h,bind,Except.bind,pure,Except.pure],rfl⟩
  · have hend : data.drop o = [] := List.drop_eq_nil_iff.mpr (by omega)
    have hend' : data.drop (o+1) = [] := List.drop_eq_nil_iff.mpr (by omega)
    exact ⟨o,by simp [h,bind,Except.bind,pure,Except.pure],by rw [hend,hend']⟩

theorem findTag_ok (tag : UInt8) (margin n offset : Nat) :
    ∃ found, findTag data tag margin n offset = .ok found := by
  induction n generalizing offset with
  | zero => exact ⟨none,rfl⟩
  | succ n ih =>
    rw [findTag]
    by_cases h : offset+margin < data.length
    · rw [if_pos h,byteAt_ok (by omega)]
      by_cases htag : data[offset] = tag
      · exact ⟨some offset,by simp [htag,bind,Except.bind,pure,Except.pure]⟩
      · obtain ⟨found,hfound⟩ := ih (offset+1)
        exact ⟨found,by simp [htag,bind,Except.bind,hfound]⟩
    · exact ⟨none,if_neg h⟩

/-- The search finds what the search through the list finds. -/
theorem findTag_decoderConfig {n offset : Nat} (hn : data.length ≤ offset+n) :
    ∃ found, findTag data 4 5 n offset = .ok found ∧
      decoderConfig (data.drop offset) = found.map (fun o => data.drop (o+1)) := by
  induction n generalizing offset with
  | zero =>
    have hend : data.drop offset = [] := List.drop_eq_nil_iff.mpr (by omega)
    exact ⟨none,rfl,by rw [hend]; rfl⟩
  | succ n ih =>
    rw [findTag]
    by_cases h : offset+5 < data.length
    · have hrest : ¬ (data.drop (offset+1)).length < 5 := by
        rw [List.length_drop]
        omega
      rw [if_pos h,byteAt_ok (by omega),drop_of_lt (by omega),decoderConfig,if_neg hrest]
      by_cases htag : data[offset] = 4
      · exact ⟨some offset,by simp [htag,bind,Except.bind,pure,Except.pure],if_pos htag⟩
      · obtain ⟨found,hfound,hconfig⟩ := @ih (offset+1) (by omega)
        exact ⟨found,by simp [htag,bind,Except.bind,hfound],by rw [if_neg htag,hconfig]⟩
    · refine ⟨none,if_neg h,?_⟩
      by_cases hlt : offset < data.length
      · have hrest : (data.drop (offset+1)).length < 5 := by
          rw [List.length_drop]
          omega
        rw [drop_of_lt hlt,decoderConfig,if_pos hrest]
        rfl
      · have hend : data.drop offset = [] := List.drop_eq_nil_iff.mpr (by omega)
        rw [hend]
        rfl

theorem parseAudioSpecificConfig_ok (asc : Bytes) : parseAudioSpecificConfig asc = .ok () := by
  unfold parseAudioSpecificConfig
  cases asc with
  | nil => rfl
  | cons a asc => cases asc <;> rfl

theorem configLength_ok (offset : Nat) : ∃ r, configLength data offset = .ok r := by
  unfold configLength
  by_cases h : offset < data.length
  · rw [if_pos h,byteAt_ok h]
    by_cases hbit : data[offset] &&& 0x80 = 0
    · exact ⟨_,by simp [hbit,bind,Except.bind,pure,Except.pure]; rfl⟩
    · obtain ⟨o,ho,_⟩ := @skipLength_eq data data.length offset
        (Nat.le_add_left data.length offset)
      by_cases hin : o < data.length
      · exact ⟨(data[o].toNat,o+1),by
          simp [hbit,ho,hin,byteAt_ok hin,bind,Except.bind,pure,Except.pure]⟩
      · exact ⟨(0,o),by simp [hbit,ho,hin,bind,Except.bind,pure,Except.pure]⟩
  · exact ⟨_,if_neg h⟩

theorem analyzeAudioSpecificConfig_ok (data : Bytes) (start : Nat) :
    analyzeAudioSpecificConfig data start = .ok () := by
  obtain ⟨offset,hoffset,_⟩ := afterLength_eq data (start+1)
  obtain ⟨found,hfound⟩ := @findTag_ok data 5 2 data.length (offset+13)
  unfold analyzeAudioSpecificConfig
  simp only [hoffset,bind,Except.bind,hfound]
  cases found with
  | none => rfl
  | some tag =>
    obtain ⟨⟨length,o⟩,hlength⟩ := @configLength_ok data (tag+1)
    simp only [hlength]
    split_ifs with hall
    · rw [sliceAt_ok (Nat.le_add_right o length) hall]
      exact parseAudioSpecificConfig_ok _
    · rfl

theorem parseEsdsForAacObjectType_eq (data : Bytes) :
    parseEsdsForAacObjectType data = .ok (Media.parseEsdsForAacObjectType data) := by
  unfold parseEsdsForAacObjectType Media.parseEsdsForAacObjectType
  by_cases h : data.length < 20
  · rw [if_pos h,if_pos h]
  · obtain ⟨found,hfound,hconfig⟩ := @findTag_decoderConfig data data.length 4
      (by omega)
    rw [if_neg h,if_neg h,hconfig,sliceAt_ok (Nat.zero_le _) (Nat.min_le_right _ _)]
    simp only [bind,Except.bind,hfound]
    cases found with
    | none => rfl
    | some start =>
      obtain ⟨offset,hoffset,hdrop⟩ := afterLength_eq data (start+1)
      simp only [hoffset,Option.map_some,← hdrop]
      by_cases hin : offset < data.length
      · rw [if_pos hin,byteAt_ok hin,analyzeAudioSpecificConfig_ok,drop_of_lt hin]
        rfl
      · have hend : data.drop offset = [] := List.drop_eq_nil_iff.mpr (by omega)
        rw [if_neg hin,hend]
        rfl

end Esds

section SampleDescription

def extractAvcProfile (data : Bytes) : Except Mp4Error String :=
  match findEntry tagAvcC 11 data with
  | none => .ok "42E01E"
  | some config => do
    let profile ← byteAt config 1
    let compatibility ← byteAt config 2
    let level ← byteAt config 3
    return String.ofList (([profile,compatibility,level].flatMap hexByte).map Char.toUpper)

def extractAacObjectType (data : Bytes) : Except Mp4Error UInt8 :=
  match findEntry tagEsds 20 data with
  | none => .ok 2
  | some esds => parseEsdsForAacObjectType esds

def parseStsdBox (data : Bytes) (mediaType : String) : Except Mp4Error CodecInfo :=
  if data.length < 8 then .error (.io "stsd box too small")
  else do
    let remaining ← sliceAt data 8 data.length
    if remaining.length < 8 then .error (.io "No sample description entries")
    else do
      let _ ← u32At remaining 0
      let format ← sliceAt remaining 4 8
      let format := fromUtf8Lossy format
      if mediaType = "vide" ∧ format = "avc1" then do
        let entry ← sliceAt remaining 8 remaining.length
        let profileLevel ← extractAvcProfile entry
        return ⟨"H.264","video/mp4; codecs=\"avc1."++profileLevel++"\"",some profileLevel⟩
      else if mediaType = "soun" ∧ format = "mp4a" then do
        let esdsOffset := if 36 < remaining.length then 36 else 8
        let entry ← sliceAt remaining esdsOffset remaining.length
        let objectType ← extractAacObjectType entry
        return ⟨"AAC","audio/mp4; codecs=\""++aacCodecString objectType++"\"",
          some (String.ofList (hexByte objectType))⟩
      else if mediaType = "soun" ∧ "mp4a".toList.isPrefixOf format.toList then
        .ok ⟨"AAC","audio/mp4; codecs=\"mp4a.40.2\"",some "2"⟩
      else if mediaType = "soun" ∧ format = "ac-3" then
        .ok ⟨"AC-3","audio/mp4; codecs=\"ac-3\"",none⟩
      else if mediaType = "vide" then
        .ok ⟨"H.264","video/mp4; codecs=\"avc1.42E01E\"",none⟩
      else if mediaType = "soun" then
        .ok ⟨"AAC","audio/mp4; codecs=\"mp4a.40.2\"",none⟩
      else
        .error (.io ("Unsupported format: "++format++" for media type "++mediaType))

/-- Of the content of an `ftyp`, nothing is kept. -/
def parseFtypBox (data : Bytes) : Except Mp4Error Unit :=
  if data.length < 8 then .error (.io "ftyp box too small")
  else do
    let _ ← sliceAt data 0 4
    let _ ← u32At data 4
    let _ ← sliceAt data 8 data.length
    return ()

theorem sliceAt_end {data : Bytes} {start : Nat} (h : start ≤ data.length) :
    sliceAt data start data.length = .ok (data.drop start) := by
  rw [sliceAt_ok h (le_refl _),List.take_of_length_le]
  rw [List.length_drop]

theorem extractAvcProfile_eq (data : Bytes) :
    extractAvcProfile data = Media.extractAvcProfile data := by
  unfold extractAvcProfile Media.extractAvcProfile
  cases findEntry tagAvcC 11 data with
  | none => rfl
  | some config =>
    match config with
    | [] => rfl
    | [_] => rfl
    | [_,_] => rfl
    | [_,_,_] => rfl
    | a::b::c::d::rest =>
      have hlong : ¬ (a::b::c::d::rest).length < 4 := by simp
      dsimp only
      rw [if_neg hlong]
      rfl

theorem extractAacObjectType_eq (data : Bytes) :
    extractAacObjectType data = .ok (Media.extractAacObjectType data) := by
  unfold extractAacObjectType Media.extractAacObjectType
  cases findEntry tagEsds 20 data with
  | none => rfl
  | some esds => exact parseEsdsForAacObjectType_eq esds

theorem parseStsdBox_eq (data : Bytes) (mediaType : String) :
    parseStsdBox data mediaType = Media.parseStsdBox data mediaType := by
  unfold parseStsdBox Media.parseStsdBox
  by_cases h : data.length < 8
  · rw [if_pos h,if_pos h]
  rw [if_neg h,if_neg h,sliceAt_end (by omega)]
  simp only [bind,Except.bind]
  by_cases hremaining : (data.drop 8).length < 8
  · rw [if_pos hremaining,if_pos hremaining]
  have hesds : (if 36 < (data.drop 8).length then 36 else 8) ≤ (data.drop 8).length := by
    split_ifs <;> omega
  rw [if_neg hremaining,if_neg hremaining,u32At_ok (by omega),
    sliceAt_ok (by decide : 4 ≤ 8) (by omega),sliceAt_end (by omega : 8 ≤ (data.drop 8).length),
    sliceAt_end hesds]
  simp only [extractAvcProfile_eq,extractAacObjectType_eq]
  rfl

/-- The only error is the one that is said; it is logged. -/
theorem parseFtypBox_returns (data : Bytes) : parseFtypBox data ≠ .error .panic := by
  unfold parseFtypBox
  by_cases h : data.length < 8
  · rw [if_pos h]
    simp
  · rw [if_neg h,sliceAt_ok (Nat.zero_le 4) (by omega),u32At_ok (by omega),
      sliceAt_end (by omega : 8 ≤ data.length)]
    simp [bind,Except.bind,pure,Except.pure]

end SampleDescription

/-- What the code reads with indices is what the parser of lists reads, and where this does not
panic, no index is out of range. -/
structure Agree : Prop where
  stsz : ∀ data, parseStsz data = .ok (Media.parseStsz data)
  stts : ∀ data, parseStts data = .ok (Media.parseStts data)
  stsc : ∀ data, parseStsc data = .ok (Media.parseStsc data)
  stco : ∀ data, parseStco data = .ok (Media.parseStco data)
  co64 : ∀ data, parseCo64 data = .ok (Media.parseCo64 data)
  stss : ∀ data, parseStss data = .ok (Media.parseStss data)
  ctts : ∀ data, parseCtts data = .ok (Media.parseCtts data)
  tkhd : ∀ n rest, parseTkhdBox n rest =
    parseHeaderBox 12 "tkhd box too small" tkhdValue n rest
  mdhd : ∀ n rest, parseMdhdBox n rest =
    parseHeaderBox 20 "mdhd box too small" mdhdValue n rest
  hdlr : ∀ n rest, parseHdlrBox n rest =
    parseHeaderBox 12 "hdlr box too small" hdlrValue n rest
  esds : ∀ data, parseEsdsForAacObjectType data = .ok (Media.parseEsdsForAacObjectType data)
  stsd : ∀ data mediaType, parseStsdBox data mediaType = Media.parseStsdBox data mediaType
  ftyp : ∀ data, parseFtypBox data ≠ .error .panic

theorem agree : Agree where
  stsz := parseStsz_eq
  stts := parseStts_eq
  stsc := parseStsc_eq
  stco := parseStco_eq
  co64 := parseCo64_eq
  stss := parseStss_eq
  ctts := parseCtts_eq
  tkhd := parseTkhdBox_eq
  mdhd := parseMdhdBox_eq
  hdlr := parseHdlrBox_eq
  esds := parseEsdsForAacObjectType_eq
  stsd := parseStsdBox_eq
  ftyp := parseFtypBox_returns

end Indexed

end OpenBroadcast.Media
