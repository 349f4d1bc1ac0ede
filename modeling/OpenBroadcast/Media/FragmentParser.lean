import OpenBroadcast.Media.FragmentWriter
import OpenBroadcast.Media.MoovParser

namespace OpenBroadcast

open RawBox

section Files

/-- What is left of a file after its boxes: less than a header, or a box that is cut off. -/
def Stops (rest : Bytes) : Prop := rest.length < 8 ∨ rest.length < beNat (rest.take 4)

/-- A header with a size below its own. -/
def Broken (rest : Bytes) : Prop := 8 ≤ rest.length ∧ beNat (rest.take 4) < 8

/-- Data is boxes up to where it has no further one. -/
theorem exists_boxes (data : Bytes) : ∃ bs rest, data = encodeAll bs++rest ∧
    (∀ b ∈ bs, b.Fits) ∧ (Stops rest ∨ Broken rest) := by
  induction hn : data.length using Nat.strong_induction_on generalizing data with
  | h n ih =>
    by_cases hbox : 8 ≤ beNat (data.take 4) ∧ beNat (data.take 4) ≤ data.length
    · have hread : ∃ b rest, readBox data = some (b,rest) := ⟨_,_,if_pos hbox⟩
      obtain ⟨b,rest,hread⟩ := hread
      obtain ⟨hdata,hfits⟩ := readBox_exact hread
      have hshorter : rest.length < n := by
        have hlength := congrArg List.length hdata
        have h8 := b.eight_le_size
        rw [List.length_append,hfits.length_encode] at hlength
        omega
      obtain ⟨bs,tail,hrest,hall,hend⟩ := ih rest.length hshorter rest rfl
      refine ⟨b::bs,tail,?_,?_,hend⟩
      · rw [encodeAll_cons,List.append_assoc,← hrest,hdata]
      · exact List.forall_mem_cons.mpr ⟨hfits,hall⟩
    · refine ⟨[],data,rfl,by simp,?_⟩
      unfold Stops Broken
      omega

end Files

end OpenBroadcast

namespace OpenBroadcast.Media

open RawBox

inductive Mp4ParseError where
  | invalidData (msg : String)
  | invalidBoxSize (size : Nat)
  | ioError (msg : String)
  deriving DecidableEq, Repr

structure FragmentParser where
  boxes : List BoxInfo
  tracks : List ParsedTrack
  isFragmented : Bool
  fileSize : Nat
  deriving DecidableEq

namespace FragmentParser

def new : FragmentParser := ⟨[],[],false,0⟩

/-- The type and the size of a box. -/
def parseBoxHeader (data : Bytes) : Except Mp4ParseError (String × Nat) :=
  if data.length < 8 then .error (.invalidData "Insufficient data for box header")
  else .ok (fromUtf8Lossy ((data.drop 4).take 4),beNat (data.take 4))

/-- The loop, from an offset on and with the data from there. -/
def parseBoxesFrom : Nat → Nat → Bytes → List BoxInfo → List BoxInfo × Except Mp4ParseError Unit
  | 0,_,_,boxes => (boxes,.ok ())
  | n+1,offset,data,boxes =>
    if data.length < 8 then (boxes,.ok ())
    else match parseBoxHeader data with
      | .error e => (boxes,.error e)
      | .ok (boxType,boxSize) =>
        if boxSize < 8 then (boxes,.error (.invalidBoxSize boxSize))
        else if data.length < boxSize then (boxes,.ok ())
        else
          let content := (data.take boxSize).drop 8
          parseBoxesFrom n (offset+boxSize) (data.drop boxSize)
            (boxes++[⟨⟨boxType,boxSize,8,.raw content⟩,offset⟩])

def hasBox (p : FragmentParser) (boxType : String) : Bool :=
  p.boxes.any (fun b => b.boxType == boxType)

/-- The track that stands for those of a `moov`, whatever is in it. -/
def placeholder : ParsedTrack where
  trackId := 1
  mediaType := "vide"
  timescale := 30000
  duration := 1800000
  codec := "H.264"
  codecMimeType := "video/mp4; codecs=\"avc1.42E01E\""
  codecParams := some "avc1.42E01E"
  sampleTable := none

def extractTrackInfo (p : FragmentParser) : FragmentParser :=
  if p.hasBox "moov" then { p with tracks := p.tracks++[placeholder] } else p

def checkFragmentation (p : FragmentParser) : FragmentParser :=
  { p with isFragmented := p.hasBox "moof" || p.hasBox "mvex" }

/-- The boxes of an earlier file are kept. -/
def parse (p : FragmentParser) (data : Bytes) : FragmentParser × Except Mp4ParseError Unit :=
  let (boxes,result) := parseBoxesFrom data.length 0 data p.boxes
  let p := { p with boxes := boxes, fileSize := data.length }
  match result with
  | .error e => (p,.error e)
  | .ok () => (p.extractTrackInfo.checkFragmentation,.ok ())

/-- A box as it is kept. -/
def kept (offset : Nat) (b : RawBox) : BoxInfo :=
  ⟨⟨fromUtf8Lossy b.kind,b.size,8,.raw b.body⟩,offset⟩

/-- The boxes of a file as they are kept, from an offset on. -/
def placed : Nat → List RawBox → List BoxInfo
  | _,[] => []
  | offset,b::bs => kept offset b::placed (offset+b.size) bs

section Loop

variable {n offset : Nat} {boxes : List BoxInfo}

theorem parseBoxesFrom_encode {b : RawBox} (h : b.Fits) (rest : Bytes) :
    parseBoxesFrom (n+1) offset (b.encode++rest) boxes =
      parseBoxesFrom n (offset+b.size) rest (boxes++[kept offset b]) := by
  have h8 := b.eight_le_size
  have hlength : (b.encode++rest).length = b.size+rest.length := by
    rw [List.length_append,h.length_encode]
  have hheader : parseBoxHeader (b.encode++rest) = .ok (fromUtf8Lossy b.kind,b.size) := by
    rw [parseBoxHeader,if_neg (by omega),h.read_kind,h.read_size]
  have hcontent : b.encode.drop 8 = b.body := by
    have hdrop := h.drop_header []
    rwa [List.append_nil,List.append_nil] at hdrop
  rw [parseBoxesFrom,if_neg (by omega),hheader]
  dsimp only
  rw [if_neg (by omega),if_neg (by omega),h.take_size,h.drop_size,hcontent]
  rfl

/-- The loop goes through the boxes that the data begins with. -/
theorem parseBoxesFrom_encodeAll (n offset : Nat) (boxes : List BoxInfo) {bs : List RawBox}
    (h : ∀ b ∈ bs, b.Fits) (rest : Bytes) (hn : (encodeAll bs++rest).length ≤ n) :
    ∃ m, rest.length ≤ m ∧
      parseBoxesFrom n offset (encodeAll bs++rest) boxes =
        parseBoxesFrom m (offset+(encodeAll bs).length) rest (boxes++placed offset bs) := by
  induction bs generalizing n offset boxes with
  | nil => exact ⟨n,by simpa using hn,by simp [placed]⟩
  | cons b bs ih =>
    obtain ⟨hb,hbs⟩ := List.forall_mem_cons.mp h
    have h8 := b.eight_le_size
    rw [encodeAll_cons,List.append_assoc,List.length_append,hb.length_encode] at hn
    cases n with
    | zero => omega
    | succ n =>
      obtain ⟨m,hm,hloop⟩ := ih n (offset+b.size) (boxes++[kept offset b]) hbs (by omega)
      refine ⟨m,hm,?_⟩
      rw [encodeAll_cons,List.append_assoc,parseBoxesFrom_encode hb,hloop,List.length_append,
        hb.length_encode,placed,List.append_assoc,List.singleton_append,Nat.add_assoc]

theorem parseBoxesFrom_stops {rest : Bytes} (h : Stops rest) :
    parseBoxesFrom n offset rest boxes = (boxes,.ok ()) := by
  cases n with
  | zero => rfl
  | succ n =>
    rw [parseBoxesFrom]
    by_cases hshort : rest.length < 8
    · rw [if_pos hshort]
    · have hcut : rest.length < beNat (rest.take 4) := h.resolve_left hshort
      rw [if_neg hshort,parseBoxHeader,if_neg hshort]
      dsimp only
      rw [if_neg (by omega),if_pos hcut]

theorem parseBoxesFrom_broken {rest : Bytes} (h : Broken rest) (hn : rest.length ≤ n) :
    parseBoxesFrom n offset rest boxes =
      (boxes,.error (.invalidBoxSize (beNat (rest.take 4)))) := by
  obtain ⟨hlong,hsmall⟩ := h
  cases n with
  | zero => omega
  | succ n =>
    rw [parseBoxesFrom,if_neg (by omega),parseBoxHeader,if_neg (by omega)]
    dsimp only
    rw [if_pos hsmall]

end Loop

section Parse

variable (p : FragmentParser) (bs : List RawBox) (data : Bytes)

/-- What is kept of a file that is read to its end. -/
def accepted : FragmentParser :=
  let boxes := p.boxes++placed 0 bs
  { boxes := boxes
    tracks := if boxes.any (fun b => b.boxType == "moov") then p.tracks++[placeholder] else p.tracks
    isFragmented :=
      boxes.any (fun b => b.boxType == "moof") || boxes.any (fun b => b.boxType == "mvex")
    fileSize := data.length }

/-- What is kept of a file up to a header that cannot be read. -/
def refused : FragmentParser :=
  { p with boxes := p.boxes++placed 0 bs, fileSize := data.length }

variable {p bs data}

theorem parse_accepts {rest : Bytes} (hdata : data = encodeAll bs++rest)
    (hbs : ∀ b ∈ bs, b.Fits) (h : Stops rest) :
    p.parse data = (p.accepted bs data,.ok ()) := by
  obtain ⟨m,_,hloop⟩ := parseBoxesFrom_encodeAll data.length 0 p.boxes hbs rest (by rw [hdata])
  rw [parseBoxesFrom_stops h,← hdata] at hloop
  simp only [parse,hloop,extractTrackInfo,checkFragmentation,hasBox,accepted]
  split_ifs <;> rfl

theorem parse_refuses {rest : Bytes} (hdata : data = encodeAll bs++rest)
    (hbs : ∀ b ∈ bs, b.Fits) (h : Broken rest) :
    p.parse data = (p.refused bs data,.error (.invalidBoxSize (beNat (rest.take 4)))) := by
  obtain ⟨m,hm,hloop⟩ := parseBoxesFrom_encodeAll data.length 0 p.boxes hbs rest (by rw [hdata])
  rw [parseBoxesFrom_broken h hm,← hdata] at hloop
  simp only [parse,hloop,refused]

theorem parse_ok {q : FragmentParser} (h : p.parse data = (q,.ok ())) :
    ∃ bs rest, data = encodeAll bs++rest ∧ (∀ b ∈ bs, b.Fits) ∧ Stops rest ∧
      q = p.accepted bs data := by
  obtain ⟨bs,rest,hdata,hbs,hend⟩ := exists_boxes data
  rcases hend with hstops | hbroken
  · rw [parse_accepts hdata hbs hstops] at h
    exact ⟨bs,rest,hdata,hbs,hstops,(Prod.mk.inj h).1.symm⟩
  · rw [parse_refuses hdata hbs hbroken] at h
    cases (Prod.mk.inj h).2

/-- The parser takes the boxes that a file begins with and leaves what comes after them, unless
this begins with a header whose size is below its own. -/
theorem parse_iff (p q : FragmentParser) (data : Bytes) (result : Except Mp4ParseError Unit) :
    p.parse data = (q,result) ↔
      ∃ bs rest, data = encodeAll bs++rest ∧ (∀ b ∈ bs, b.Fits) ∧
        ((Stops rest ∧ q = p.accepted bs data ∧ result = .ok ()) ∨
          (Broken rest ∧ q = p.refused bs data ∧
            result = .error (.invalidBoxSize (beNat (rest.take 4))))) := by
  constructor
  · intro h
    obtain ⟨bs,rest,hdata,hbs,hend⟩ := exists_boxes data
    refine ⟨bs,rest,hdata,hbs,?_⟩
    rcases hend with hstops | hbroken
    · rw [parse_accepts hdata hbs hstops] at h
      obtain ⟨hq,hresult⟩ := Prod.mk.inj h
      exact .inl ⟨hstops,hq.symm,hresult.symm⟩
    · rw [parse_refuses hdata hbs hbroken] at h
      obtain ⟨hq,hresult⟩ := Prod.mk.inj h
      exact .inr ⟨hbroken,hq.symm,hresult.symm⟩
  · rintro ⟨bs,rest,hdata,hbs,⟨hstops,rfl,rfl⟩ | ⟨hbroken,rfl,rfl⟩⟩
    · exact parse_accepts hdata hbs hstops
    · exact parse_refuses hdata hbs hbroken

end Parse

/-- The boxes of the initialization segment. -/
def isInit (b : RawBox) : Bool := b.kind == tagFtyp || b.kind == tagMoov

/-- The `moof` boxes with the `mdat` right after them. -/
def pairs : List RawBox → List (RawBox × RawBox)
  | a::b::rest =>
    if a.kind = tagMoof ∧ b.kind = tagMdat then (a,b)::pairs rest else pairs (b::rest)
  | _ => []

/-- The segments of the pairs, from a place on. -/
def pairSegments : Nat → List (RawBox × RawBox) → List MseSegment
  | _,[] => []
  | i,(moof,mdat)::rest =>
    let data := moof.encode++mdat.encode
    ⟨.media,data,some (i*1000),some 1000,isLikelyKeyframe data i,1⟩::pairSegments (i+1) rest

/-- The segments of a fragmented file. -/
def segmentsOf (bs : List RawBox) : List MseSegment :=
  FragmentWriter.initSegments (encodeAll (bs.filter isInit))++pairSegments 0 (pairs bs)

section Segments

theorem boxType_eq_iff {kind : Bytes} {s : String} (hs : ∀ c ∈ s.toList, c.toNat < 0x80) :
    fromUtf8Lossy kind = s ↔ kind = asBytes s := by
  constructor
  · exact fromUtf8Lossy_ascii hs
  · rintro rfl
    exact fromUtf8Lossy_asBytes s

theorem boxType_moof (kind : Bytes) : fromUtf8Lossy kind = "moof" ↔ kind = tagMoof :=
  boxType_eq_iff (by simp)

theorem boxType_mdat (kind : Bytes) : fromUtf8Lossy kind = "mdat" ↔ kind = tagMdat :=
  boxType_eq_iff (by simp)

theorem boxType_ftyp (kind : Bytes) : fromUtf8Lossy kind = "ftyp" ↔ kind = tagFtyp :=
  boxType_eq_iff (by simp)

theorem boxType_moov (kind : Bytes) : fromUtf8Lossy kind = "moov" ↔ kind = tagMoov :=
  boxType_eq_iff (by simp)

variable {offset : Nat} {bs : List RawBox}

theorem any_placed (boxType : String) :
    (placed offset bs).any (fun b => b.boxType == boxType) = true ↔
      ∃ b ∈ bs, fromUtf8Lossy b.kind = boxType := by
  induction bs generalizing offset with
  | nil => simp [placed]
  | cons b bs ih =>
    rw [placed,List.any_cons,Bool.or_eq_true,ih,List.exists_mem_cons_iff]
    simp only [kept,beq_iff_eq]

theorem isInitBox_kept (b : RawBox) : FragmentWriter.isInitBox (kept offset b) = isInit b := by
  rw [Bool.eq_iff_iff]
  simp only [FragmentWriter.isInitBox,isInit,kept,Bool.or_eq_true,beq_iff_eq,boxType_ftyp,
    boxType_moov]

theorem isPair_kept {later : Nat} (a b : RawBox) :
    FragmentWriter.isPair (kept offset a) (kept later b) = true ↔
      a.kind = tagMoof ∧ b.kind = tagMdat := by
  simp only [FragmentWriter.isPair,kept,Bool.and_eq_true,beq_iff_eq,boxType_moof,boxType_mdat]

/-- A box whose type is text is written as it was read. -/
theorem serializeBox_kept {b : RawBox} {s : String} (h : b.kind = asBytes s) :
    FragmentWriter.serializeBox (kept offset b) = b.encode := by
  have hkind : asBytes (fromUtf8Lossy b.kind) = b.kind := by
    rw [h,fromUtf8Lossy_asBytes]
  simp only [FragmentWriter.serializeBox,kept,hkind,BoxContent.rawData,Option.getD_some,encode]

theorem initData_kept {b : RawBox} (hb : b.Fits) :
    FragmentWriter.initData (kept offset b) = if isInit b = true then b.encode else [] := by
  unfold FragmentWriter.initData
  dsimp only
  rw [isInitBox_kept]
  by_cases hinit : isInit b = true
  · have htext : ∃ s, b.kind = asBytes s := by
      rcases Bool.or_eq_true_iff.mp hinit with h | h
      · exact ⟨"ftyp",beq_iff_eq.mp h⟩
      · exact ⟨"moov",beq_iff_eq.mp h⟩
    obtain ⟨s,hs⟩ := htext
    have hlength := hb.length_encode
    have hsize := hb.read_size []
    rw [List.append_nil] at hsize
    have h8 := b.eight_le_size
    rw [serializeBox_kept hs,hsize,hlength,if_pos ⟨hinit,h8,rfl⟩,if_pos hinit]
  · rw [if_neg (fun h => hinit h.1),if_neg hinit]

theorem flatMap_initData (h : ∀ b ∈ bs, b.Fits) :
    (placed offset bs).flatMap FragmentWriter.initData = encodeAll (bs.filter isInit) := by
  induction bs generalizing offset with
  | nil => rfl
  | cons b bs ih =>
    obtain ⟨hb,hbs⟩ := List.forall_mem_cons.mp h
    rw [placed,List.flatMap_cons,initData_kept hb,ih hbs,List.filter_cons]
    split_ifs with hinit
    · rw [encodeAll_cons]
    · rfl

theorem hasInit_placed (h : ∀ b ∈ bs, b.Fits) :
    FragmentWriter.HasInit (placed offset bs) ↔ ∃ b ∈ bs, isInit b = true := by
  have hnil : encodeAll (bs.filter isInit) ≠ [] ↔ ∃ b ∈ bs, isInit b = true := by
    constructor
    · intro hne
      have hfilter : bs.filter isInit ≠ [] := by
        intro hnil
        rw [hnil] at hne
        exact hne rfl
      obtain ⟨b,hb⟩ := List.exists_mem_of_ne_nil _ hfilter
      exact ⟨b,List.mem_filter.mp hb⟩
    · rintro ⟨b,hb,hinit⟩ hempty
      have hencode := List.flatMap_eq_nil_iff.mp hempty b (List.mem_filter.mpr ⟨hb,hinit⟩)
      have hlength := (h b hb).length_encode
      have h8 := b.eight_le_size
      rw [hencode,List.length_nil] at hlength
      omega
  rw [← FragmentWriter.initSegments_ne_nil,flatMap_initData h,← hnil]
  unfold FragmentWriter.initSegments
  cases encodeAll (bs.filter isInit) <;> simp

theorem nil_or_singleton (h : ∀ a b rest, bs = a::b::rest → False) : bs = [] ∨ ∃ b, bs = [b] := by
  rcases bs with _|⟨a,_|⟨b,rest⟩⟩
  · exact .inl rfl
  · exact .inr ⟨a,rfl⟩
  · exact absurd rfl (h a b rest)

theorem pairCount_placed : FragmentWriter.pairCount (placed offset bs) = (pairs bs).length := by
  fun_induction pairs bs generalizing offset with
  | case1 a b rest hpair ih =>
    rw [placed,placed,FragmentWriter.pairCount,if_pos ((isPair_kept a b).mpr hpair),ih,
      List.length_cons]
  | case2 a b rest hpair ih =>
    rw [placed,placed,FragmentWriter.pairCount,if_neg (fun h => hpair ((isPair_kept a b).mp h))]
    exact ih
  | case3 bs hbs =>
    obtain rfl|⟨b,rfl⟩ := nil_or_singleton hbs <;> rfl

theorem mediaSegment_eq {count : Nat} {moof mdat : BoxInfo} {segment : MseSegment}
    (h : FragmentWriter.mediaSegment count moof mdat = .ok segment) :
    let data := FragmentWriter.serializeBox moof++FragmentWriter.serializeBox mdat
    0 < count ∧ segment = ⟨.media,data,some ((count-1)*1000),some 1000,
      isLikelyKeyframe data (count-1),1⟩ := by
  intro data
  unfold FragmentWriter.mediaSegment at h
  by_cases hcount : count = 0
  · rw [if_pos hcount] at h
    cases h
  rw [if_neg hcount] at h
  obtain ⟨index,hindex,h⟩ := bind_eq_ok.mp h
  cases hindex
  dsimp only at h
  refine ⟨by omega,?_⟩
  split_ifs at h with hfirst
  · obtain ⟨timestamp,htimestamp,h⟩ := bind_eq_ok.mp h
    unfold checkedU64 at htimestamp
    split_ifs at htimestamp
    cases htimestamp
    exact (Except.ok.inj h).symm
  · have hzero : count-1 = 0 := by omega
    rw [hzero] at h ⊢
    exact (Except.ok.inj h).symm

theorem pairLoop_placed {segments all : List MseSegment}
    (h : FragmentWriter.pairLoop segments (placed offset bs) = .ok all) :
    all = segments++pairSegments (segments.length-1) (pairs bs) := by
  fun_induction pairs bs generalizing offset segments with
  | case1 a b rest hpair ih =>
    obtain ⟨hmoof,hmdat⟩ := hpair
    rw [placed,placed,FragmentWriter.pairLoop,
      if_pos ((isPair_kept a b).mpr ⟨hmoof,hmdat⟩)] at h
    obtain ⟨segment,hsegment,hrest⟩ := bind_eq_ok.mp h
    obtain ⟨hcount,rfl⟩ := mediaSegment_eq hsegment
    rw [serializeBox_kept (s := "moof") hmoof,serializeBox_kept (s := "mdat") hmdat] at hrest
    have hnext : segments.length+1-1 = segments.length-1+1 := by omega
    rw [ih hrest,pairSegments,List.length_append,List.length_singleton,hnext,List.append_assoc]
    rfl
  | case2 a b rest hpair ih =>
    rw [placed,placed,FragmentWriter.pairLoop,
      if_neg (fun h => hpair ((isPair_kept a b).mp h))] at h
    exact ih h
  | case3 bs hbs =>
    rw [pairSegments,List.append_nil]
    obtain rfl|⟨b,rfl⟩ := nil_or_singleton hbs <;> exact (Except.ok.inj h).symm

theorem extractFragmentedSegments_iff (hbs : ∀ b ∈ bs, b.Fits) (segments : List MseSegment) :
    FragmentWriter.extractFragmentedSegments (placed offset bs) = .ok segments ↔
      (pairs bs = [] ∨
        (∃ b ∈ bs, isInit b = true) ∧ 1000*((pairs bs).length-1) < 2^64) ∧
      segments = segmentsOf bs := by
  have hok := @FragmentWriter.extractFragmentedSegments_ok (placed offset bs)
  rw [pairCount_placed,hasInit_placed hbs,List.length_eq_zero_iff] at hok
  have hvalue : ∀ all, FragmentWriter.extractFragmentedSegments (placed offset bs) = .ok all →
      all = segmentsOf bs := by
    intro all hall
    have hloop := pairLoop_placed hall
    have hfirst : ∀ data, (FragmentWriter.initSegments data).length-1 = 0 := by
      intro data
      unfold FragmentWriter.initSegments
      split_ifs <;> rfl
    rw [hfirst,flatMap_initData hbs] at hloop
    exact hloop
  constructor
  · intro h
    exact ⟨hok.mp ⟨segments,h⟩,hvalue segments h⟩
  · rintro ⟨hcondition,rfl⟩
    obtain ⟨all,hall⟩ := hok.mpr hcondition
    rw [← hvalue all hall]
    exact hall

theorem generateMseSegments_accepted (w : FragmentWriter) {data : Bytes}
    (hbs : ∀ b ∈ bs, b.Fits) (segments : List MseSegment) :
    w.generateMseSegments (new.accepted bs data).boxes true = .ok segments ↔
      (pairs bs = [] ∨
        (∃ b ∈ bs, isInit b = true) ∧ 1000*((pairs bs).length-1) < 2^64) ∧
      segments = segmentsOf bs := by
  rw [FragmentWriter.generateMseSegments,if_pos rfl]
  exact extractFragmentedSegments_iff hbs segments

/-- Of a fragmented file that the parser reads, the writer makes the segments of its boxes, byte for
byte as they are in the file, if there is a box to begin with or no pair at all. -/
theorem parsed_segments_iff (w : FragmentWriter) {data : Bytes} {p : FragmentParser}
    (hparse : new.parse data = (p,.ok ())) (hfragmented : p.isFragmented = true)
    (segments : List MseSegment) :
    w.generateMseSegments p.boxes p.isFragmented = .ok segments ↔
      ∃ bs rest, data = encodeAll bs++rest ∧ (∀ b ∈ bs, b.Fits) ∧ Stops rest ∧
        (pairs bs = [] ∨
          (∃ b ∈ bs, isInit b = true) ∧ 1000*((pairs bs).length-1) < 2^64) ∧
        segments = segmentsOf bs := by
  rw [hfragmented]
  constructor
  · intro h
    obtain ⟨bs,rest,hdata,hbs,hstops,rfl⟩ := parse_ok hparse
    obtain ⟨hcondition,hsegments⟩ := (generateMseSegments_accepted w hbs segments).mp h
    exact ⟨bs,rest,hdata,hbs,hstops,hcondition,hsegments⟩
  · rintro ⟨bs,rest,hdata,hbs,hstops,hcondition,hsegments⟩
    rw [parse_accepts hdata hbs hstops] at hparse
    rw [← (Prod.mk.inj hparse).1]
    exact (generateMseSegments_accepted w hbs segments).mpr ⟨hcondition,hsegments⟩

/-- The segments of an `ftyp`, a `moof` and an `mdat`, the last cut off after these. -/
theorem parsed_segments_iff_pair :
    let bs : List RawBox := [⟨tagFtyp,[]⟩,⟨tagMoof,[]⟩,⟨tagMdat,[7]⟩]
    FragmentWriter.new.generateMseSegments (new.parse (encodeAll bs++[0,0])).1.boxes
      (new.parse (encodeAll bs++[0,0])).1.isFragmented = .ok (segmentsOf bs) := by
  intro bs
  have hbs : ∀ b ∈ bs, b.Fits := by
    intro b hb
    rcases List.mem_cons.mp hb with rfl | hb
    · exact ⟨rfl,by decide⟩
    rcases List.mem_pair.mp hb with rfl | rfl
    · exact ⟨rfl,by decide⟩
    · exact ⟨rfl,by decide⟩
  have hrest : Stops [0,0] := .inl (by decide)
  have hparse := parse_accepts (p := new) rfl hbs hrest
  rw [hparse]
  exact (parsed_segments_iff .new hparse (by decide) _).mpr
    ⟨bs,_,rfl,hbs,hrest,.inr ⟨⟨⟨tagFtyp,[]⟩,by decide,by decide⟩,by decide⟩,rfl⟩

theorem pairs_cons {b : RawBox} (h : b.kind ≠ tagMoof) (bs : List RawBox) :
    pairs (b::bs) = pairs bs := by
  cases bs with
  | nil => rfl
  | cons a bs => rw [pairs,if_neg (fun hpair => h hpair.1)]

theorem isInit_eq_false {b : RawBox} (h : b.kind = tagMoof ∨ b.kind = tagMdat) :
    isInit b = false := by
  rcases h with h | h <;> rw [isInit,h] <;> decide

/-- A file of boxes that come first and of pairs after them. -/
def fileOf (inits : List RawBox) (ps : List (RawBox × RawBox)) : List RawBox :=
  inits++ps.flatMap (fun x => [x.1,x.2])

variable {inits : List RawBox} {ps : List (RawBox × RawBox)}

theorem pairs_fileOf (hinits : ∀ b ∈ inits, isInit b = true)
    (hps : ∀ x ∈ ps, x.1.kind = tagMoof ∧ x.2.kind = tagMdat) :
    pairs (fileOf inits ps) = ps := by
  unfold fileOf
  induction inits with
  | nil =>
    induction ps with
    | nil => rfl
    | cons x ps ih =>
      obtain ⟨hx,hps⟩ := List.forall_mem_cons.mp hps
      have hrest := ih hps
      rw [List.nil_append] at hrest ⊢
      rw [List.flatMap_cons,List.cons_append,List.cons_append,List.nil_append,pairs,if_pos hx,hrest]
  | cons b inits ih =>
    obtain ⟨hb,hinits⟩ := List.forall_mem_cons.mp hinits
    have hkind : b.kind ≠ tagMoof := by
      intro hmoof
      rw [isInit_eq_false (.inl hmoof)] at hb
      cases hb
    rw [List.cons_append,pairs_cons hkind,ih hinits]

theorem filter_fileOf (hinits : ∀ b ∈ inits, isInit b = true)
    (hps : ∀ x ∈ ps, x.1.kind = tagMoof ∧ x.2.kind = tagMdat) :
    (fileOf inits ps).filter isInit = inits := by
  have hrest : (ps.flatMap (fun x => [x.1,x.2])).filter isInit = [] := by
    apply List.filter_eq_nil_iff.mpr
    intro b hb
    obtain ⟨x,hx,hbx⟩ := List.mem_flatMap.mp hb
    obtain ⟨hmoof,hmdat⟩ := hps x hx
    rcases List.mem_pair.mp hbx with rfl | rfl
    · rw [isInit_eq_false (.inl hmoof)]
      exact Bool.false_ne_true
    · rw [isInit_eq_false (.inr hmdat)]
      exact Bool.false_ne_true
  rw [fileOf,List.filter_append,List.filter_eq_self.mpr hinits,hrest,List.append_nil]

theorem data_pairSegments (i : Nat) (ps : List (RawBox × RawBox)) :
    (pairSegments i ps).flatMap MseSegment.data =
      encodeAll (ps.flatMap (fun x => [x.1,x.2])) := by
  induction ps generalizing i with
  | nil => rfl
  | cons x ps ih =>
    rw [pairSegments,List.flatMap_cons,ih,List.flatMap_cons,encodeAll_append]
    simp only [encodeAll_cons,encodeAll_nil,List.append_nil]

theorem data_initSegments (data : Bytes) :
    (FragmentWriter.initSegments data).flatMap MseSegment.data = data := by
  unfold FragmentWriter.initSegments
  split_ifs with hempty
  · exact (List.isEmpty_iff.mp hempty).symm
  · rw [List.flatMap_cons,List.flatMap_nil,List.append_nil]

theorem data_segmentsOf (bs : List RawBox) :
    (segmentsOf bs).flatMap MseSegment.data =
      encodeAll (fileOf (bs.filter isInit) (pairs bs)) := by
  rw [segmentsOf,List.flatMap_append,data_initSegments,data_pairSegments,← encodeAll_append]
  rfl

theorem mem_pairs {x : RawBox × RawBox} (h : x ∈ pairs bs) :
    (x.1.kind = tagMoof ∧ x.2.kind = tagMdat) ∧ x.1 ∈ bs ∧ x.2 ∈ bs := by
  fun_induction pairs bs with
  | case1 a b rest hpair ih =>
    rcases List.mem_cons.mp h with rfl | h
    · exact ⟨hpair,List.mem_cons_self,List.mem_cons_of_mem _ List.mem_cons_self⟩
    · obtain ⟨hkinds,hmoof,hmdat⟩ := ih h
      exact ⟨hkinds,List.mem_cons_of_mem _ (List.mem_cons_of_mem _ hmoof),
        List.mem_cons_of_mem _ (List.mem_cons_of_mem _ hmdat)⟩
  | case2 a b rest hpair ih =>
    obtain ⟨hkinds,hmoof,hmdat⟩ := ih h
    exact ⟨hkinds,List.mem_cons_of_mem _ hmoof,List.mem_cons_of_mem _ hmdat⟩
  | case3 bs hbs => cases h

theorem fits_fileOf (hbs : ∀ b ∈ bs, b.Fits) :
    ∀ b ∈ fileOf (bs.filter isInit) (pairs bs), b.Fits := by
  intro b hb
  rcases List.mem_append.mp hb with hinit | hpair
  · exact hbs b (List.mem_filter.mp hinit).1
  · obtain ⟨x,hx,hbx⟩ := List.mem_flatMap.mp hpair
    obtain ⟨_,hmoof,hmdat⟩ := mem_pairs hx
    rcases List.mem_pair.mp hbx with rfl | rfl
    · exact hbs _ hmoof
    · exact hbs _ hmdat

theorem accepted_isFragmented {data : Bytes} :
    (new.accepted bs data).isFragmented = true ↔
      (∃ b ∈ bs, fromUtf8Lossy b.kind = "moof") ∨ ∃ b ∈ bs, fromUtf8Lossy b.kind = "mvex" := by
  rw [← @any_placed 0,← @any_placed 0,← Bool.or_eq_true]
  rfl

/-- Without further boxes a file is not taken as fragmented. -/
theorem accepted_inits {data : Bytes} (hinits : ∀ b ∈ bs, isInit b = true) :
    (new.accepted bs data).isFragmented ≠ true := by
  have hkind : ∀ b ∈ bs, fromUtf8Lossy b.kind = "ftyp" ∨ fromUtf8Lossy b.kind = "moov" := by
    intro b hb
    rw [boxType_ftyp,boxType_moov]
    exact (Bool.or_eq_true_iff.mp (hinits b hb)).imp beq_iff_eq.mp beq_iff_eq.mp
  rw [Ne,accepted_isFragmented]
  rintro (⟨b,hb,htype⟩ | ⟨b,hb,htype⟩) <;> rcases hkind b hb with h | h <;>
    simp [htype] at h

theorem isFragmented_fileOf {data : Bytes} (hsome : ps ≠ [])
    (hps : ∀ x ∈ ps, x.1.kind = tagMoof ∧ x.2.kind = tagMdat) :
    (new.accepted (fileOf inits ps) data).isFragmented = true := by
  obtain ⟨x,hx⟩ := List.exists_mem_of_ne_nil ps hsome
  have hmem : x.1 ∈ fileOf inits ps :=
    List.mem_append_right _ (List.mem_flatMap.mpr ⟨x,hx,List.mem_cons_self⟩)
  have htype := (boxType_moof x.1.kind).mpr (hps x hx).1
  exact accepted_isFragmented.mpr (.inl ⟨x.1,hmem,htype⟩)

/-- A file that is read as fragmented and has no more than the boxes that come first and the pairs
has a pair: without one it would be read otherwise. -/
theorem ne_nil_of_isFragmented {data : Bytes} {p : FragmentParser}
    (hfile : data = encodeAll (fileOf inits ps)) (hfits : ∀ b ∈ fileOf inits ps, b.Fits)
    (hinits : ∀ b ∈ inits, isInit b = true) (hparse : new.parse data = (p,.ok ()))
    (hfragmented : p.isFragmented = true) : ps ≠ [] := by
  rintro rfl
  have hagain : data = encodeAll (fileOf inits [])++[] := by rw [hfile,List.append_nil]
  have haccepted := parse_accepts (p := new) hagain hfits (.inl (by decide))
  rw [hparse] at haccepted
  rw [(Prod.mk.inj haccepted).1] at hfragmented
  refine accepted_inits ?_ hfragmented
  rwa [fileOf,List.flatMap_nil,List.append_nil]

/-- The segments of a file, one after the other, are the file again exactly if its boxes stand in
the order that a player wants them and it has no others. -/
theorem rejoined_iff (w : FragmentWriter) (data : Bytes) :
    (∃ p segments, new.parse data = (p,.ok ()) ∧ p.isFragmented = true ∧
        w.generateMseSegments p.boxes p.isFragmented = .ok segments ∧
        segments.flatMap MseSegment.data = data) ↔
      ∃ inits ps, data = encodeAll (fileOf inits ps) ∧ (∀ b ∈ fileOf inits ps, b.Fits) ∧
        inits ≠ [] ∧ (∀ b ∈ inits, isInit b = true) ∧
        ps ≠ [] ∧ (∀ x ∈ ps, x.1.kind = tagMoof ∧ x.2.kind = tagMdat) ∧
        1000*(ps.length-1) < 2^64 := by
  constructor
  · rintro ⟨p,segments,hparse,hfragmented,hsegments,hdata⟩
    rw [hfragmented] at hsegments
    obtain ⟨bs,rest,_,hbs,_,rfl⟩ := parse_ok hparse
    obtain ⟨hcondition,rfl⟩ := (generateMseSegments_accepted w hbs segments).mp hsegments
    have hfile := (data_segmentsOf bs).symm.trans hdata
    have hfits := fits_fileOf hbs
    have hinits : ∀ b ∈ bs.filter isInit, isInit b = true := fun b hb => (List.mem_filter.mp hb).2
    have hsome : pairs bs ≠ [] :=
      ne_nil_of_isFragmented hfile.symm hfits hinits hparse hfragmented
    obtain ⟨⟨b,hb,hinit⟩,htimes⟩ := hcondition.resolve_left hsome
    refine ⟨_,_,hfile.symm,hfits,?_,hinits,hsome,fun x hx => (mem_pairs hx).1,htimes⟩
    exact List.ne_nil_of_mem (List.mem_filter.mpr ⟨hb,hinit⟩)
  · rintro ⟨inits,ps,hdata,hfits,hfirst,hinits,hsome,hps,htimes⟩
    have hrest : data = encodeAll (fileOf inits ps)++[] := by rw [hdata,List.append_nil]
    have hparse := parse_accepts (p := new) hrest hfits (.inl (by decide))
    obtain ⟨b,hb⟩ := List.exists_mem_of_ne_nil inits hfirst
    have hfragmented := @isFragmented_fileOf inits ps data hsome hps
    refine ⟨_,segmentsOf (fileOf inits ps),hparse,hfragmented,?_,?_⟩
    · rw [hfragmented]
      refine (generateMseSegments_accepted w hfits _).mpr ⟨.inr ⟨?_,?_⟩,rfl⟩
      · exact ⟨b,List.mem_append_left _ hb,hinits b hb⟩
      · rwa [pairs_fileOf hinits hps]
    · rw [data_segmentsOf,pairs_fileOf hinits hps,filter_fileOf hinits hps,hdata]

end Segments

end FragmentParser

end OpenBroadcast.Media
