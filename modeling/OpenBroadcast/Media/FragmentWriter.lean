import OpenBroadcast.Media.BoxRoundTrip

namespace OpenBroadcast.Media

open RawBox

def BoxContent.rawData : BoxContent → Option Bytes
  | .raw data => some data
  | _ => none

structure BoxInfo extends TextBox where
  offset : Nat
  deriving DecidableEq, Repr

structure FragmentWriter where
  sequenceNumber : UInt32
  deriving DecidableEq, Repr

namespace FragmentWriter

def new : FragmentWriter := ⟨1⟩

/-- The header is written as it is, and after it a raw content. -/
def serializeBox (b : BoxInfo) : Bytes :=
  toBe 4 b.size++asBytes b.boxType++b.content.rawData.getD []

def isInitBox (b : BoxInfo) : Bool := b.boxType == "ftyp" || b.boxType == "moov"

def initSegments (initData : Bytes) : List MseSegment :=
  if initData.isEmpty then [] else [⟨.initialization,initData,none,none,true,0⟩]

section Fragmented

def isPair (a b : BoxInfo) : Bool := a.boxType == "moof" && b.boxType == "mdat"

/-- What a box adds to the initialization segment. -/
def initData (b : BoxInfo) : Bytes :=
  let data := serializeBox b
  if isInitBox b ∧ 8 ≤ data.length ∧ beNat (data.take 4) = data.length then data else []

/-- The segment of a `moof` and an `mdat`; so many segments are there already. -/
def mediaSegment (count : Nat) (moof mdat : BoxInfo) : Except Mp4Error MseSegment := do
  let mediaData := serializeBox moof++serializeBox mdat
  -- One is subtracted for the initialization segment.
  let segmentIndex ← if count = 0 then .error .panic else .ok (count-1)
  let timestamp ← if 0 < segmentIndex then checkedU64 (segmentIndex*1000) else .ok 0
  return ⟨.media,mediaData,some timestamp,some 1000,isLikelyKeyframe mediaData segmentIndex,1⟩

def pairLoop (segments : List MseSegment) : List BoxInfo → Except Mp4Error (List MseSegment)
  | a::b::rest =>
    if isPair a b then do
      let segment ← mediaSegment segments.length a b
      pairLoop (segments++[segment]) rest
    else pairLoop segments (b::rest)
  | _ => .ok segments

def extractFragmentedSegments (boxes : List BoxInfo) : Except Mp4Error (List MseSegment) :=
  pairLoop (initSegments (boxes.flatMap initData)) boxes

end Fragmented

section Regular

variable (w : FragmentWriter)

/-- The size of the data makes no difference. -/
def createMinimalTraf (_dataSize : Nat) : Except Mp4Error Bytes := do
  let tfhd ← wrapBox tagTfhd [0,0,0,0,0,0,0,1]
  let dataOffset := 8+tfhd.length+16
  let trun ← wrapBox tagTrun ([0,0,0,1,0,0,0,1]++toBe 4 dataOffset)
  wrapBox tagTraf (tfhd++trun)

def createMinimalMoof (dataSize : Nat) : Except Mp4Error Bytes := do
  let mfhd ← wrapBox tagMfhd ([0,0,0,0]++toBe 4 w.sequenceNumber.toNat)
  let traf ← createMinimalTraf dataSize
  wrapBox tagMoof (mfhd++traf)

def createSimpleMediaSegmentWithTiming (mdatContent : Bytes) (timestamp : Option Nat)
    (isKeyframe : Bool) : Except Mp4Error MseSegment := do
  let moof ← w.createMinimalMoof (mdatContent.length%2^32)
  let mdat ← wrapBox tagMdat mdatContent
  return ⟨.media,moof++mdat,timestamp,some 1000,isKeyframe,1⟩

/-- The loop over the chunks, from the given index on. -/
def chunkSegments : Nat → List Bytes → Except Mp4Error (List MseSegment)
  | _,[] => .ok []
  | chunkIndex,chunk::chunks => do
    let timestamp ← checkedU64 (chunkIndex*1000)
    let isKeyframe := chunkIndex == 0 || isLikelyKeyframe chunk chunkIndex
    let segment ← w.createSimpleMediaSegmentWithTiming chunk (some timestamp) isKeyframe
    let segments ← chunkSegments (chunkIndex+1) chunks
    return segment::segments

def chunkSize : Nat := 64*1024

/-- The content of each `mdat` replaces that of the one before. -/
def mdatData (boxes : List BoxInfo) : Bytes :=
  boxes.foldl (fun data b =>
    if b.boxType = "mdat" then b.content.rawData.getD data else data) []

/-- The segments of the chunks, if there are any. -/
def mediaSegments (mdatData : Bytes) : Except Mp4Error (List MseSegment) :=
  if mdatData.isEmpty then .ok [] else w.chunkSegments 0 (mdatData.toChunks chunkSize)

def createFragmentsFromRegularMp4 (boxes : List BoxInfo) :
    Except Mp4Error (List MseSegment) := do
  let initData := (boxes.filter isInitBox).flatMap serializeBox
  let media ← w.mediaSegments (mdatData boxes)
  return initSegments initData++media

end Regular

def generateMseSegments (w : FragmentWriter) (boxes : List BoxInfo) (isFragmented : Bool) :
    Except Mp4Error (List MseSegment) :=
  if isFragmented then extractFragmentedSegments boxes else w.createFragmentsFromRegularMp4 boxes

/-- What a player finds in a media segment. -/
structure SegmentView where
  fragment : Fragment
  sequenceNumber : Nat
  dataOffset : Int
  deriving DecidableEq, Repr

def readSequenceNumber (moof : Bytes) : Option Nat := do
  let bs ← readBoxes moof
  let mfhd ← bs.find? isMfhd
  return beNat ((mfhd.body.drop 4).take 4)

/-- The segment has one track with one run. -/
def readSegment (data : Bytes) : Option SegmentView := do
  let fragment ← readFragment data
  let sequenceNumber ← readSequenceNumber fragment.moof
  match ← readMoof fragment.moof with
  | [⟨_,_,[run]⟩] => do
    let dataOffset ← run.dataOffset
    return ⟨fragment,sequenceNumber,dataOffset⟩
  | _ => none

section Segments

variable (w : FragmentWriter)

def mfhd : RawBox := ⟨tagMfhd,[0,0,0,0]++toBe 4 w.sequenceNumber.toNat⟩

def tfhd : RawBox := ⟨tagTfhd,[0,0,0,0,0,0,0,1]⟩

def trun : RawBox := ⟨tagTrun,[0,0,0,1,0,0,0,1,0,0,0,40]⟩

def traf : RawBox := ⟨tagTraf,encodeAll [tfhd,trun]⟩

def moof : RawBox := ⟨tagMoof,encodeAll [w.mfhd,traf]⟩

theorem createMinimalTraf_eq (dataSize : Nat) : createMinimalTraf dataSize = .ok traf.encode := by
  rfl

theorem mfhd_fits : w.mfhd.Fits := by
  constructor
  · rfl
  · simp [RawBox.size,mfhd]

theorem traf_fits : traf.Fits := by
  constructor
  · rfl
  · decide

theorem length_moof : w.moof.body.length = 60 := by
  have hmfhd := w.mfhd_fits.length_encode
  have htraf := traf_fits.length_encode
  simp [moof,htraf,RawBox.size,mfhd]
  rfl

theorem createMinimalMoof_eq (dataSize : Nat) :
    w.createMinimalMoof dataSize = .ok w.moof.encode := by
  have hmfhd : wrapBox tagMfhd ([0,0,0,0]++toBe 4 w.sequenceNumber.toNat) =
      .ok w.mfhd.encode := wrapBox_ok tagMfhd w.mfhd_fits.size
  have hlength := w.length_moof
  have hmoof : wrapBox tagMoof (w.mfhd.encode++traf.encode) = .ok w.moof.encode := by
    have hbody : w.mfhd.encode++traf.encode = w.moof.body := by
      simp [moof]
    rw [hbody,wrapBox_ok tagMoof (by omega)]
    rfl
  unfold createMinimalMoof
  rw [hmfhd,createMinimalTraf_eq]
  exact hmoof

/-- What is found in the segment of a chunk. -/
def view (chunk : Bytes) : SegmentView :=
  ⟨⟨0,w.moof.body,76,chunk⟩,w.sequenceNumber.toNat,40⟩

theorem readBoxes_moof : readBoxes w.moof.body = some [w.mfhd,traf] := by
  apply readBoxes_encodeAll
  intro b hb
  rcases List.mem_pair.mp hb with rfl | rfl
  · exact w.mfhd_fits
  · exact traf_fits

theorem readSequenceNumber_moof :
    readSequenceNumber w.moof.body = some w.sequenceNumber.toNat := by
  have hfind : [w.mfhd,traf].find? isMfhd = some w.mfhd := rfl
  have hnumber : (w.mfhd.body.drop 4).take 4 = toBe 4 w.sequenceNumber.toNat := by
    have hbody : w.mfhd.body.drop 4 = toBe 4 w.sequenceNumber.toNat := rfl
    rw [hbody,List.take_of_length_le (by simp)]
  have hlt := w.sequenceNumber.toNat_lt
  simp only [readSequenceNumber,w.readBoxes_moof,Option.bind_eq_bind,Option.bind_some,hfind,hnumber,
    beNat_toBe]
  rw [Nat.mod_eq_of_lt (by omega)]
  rfl

theorem readTraf_traf : readTraf traf.body = some ⟨⟨0,1,none⟩,none,[⟨some 40,[none]⟩]⟩ := by
  decide

theorem readMoof_moof :
    readMoof w.moof.body = some [⟨⟨0,1,none⟩,none,[⟨some 40,[none]⟩]⟩] := by
  have hplaced : ¬ [w.mfhd,traf].any (fun b => isTfhd b || (isMfhd b && !mfhdOk b)) = true := by
    simp [isTfhd,isMfhd,mfhdOk,mfhd,traf,tagMfhd,tagTraf,tagTfhd]
  have htrafs : [w.mfhd,traf].filter isTraf = [traf] := rfl
  simp only [readMoof,w.readBoxes_moof,Option.bind_eq_bind,Option.bind_some]
  rw [if_neg hplaced,htrafs,List.mapM_cons,readTraf_traf]
  rfl

theorem readSegment_eq {chunk : Bytes} (hchunk : 8+chunk.length < 2^32) :
    readSegment (w.moof.encode++(RawBox.mk tagMdat chunk).encode) = some (w.view chunk) := by
  have hlength := w.length_moof
  have hsmall : 8+w.moof.body.length < 2^32 := by omega
  have hfragment : readFragment (w.moof.encode++(RawBox.mk tagMdat chunk).encode) =
      some ⟨0,w.moof.body,16+w.moof.body.length,chunk⟩ :=
    readFragment_encode hsmall hchunk
  simp only [readSegment,hfragment,Option.bind_eq_bind,Option.bind_some,w.readSequenceNumber_moof,
    w.readMoof_moof,hlength]
  rfl

def isMedia (s : MseSegment) : Bool := s.segmentType == .media

theorem createSimpleMediaSegmentWithTiming_eq {chunk : Bytes} (hchunk : 8+chunk.length < 2^32)
    (timestamp : Option Nat) (isKeyframe : Bool) :
    w.createSimpleMediaSegmentWithTiming chunk timestamp isKeyframe =
      .ok ⟨.media,w.moof.encode++(RawBox.mk tagMdat chunk).encode,timestamp,some 1000,isKeyframe,
        1⟩ := by
  unfold createSimpleMediaSegmentWithTiming
  rw [createMinimalMoof_eq,wrapBox_ok tagMdat hchunk]
  rfl

/-- Every chunk gets its segment, in order. -/
theorem readSegment_chunks {chunkIndex : Nat} {chunks : List Bytes} {segments : List MseSegment}
    (hchunks : ∀ chunk ∈ chunks, 8+chunk.length < 2^32)
    (h : w.chunkSegments chunkIndex chunks = .ok segments) :
    (∀ s ∈ segments, isMedia s) ∧
      segments.mapM (fun s => readSegment s.data) = some (chunks.map w.view) := by
  induction chunks generalizing chunkIndex segments with
  | nil =>
    cases h
    exact ⟨by simp,rfl⟩
  | cons chunk chunks ih =>
    have hchunk := hchunks chunk (by simp)
    rw [chunkSegments,bind_eq_ok] at h
    obtain ⟨timestamp,_,h⟩ := h
    dsimp only at h
    rw [createSimpleMediaSegmentWithTiming_eq w hchunk] at h
    obtain ⟨segment,hsegment,h⟩ := bind_eq_ok.mp h
    obtain ⟨tail,htail,h⟩ := bind_eq_ok.mp h
    cases hsegment
    cases h
    obtain ⟨hmedia,hread⟩ := ih (fun c hc => hchunks c (by simp [hc])) htail
    constructor
    · intro s hs
      rcases List.mem_cons.mp hs with rfl | hs
      · rfl
      · exact hmedia s hs
    · rw [List.mapM_cons,readSegment_eq w hchunk,hread]
      rfl

variable {w} {boxes : List BoxInfo} {segments : List MseSegment}

/-- The content of the last `mdat`. -/
def lastMdat (boxes : List BoxInfo) : Bytes :=
  ((boxes.filter (fun b => b.boxType == "mdat")).filterMap
    (fun b => b.content.rawData)).getLast?.getD []

theorem mdatData_eq (boxes : List BoxInfo) : mdatData boxes = lastMdat boxes := by
  induction boxes using List.reverseRecOn with
  | nil => rfl
  | append_singleton boxes b ih =>
    unfold mdatData lastMdat at ih ⊢
    rw [List.foldl_append,ih,List.filter_append,List.filterMap_append]
    by_cases hmdat : b.boxType = "mdat"
    · cases hraw : b.content.rawData with
      | none => simp [hmdat,hraw]
      | some data => simp [hmdat,hraw]
    · simp [hmdat]

theorem filter_initSegments (initData : Bytes) : (initSegments initData).filter isMedia = [] := by
  unfold initSegments
  split_ifs <;> rfl

/-- The segments that are made of a regular file have the content of the `mdat` in pieces. -/
theorem readSegment_regular (h : w.createFragmentsFromRegularMp4 boxes = .ok segments) :
    (segments.filter isMedia).mapM (fun s => readSegment s.data) =
      some (((lastMdat boxes).toChunks chunkSize).map w.view) := by
  have hpos : 0 < chunkSize := by decide
  have hchunks : ∀ chunk ∈ (lastMdat boxes).toChunks chunkSize, 8+chunk.length < 2^32 := by
    intro chunk hchunk
    have hle := length_le_of_mem_toChunks hpos hchunk
    have hsize : chunkSize = 65536 := rfl
    omega
  unfold createFragmentsFromRegularMp4 at h
  rw [mdatData_eq] at h
  obtain ⟨media,hmedia,h⟩ := bind_eq_ok.mp h
  cases h
  have hall : w.chunkSegments 0 ((lastMdat boxes).toChunks chunkSize) = .ok media := by
    unfold mediaSegments at hmedia
    split_ifs at hmedia with hempty
    · rw [List.isEmpty_iff.mp hempty,← hmedia]
      rfl
    · exact hmedia
  obtain ⟨hfilter,hread⟩ := readSegment_chunks w hchunks hall
  rw [List.filter_append,filter_initSegments,List.nil_append,List.filter_eq_self.mpr hfilter]
  exact hread

end Segments

/-- What a player needs of the segments that are made of the content of an `mdat`. -/
structure Playable (mdat : Bytes) (views : List SegmentView) : Prop where
  offsets : ∀ v ∈ views, v.fragment.moofStart+v.dataOffset = v.fragment.payloadStart
  payloads : views.flatMap (fun v => v.fragment.payload) = mdat
  numbers : (views.map SegmentView.sequenceNumber).Pairwise (· < ·)

/-- There is no panic, and the segments of a regular file can be played. -/
def Decodable (w : FragmentWriter) (boxes : List BoxInfo) (isFragmented : Bool) : Prop :=
  ∃ segments, w.generateMseSegments boxes isFragmented = .ok segments ∧
    (isFragmented = false → ∃ views,
      (segments.filter isMedia).mapM (fun s => readSegment s.data) = some views ∧
        Playable (lastMdat boxes) views)

/-- The number of `moof` boxes with an `mdat` right after them. -/
def pairCount : List BoxInfo → Nat
  | a::b::rest => if isPair a b then pairCount rest+1 else pairCount (b::rest)
  | _ => 0

/-- There is a box for the initialization segment whose header has its size. -/
def HasInit (boxes : List BoxInfo) : Prop :=
  ∃ b ∈ boxes, isInitBox b ∧ b.size%2^32 = 8+(b.content.rawData.getD []).length

/-- Where there are pairs there is an initialization segment; of a regular file, the `mdat` is
empty. -/
def Unharmed (boxes : List BoxInfo) (isFragmented : Bool) : Prop :=
  if isFragmented then
    pairCount boxes = 0 ∨ (HasInit boxes ∧ 1000*(pairCount boxes-1) < 2^64)
  else lastMdat boxes = []

section Panics

variable {w : FragmentWriter} {boxes : List BoxInfo} {segments : List MseSegment}

theorem mediaSegment_ok (count : Nat) (moof mdat : BoxInfo) :
    (∃ segment, mediaSegment count moof mdat = .ok segment) ↔
      count ≠ 0 ∧ 1000*(count-1) < 2^64 := by
  unfold mediaSegment
  by_cases hcount : count = 0
  · simp [hcount,bind,Except.bind]
  rw [if_neg hcount,Nat.mul_comm]
  by_cases hfirst : 0 < count-1
  · by_cases hsmall : (count-1)*1000 < 2^64
    · have htime : checkedU64 ((count-1)*1000) = .ok ((count-1)*1000) := if_pos hsmall
      simp only [bind,Except.bind,if_pos hfirst,htime]
      exact iff_of_true ⟨_,rfl⟩ ⟨hcount,hsmall⟩
    · have htime : checkedU64 ((count-1)*1000) = .error .panic := if_neg hsmall
      simp only [bind,Except.bind,if_pos hfirst,htime]
      exact iff_of_false (by simp) (fun h => hsmall h.2)
  · simp only [bind,Except.bind,if_neg hfirst]
    exact iff_of_true ⟨_,rfl⟩ ⟨hcount,by omega⟩

/-- The loop goes through if there is a segment before the first pair, as long as the times fit. -/
theorem pairLoop_ok : (∃ all, pairLoop segments boxes = .ok all) ↔
    pairCount boxes = 0 ∨
      (segments ≠ [] ∧ 1000*(segments.length-1+(pairCount boxes-1)) < 2^64) := by
  fun_induction pairCount boxes generalizing segments with
  | case1 a b rest hpair ih =>
    rw [pairLoop,if_pos hpair]
    constructor
    · intro h
      obtain ⟨all,hall⟩ := h
      obtain ⟨segment,hsegment,hrest⟩ := bind_eq_ok.mp hall
      obtain ⟨hcount,hsmall⟩ := (mediaSegment_ok _ a b).mp ⟨segment,hsegment⟩
      have hmore := ih.mp ⟨all,hrest⟩
      rw [List.length_append,List.length_singleton] at hmore
      refine Or.inr ⟨List.ne_nil_of_length_pos (Nat.pos_of_ne_zero hcount),?_⟩
      rcases hmore with hmore | hmore <;> omega
    · intro h
      obtain ⟨hne,hsmall⟩ := h.resolve_left (by omega)
      have hlength := List.length_pos_iff.mpr hne
      obtain ⟨segment,hsegment⟩ := (mediaSegment_ok segments.length a b).mpr ⟨hlength.ne',by omega⟩
      have hmore : pairCount rest = 0 ∨ (segments++[segment] ≠ [] ∧
          1000*((segments++[segment]).length-1+(pairCount rest-1)) < 2^64) := by
        rw [List.length_append,List.length_singleton]
        by_cases hrest : pairCount rest = 0
        · exact Or.inl hrest
        · exact Or.inr ⟨by simp,by omega⟩
      obtain ⟨all,hall⟩ := ih.mpr hmore
      exact ⟨all,bind_eq_ok.mpr ⟨segment,hsegment,hall⟩⟩
  | case2 a b rest hpair ih =>
    rw [pairLoop,if_neg hpair]
    exact ih
  | case3 boxes hboxes =>
    have hloop : pairLoop segments boxes = .ok segments := by
      match boxes,hboxes with
      | [],_ => rfl
      | [a],_ => rfl
      | a::b::rest,h => exact absurd rfl (h a b rest)
    exact iff_of_true ⟨segments,hloop⟩ (Or.inl rfl)

theorem initData_ne_nil (b : BoxInfo) :
    initData b ≠ [] ↔ isInitBox b ∧ b.size%2^32 = 8+(b.content.rawData.getD []).length := by
  have hsize : beNat ((serializeBox b).take 4) = b.size%2^32 := by
    rw [serializeBox,List.append_assoc,List.take_left' (length_toBe 4 _),beNat_toBe]
    rfl
  have hlength : isInitBox b → (serializeBox b).length = 8+(b.content.rawData.getD []).length := by
    intro hinit
    have hkind : (asBytes b.boxType).length = 4 := by
      rcases Bool.or_eq_true_iff.mp hinit with hkind | hkind
      · rw [beq_iff_eq.mp hkind]
        rfl
      · rw [beq_iff_eq.mp hkind]
        rfl
    simp only [serializeBox,List.length_append,length_toBe,hkind]
  simp only [initData,hsize]
  constructor
  · intro h
    split_ifs at h with hadded
    · exact ⟨hadded.1,by rw [hadded.2.2,hlength hadded.1]⟩
    · exact absurd rfl h
  · intro h
    have hdata := hlength h.1
    rw [if_pos ⟨h.1,by omega,by omega⟩]
    exact List.ne_nil_of_length_pos (by omega)

theorem initSegments_ne_nil : initSegments (boxes.flatMap initData) ≠ [] ↔ HasInit boxes := by
  have hsegments : ∀ data, initSegments data ≠ [] ↔ data ≠ [] := by
    intro data
    cases data <;> simp [initSegments]
  rw [hsegments,Ne,List.flatMap_eq_nil_iff]
  push Not
  exact exists_congr (fun b => and_congr_right (fun _ => initData_ne_nil b))

theorem extractFragmentedSegments_ok :
    (∃ segments, extractFragmentedSegments boxes = .ok segments) ↔
      pairCount boxes = 0 ∨ (HasInit boxes ∧ 1000*(pairCount boxes-1) < 2^64) := by
  have hlength : (initSegments (boxes.flatMap initData)).length-1 = 0 := by
    unfold initSegments
    split_ifs <;> rfl
  unfold extractFragmentedSegments
  rw [pairLoop_ok,hlength,initSegments_ne_nil,Nat.zero_add]

end Panics

/-- Every data offset is that of a place in the `moof`. -/
theorem playable_iff {w : FragmentWriter} {mdat : Bytes} :
    Playable mdat ((mdat.toChunks chunkSize).map w.view) ↔ mdat = [] := by
  constructor
  · intro h
    have hchunks : mdat.toChunks chunkSize = [] := by
      rw [List.eq_nil_iff_forall_not_mem]
      intro chunk hchunk
      have hoffset : (0 : Int)+40 = 76 := h.offsets _ (List.mem_map_of_mem hchunk)
      omega
    have hflatten := flatten_toChunks chunkSize mdat
    rw [hchunks] at hflatten
    exact hflatten.symm
  · intro h
    rw [h]
    exact ⟨by simp [List.toChunks],rfl,by simp [List.toChunks]⟩

/-- What is right and what is not: the payloads are the content of the `mdat`, but every data offset
falls 36 bytes short of the payload, and every segment has the same number. -/
theorem regular_views {w : FragmentWriter} {boxes : List BoxInfo} {segments : List MseSegment}
    (h : w.createFragmentsFromRegularMp4 boxes = .ok segments) : ∃ views,
      (segments.filter isMedia).mapM (fun s => readSegment s.data) = some views ∧
        views.flatMap (fun v => v.fragment.payload) = lastMdat boxes ∧
          ∀ v ∈ views, v.fragment.moofStart+v.dataOffset+36 = v.fragment.payloadStart ∧
            v.sequenceNumber = w.sequenceNumber.toNat := by
  refine ⟨_,readSegment_regular h,?_,?_⟩
  · have hpayloads : ∀ chunks : List Bytes,
        (chunks.map w.view).flatMap (fun v => v.fragment.payload) = chunks.flatten := by
      intro chunks
      induction chunks with
      | nil => rfl
      | cons chunk chunks ih =>
        rw [List.map_cons,List.flatMap_cons,List.flatten_cons,ih]
        rfl
    rw [hpayloads,flatten_toChunks]
  · intro v hv
    obtain ⟨chunk,_,rfl⟩ := List.mem_map.mp hv
    exact ⟨rfl,rfl⟩

theorem decodable_iff (w : FragmentWriter) (boxes : List BoxInfo) (isFragmented : Bool) :
    Decodable w boxes isFragmented ↔ Unharmed boxes isFragmented := by
  cases isFragmented with
  | true =>
    have hok := @extractFragmentedSegments_ok boxes
    simp only [Decodable,Unharmed,generateMseSegments,if_true]
    rw [← hok]
    exact ⟨fun h => ⟨h.choose,h.choose_spec.1⟩,fun h => ⟨h.choose,h.choose_spec,nofun⟩⟩
  | false =>
    constructor
    · intro h
      obtain ⟨segments,hsegments,hplay⟩ := h
      obtain ⟨views,hviews,hplayable⟩ := hplay rfl
      have hread := readSegment_regular hsegments
      rw [hviews] at hread
      cases hread
      exact playable_iff.mp hplayable
    · intro h
      have hmdat : lastMdat boxes = [] := h
      have hok : w.createFragmentsFromRegularMp4 boxes =
          .ok (initSegments ((boxes.filter isInitBox).flatMap serializeBox)++[]) := by
        unfold createFragmentsFromRegularMp4
        rw [mdatData_eq,hmdat]
        rfl
      have hread := readSegment_regular hok
      exact ⟨_,hok,fun _ => ⟨_,hread,playable_iff.mpr hmdat⟩⟩

def moofBox : BoxInfo := ⟨⟨"moof",8,8,.raw []⟩,0⟩
def mdatBox : BoxInfo := ⟨⟨"mdat",9,16,.raw [7]⟩,8⟩

/-- One byte of content is not found, and a pair without an initialization segment panics. -/
theorem mdatBox_not_decodable :
    ¬ Decodable new [mdatBox] false ∧ ¬ Decodable new [moofBox,mdatBox] true := by
  constructor
  · intro h
    obtain ⟨segments,hsegments,hplay⟩ := h
    obtain ⟨views,hviews,hplayable⟩ := hplay rfl
    have hread := readSegment_regular hsegments
    rw [hviews] at hread
    cases hread
    exact absurd (playable_iff.mp hplayable) (by decide)
  · intro h
    obtain ⟨segments,hsegments,_⟩ := h
    have hpanic : generateMseSegments new [moofBox,mdatBox] true = .error .panic := by decide
    rw [hpanic] at hsegments
    cases hsegments

end FragmentWriter

end OpenBroadcast.Media
