import Mathlib.Algebra.Order.BigOperators.Group.List
import OpenBroadcast.Media.Fmp4Converter
import OpenBroadcast.Media.MovieFragment

namespace OpenBroadcast.Media

open RawBox

/-- What a reader should find of a frame. -/
def FrameData.sample (f : FrameData) : RunSample where
  duration := some f.duration.toNat
  size := some f.size.toNat
  flags := some (if f.isKeyframe then 0x02000000 else 0x01010000)
  compositionOffset := some f.compositionOffset.toInt

theorem FrameData.sample_isSync (f : FrameData) : f.sample.isSync = some f.isKeyframe := by
  unfold RunSample.isSync sample
  cases f.isKeyframe <;> rfl

theorem FrameData.Built.size_eq {f : FrameData} (h : f.Built) (hlen : f.data.length < 2^32) :
    f.size.toNat = f.data.length := by
  rw [h.size,Nat.mod_eq_of_lt hlen]

theorem signed32_toBitVec (x : Int32) : signed32 x.toBitVec.toNat = x.toInt := by
  unfold signed32
  rw [Int32.toInt,BitVec.toInt_eq_toNat_cond]
  split_ifs <;> omega

/-- Wrapping the body of a box gives the box. -/
theorem wrapBox_encode {b : RawBox} (h : b.Fits) {content : Bytes} (hbody : content = b.body) :
    wrapBox b.kind content = .ok b.encode := by
  rw [hbody]
  exact wrapBox_ok b.kind h.size

namespace FragmentedMp4Converter

variable (s : FragmentedMp4Converter) (trackId : UInt32) (frames : List FrameData)

section Boxes

def mfhdBox : RawBox := ⟨tagMfhd,[0,0,0,0]++toBe 4 s.sequenceNumber⟩

def tfhdBox (trackId : UInt32) : RawBox := ⟨tagTfhd,[0,2,0,0]++toBe 4 trackId.toNat⟩

def timeBox : RawBox where
  kind := tagTfdt
  body :=
    if 2^32-1 < s.baseMediaDecodeTime then [1,0,0,0]++toBe 8 s.baseMediaDecodeTime
    else [0,0,0,0]++toBe 4 (s.baseMediaDecodeTime%2^32)

def timeLength : Nat := if 2^32-1 < s.baseMediaDecodeTime then 20 else 16

/-- The length of the `moof`, by counting. -/
def moofLength : Nat := 8+16+8+16+s.timeLength+8+12+frames.length*16

def runBox : RawBox where
  kind := tagTrun
  body := [1,0x00,0x0f,0x01]++toBe 4 frames.length++toBe 4 (s.moofLength frames+8)++
    frames.flatMap sampleEntryV2

def trafBox : RawBox := ⟨tagTraf,encodeAll [tfhdBox trackId,s.timeBox,s.runBox frames]⟩

def moofBox : RawBox := ⟨tagMoof,encodeAll [s.mfhdBox,s.trafBox trackId frames]⟩

def mdatBox (frames : List FrameData) : RawBox := ⟨tagMdat,frames.flatMap FrameData.data⟩

/-- The length of the whole fragment. -/
def encodedLength : Nat := s.moofLength frames+8+(frames.flatMap FrameData.data).length

theorem size_mfhdBox : s.mfhdBox.size = 16 := by simp [mfhdBox,RawBox.size]

theorem size_tfhdBox : (tfhdBox trackId).size = 16 := by simp [tfhdBox,RawBox.size]

theorem size_timeBox : s.timeBox.size = s.timeLength := by
  unfold timeBox timeLength RawBox.size
  split_ifs <;> simp

theorem timeLength_le : s.timeLength ≤ 20 := by
  unfold timeLength
  split_ifs <;> omega

theorem length_entriesV2 : (frames.flatMap sampleEntryV2).length = frames.length*16 := by
  induction frames with
  | nil => rfl
  | cons f frames ih =>
    rw [List.flatMap_cons,List.length_append,ih,List.length_cons]
    simp only [sampleEntryV2,List.length_append,length_toBe]
    omega

theorem size_runBox : (s.runBox frames).size = 8+12+frames.length*16 := by
  unfold RawBox.size runBox
  simp only [List.length_append,length_toBe,length_entriesV2]
  simp only [List.length_cons,List.length_nil]
  omega

theorem encode_mfhdBox : s.mfhdBox.encode = s.createMfhd := by
  rw [RawBox.encode,size_mfhdBox]
  simp [mfhdBox,createMfhd]

theorem encode_tfhdBox : (tfhdBox trackId).encode = createTfhd trackId := by
  rw [RawBox.encode,size_tfhdBox]
  simp [tfhdBox,createTfhd]

theorem encode_timeBox : s.timeBox.encode = s.createTfdtAuto := by
  rw [RawBox.encode,size_timeBox]
  unfold timeBox timeLength createTfdtAuto createTfdt
  split_ifs <;> simp

theorem tfhdBox_fits : (tfhdBox trackId).Fits := ⟨rfl,by rw [size_tfhdBox]; omega⟩

theorem mfhdBox_fits : s.mfhdBox.Fits := ⟨rfl,by rw [size_mfhdBox]; omega⟩

theorem timeBox_fits : s.timeBox.Fits := by
  have := s.timeLength_le
  exact ⟨rfl,by rw [size_timeBox]; omega⟩

end Boxes

section Sizes

variable {s frames} (h : s.moofLength frames+8 < 2^32)

include h

theorem runBox_fits : (s.runBox frames).Fits := by
  refine ⟨rfl,?_⟩
  rw [size_runBox]
  unfold moofLength at h
  omega

theorem size_trafBox :
    (s.trafBox trackId frames).size = 8+16+s.timeLength+(8+12+frames.length*16) := by
  unfold trafBox RawBox.size
  simp only [encodeAll_cons,encodeAll_nil,List.length_append,List.length_nil,
    (tfhdBox_fits trackId).length_encode,s.timeBox_fits.length_encode,(runBox_fits h).length_encode,
    size_tfhdBox,size_timeBox,size_runBox]
  omega

theorem trafBox_fits : (s.trafBox trackId frames).Fits := by
  refine ⟨rfl,?_⟩
  rw [size_trafBox trackId h]
  unfold moofLength at h
  omega

theorem size_moofBox : (s.moofBox trackId frames).size = s.moofLength frames := by
  unfold moofBox RawBox.size moofLength
  simp only [encodeAll_cons,encodeAll_nil,List.length_append,List.length_nil,
    s.mfhdBox_fits.length_encode,(trafBox_fits trackId h).length_encode,size_mfhdBox,
    size_trafBox trackId h]
  omega

theorem moofBox_fits : (s.moofBox trackId frames).Fits :=
  ⟨rfl,by rw [size_moofBox trackId h]; omega⟩

/-- The closed formula agrees with what is counted. -/
theorem calculateMoofSizeV2_ok : s.calculateMoofSizeV2 frames = .ok (s.moofLength frames) := by
  have hlen : frames.length%2^32 = frames.length := by
    apply Nat.mod_eq_of_lt
    unfold moofLength at h
    omega
  have hentries : frames.length*16 < 2^32 := by unfold moofLength at h; omega
  have hsize : s.moofLength frames < 2^32 := by omega
  unfold moofLength timeLength at hsize
  simp only [calculateMoofSizeV2,moofSize,checkedU32,hlen,hentries,if_true,bind,Except.bind]
  rw [if_pos hsize]
  rfl

theorem createTrunV2_ok : s.createTrunV2 frames = .ok (s.runBox frames).encode := by
  have hlen : frames.length%2^32 = frames.length := by
    apply Nat.mod_eq_of_lt
    unfold moofLength at h
    omega
  have hwrap : wrapBox tagTrun ([1]++[0x00,0x0f,0x01]++toBe 4 frames.length++
      toBe 4 (s.moofLength frames+8)++frames.flatMap sampleEntryV2) = .ok (s.runBox frames).encode :=
    wrapBox_encode (runBox_fits h) rfl
  simp only [createTrunV2,calculateMoofSizeV2_ok h,trunBox,checkedU32,h,if_true,bind,Except.bind,
    hlen,hwrap]

theorem createMoofV2_ok :
    s.createMoofV2 frames trackId = .ok (s.moofBox trackId frames).encode := by
  have htraf : wrapBox tagTraf (createTfhd trackId++s.createTfdtAuto++(s.runBox frames).encode) =
      .ok (s.trafBox trackId frames).encode := by
    apply wrapBox_encode (trafBox_fits trackId h)
    simp [trafBox,encode_tfhdBox,encode_timeBox]
  have hmoof : wrapBox tagMoof (s.createMfhd++(s.trafBox trackId frames).encode) =
      .ok (s.moofBox trackId frames).encode := by
    apply wrapBox_encode (moofBox_fits trackId h)
    simp [moofBox,encode_mfhdBox]
  simp only [createMoofV2,createTrafV2,createTrunV2_ok h,bind,Except.bind,htraf,hmoof]

end Sizes

section Fragment

variable {s frames}

theorem length_le_flatMap {f : FrameData} (hf : f ∈ frames) :
    f.data.length ≤ (frames.flatMap FrameData.data).length := by
  rw [List.length_flatMap]
  exact List.le_sum_of_mem (List.mem_map_of_mem hf)

theorem sum_sizes (built : ∀ f ∈ frames, f.Built)
    (hdata : 8+(frames.flatMap FrameData.data).length < 2^32) :
    (frames.map (fun f => f.size.toNat)).sum = (frames.flatMap FrameData.data).length := by
  rw [List.length_flatMap]
  congr 1
  apply List.map_congr_left
  intro f hf
  have hle := length_le_flatMap hf
  exact (built f hf).size_eq (by omega)

theorem mdatBox_fits (hdata : 8+(frames.flatMap FrameData.data).length < 2^32) :
    (mdatBox frames).Fits := ⟨rfl,hdata⟩

theorem createMdat_ok (built : ∀ f ∈ frames, f.Built)
    (hdata : 8+(frames.flatMap FrameData.data).length < 2^32) :
    createMdat frames = .ok (mdatBox frames).encode := by
  have hlt : (frames.flatMap FrameData.data).length < 2^32 := by omega
  simp only [createMdat,sum_sizes built hdata,checkedU32,hlt,hdata,if_true,bind,Except.bind,pure,
    Except.pure]
  rfl

theorem next_ok (hseq : s.sequenceNumber < 2^32-1)
    (htime : s.baseMediaDecodeTime+totalDuration frames < 2^64) :
    s.next frames = .ok ⟨s.sequenceNumber+1,s.baseMediaDecodeTime+totalDuration frames⟩ := by
  have hseq' : s.sequenceNumber+1 < 2^32 := by omega
  have hduration : totalDuration frames < 2^64 := by omega
  simp only [next,checkedU32,checkedU64,hseq',hduration,htime,if_true,bind,Except.bind,pure,
    Except.pure]

theorem createFragmentV2_ok (built : ∀ f ∈ frames, f.Built) (hmoof : s.moofLength frames+8 < 2^32)
    (hdata : 8+(frames.flatMap FrameData.data).length < 2^32)
    (hseq : s.sequenceNumber < 2^32-1)
    (htime : s.baseMediaDecodeTime+totalDuration frames < 2^64) :
    s.createFragmentV2 frames trackId = .ok (encodeAll [s.moofBox trackId frames,mdatBox frames],
      ⟨s.sequenceNumber+1,s.baseMediaDecodeTime+totalDuration frames⟩) := by
  simp only [createFragmentV2,createMoofV2_ok trackId hmoof,createMdatV2,createMdat_ok built hdata,
    next_ok hseq htime,bind,Except.bind,pure,Except.pure,encodeAll_cons,encodeAll_nil,
    List.append_nil]

end Fragment

section Reading

theorem beNat_toBe_four {n : Nat} (h : n < 2^32) : beNat (toBe 4 n) = n := by
  rw [beNat_toBe]
  exact Nat.mod_eq_of_lt h

theorem readMfhd_mfhdBox (hseq : s.sequenceNumber < 2^32) :
    readMfhd s.mfhdBox.body = some s.sequenceNumber := by
  simp [readMfhd,mfhdBox,beNat_toBe_four hseq]

theorem readTfhd_tfhdBox :
    readTfhd (tfhdBox trackId).body = some ⟨0x020000,trackId.toNat,none⟩ := by
  have htake : (toBe 4 trackId.toNat).take 4 = toBe 4 trackId.toNat :=
    List.take_of_length_le (length_toBe 4 _).le
  have hread := beNat_toBe_four trackId.toNat_lt
  have hflags : beNat [2,0,0] = 0x020000 := by decide
  simp only [readTfhd,tfhdBox,List.cons_append,List.nil_append,List.drop_succ_cons,List.drop_zero,
    List.take_succ_cons,List.take_zero,hflags,htake,hread]
  rw [if_pos]
  · rfl
  · simp only [List.length_cons,length_toBe]
    decide

theorem readDecodeTime_timeBox (htime : s.baseMediaDecodeTime < 2^64) :
    readDecodeTime s.timeBox.body = some s.baseMediaDecodeTime := by
  unfold timeBox
  by_cases hlong : 2^32-1 < s.baseMediaDecodeTime
  · have hread : beNat (toBe 8 s.baseMediaDecodeTime) = s.baseMediaDecodeTime := by
      rw [beNat_toBe]
      exact Nat.mod_eq_of_lt htime
    dsimp only
    rw [if_pos hlong]
    simp [readDecodeTime,readTfdt,hread]
  · have hread : beNat (toBe 4 (s.baseMediaDecodeTime%2^32)) = s.baseMediaDecodeTime := by
      rw [beNat_toBe]
      omega
    dsimp only
    rw [if_neg hlong]
    simp only [readDecodeTime,readTfdt,List.cons_append,List.nil_append,List.head?_cons,
      List.length_cons,length_toBe,and_self,if_true,Option.map_some,List.drop_succ_cons,
      List.drop_zero,hread]

theorem readSamples_entriesV2 :
    readSamples 1 0xf01 frames.length (frames.flatMap sampleEntryV2) =
      frames.map FrameData.sample := by
  induction frames with
  | nil => rfl
  | cons f frames ih =>
    have hduration := beNat_toBe_four f.duration.toNat_lt
    have hsize := beNat_toBe_four f.size.toNat_lt
    have hflags : beNat (toBe 4 (if f.isKeyframe then 0x02000000 else 0x01010000)) =
        if f.isKeyframe then 0x02000000 else 0x01010000 := by
      apply beNat_toBe_four
      split_ifs <;> decide
    have hoffset : beNat (toBe 4 f.compositionOffset.toBitVec.toNat) =
        f.compositionOffset.toBitVec.toNat := beNat_toBe_four f.compositionOffset.toBitVec.isLt
    have h8 : Nat.testBit 0xf01 8 = true := by decide
    have h9 : Nat.testBit 0xf01 9 = true := by decide
    have h10 : Nat.testBit 0xf01 10 = true := by decide
    have h11 : Nat.testBit 0xf01 11 = true := by decide
    rw [List.flatMap_cons,List.length_cons,readSamples,h8,h9,h10,h11,sampleEntryV2]
    simp only [List.append_assoc,readOptional_true _ _ (length_toBe 4 _),hduration,hsize,hflags,
      hoffset,ih,Option.map_some,List.map_cons]
    simp [FrameData.sample,signed32_toBitVec]

theorem runBox_body :
    (s.runBox frames).body = 1::0x00::0x0f::0x01::(toBe 4 frames.length++
      (toBe 4 (s.moofLength frames+8)++frames.flatMap sampleEntryV2)) := by
  simp [runBox]

theorem runBox_drop_count :
    (s.runBox frames).body.drop 8 =
      toBe 4 (s.moofLength frames+8)++frames.flatMap sampleEntryV2 := by
  rw [runBox_body]
  exact List.drop_left' (length_toBe 4 _)

theorem runBox_drop_offset : (s.runBox frames).body.drop 12 = frames.flatMap sampleEntryV2 := by
  have hdrop : (s.runBox frames).body.drop 12 = ((s.runBox frames).body.drop 8).drop 4 := by
    rw [List.drop_drop]
  rw [hdrop,runBox_drop_count]
  exact List.drop_left' (length_toBe 4 _)

theorem readTrackRun_runBox (h : s.moofLength frames+8 < 2^32) :
    readTrackRun (s.runBox frames).body =
      some ⟨some (signed32 (s.moofLength frames+8)),frames.map FrameData.sample⟩ := by
  have hcount : frames.length < 2^32 := by unfold moofLength at h; omega
  have hlength : (s.runBox frames).body.length = 12+frames.length*16 := by
    have := s.size_runBox frames
    unfold RawBox.size at this
    omega
  have hversion : (s.runBox frames).body.headD 0 = 1 := by rw [runBox_body]; rfl
  have hflags : beNat (((s.runBox frames).body.drop 1).take 3) = 0xf01 := by
    rw [runBox_body]
    exact (by decide : beNat [0x00,0x0f,0x01] = 0xf01)
  have hread4 : beNat (((s.runBox frames).body.drop 4).take 4) = frames.length := by
    rw [runBox_body]
    simp only [List.drop_succ_cons,List.drop_zero]
    rw [List.take_left' (length_toBe 4 _),beNat_toBe_four hcount]
  have hread8 : beNat (((s.runBox frames).body.drop 8).take 4) = s.moofLength frames+8 := by
    rw [runBox_drop_count,List.take_left' (length_toBe 4 _),beNat_toBe_four h]
  -- The flags say that there is an offset, and four numbers for each sample.
  have hbefore : 8+field 0xf01 0+field 0xf01 2 = 12 := by decide
  have hsample : field 0xf01 8+field 0xf01 9+field 0xf01 10+field 0xf01 11 = 16 := by decide
  have hoffset : Nat.testBit 0xf01 0 = true := by decide
  unfold readTrackRun
  dsimp only
  rw [hflags,hread4,hread8,hbefore,hsample,if_pos hlength,hoffset,hversion,runBox_drop_offset,
    readSamples_entriesV2]
  rfl

/-- What a reader should find in the fragment. -/
def fragment : MovieFragment where
  sequenceNumber := s.sequenceNumber
  tfhd := ⟨0x020000,trackId.toNat,none⟩
  baseMediaDecodeTime := s.baseMediaDecodeTime
  run := ⟨some (signed32 (s.moofLength frames+8)),frames.map FrameData.sample⟩
  payload := frames.flatMap FrameData.data

theorem readMovieFragment_encode (hseq : s.sequenceNumber < 2^32)
    (htime : s.baseMediaDecodeTime < 2^64) (hmoof : s.moofLength frames+8 < 2^32)
    (hdata : 8+(frames.flatMap FrameData.data).length < 2^32) :
    readMovieFragment (encodeAll [s.moofBox trackId frames,mdatBox frames]) =
      some (s.fragment trackId frames) := by
  have htop : readKinds [tagMoof,tagMdat] (encodeAll [s.moofBox trackId frames,mdatBox frames]) =
      some [(s.moofBox trackId frames).body,frames.flatMap FrameData.data] := by
    apply readKinds_encodeAll [s.moofBox trackId frames,mdatBox frames]
    simp [moofBox_fits trackId hmoof,mdatBox_fits hdata]
  have hmoofBody : readKinds [tagMfhd,tagTraf] (s.moofBox trackId frames).body =
      some [s.mfhdBox.body,(s.trafBox trackId frames).body] := by
    apply readKinds_encodeAll [s.mfhdBox,s.trafBox trackId frames]
    simp [s.mfhdBox_fits,trafBox_fits trackId hmoof]
  have htrafBody : readKinds [tagTfhd,tagTfdt,tagTrun] (s.trafBox trackId frames).body =
      some [(tfhdBox trackId).body,s.timeBox.body,(s.runBox frames).body] := by
    apply readKinds_encodeAll [tfhdBox trackId,s.timeBox,s.runBox frames]
    simp [tfhdBox_fits,s.timeBox_fits,runBox_fits hmoof]
  simp only [readMovieFragment,htop,hmoofBody,htrafBody,Option.bind_eq_bind,Option.bind_some,
    readMfhd_mfhdBox s hseq,readTfhd_tfhdBox,readDecodeTime_timeBox s htime,
    readTrackRun_runBox s frames hmoof]
  rfl

theorem length_encodedBoxes (hmoof : s.moofLength frames+8 < 2^32)
    (hdata : 8+(frames.flatMap FrameData.data).length < 2^32) :
    (encodeAll [s.moofBox trackId frames,mdatBox frames]).length = s.encodedLength frames := by
  simp only [encodeAll_cons,encodeAll_nil,List.length_append,List.length_nil,
    (moofBox_fits trackId hmoof).length_encode,(mdatBox_fits hdata).length_encode,
    size_moofBox trackId hmoof]
  unfold encodedLength RawBox.size mdatBox
  dsimp only
  omega

/-- The offset in the `trun` leads to the data of the frames. -/
theorem sampleBytes_encode (built : ∀ f ∈ frames, f.Built) (hlen : s.encodedLength frames < 2^31) :
    (s.fragment trackId frames).sampleBytes
      (encodeAll [s.moofBox trackId frames,mdatBox frames]) = some (frames.map FrameData.data) := by
  have hmoof : s.moofLength frames+8 < 2^32 := by unfold encodedLength at hlen; omega
  have hdata : 8+(frames.flatMap FrameData.data).length < 2^32 := by
    unfold encodedLength at hlen
    omega
  have hoffset : signed32 (s.moofLength frames+8) = (s.moofLength frames+8 : Nat) := by
    unfold encodedLength at hlen
    unfold signed32
    rw [if_pos (by omega)]
  have hsizes : (frames.map FrameData.sample).mapM (fun x => x.size.or none) =
      some ((frames.map FrameData.data).map List.length) := by
    rw [List.mapM_map,List.map_map]
    apply mapM_eq_some_map
    intro f hf
    have hle := length_le_flatMap hf
    have hsize := (built f hf).size_eq (by omega)
    simp [FrameData.sample,hsize]
  have hheader : ((s.moofBox trackId frames).encode++(toBe 4 (mdatBox frames).size++tagMdat)).length =
      s.moofLength frames+8 := by
    rw [List.length_append,(moofBox_fits trackId hmoof).length_encode,size_moofBox trackId hmoof]
    rfl
  have hpayload : (encodeAll [s.moofBox trackId frames,mdatBox frames]).drop
      (s.moofLength frames+8) = (frames.map FrameData.data).flatten++[] := by
    have hmdat : (mdatBox frames).encode =
        toBe 4 (mdatBox frames).size++tagMdat++frames.flatMap FrameData.data := rfl
    rw [encodeAll_cons,encodeAll_cons,encodeAll_nil,List.append_nil,List.append_nil,hmdat,
      ← List.append_assoc,List.drop_left' hheader,List.flatMap_def]
  simp only [MovieFragment.sampleBytes,fragment,Option.bind_eq_bind,Option.bind_some,hsizes,hoffset]
  rw [if_pos,Int.toNat_natCast,hpayload,cut_flatten]
  exact ⟨by decide,by decide,Int.natCast_nonneg _⟩

/-- What `create_fragment_v2` returns is read back as it was given. -/
theorem createFragmentV2_reads_back (s : FragmentedMp4Converter) (trackId : UInt32)
    (frames : List FrameData) (built : ∀ f ∈ frames, f.Built) (hseq : s.sequenceNumber < 2^32-1)
    (htime : s.baseMediaDecodeTime+totalDuration frames < 2^64)
    (hlen : s.encodedLength frames < 2^31) :
    ∃ bytes found,
      s.createFragmentV2 frames trackId =
        .ok (bytes,⟨s.sequenceNumber+1,s.baseMediaDecodeTime+totalDuration frames⟩) ∧
      bytes.length = s.encodedLength frames ∧
      readMovieFragment bytes = some found ∧
      found.sequenceNumber = s.sequenceNumber ∧
      found.tfhd.trackId = trackId.toNat ∧
      found.baseMediaDecodeTime = s.baseMediaDecodeTime ∧
      found.run.samples.map RunSample.duration = frames.map (fun f => some f.duration.toNat) ∧
      found.run.samples.map RunSample.size = frames.map (fun f => some f.data.length) ∧
      found.run.samples.map RunSample.isSync = frames.map (fun f => some f.isKeyframe) ∧
      found.run.samples.map RunSample.compositionOffset =
        frames.map (fun f => some f.compositionOffset.toInt) ∧
      found.sampleBytes bytes = some (frames.map FrameData.data) := by
  have hmoof : s.moofLength frames+8 < 2^32 := by unfold encodedLength at hlen; omega
  have hdata : 8+(frames.flatMap FrameData.data).length < 2^32 := by
    unfold encodedLength at hlen
    omega
  refine ⟨_,s.fragment trackId frames,createFragmentV2_ok trackId built hmoof hdata hseq htime,
    length_encodedBoxes s trackId frames hmoof hdata,
    readMovieFragment_encode s trackId frames (by omega) (by omega) hmoof hdata,
    rfl,rfl,rfl,?_,?_,?_,?_,sampleBytes_encode s trackId frames built hlen⟩
  · simp [fragment,FrameData.sample]
  · simp only [fragment,List.map_map]
    apply List.map_congr_left
    intro f hf
    have hle := length_le_flatMap hf
    have hsize := (built f hf).size_eq (by omega)
    simp [FrameData.sample,hsize]
  · simp only [fragment,List.map_map]
    apply List.map_congr_left
    exact fun f _ => f.sample_isSync
  · simp [fragment,FrameData.sample]

/-- A keyframe and a frame that is shown later. -/
def sampleFrames : List FrameData :=
  [.new [0xaa,0xab,0xac] 1000 true 0,.new [0xbb] 1000 false 512]

theorem createFragmentV2_reads_back_sampleFrames :
    ∃ bytes found,
      createFragmentV2 ⟨7,2^32⟩ sampleFrames 1 = .ok (bytes,⟨8,2^32+2000⟩) ∧
      readMovieFragment bytes = some found ∧ found.baseMediaDecodeTime = 2^32 ∧
      found.sampleBytes bytes = some [[0xaa,0xab,0xac],[0xbb]] := by
  have built : ∀ f ∈ sampleFrames, f.Built := by
    intro f hf
    rcases List.mem_cons.mp hf with rfl | hf
    · exact ⟨_,_,_,_,rfl⟩
    · rw [List.mem_singleton.mp hf]
      exact ⟨_,_,_,_,rfl⟩
  obtain ⟨bytes,found,hcreate,_,hread,_,_,htime,_,_,_,_,hbytes⟩ :=
    createFragmentV2_reads_back ⟨7,2^32⟩ 1 sampleFrames built (by decide) (by decide) (by decide)
  exact ⟨bytes,found,hcreate,hread,htime,hbytes⟩

end Reading

end FragmentedMp4Converter

end OpenBroadcast.Media
