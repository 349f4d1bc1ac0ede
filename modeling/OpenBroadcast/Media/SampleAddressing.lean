import OpenBroadcast.Media.FragmentReader

namespace OpenBroadcast.Media

open RawBox

/-- A `moof` and the payload of the `mdat` after it, with their places in a file. -/
structure Fragment where
  moofStart : Nat
  moof : Bytes
  payloadStart : Nat
  payload : Bytes
  deriving DecidableEq, Repr

def fragmentOf (moof mdat : Mp4Box) : Fragment :=
  ⟨moof.start,moof.content,mdat.header.contentStart,mdat.content⟩

/-- The fragment that a media segment consists of. -/
def readFragment (segment : Bytes) : Option Fragment :=
  match parseBoxes segment with
  | .ok [moof,mdat] => if Mp4Parser.isPair moof mdat then some (fragmentOf moof mdat) else none
  | _ => none

/-- The bytes in all samples of a run; `trex` has the default sizes of the tracks. -/
def TrafView.runSize (v : TrafView) (trex : Nat → Nat) (r : TrunView) : Nat :=
  (r.sampleSizes.map (fun size =>
    size.getD (v.tfhd.defaultSampleSize.getD (trex v.tfhd.trackId)))).sum

/-- The samples of run `k` in `traf` number `j`: where they start in the payload, and their
bytes, if they are in the payload. -/
def Fragment.select (f : Fragment) (trex : Nat → Nat) (j k : Nat) : Option (Nat × Bytes) := do
  let view ← readMoof f.moof
  let v ← view[j]?
  let r ← v.truns[k]?
  let offset ← r.dataOffset
  let first := f.moofStart+offset-f.payloadStart
  let size := v.runSize trex r
  if 0 ≤ first ∧ first+size ≤ f.payload.length then
    some (first.toNat,(f.payload.drop first.toNat).take size)
  else none

/-- The offset of a run, and the place in the payload that it leads to. -/
structure Selects (f : Fragment) (trex : Nat → Nat) (view : List TrafView) (j k : Nat)
    (v : TrafView) (r : TrunView) (offset : Int) (place : Nat) (bytes : Bytes) : Prop where
  traf : view[j]? = some v
  run : v.truns[k]? = some r
  hasOffset : r.dataOffset = some offset
  leads : f.moofStart+offset-f.payloadStart = place
  inside : place+v.runSize trex r ≤ f.payload.length
  content : (f.payload.drop place).take (v.runSize trex r) = bytes

theorem select_eq_some {f : Fragment} {trex : Nat → Nat} {view : List TrafView} {j k place : Nat}
    {bytes : Bytes} (hview : readMoof f.moof = some view) :
    f.select trex j k = some (place,bytes) ↔
      ∃ v r offset, Selects f trex view j k v r offset place bytes := by
  simp only [Fragment.select,hview,Option.bind_eq_bind,Option.bind_some,Option.bind_eq_some_iff]
  constructor
  · intro hyp
    obtain ⟨v,hv,r,hr,offset,hoffset,heq⟩ := hyp
    rw [Option.ite_none_right_eq_some] at heq
    obtain ⟨⟨hpos,hinside⟩,heq⟩ := heq
    obtain ⟨hplace,hbytes⟩ := Prod.mk.inj (Option.some.inj heq)
    rw [hplace] at hbytes
    exact ⟨v,r,offset,hv,hr,hoffset,by omega,by omega,hbytes⟩
  · intro hyp
    obtain ⟨v,r,offset,hs⟩ := hyp
    refine ⟨v,hs.traf,r,hs.run,offset,hs.hasOffset,?_⟩
    have hinside := hs.inside
    rw [hs.leads,Int.toNat_natCast,hs.content,if_pos (by omega)]

/-- A data offset has 31 bits and a sign. -/
theorem readTrun_offset {body : Bytes} {r : TrunView} {offset : Int} (h : readTrun body = some r)
    (ho : r.dataOffset = some offset) : offset < 2^31 := by
  simp only [readTrun] at h
  rw [Option.ite_none_right_eq_some] at h
  obtain ⟨_,heq⟩ := h
  rw [← Option.some.inj heq] at ho
  dsimp only at ho
  rw [Option.ite_none_right_eq_some] at ho
  obtain ⟨_,ho⟩ := ho
  rw [← Option.some.inj ho,signed32]
  have hlt := beNat_lt ((body.drop 8).take 4)
  have hlen : ((body.drop 8).take 4).length ≤ 4 := by
    rw [List.length_take]
    omega
  have hpow : 256^((body.drop 8).take 4).length ≤ 256^4 := Nat.pow_le_pow_right (by decide) hlen
  split_ifs <;> omega

/-- The offset of a run is one that is written in the box. -/
theorem Selects.offset_lt {f : Fragment} {trex : Nat → Nat} {view : List TrafView}
    {j k place : Nat} {v : TrafView} {r : TrunView} {offset : Int} {bytes : Bytes}
    {bs : List RawBox} (hs : Selects f trex view j k v r offset place bytes)
    (hp : MoofParsed f.moof view bs) : offset < 2^31 := by
  obtain ⟨b,_,hb⟩ := forall₂_mem_right (mapM_eq_some_iff.mp hp.trafs)
    (List.mem_of_getElem? hs.traf)
  obtain ⟨cs,h,htp⟩ := readTraf_eq_some.mp hb
  obtain ⟨c,_,hc⟩ := forall₂_mem_right (mapM_eq_some_iff.mp htp.truns)
    (List.mem_of_getElem? hs.run)
  exact readTrun_offset hc hs.hasOffset

theorem parseBox_encode {b : RawBox} (h : b.Fits) (start : Nat) (rest : Bytes) :
    parseBox start (b.encode++rest) = .ok (⟨⟨b.kind,b.size,start+8⟩,b.body⟩,rest) := by
  have h8 := b.eight_le_size
  have hsize := h.size
  have hlen : (b.encode++rest).length = b.size+rest.length := by
    rw [List.length_append,h.length_encode]
  have hread : parseSize (b.encode++rest) = .ok (b.size,8) := by
    simp only [parseSize]
    rw [h.read_size,if_neg (by omega)]
  have hbody : (b.body++rest).take (b.size-8) = b.body := by
    rw [RawBox.size,Nat.add_sub_cancel_left,List.take_left]
  rw [parseBox,if_neg (by omega),hread]
  simp only [bind,Except.bind]
  rw [if_neg (by omega),if_neg (by omega),if_neg (by omega),h.read_kind,h.drop_header,hbody,
    h.drop_size]

theorem parseBoxesFrom_encode {b : RawBox} (h : b.Fits) (n start : Nat) (rest : Bytes) :
    parseBoxesFrom (n+1) start (b.encode++rest) = (do
      let bs ← parseBoxesFrom n (start+b.size) rest
      return ⟨⟨b.kind,b.size,start+8⟩,b.body⟩::bs) := by
  have hne : b.encode++rest ≠ [] := by
    intro hnil
    have hlen := congrArg List.length hnil
    have h8 := b.eight_le_size
    rw [List.length_append,h.length_encode,List.length_nil] at hlen
    omega
  rw [parseBoxesFrom]
  · rw [parseBox_encode h]
  · exact hne

/-- A segment of a `moof` and an `mdat` is read back as such. -/
theorem readFragment_encode {moof payload : Bytes} (hmoof : 8+moof.length < 2^32)
    (hmdat : 8+payload.length < 2^32) :
    readFragment ((RawBox.mk tagMoof moof).encode++(RawBox.mk tagMdat payload).encode) =
      some ⟨0,moof,16+moof.length,payload⟩ := by
  have hfirst : (RawBox.mk tagMoof moof).Fits := ⟨rfl,hmoof⟩
  have hsecond : (RawBox.mk tagMdat payload).Fits := ⟨rfl,hmdat⟩
  have hlen : ((RawBox.mk tagMoof moof).encode++(RawBox.mk tagMdat payload).encode).length =
      (moof.length+payload.length+14)+1+1 := by
    rw [List.length_append,hfirst.length_encode,hsecond.length_encode]
    simp only [RawBox.size]
    omega
  have hparse : parseBoxes ((RawBox.mk tagMoof moof).encode++(RawBox.mk tagMdat payload).encode) =
      .ok [⟨⟨tagMoof,8+moof.length,8⟩,moof⟩,
        ⟨⟨tagMdat,8+payload.length,8+moof.length+8⟩,payload⟩] := by
    rw [parseBoxes,hlen,parseBoxesFrom_encode hfirst,
      ← List.append_nil (RawBox.mk tagMdat payload).encode,parseBoxesFrom_encode hsecond]
    simp [parseBoxesFrom,RawBox.size,bind,Except.bind,pure,Except.pure]
  rw [readFragment,hparse]
  simp only [Mp4Parser.isPair,beq_self_eq_true,Bool.and_self,if_true,fragmentOf,Mp4Box.start]
  congr 2 <;> omega

/-- A segment without an `mdat` is no fragment. -/
theorem readFragment_moof {moof : Bytes} (hmoof : 8+moof.length < 2^32) :
    readFragment (RawBox.mk tagMoof moof).encode = none := by
  have hfirst : (RawBox.mk tagMoof moof).Fits := ⟨rfl,hmoof⟩
  have hlen : (RawBox.mk tagMoof moof).encode.length = (moof.length+7)+1 := by
    rw [hfirst.length_encode]
    simp only [RawBox.size]
    omega
  have hparse : parseBoxes (RawBox.mk tagMoof moof).encode =
      .ok [⟨⟨tagMoof,8+moof.length,8⟩,moof⟩] := by
    rw [parseBoxes,hlen,← List.append_nil (RawBox.mk tagMoof moof).encode,
      parseBoxesFrom_encode hfirst]
    simp [parseBoxesFrom,RawBox.size,bind,Except.bind,pure,Except.pure]
  rw [readFragment,hparse]

theorem serializeBox_mdat {mdat : Mp4Box} (hmdat : mdat.header.boxType = tagMdat) :
    serializeBox mdat = if 8+mdat.content.length ≤ maxBoxSize then
      (RawBox.mk tagMdat mdat.content).encode else [] := by
  have hkind : mdat.header.boxType.length = 4 := by
    rw [hmdat]
    rfl
  unfold serializeBox
  rw [if_neg (by omega)]
  by_cases hsize : 8+mdat.content.length ≤ maxBoxSize
  · rw [if_neg (by omega),if_neg (by omega),if_pos hsize,hmdat]
    rfl
  · rw [if_neg hsize]
    split_ifs
    · rfl
    · rfl
    · omega

/-- The rewrite makes the `moof` longer by as much as the short headers save, and the `mdat`
is small enough to be written. -/
def KeepsAddresses (view : List TrafView) (moof mdat : Mp4Box) : Prop :=
  (view.map TrafView.growth).sum+16 = moof.headerSize+mdat.headerSize ∧
    8+mdat.content.length ≤ maxBoxSize

/-- The samples of a run are found in the segment at the same place of the payload. -/
def FoundIn (segment : Bytes) (trex : Nat → Nat) (j k : Nat) (samples : Nat × Bytes) : Prop :=
  (readFragment segment).bind (fun f => f.select trex j k) = some samples

section Pair

variable {moof mdat : Mp4Box} {view : List TrafView} {bs : List RawBox} {trex : Nat → Nat}
  {j k start place : Nat} {v : TrafView} {r : TrunView} {offset : Int} {bytes : Bytes}

/-- A run that leads into the payload behind the `moof` has to reach over the `moof`. -/
theorem content_lt (hmoof : moof.ParsedAt start)
    (hmdat : mdat.ParsedAt (start+moof.header.size)) (hp : MoofParsed moof.content view bs)
    (hs : Selects (fragmentOf moof mdat) trex view j k v r offset place bytes) :
    moof.content.length < 2^31 := by
  have hoffset := hs.offset_lt hp
  have hleads := hs.leads
  simp only [fragmentOf,hmoof.start_eq,hmdat.contentStart,hmoof.size] at hleads
  omega

theorem found_iff (hmoof : moof.ParsedAt start)
    (hmdat : mdat.ParsedAt (start+moof.header.size)) (htype : mdat.header.boxType = tagMdat)
    (hp : MoofParsed moof.content view bs)
    (hs : Selects (fragmentOf moof mdat) trex view j k v r offset place bytes) (time : Nat) :
    FoundIn ((RawBox.mk tagMoof (encodeAll (bs.map (newChild time)))).encode++serializeBox mdat)
      trex j k (place,bytes) ↔ KeepsAddresses view moof mdat := by
  have hsmall := content_lt hmoof hmdat hp hs
  have hnew := hp.length_new_lt hsmall time
  have hlength := length_newMoof time hp.exact.2 hp.trafs
  rw [← hp.exact.1] at hlength
  have hview := readMoof_eq_some.mpr ⟨_,hp.new hsmall time⟩
  have hleads := hs.leads
  simp only [fragmentOf,hmoof.start_eq,hmdat.contentStart,hmoof.size] at hleads
  rw [serializeBox_mdat htype]
  unfold FoundIn KeepsAddresses
  by_cases hsize : 8+mdat.content.length ≤ maxBoxSize
  · have hpayload : 8+mdat.content.length < 2^32 := lt_of_le_of_lt hsize (by decide)
    rw [if_pos hsize,readFragment_encode hnew hpayload,Option.bind_some,select_eq_some hview]
    simp only [hsize,and_true]
    constructor
    · intro hyp
      obtain ⟨v',r',offset',hs'⟩ := hyp
      -- It is the same run with the same offset, from the start of another `moof`.
      have hv' : v' = v.retimed := by
        have htraf := hs'.traf
        rw [List.getElem?_map,hs.traf] at htraf
        exact (Option.some.inj htraf).symm
      have hr' : r' = r := by
        have hrun := hs'.run
        rw [hv'] at hrun
        exact Option.some.inj (hrun.symm.trans hs.run)
      have hoffset' : offset' = offset := by
        have hdata := hs'.hasOffset
        rw [hr'] at hdata
        exact Option.some.inj (hdata.symm.trans hs.hasOffset)
      have hleads' := hs'.leads
      rw [hoffset'] at hleads'
      dsimp only at hleads'
      omega
    · intro hgrowth
      refine ⟨v.retimed,r,offset,?_,hs.run,hs.hasOffset,?_,hs.inside,hs.content⟩
      · rw [List.getElem?_map,hs.traf]
        rfl
      · dsimp only
        omega
  · rw [if_neg hsize,List.append_nil,readFragment_moof hnew]
    simp [hsize]

end Pair

namespace Mp4Parser

/-- The bytes of a segment for a well-formed fragment are always written, unless its time
does not fit. -/
theorem mediaData_eq {p : Mp4Parser} {index : Nat} {moof mdat : Mp4Box} {view : List TrafView}
    {bs : List RawBox} (hp : MoofParsed moof.content view bs) (hrel : MoofRelative view)
    (hsmall : moof.content.length < 2^31) :
    p.mediaData index moof mdat = if index*p.frameDuration < 2^64 then
      .ok ((RawBox.mk tagMoof (encodeAll (bs.map (newChild (index*p.frameDuration))))).encode++
        serializeBox mdat)
    else .error .panic := by
  obtain ⟨hfixed,hensured⟩ := hp.rewritten hrel hsmall (index*p.frameDuration)
  simp only [mediaData,hfixed,bind,Except.bind,checkedU64]
  by_cases htime : index*p.frameDuration < 2^64
  · rw [if_pos htime,if_pos htime]
    dsimp only
    rw [hensured]
    rfl
  · rw [if_neg htime,if_neg htime]

theorem mediaSegment_data {p : Mp4Parser} {index : Nat} {moof mdat : Mp4Box}
    {segment : MseSegment} (h : p.mediaSegment index moof mdat = .ok segment) :
    p.mediaData index moof mdat = .ok segment.data := by
  simp only [mediaSegment,bind,Except.bind] at h
  split at h
  · cases h
  · next data hdata =>
    split at h
    · cases h
    · split at h
      · cases h
      · cases h
        exact hdata

/-- The number of pairs of a `moof` and an `mdat`. -/
def pairCount : List Mp4Box → Nat
  | a::b::rest => if isPair a b then pairCount rest+1 else pairCount (b::rest)
  | _ => 0

theorem mediaSegments_pair {p : Mp4Parser} {moof mdat : Mp4Box} (hpair : isPair moof mdat)
    {index : Nat} {rest : List Mp4Box} {segments : List MseSegment}
    (h : p.mediaSegments index (moof::mdat::rest) = .ok segments) :
    ∃ segment tail, p.mediaSegment index moof mdat = .ok segment ∧
      p.mediaSegments (index+1) rest = .ok tail ∧ segments = segment::tail := by
  rw [mediaSegments,if_pos hpair] at h
  simp only [bind,Except.bind] at h
  split at h
  · cases h
  · next segment hsegment =>
    split at h
    · cases h
    · next tail htail =>
      cases h
      exact ⟨segment,tail,hsegment,htail,rfl⟩

/-- Every pair gets its segment, in order. -/
theorem mediaSegments_split (p : Mp4Parser) {moof mdat : Mp4Box} (hpair : isPair moof mdat)
    (post : List Mp4Box) (pre : List Mp4Box) (index : Nat) (segments : List MseSegment)
    (h : p.mediaSegments index (pre++moof::mdat::post) = .ok segments) :
    ∃ segment, segments[pairCount pre]? = some segment ∧
      p.mediaSegment (index+pairCount pre) moof mdat = .ok segment := by
  have hnoMdat : ∀ a, ¬ isPair a moof := by
    intro a ha
    simp only [isPair,Bool.and_eq_true,beq_iff_eq] at hpair ha
    rw [hpair.1] at ha
    exact absurd ha.2 (by decide)
  fun_induction pairCount pre generalizing index segments with
  | case1 a b rest hab ih =>
    obtain ⟨_,tail,_,htail,rfl⟩ := mediaSegments_pair hab h
    obtain ⟨segment,hget,hsegment⟩ := ih (index+1) tail htail
    refine ⟨segment,by simpa using hget,?_⟩
    rw [← hsegment]
    congr 1
    omega
  | case2 a b rest hab ih =>
    rw [List.cons_append,List.cons_append,mediaSegments,if_neg hab] at h
    exact ih index segments h
  | case3 pre hpre =>
    match pre,hpre with
    | [],_ =>
      obtain ⟨segment,tail,hsegment,_,rfl⟩ := mediaSegments_pair hpair h
      exact ⟨segment,rfl,hsegment⟩
    | [a],_ =>
      rw [List.singleton_append,mediaSegments,if_neg (hnoMdat a)] at h
      obtain ⟨segment,tail,hsegment,_,rfl⟩ := mediaSegments_pair hpair h
      exact ⟨segment,rfl,hsegment⟩
    | a::b::rest,hpre => exact absurd rfl (hpre a b rest)

theorem extractFragmentedSegments_ok {p : Mp4Parser} {segments : List MseSegment}
    (h : p.extractFragmentedSegments = .ok segments) :
    ∃ first media, p.initSegments = .ok first ∧ p.mediaSegments 0 p.boxes = .ok media ∧
      segments = first++media := by
  simp only [extractFragmentedSegments,bind,Except.bind] at h
  split at h
  · cases h
  · next first hfirst =>
    split at h
    · cases h
    · next media hmedia =>
      cases h
      exact ⟨first,media,hfirst,hmedia,rfl⟩

/-- The samples that a run of a well-formed fragment selects in the file are found again in
the segment for the fragment if and only if the sizes come out even. -/
theorem samples_found_iff (data : Bytes) (p : Mp4Parser) (hdata : parseBoxes data = .ok p.boxes)
    (pre post : List Mp4Box) (moof mdat : Mp4Box) (hboxes : p.boxes = pre++moof::mdat::post)
    (hpair : isPair moof mdat) (view : List TrafView) (hview : readMoof moof.content = some view)
    (hrel : MoofRelative view) (trex : Nat → Nat) (j k : Nat) (samples : Nat × Bytes)
    (hsamples : (fragmentOf moof mdat).select trex j k = some samples)
    (segments : List MseSegment) (hsegments : p.extractFragmentedSegments = .ok segments) :
    ∃ first media segment, p.initSegments = .ok first ∧ segments = first++media ∧
      media[pairCount pre]? = some segment ∧
      (FoundIn segment.data trex j k samples ↔ KeepsAddresses view moof mdat) := by
  obtain ⟨place,bytes⟩ := samples
  obtain ⟨bs,hp⟩ := readMoof_eq_some.mp hview
  obtain ⟨v,r,offset,hs⟩ := (select_eq_some hview).mp hsamples
  rw [hboxes] at hdata
  obtain ⟨start,hmoof,hmdat⟩ := parseBoxesFrom_parsedAt hdata
  obtain ⟨first,media,hfirst,hmedia,rfl⟩ := extractFragmentedSegments_ok hsegments
  rw [hboxes] at hmedia
  obtain ⟨segment,hget,hsegment⟩ := mediaSegments_split p hpair post pre 0 media hmedia
  have hcontent := mediaSegment_data hsegment
  rw [mediaData_eq hp hrel (content_lt hmoof hmdat hp hs)] at hcontent
  split_ifs at hcontent
  have htype : mdat.header.boxType = tagMdat := by
    simp only [isPair,Bool.and_eq_true,beq_iff_eq] at hpair
    exact hpair.2
  refine ⟨first,media,segment,hfirst,rfl,hget,?_⟩
  rw [← Except.ok.inj hcontent]
  exact found_iff hmoof hmdat htype hp hs _

/-- A `moof` with a run of one sample of four bytes, behind the given boxes of its `traf`. -/
def sampleMoof (boxes : List RawBox) (dataOffset : UInt8) : RawBox :=
  ⟨tagMoof,encodeAll
    [⟨tagMfhd,[0,0,0,0,0,0,0,1]⟩,
      ⟨tagTraf,encodeAll (⟨tagTfhd,[0,2,0,0,0,0,0,1]⟩::boxes++
        [⟨tagTrun,[0,0,2,1,0,0,0,1,0,0,0,dataOffset,0,0,0,4]⟩])⟩]⟩

def sampleMdat : RawBox := ⟨tagMdat,[1,2,3,4]⟩

/-- A file of one fragment, and the boxes that it is parsed into. -/
def sampleFile (boxes : List RawBox) (dataOffset : UInt8) : Bytes :=
  encodeAll [sampleMoof boxes dataOffset,sampleMdat]

def moofBox (boxes : List RawBox) (dataOffset : UInt8) : Mp4Box :=
  let moof := sampleMoof boxes dataOffset
  ⟨⟨tagMoof,moof.size,8⟩,moof.body⟩

def mdatBox (moof : Mp4Box) : Mp4Box := ⟨⟨tagMdat,12,moof.header.size+8⟩,[1,2,3,4]⟩

/-- The parser after it has read the file. -/
def sampleParser (boxes : List RawBox) (dataOffset : UInt8) : Mp4Parser :=
  let moof := moofBox boxes dataOffset
  ⟨[moof,mdatBox moof],[]⟩

/-- A fragment that has a `tfdt` of version 1 already. -/
theorem samples_found_iff_timed : ∃ segment,
    (sampleParser [tfdtBox 0] 100).extractFragmentedSegments = .ok [segment] ∧
    FoundIn segment.data (fun _ => 0) 0 0 (0,[1,2,3,4]) := by
  let moof := moofBox [tfdtBox 0] 100
  let view : List TrafView := [⟨⟨0x20000,1,none⟩,some 1,[⟨some 100,[some 4]⟩]⟩]
  obtain ⟨segment,hsegment⟩ : ∃ segment,
      (sampleParser [tfdtBox 0] 100).extractFragmentedSegments = .ok [segment] :=
    ⟨⟨.media,encodeAll [sampleMoof [tfdtBox 0] 100,sampleMdat],some 0,some 33,true,1⟩,
      by decide +kernel⟩
  have hrel : MoofRelative view := by
    intro v hv
    rw [List.mem_singleton] at hv
    subst hv
    exact ⟨by decide,by decide,by simp⟩
  obtain ⟨first,media,segment',hfirst,hall,hget,hiff⟩ := samples_found_iff
    (sampleFile [tfdtBox 0] 100) (sampleParser [tfdtBox 0] 100) (by decide +kernel) [] [] moof
    (mdatBox moof) rfl (by decide) view (by decide +kernel) hrel (fun _ => 0) 0 0 (0,[1,2,3,4])
    (by decide +kernel) [segment] hsegment
  refine ⟨segment,hsegment,?_⟩
  have hempty : first = [] := by
    have hinit : (sampleParser [tfdtBox 0] 100).initSegments = .ok [] := by decide +kernel
    rw [hinit] at hfirst
    exact (Except.ok.inj hfirst).symm
  subst hempty
  rw [List.nil_append] at hall
  rw [← hall] at hget
  rw [Option.some.inj hget]
  exact hiff.mpr ⟨by decide +kernel,by decide⟩

/-- Without a `tfdt`, the rewrite makes the `moof` longer, and the run does not lead into
the payload any more. -/
theorem inserted_tfdt_breaks_addresses :
    parseBoxes (sampleFile [] 80) = .ok (sampleParser [] 80).boxes ∧
    readMoof (moofBox [] 80).content =
      some [⟨⟨0x20000,1,none⟩,none,[⟨some 80,[some 4]⟩]⟩] ∧
    (fragmentOf (moofBox [] 80) (mdatBox (moofBox [] 80))).select (fun _ => 0) 0 0 =
      some (0,[1,2,3,4]) ∧
    ∃ segment, (sampleParser [] 80).extractFragmentedSegments = .ok [segment] ∧
      ¬ FoundIn segment.data (fun _ => 0) 0 0 (0,[1,2,3,4]) ∧
      (readFragment segment.data).bind (fun f => f.select (fun _ => 0) 0 0) = none := by
  refine ⟨by decide +kernel,by decide +kernel,by decide +kernel,
    ⟨.media,encodeAll [sampleMoof [tfdtBox 0] 80,sampleMdat],some 0,some 33,true,1⟩,
    by decide +kernel,?_,by decide +kernel⟩
  unfold FoundIn
  decide +kernel

end Mp4Parser

end OpenBroadcast.Media
