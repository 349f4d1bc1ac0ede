import OpenBroadcast.Media.ParserReuse
import OpenBroadcast.Media.SampleAddressing
import OpenBroadcast.Media.StreamTimeline

namespace OpenBroadcast.Media

open RawBox

section Ids

/-- The contents of the boxes of a kind. -/
def bodiesOf (kind data : Bytes) : List Bytes :=
  ((boxesIn data).filter (fun b => b.kind == kind)).map (fun b => b.bytes.drop 8)

/-- The track ids in the `tfhd` boxes of a `moof`. -/
def tfhdIds (moof : Bytes) : List Nat :=
  (bodiesOf tagTraf moof).flatMap (fun traf =>
    ((bodiesOf tagTfhd traf).filter (fun tfhd => decide (8 ≤ tfhd.length))).map
      (fun tfhd => beNat ((tfhd.drop 4).take 4)))

/-- The track ids of a fragment. -/
def fragmentIds (data : Bytes) : List Nat := (bodiesOf tagMoof data).flatMap tfhdIds

theorem boxesIn_encode {b : RawBox} (h : b.Fits) (rest : Bytes) :
    boxesIn (b.encode++rest) = ⟨b.kind,b.size,b.encode++rest⟩::boxesIn rest := by
  have h8 := b.eight_le_size
  have hlength : (b.encode++rest).length = b.size+rest.length := by
    rw [List.length_append,h.length_encode]
  obtain ⟨n,hn⟩ : ∃ n, (b.encode++rest).length = n+1 := ⟨b.size+rest.length-1,by omega⟩
  unfold boxesIn
  rw [hn,boxesFrom]
  rw [h.read_size,if_neg (by omega),h.read_kind,h.drop_size]
  congr 1
  exact boxesFrom_enough (by omega) (le_refl _)

/-- Over well-formed boxes, the walk finds these boxes. -/
theorem boxesIn_encodeAll {bs : List RawBox} (h : ∀ b ∈ bs, b.Fits) :
    (boxesIn (encodeAll bs)).map (fun b => (b.kind,b.bytes)) =
      bs.map (fun b => (b.kind,b.encode)) := by
  induction bs with
  | nil => rfl
  | cons b bs ih =>
    have hb := h b List.mem_cons_self
    have htail := ih (fun c hc => h c (List.mem_cons_of_mem _ hc))
    have hbytes : BoxAt.bytes ⟨b.kind,b.size,b.encode++encodeAll bs⟩ = b.encode :=
      hb.take_size _
    rw [encodeAll_cons,boxesIn_encode hb,List.map_cons,List.map_cons,htail,hbytes]

theorem bodiesOf_encodeAll (kind : Bytes) {bs : List RawBox} (h : ∀ b ∈ bs, b.Fits) :
    bodiesOf kind (encodeAll bs) = (bs.filter (fun b => b.kind == kind)).map RawBox.body := by
  have hwalk : bodiesOf kind (encodeAll bs) =
      (((boxesIn (encodeAll bs)).map (fun b => (b.kind,b.bytes))).filter
        (fun b => b.1 == kind)).map (fun b => b.2.drop 8) := by
    unfold bodiesOf
    rw [List.filter_map,List.map_map]
    rfl
  rw [hwalk,boxesIn_encodeAll h,List.filter_map,List.map_map]
  apply List.map_congr_left
  intro b hb
  have hdrop := (h b (List.mem_filter.mp hb).1).drop_header []
  rwa [List.append_nil,List.append_nil] at hdrop

/-- What stands inside a box that can be written can be written. -/
theorem fits_of_mem {b : RawBox} {bs : List RawBox} (h : b ∈ bs) (hkind : b.kind.length = 4)
    (hlength : (encodeAll bs).length < 2^32) : b.Fits := by
  have hle := length_encode_le h
  refine ⟨hkind,?_⟩
  simp only [encode,List.length_append,length_toBe,hkind] at hle
  unfold RawBox.size
  omega

namespace FragmentedMp4Converter

variable {s s' : FragmentedMp4Converter} {trackId : UInt32}

/-- The boxes of a fragment with one track. -/
structure OneTrack (trackId : UInt32) (moof mfhd traf tfdt trun mdat : RawBox) : Prop where
  kinds : [moof,mfhd,traf,tfdt,trun,mdat].map RawBox.kind =
    [tagMoof,tagMfhd,tagTraf,tagTfdt,tagTrun,tagMdat]
  moofBody : moof.body = encodeAll [mfhd,traf]
  trafBody : traf.body = encodeAll [tfhdBox trackId,tfdt,trun]
  moofSize : moof.size < 2^32
  mdatSize : mdat.size < 2^32

theorem OneTrack.fragmentIds {moof mfhd traf tfdt trun mdat : RawBox}
    (h : OneTrack trackId moof mfhd traf tfdt trun mdat) :
    fragmentIds (encodeAll [moof,mdat]) = [trackId.toNat] := by
  obtain ⟨hkinds,hmoof,htraf,hmoofSize,hmdatSize⟩ := h
  simp only [List.map_cons,List.map_nil,List.cons.injEq,and_true] at hkinds
  obtain ⟨kmoof,kmfhd,ktraf,ktfdt,ktrun,kmdat⟩ := hkinds
  have hmid : (encodeAll [mfhd,traf]).length < 2^32 := by
    rw [← hmoof]
    exact lt_of_le_of_lt (Nat.le_add_left _ 8) hmoofSize
  have htrafFits : traf.Fits := fits_of_mem (by simp) (by rw [ktraf]; rfl) hmid
  have hin : (encodeAll [tfhdBox trackId,tfdt,trun]).length < 2^32 := by
    rw [← htraf]
    exact lt_of_le_of_lt (Nat.le_add_left _ 8) htrafFits.size
  have hfits : ∀ b ∈ [moof,mdat], b.Fits := by
    intro b hb
    rcases List.mem_pair.mp hb with rfl | rfl
    · exact ⟨by rw [kmoof]; rfl,hmoofSize⟩
    · exact ⟨by rw [kmdat]; rfl,hmdatSize⟩
  have hfitsMid : ∀ b ∈ [mfhd,traf], b.Fits := by
    intro b hb
    apply fits_of_mem hb _ hmid
    rcases List.mem_pair.mp hb with rfl | rfl
    · rw [kmfhd]
      rfl
    · rw [ktraf]
      rfl
  have hfitsIn : ∀ b ∈ [tfhdBox trackId,tfdt,trun], b.Fits := by
    intro b hb
    apply fits_of_mem hb _ hin
    simp only [List.mem_cons,List.not_mem_nil,or_false] at hb
    rcases hb with rfl | rfl | rfl
    · rfl
    · rw [ktfdt]
      rfl
    · rw [ktrun]
      rfl
  have hmoofs : bodiesOf tagMoof (encodeAll [moof,mdat]) = [moof.body] := by
    rw [bodiesOf_encodeAll _ hfits]
    simp [kmoof,kmdat,tagMoof,tagMdat]
  have htrafs : bodiesOf tagTraf moof.body = [traf.body] := by
    rw [hmoof,bodiesOf_encodeAll _ hfitsMid]
    simp [kmfhd,ktraf,tagMfhd,tagTraf]
  have htfhds : bodiesOf tagTfhd traf.body = [(tfhdBox trackId).body] := by
    rw [htraf,bodiesOf_encodeAll _ hfitsIn]
    simp [tfhdBox,ktfdt,ktrun,tagTfhd,tagTfdt,tagTrun]
  have hid : beNat (((tfhdBox trackId).body.drop 4).take 4) = trackId.toNat := by
    have hlength := length_toBe 4 trackId.toNat
    change beNat ((toBe 4 trackId.toNat).take 4) = _
    rw [List.take_of_length_le (by omega),beNat_toBe_four trackId.toNat_lt]
  have hlong : 8 ≤ (tfhdBox trackId).body.length := by simp [tfhdBox]
  unfold Media.fragmentIds tfhdIds
  rw [hmoofs,List.flatMap_singleton,htrafs,List.flatMap_singleton,htfhds,
    List.filter_cons_of_pos (by simpa using hlong),List.filter_nil,List.map_singleton,hid]

theorem fragmentIds_v2 {frames : List FrameData} (hmoof : s.moofLength frames+8 < 2^32)
    (hdata : 8+(frames.flatMap FrameData.data).length < 2^32) :
    fragmentIds (encodeAll [s.moofBox trackId frames,mdatBox frames]) = [trackId.toNat] := by
  have hone : OneTrack trackId (s.moofBox trackId frames) s.mfhdBox (s.trafBox trackId frames)
      s.timeBox (s.runBox frames) (mdatBox frames) :=
    ⟨rfl,rfl,rfl,(moofBox_fits trackId hmoof).size,(mdatBox_fits hdata).size⟩
  exact hone.fragmentIds

/-- The fragments of one frame that `create_fragment` makes. -/
theorem fragmentIds_createFragment {frame : FrameData} {data : Bytes} (hbuilt : frame.Built)
    (hlength : 8+frame.data.length < 2^32)
    (h : s.createFragment [frame] trackId = .ok (data,s')) :
    fragmentIds data = [trackId.toNat] := by
  obtain ⟨moof,hmoof,h⟩ := bind_eq_ok.mp h
  obtain ⟨mdat,hmdat,h⟩ := bind_eq_ok.mp h
  obtain ⟨_,_,h⟩ := bind_eq_ok.mp h
  cases h
  obtain ⟨traf,htraf,hmoof⟩ := bind_eq_ok.mp hmoof
  obtain ⟨trun,htrun,htraf⟩ := bind_eq_ok.mp htraf
  obtain ⟨size,_,htrun⟩ := bind_eq_ok.mp htrun
  obtain ⟨offset,_,htrun⟩ := bind_eq_ok.mp htrun
  have hdata : 8+([frame].flatMap FrameData.data).length < 2^32 := by simpa using hlength
  rw [createMdat_ok (by simpa using hbuilt) hdata] at hmdat
  cases hmdat
  have hcontent : ([1]++[0x00,0x03,0x01]++toBe 4 ([frame].length%2^32)++toBe 4 offset++
      [frame].flatMap sampleEntry : Bytes).length = 20 := by
    simp [sampleEntry]
  -- The boxes are small, so that their sizes are what `wrap_box` writes.
  generalize ([1]++[0x00,0x03,0x01]++toBe 4 ([frame].length%2^32)++toBe 4 offset++
      [frame].flatMap sampleEntry : Bytes) = content at htrun hcontent
  have hrunEncode : (RawBox.mk tagTrun content).encode.length = 28 := by
    simp [encode,hcontent,tagTrun]
  have htrafContent : (createTfhd trackId++s.createTfdt++
      (RawBox.mk tagTrun content).encode).length = 60 := by
    rw [List.length_append,List.length_append,hrunEncode]
    simp [createTfhd,createTfdt,tagTfhd,tagTfdt]
  rw [wrapBox_ok _ (by omega)] at htrun
  cases htrun
  rw [wrapBox_ok _ (by omega)] at htraf
  cases htraf
  have hmoofContent : (s.createMfhd++(RawBox.mk tagTraf (createTfhd trackId++s.createTfdt++
      (RawBox.mk tagTrun content).encode)).encode).length = 84 := by
    rw [List.length_append,encode,List.length_append,htrafContent]
    simp [createMfhd,tagMfhd,tagTraf]
  rw [wrapBox_ok _ (by omega)] at hmoof
  cases hmoof
  have hone : OneTrack trackId
      ⟨tagMoof,s.createMfhd++(RawBox.mk tagTraf (createTfhd trackId++s.createTfdt++
        (RawBox.mk tagTrun content).encode)).encode⟩ s.mfhdBox
      ⟨tagTraf,createTfhd trackId++s.createTfdt++(RawBox.mk tagTrun content).encode⟩
      s.shortTimeBox ⟨tagTrun,content⟩ (mdatBox [frame]) := by
    constructor
    · rfl
    · simp only [encodeAll_cons,encodeAll_nil,List.append_nil,encode_mfhdBox]
    · simp only [encodeAll_cons,encodeAll_nil,List.append_nil,encode_tfhdBox,
        encode_shortTimeBox,List.append_assoc]
    · unfold RawBox.size
      dsimp only
      omega
    · exact (mdatBox_fits hdata).size
  have hids := hone.fragmentIds
  rw [encodeAll_cons,encodeAll_cons,encodeAll_nil,List.append_nil] at hids
  exact hids

end FragmentedMp4Converter

end Ids

section Pairs

/-- The `moof` boxes that an `mdat` follows, each with it. -/
def fragmentPairs : List Mp4Box → List (Mp4Box × Mp4Box)
  | a::b::rest =>
    if Mp4Parser.isPair a b then (a,b)::fragmentPairs rest else fragmentPairs (b::rest)
  | _ => []

/-- The index of the next pair. -/
theorem mapIdx_next {α : Type} (index : Nat) (l : List α) :
    l.mapIdx (fun i a => (index+(i+1),a)) = l.mapIdx (fun i a => (index+1+i,a)) := by
  congr 1
  funext i a
  rw [Nat.add_assoc,Nat.add_comm 1 i]

/-- The media segments are those of the pairs, with their indices. -/
theorem mediaSegments_eq (p : Mp4Parser) (bs : List Mp4Box) (index : Nat) :
    p.mediaSegments index bs = ((fragmentPairs bs).mapIdx (fun i pair => (index+i,pair))).mapM
      (fun (i,moof,mdat) => p.mediaSegment i moof mdat) := by
  fun_induction fragmentPairs bs generalizing index with
  | case1 a b rest hpair ih =>
    rw [Mp4Parser.mediaSegments,if_pos hpair,List.mapIdx_cons,List.mapM_cons,mapIdx_next,ih]
    rfl
  | case2 a b rest hpair ih =>
    rw [Mp4Parser.mediaSegments,if_neg hpair,ih]
  | case3 bs hbs =>
    rcases bs with _ | ⟨a,_ | ⟨b,rest⟩⟩
    · rfl
    · rfl
    · exact absurd rfl (hbs a b rest)

theorem mediaSegment_label {p : Mp4Parser} {index : Nat} {moof mdat : Mp4Box} {seg : MseSegment}
    (h : p.mediaSegment index moof mdat = .ok seg) :
    seg.segmentType = .media ∧ seg.trackId = 1 := by
  obtain ⟨_,_,h⟩ := bind_eq_ok.mp h
  obtain ⟨_,_,h⟩ := bind_eq_ok.mp h
  obtain ⟨_,_,h⟩ := bind_eq_ok.mp h
  cases h
  exact ⟨rfl,rfl⟩

/-- Every pair has a segment of the track 1. -/
theorem mediaSegments_labels {p : Mp4Parser} {index : Nat} {bs : List Mp4Box}
    {media : List MseSegment} (h : p.mediaSegments index bs = .ok media) :
    List.Forall₂ (fun _ seg => seg.segmentType = .media ∧ seg.trackId = 1) (fragmentPairs bs)
      media := by
  rw [mediaSegments_eq] at h
  have hindexed : List.Forall₂ (fun (_ : Nat × Mp4Box × Mp4Box) seg =>
      seg.segmentType = .media ∧ seg.trackId = 1)
      ((fragmentPairs bs).mapIdx (fun i pair => (index+i,pair))) media := by
    apply (mapM_eq_ok_iff.mp h).imp
    rintro ⟨i,moof,mdat⟩ seg hseg
    exact mediaSegment_label hseg
  rw [← RegularMp4.map_snd_mapIdx (fragmentPairs bs) (fun i => index+i)]
  exact List.forall₂_map_left_iff.mpr hindexed

theorem initSegments_type {p : Mp4Parser} {first : List MseSegment}
    (h : p.initSegments = .ok first) : ∀ seg ∈ first, seg.segmentType = .initialization := by
  obtain ⟨parts,_,h⟩ := bind_eq_ok.mp h
  cases h
  intro seg hseg
  split_ifs at hseg
  · cases hseg
  · rw [List.mem_singleton.mp hseg]

/-- The media segments among those of a fragmented file. -/
theorem filter_media {p : Mp4Parser} {index : Nat} {bs : List Mp4Box} {first media : List MseSegment}
    (hfirst : p.initSegments = .ok first) (hmedia : p.mediaSegments index bs = .ok media) :
    (first++media).filter (fun seg => seg.segmentType == .media) = media := by
  have hnone : first.filter (fun seg => seg.segmentType == .media) = [] := by
    apply List.filter_eq_nil_iff.mpr
    intro seg hseg
    simp [initSegments_type hfirst seg hseg]
  have hall : media.filter (fun seg => seg.segmentType == .media) = media := by
    apply List.filter_eq_self.mpr
    intro seg hseg
    obtain ⟨_,_,htype,_⟩ := forall₂_mem_right (mediaSegments_labels hmedia) hseg
    simp [htype]
  rw [List.filter_append,hnone,hall,List.nil_append]

end Pairs

section Labels

/-- A media segment as it is delivered: the track ids of its fragment, its kind and its track. -/
structure SegmentLabel where
  ids : List Nat
  mediaType : MediaType
  trackId : UInt8
  deriving DecidableEq

/-- Segments of sound are audio, those of pictures are video, and those of distinct tracks have
distinct ids. -/
structure KindsKept (tracks : List ParsedTrack) (labels : List SegmentLabel) : Prop where
  soun : ∀ label ∈ labels, ∀ track ∈ tracks, track.trackId.toNat ∈ label.ids →
    track.mediaType = "soun" → label.mediaType = .audio
  vide : ∀ label ∈ labels, ∀ track ∈ tracks, track.trackId.toNat ∈ label.ids →
    track.mediaType = "vide" → label.mediaType = .video
  distinct : ∀ a ∈ labels, ∀ b ∈ labels, ∀ t ∈ tracks, ∀ u ∈ tracks, t.trackId.toNat ∈ a.ids →
    u.trackId.toNat ∈ b.ids → t.trackId ≠ u.trackId → a.trackId ≠ b.trackId

/-- The stream segment has the kind, the track and the data of the segment. -/
structure Labelled (mse : MseSegment) (seg : StreamSegment) : Prop where
  mediaType : seg.mediaType = StreamSegment.mseMediaType mse
  trackId : seg.trackId = .ofNat mse.trackId
  data : seg.data = mse.data

theorem fromMseSegment_labelled {mse : MseSegment} {streamId : StreamId} {sequence : Nat}
    {seg : StreamSegment} (h : StreamSegment.fromMseSegment mse streamId sequence = .ok seg) :
    Labelled mse seg := by
  obtain ⟨_,_,h⟩ := bind_eq_ok.mp h
  obtain ⟨_,_,h⟩ := bind_eq_ok.mp h
  split_ifs at h with hlength
  cases h
  exact ⟨rfl,rfl,rfl⟩

theorem mseMediaType_eq_initialization (mse : MseSegment) :
    StreamSegment.mseMediaType mse = .initialization ↔ mse.segmentType = .initialization := by
  unfold StreamSegment.mseMediaType
  split_ifs with hinit haudio <;> simp [hinit]

/-- The segments that are not for initialization. -/
def mediaOf (segments : List StreamSegment) : List StreamSegment :=
  segments.filter (fun seg => seg.mediaType != .initialization)

/-- Initialization segments come first. -/
theorem mediaOf_forall₂ {first media : List MseSegment} {segments : List StreamSegment}
    (hfirst : ∀ mse ∈ first, mse.segmentType = .initialization)
    (hmedia : ∀ mse ∈ media, mse.segmentType = .media)
    (h : List.Forall₂ Labelled (first++media) segments) :
    List.Forall₂ Labelled media (mediaOf segments) := by
  obtain ⟨x,y,rfl,hx,hy⟩ := forall₂_append h
  have hnone : ∀ seg ∈ x, ¬ (seg.mediaType != .initialization) = true := by
    intro seg hseg
    obtain ⟨mse,hmse,hlabel⟩ := forall₂_mem_right hx hseg
    have := (mseMediaType_eq_initialization mse).mpr (hfirst mse hmse)
    simp [hlabel.mediaType,this]
  have hall : ∀ seg ∈ y, (seg.mediaType != .initialization) = true := by
    intro seg hseg
    obtain ⟨mse,hmse,hlabel⟩ := forall₂_mem_right hy hseg
    have hnot : ¬ StreamSegment.mseMediaType mse = .initialization := by
      rw [mseMediaType_eq_initialization,hmedia mse hmse]
      decide
    simp [hlabel.mediaType,hnot]
  unfold mediaOf
  rw [List.filter_append,List.filter_eq_nil_iff.mpr hnone,List.filter_eq_self.mpr hall,
    List.nil_append]
  exact hy

end Labels

section Regular

namespace RegularMp4

variable {p : RegularMp4} {file : Bytes}

/-- There is a fragment for the audio. -/
def EmitsAudio (p : RegularMp4) (track : SampledTrack) : Prop :=
  p.mdatData ≠ [] ∧ p.audioTrack = some track ∧ ∃ t entries, track.sampleTable = some t ∧
    t.resolveSampleOffsets = .ok entries ∧ (audioChunks track entries).filter p.isKept ≠ []

/-- There is a fragment with a track id. -/
def Emits (p : RegularMp4) (id : UInt32) : Prop :=
  p.EmitsVideo ∧ id = p.trackId ∨ ∃ track, p.EmitsAudio track ∧ id = track.trackId

/-- How the segments of a track with an id are delivered. -/
def trackLabel (id : UInt32) : SegmentLabel :=
  ⟨[id.toNat],if id = 2 then .audio else .video,.ofNat id.toNat⟩

def mseLabel (mse : MseSegment) : SegmentLabel :=
  ⟨fragmentIds mse.data,StreamSegment.mseMediaType mse,.ofNat mse.trackId⟩

/-- A media segment whose fragment has the one track that the segment says. -/
structure OfTrack (id : UInt32) (mse : MseSegment) : Prop where
  segmentType : mse.segmentType = .media
  trackId : mse.trackId = id.toNat
  ids : fragmentIds mse.data = [id.toNat]

theorem OfTrack.label {id : UInt32} {mse : MseSegment} (h : OfTrack id mse) :
    mseLabel mse = trackLabel id := by
  have htwo : mse.trackId = 2 ↔ id = 2 := by
    rw [h.trackId,← UInt32.toNat_inj]
    rfl
  have hkind : StreamSegment.mseMediaType mse = if id = 2 then .audio else .video := by
    unfold StreamSegment.mseMediaType
    rw [h.segmentType,if_neg (by decide)]
    simp only [htwo]
  unfold mseLabel trackLabel
  rw [h.ids,hkind,h.trackId]

theorem ofTrack_pieces {n index : Nat} {data : Bytes} {c c' : FragmentedMp4Converter}
    {segments : List MseSegment} (h : p.pieceSegments n index data c = .ok (segments,c')) :
    ∀ mse ∈ segments, OfTrack p.trackId mse := by
  induction n generalizing index data c segments with
  | zero =>
    intro mse hmse
    cases data <;>
    · cases h
      cases hmse
  | succ n ih =>
    by_cases hne : data = []
    · subst hne
      cases h
      intro mse hmse
      cases hmse
    · rw [pieceSegments] at h
      · obtain ⟨timestamp,_,h⟩ := bind_eq_ok.mp h
        obtain ⟨⟨fragment,c₁⟩,hfragment,h⟩ := bind_eq_ok.mp h
        obtain ⟨⟨rest,c₂⟩,hrest,h⟩ := bind_eq_ok.mp h
        cases h
        intro mse hmse
        rcases List.mem_cons.mp hmse with rfl | hmse
        · have hlength : (data.take chunkSize).length ≤ chunkSize := List.length_take_le _ _
          refine ⟨rfl,rfl,?_⟩
          apply FragmentedMp4Converter.fragmentIds_createFragment _ _ hfragment
          · exact ⟨_,_,_,_,rfl⟩
          · have hdata : (FrameData.new (data.take chunkSize) (.ofNat p.timescale)
                (index == 0) 0).data = data.take chunkSize := rfl
            rw [hdata]
            unfold chunkSize at hlength ⊢
            omega
        · exact ih hrest mse hmse
      · exact hne

theorem ofTrack_segment {loop : GroupLoop} (hplain : loop.Plain) {start : Nat} {mdat : Bytes}
    {s : FragmentedMp4Converter} {group : List SampleEntry}
    (hinside : AllInside start mdat.length group) (hfits : Fits loop.timescale s group) :
    OfTrack loop.trackId (loop.segment start mdat s group) := by
  refine ⟨rfl,rfl,?_⟩
  apply FragmentedMp4Converter.fragmentIds_v2
  · rw [moofLength_frames]
    exact hfits.moof
  · rw [hplain.length_data hinside]
    exact hfits.mdat

/-- The segments of groups that are kept. -/
theorem ofTrack_segments {loop : GroupLoop} (hplain : loop.Plain)
    {groups : List (List SampleEntry)}
    (h : Encodable loop.timescale .new (groups.filter p.isKept)) :
    ∀ mse ∈ (groups.filter p.isKept).mapIdx (fun i group =>
        loop.segment p.mdatPayloadOffset p.mdatData
          (FragmentedMp4Converter.new.before (groups.filter p.isKept) i) group),
      OfTrack loop.trackId mse := by
  intro mse hmse
  obtain ⟨i,hi,rfl⟩ := List.mem_mapIdx.mp hmse
  have hgroup : (groups.filter p.isKept)[i]? = some (groups.filter p.isKept)[i] :=
    List.getElem?_eq_getElem hi
  have hkept := (List.mem_filter.mp (List.getElem_mem hi)).2
  exact ofTrack_segment hplain (by simpa [isKept] using hkept) (h i _ hgroup)

variable (hp : p.FreshlyParsed file) (hac3 : p.hasAc3Audio = false)

include hp

theorem ofTrack_video {video : List MseSegment} {c : FragmentedMp4Converter}
    (h : p.videoSegments = .ok (video,c)) : ∀ mse ∈ video, OfTrack p.trackId mse := by
  cases htable : p.videoTrack.bind SampledTrack.sampleTable with
  | none =>
    unfold videoSegments at h
    rw [htable] at h
    exact ofTrack_pieces h
  | some t =>
    obtain ⟨track,htrack,ht⟩ := Option.bind_eq_some_iff.mp htable
    obtain ⟨entries,_,_,hencodable,rfl⟩ :=
      videoSegments_table hp.counts hp.converter htrack ht h
    exact ofTrack_segments p.videoLoop_plain hencodable

include hac3

theorem ofTrack_audio (hmedia : p.mdatData ≠ []) {audio : List MseSegment}
    (h : p.audioSegments = .ok audio) :
    (∀ mse ∈ audio, ∃ track, p.EmitsAudio track ∧ OfTrack track.trackId mse) ∧
    ∀ track, p.EmitsAudio track → audio ≠ [] := by
  by_cases htable : ∃ track t, p.audioTrack = some track ∧ track.sampleTable = some t
  · obtain ⟨track,t,htrack,ht⟩ := htable
    obtain ⟨entries,hentries,hencodable,rfl⟩ := audioSegments_table hp.counts hac3 htrack ht h
    constructor
    · intro mse hmse
      refine ⟨track,⟨hmedia,htrack,t,entries,ht,hentries,?_⟩,
        ofTrack_segments (audioLoop_plain track) hencodable mse hmse⟩
      intro hnil
      rw [hnil] at hmse
      cases hmse
    · intro track' hemits hnil
      obtain ⟨_,htrack',t',entries',ht',hentries',hkept⟩ := hemits
      rw [htrack] at htrack'
      cases htrack'
      rw [ht] at ht'
      cases ht'
      rw [hentries] at hentries'
      cases hentries'
      exact hkept (List.mapIdx_eq_nil_iff.mp hnil)
  · rw [audioSegments_none (fun hboth => htable hboth.2)] at h
    cases h
    constructor
    · intro mse hmse
      cases hmse
    · intro track hemits
      obtain ⟨_,htrack,t,_,ht,_⟩ := hemits
      exact absurd ⟨track,t,htrack,ht⟩ htable

/-- What the conversion returns: an initialization segment, and for every track with fragments the
segments of this track. -/
theorem createFragments_labels {mse : List MseSegment} {c : FragmentedMp4Converter}
    (h : p.createFragmentsFromRegularMp4 = .ok (mse,c)) :
    ∃ init media, p.initSegment = .ok init ∧ mse = init::media ∧
      (∀ one ∈ media, one.segmentType = .media) ∧
      ∀ label, label ∈ media.map mseLabel ↔ ∃ id, p.Emits id ∧ label = trackLabel id := by
  by_cases hmedia : p.mdatData = []
  · obtain ⟨init,hinit,h⟩ := bind_eq_ok.mp h
    rw [if_pos (by simpa using hmedia)] at h
    cases h
    refine ⟨init,[],hinit,rfl,fun one hone => (by cases hone),?_⟩
    intro label
    constructor
    · intro hlabel
      cases hlabel
    · intro hlabel
      obtain ⟨_,hemits | ⟨_,hemits,_⟩,_⟩ := hlabel
      · exact absurd hmedia hemits.1.2.1
      · exact absurd hmedia hemits.1
  · obtain ⟨init,video,audio,hinit,hvideo,haudio,rfl⟩ := createFragments_parts hmedia h
    have hmoov : ∃ moov, p.lastBox tagMoov = some moov := by
      cases hlast : p.lastBox tagMoov with
      | some moov => exact ⟨moov,rfl⟩
      | none =>
        unfold initSegment at hinit
        dsimp only at hinit
        rw [hlast] at hinit
        cases hinit
    have hvideoIff := (videoSegments_numbered hmoov hmedia hvideo).2
    have hvideoTrack := ofTrack_video hp hvideo
    obtain ⟨haudioTrack,haudioNe⟩ := ofTrack_audio hp hac3 hmedia haudio
    refine ⟨init,video++audio,hinit,rfl,?_,?_⟩
    · intro one hone
      rcases List.mem_append.mp hone with hone | hone
      · exact (hvideoTrack one hone).segmentType
      · obtain ⟨_,_,htrack⟩ := haudioTrack one hone
        exact htrack.segmentType
    · intro label
      constructor
      · intro hlabel
        obtain ⟨one,hone,rfl⟩ := List.mem_map.mp hlabel
        rcases List.mem_append.mp hone with hone | hone
        · exact ⟨p.trackId,Or.inl ⟨hvideoIff.mp (List.ne_nil_of_mem hone),rfl⟩,
            (hvideoTrack one hone).label⟩
        · obtain ⟨track,hemits,htrack⟩ := haudioTrack one hone
          exact ⟨track.trackId,Or.inr ⟨track,hemits,rfl⟩,htrack.label⟩
      · intro hlabel
        obtain ⟨id,⟨hemits,rfl⟩ | ⟨track,hemits,rfl⟩,rfl⟩ := hlabel
        · obtain ⟨one,hone⟩ := List.exists_mem_of_ne_nil _ (hvideoIff.mpr hemits)
          exact List.mem_map.mpr ⟨one,List.mem_append_left _ hone,(hvideoTrack one hone).label⟩
        · obtain ⟨one,hone⟩ := List.exists_mem_of_ne_nil _ (haudioNe track hemits)
          obtain ⟨track',hemits',htrack⟩ := haudioTrack one hone
          have hsame : track' = track := Option.some.inj (hemits'.2.1.symm.trans hemits.2.1)
          rw [hsame] at htrack
          exact List.mem_map.mpr ⟨one,List.mem_append_right _ hone,htrack.label⟩

end RegularMp4

end Regular

namespace ParserState

open RegularMp4

/-- The track ids of the fragments that the media segments are made of. In a fragmented file these
are the fragments of the file, and otherwise what the segments hold. -/
def sourceIds (s : ParserState) (media : List StreamSegment) : List (List Nat) :=
  if s.isFragmented then (fragmentPairs s.boxes).map (fun pair => tfhdIds pair.1.content)
  else media.map (fun seg => fragmentIds seg.data)

def labels (s : ParserState) (segments : List StreamSegment) : List SegmentLabel :=
  List.zipWith (fun ids seg => ⟨ids,seg.mediaType,seg.trackId⟩) (s.sourceIds (mediaOf segments))
    (mediaOf segments)

/-- A fragment of a fragmented file has the track id. -/
def HasFragment (s : ParserState) (id : UInt32) : Prop :=
  ∃ pair ∈ fragmentPairs s.boxes, id.toNat ∈ tfhdIds pair.1.content

/-- A fragmented file has fragments of one track, which is none of sound. In another file, the
tracks with fragments have the number 2 exactly for sound, and differ in the last byte. -/
def IdsTellKinds (s : ParserState) : Prop :=
  if s.isFragmented then
    ∀ t ∈ s.tracks, s.HasFragment t.trackId → t.mediaType ≠ "soun" ∧
      ∀ u ∈ s.tracks, s.HasFragment u.trackId → t.trackId = u.trackId
  else
    ∀ t ∈ s.tracks, s.regular.Emits t.trackId → (t.mediaType = "soun" → t.trackId = 2) ∧
      (t.mediaType = "vide" → t.trackId ≠ 2) ∧
      ∀ u ∈ s.tracks, s.regular.Emits u.trackId → t.trackId.toNat%256 = u.trackId.toNat%256 →
        t.trackId = u.trackId

variable {s s' : ParserState} {file : Bytes} {streamId : StreamId} {segments : List StreamSegment}

theorem generateStreamSegments_labelled
    (h : s.generateStreamSegments streamId = .ok (segments,s')) :
    ∃ mse, s.generateMseSegments = .ok (mse,s') ∧ List.Forall₂ Labelled mse segments := by
  obtain ⟨mse,hmse,hall⟩ := generateStreamSegments_forall₂ h
  refine ⟨mse,hmse,hall.imp ?_⟩
  intro one seg hseg
  obtain ⟨i,hi⟩ := hseg
  exact fromMseSegment_labelled hi

/-- In a fragmented file every fragment is delivered as video with the track 1. -/
theorem labels_fragmented (hfragmented : s.isFragmented = true)
    (h : s.generateStreamSegments streamId = .ok (segments,s')) :
    s.labels segments = (fragmentPairs s.boxes).map (fun pair =>
      ⟨tfhdIds pair.1.content,.video,1⟩) := by
  obtain ⟨mse,hmse,hlabelled⟩ := generateStreamSegments_labelled h
  obtain ⟨hextract,_⟩ := (generateMseSegments_fragmented hfragmented).mp hmse
  obtain ⟨first,media,hfirst,hmedia,rfl⟩ := Mp4Parser.extractFragmentedSegments_ok hextract
  have hone := mediaSegments_labels hmedia
  have htypes : ∀ one ∈ media, one.segmentType = .media := by
    intro one hmem
    obtain ⟨_,_,htype,_⟩ := forall₂_mem_right hone hmem
    exact htype
  have hdelivered := mediaOf_forall₂ (initSegments_type hfirst) htypes hlabelled
  unfold labels sourceIds
  rw [if_pos hfragmented,List.zipWith_map_left]
  apply zipWith_eq_map
  apply forall₂_trans _ hone hdelivered
  intro pair one seg hmse hseg
  have hkind : StreamSegment.mseMediaType one = .video := by
    unfold StreamSegment.mseMediaType
    rw [hmse.1,hmse.2]
    rfl
  rw [hseg.mediaType,hseg.trackId,hkind,hmse.2]
  rfl

/-- In a file that is not fragmented, the number of a track decides. -/
theorem labels_regular (hs : new.parse file = .ok s) (hregular : s.isFragmented = false)
    (h : s.generateStreamSegments streamId = .ok (segments,s')) (label : SegmentLabel) :
    label ∈ s.labels segments ↔ ∃ id, s.regular.Emits id ∧ label = trackLabel id := by
  obtain ⟨mse,hmse,hlabelled⟩ := generateStreamSegments_labelled h
  obtain ⟨c,hcreate,_⟩ := (generateMseSegments_regular hregular).mp hmse
  obtain ⟨init,media,hinit,rfl,htypes,hmem⟩ :=
    createFragments_labels (parse_freshly hs) (parse_hasAc3Audio hs) hcreate
  have htype := s.regular.initSegment_type hinit
  have hdelivered : List.Forall₂ Labelled media (mediaOf segments) :=
    @mediaOf_forall₂ [init] media segments (by simpa using htype) htypes hlabelled
  have hsame : List.Forall₂ (fun seg one =>
      (⟨fragmentIds seg.data,seg.mediaType,seg.trackId⟩ : SegmentLabel) = mseLabel one)
      (mediaOf segments) media := by
    apply hdelivered.flip.imp
    intro seg one hone
    unfold mseLabel
    rw [hone.mediaType,hone.trackId,hone.data]
  have hlabels : s.labels segments = media.map mseLabel := by
    unfold labels sourceIds
    rw [if_neg (by simp [hregular]),List.zipWith_map_left,List.zipWith_self]
    exact List.forall₂_eq_eq_eq ▸ (List.forall₂_map_left_iff.mpr (List.forall₂_map_right_iff.mpr hsame))
  rw [hlabels]
  exact hmem label

theorem trackId_ofNat_ne (i j : UInt32) :
    UInt8.ofNat i.toNat ≠ UInt8.ofNat j.toNat ↔ i.toNat%256 ≠ j.toNat%256 := by
  rw [ne_eq,← UInt8.toNat_inj,UInt8.toNat_ofNat',UInt8.toNat_ofNat']

/-- All is video with the track 1. -/
theorem kindsKept_fragmented_iff :
    KindsKept s.tracks ((fragmentPairs s.boxes).map (fun pair =>
        ⟨tfhdIds pair.1.content,.video,1⟩)) ↔
      ∀ t ∈ s.tracks, s.HasFragment t.trackId → t.mediaType ≠ "soun" ∧
        ∀ u ∈ s.tracks, s.HasFragment u.trackId → t.trackId = u.trackId := by
  constructor
  · intro hkept t ht hhas
    obtain ⟨pair,hpair,hid⟩ := hhas
    have hlabel := List.mem_map_of_mem (f := fun pair : Mp4Box × Mp4Box =>
      (⟨tfhdIds pair.1.content,.video,1⟩ : SegmentLabel)) hpair
    constructor
    · intro hsoun
      cases hkept.soun _ hlabel t ht hid hsoun
    · intro u hu hhas'
      obtain ⟨pair',hpair',hid'⟩ := hhas'
      have hlabel' := List.mem_map_of_mem (f := fun pair : Mp4Box × Mp4Box =>
        (⟨tfhdIds pair.1.content,.video,1⟩ : SegmentLabel)) hpair'
      by_contra hne
      exact hkept.distinct _ hlabel _ hlabel' t ht u hu hid hid' hne rfl
  · intro hone
    constructor
    · intro label hlabel t ht hid hsoun
      obtain ⟨pair,hpair,rfl⟩ := List.mem_map.mp hlabel
      exact absurd hsoun (hone t ht ⟨pair,hpair,hid⟩).1
    · intro label hlabel t ht hid _
      obtain ⟨pair,hpair,rfl⟩ := List.mem_map.mp hlabel
      rfl
    · intro a ha b hb t ht u hu hid hid' hne
      obtain ⟨pair,hpair,rfl⟩ := List.mem_map.mp ha
      obtain ⟨pair',hpair',rfl⟩ := List.mem_map.mp hb
      exact absurd ((hone t ht ⟨pair,hpair,hid⟩).2 u hu ⟨pair',hpair',hid'⟩) hne

/-- The label of a track is made of its id. -/
theorem kindsKept_trackLabels_iff {tracks : List ParsedTrack} {emits : UInt32 → Prop}
    {labels : List SegmentLabel}
    (hmem : ∀ label, label ∈ labels ↔ ∃ id, emits id ∧ label = trackLabel id) :
    KindsKept tracks labels ↔
      ∀ t ∈ tracks, emits t.trackId → (t.mediaType = "soun" → t.trackId = 2) ∧
        (t.mediaType = "vide" → t.trackId ≠ 2) ∧
        ∀ u ∈ tracks, emits u.trackId → t.trackId.toNat%256 = u.trackId.toNat%256 →
          t.trackId = u.trackId := by
  have hself : ∀ t : ParsedTrack, t.trackId.toNat ∈ (trackLabel t.trackId).ids :=
    fun t => List.mem_singleton_self _
  have hlabelOf : ∀ {t : ParsedTrack}, emits t.trackId → trackLabel t.trackId ∈ labels :=
    fun hemits => (hmem _).mpr ⟨_,hemits,rfl⟩
  have hof : ∀ {label : SegmentLabel} {t : ParsedTrack}, label ∈ labels →
      t.trackId.toNat ∈ label.ids → emits t.trackId ∧ label = trackLabel t.trackId := by
    intro label t hlabel hid
    obtain ⟨id,hemits,rfl⟩ := (hmem label).mp hlabel
    have hsame : t.trackId = id := UInt32.toNat_inj.mp (List.mem_singleton.mp hid)
    rw [hsame]
    exact ⟨hemits,rfl⟩
  constructor
  · intro hkept t ht hemits
    refine ⟨?_,?_,?_⟩
    · intro hsoun
      have hkind := hkept.soun _ (hlabelOf hemits) t ht (hself t) hsoun
      unfold trackLabel at hkind
      by_contra hne
      rw [if_neg hne] at hkind
      cases hkind
    · intro hvide htwo
      have hkind := hkept.vide _ (hlabelOf hemits) t ht (hself t) hvide
      unfold trackLabel at hkind
      rw [if_pos htwo] at hkind
      cases hkind
    · intro u hu hemits' hmod
      by_contra hne
      exact (trackId_ofNat_ne _ _).mp (hkept.distinct _ (hlabelOf hemits) _ (hlabelOf hemits')
        t ht u hu (hself t) (hself u) hne) hmod
  · intro htells
    constructor
    · intro label hlabel t ht hid hsoun
      obtain ⟨hemits,rfl⟩ := hof hlabel hid
      exact if_pos ((htells t ht hemits).1 hsoun)
    · intro label hlabel t ht hid hvide
      obtain ⟨hemits,rfl⟩ := hof hlabel hid
      exact if_neg ((htells t ht hemits).2.1 hvide)
    · intro a ha b hb t ht u hu hid hid' hne
      obtain ⟨hemits,rfl⟩ := hof ha hid
      obtain ⟨hemits',rfl⟩ := hof hb hid'
      apply (trackId_ofNat_ne _ _).mpr
      exact fun hmod => hne ((htells t ht hemits).2.2 u hu hemits' hmod)

/-- The kinds and the tracks of the stream segments are right exactly if the ids happen to tell
them. -/
theorem track_kinds_kept_iff (file : Bytes) (s s' : ParserState) (streamId : StreamId)
    (segments : List StreamSegment) (hs : new.parse file = .ok s)
    (h : s.generateStreamSegments streamId = .ok (segments,s')) :
    KindsKept s.tracks (s.labels segments) ↔ s.IdsTellKinds := by
  unfold IdsTellKinds
  by_cases hfragmented : s.isFragmented = true
  · rw [if_pos hfragmented,labels_fragmented hfragmented h]
    exact kindsKept_fragmented_iff
  · rw [if_neg hfragmented]
    exact kindsKept_trackLabels_iff (labels_regular hs (by simpa using hfragmented) h)

section SwappedFile

theorem track_kinds_kept_avFile :
    ∃ segments s', avState.generateStreamSegments ⟨[1]⟩ = .ok (segments,s') ∧
      KindsKept avState.tracks (avState.labels segments) := by
  obtain ⟨⟨segments,s'⟩,h⟩ :=
    @exists_ok _ (avState.generateStreamSegments ⟨[1]⟩) (by decide +kernel)
  refine ⟨segments,s',h,(track_kinds_kept_iff _ _ _ _ _ avFile_parse h).mpr ?_⟩
  unfold IdsTellKinds
  rw [if_neg (by decide)]
  intro t ht _
  have htracks : ∀ t ∈ avState.tracks, (t.mediaType = "soun" → t.trackId = 2) ∧
      (t.mediaType = "vide" → t.trackId ≠ 2) ∧
      ∀ u ∈ avState.tracks, t.trackId.toNat%256 = u.trackId.toNat%256 →
        t.trackId = u.trackId := by decide
  obtain ⟨hsoun,hvide,hdistinct⟩ := htracks t ht
  exact ⟨hsoun,hvide,fun u hu _ => hdistinct u hu⟩

/-- The file with the video as track 2 and the audio as track 1. -/
def swappedMoov : RawBox :=
  ⟨tagMoov,encodeAll
    [trakBox 2 1000 tagVide (tables [0x61,0x76,0x63,0x31] [2,1,1] 500 24 [1,3]),
      trakBox 1 48000 [0x73,0x6f,0x75,0x6e] (tables [0x6d,0x70,0x34,0x61] [1] 1024 28 [])]⟩

def swappedFile : Bytes := encodeAll [avFtyp,avMdat,swappedMoov]

def swappedState : ParserState where
  boxes := [⟨⟨tagFtyp,16,8⟩,avFtyp.body⟩,⟨⟨tagMdat,13,24⟩,avMdat.body⟩,
    ⟨⟨tagMoov,swappedMoov.size,37⟩,swappedMoov.body⟩]
  tracks := [⟨{ avVideoTrack with trackId := 2 },"video/mp4; codecs=\"avc1.42E01E\""⟩,
    ⟨{ avAudioTrack 48000 with trackId := 1 },"audio/mp4; codecs=\"mp4a.40.2\""⟩]
  isFragmented := false
  fmp4Converter := .new
  mdatPayloadOffset := 24
  pendingSampleTable := none

/-- The two segments of the video are audio, and that of the audio is video. -/
theorem swapped_tracks_mislabelled :
    new.parse swappedFile = .ok swappedState ∧
    ∃ segments s', swappedState.generateStreamSegments ⟨[1]⟩ = .ok (segments,s') ∧
      swappedState.labels segments = [⟨[2],.audio,2⟩,⟨[2],.audio,2⟩,⟨[1],.video,1⟩] ∧
      ¬ KindsKept swappedState.tracks (swappedState.labels segments) := by
  obtain ⟨⟨segments,s'⟩,h,hthree⟩ := exists_ok_map
    (x := swappedState.generateStreamSegments ⟨[1]⟩) (f := fun r => swappedState.labels r.1)
    (b := [⟨[2],.audio,2⟩,⟨[2],.audio,2⟩,⟨[1],.video,1⟩]) (by decide +kernel)
  dsimp only at hthree
  refine ⟨by decide +kernel,segments,s',h,hthree,?_⟩
  rw [hthree]
  intro hkept
  cases hkept.vide ⟨[2],.audio,2⟩ List.mem_cons_self _ List.mem_cons_self (by decide) rfl

end SwappedFile

end ParserState

end OpenBroadcast.Media
