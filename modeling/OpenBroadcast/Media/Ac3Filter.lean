import OpenBroadcast.Media.TrackKinds

namespace OpenBroadcast.Media

open RawBox

def tagAc3 : Bytes := [0x61,0x63,0x2d,0x33]

section Traks

/-- The `trak` boxes of a `moov`, with their headers. -/
def trakBytes (moov : Bytes) : List Bytes := (traks moov).map BoxAt.bytes

/-- The boxes that the walk finds can be written again. -/
theorem boxesFrom_encode (n : Nat) (data : Bytes) : ∃ bs : List RawBox, (∀ b ∈ bs, b.Fits) ∧
    (boxesFrom n data).map (fun b => (b.kind,b.bytes)) = bs.map (fun b => (b.kind,b.encode)) := by
  induction n generalizing data with
  | zero => exact ⟨[],fun b hb => (by cases hb),rfl⟩
  | succ n ih =>
    rw [boxesFrom]
    by_cases hstop : data.length < 8 ∨ beNat (data.take 4) < 8 ∨ data.length < beNat (data.take 4)
    · rw [if_pos hstop]
      exact ⟨[],fun b hb => (by cases hb),rfl⟩
    · obtain ⟨bs,hfits,hmap⟩ := ih (data.drop (beNat (data.take 4)))
      have hread : readBox data = some (⟨(data.drop 4).take 4,
          (data.drop 8).take (beNat (data.take 4)-8)⟩,data.drop (beNat (data.take 4))) := by
        unfold readBox
        exact if_pos (by omega)
      obtain ⟨hdata,hb⟩ := readBox_exact hread
      have hsize := hb.read_size (data.drop (beNat (data.take 4)))
      rw [← hdata] at hsize
      have hbytes : BoxAt.bytes ⟨(data.drop 4).take 4,beNat (data.take 4),data⟩ =
          (RawBox.mk ((data.drop 4).take 4) ((data.drop 8).take (beNat (data.take 4)-8))).encode := by
        have htake := hb.take_size (data.drop (beNat (data.take 4)))
        rw [← hdata,← hsize] at htake
        exact htake
      rw [if_neg hstop]
      refine ⟨⟨(data.drop 4).take 4,(data.drop 8).take (beNat (data.take 4)-8)⟩::bs,?_,?_⟩
      · intro b hmem
        rcases List.mem_cons.mp hmem with rfl | hmem
        · exact hb
        · exact hfits b hmem
      · rw [List.map_cons,List.map_cons,hbytes,hmap]

theorem trakBytes_eq {data : Bytes} {bs : List RawBox}
    (h : (boxesIn data).map (fun b => (b.kind,b.bytes)) = bs.map (fun b => (b.kind,b.encode))) :
    trakBytes data = (bs.filter (fun b => b.kind == tagTrak)).map encode := by
  have hwalk : trakBytes data = (((boxesIn data).map (fun b => (b.kind,b.bytes))).filter
      (fun b => b.1 == tagTrak)).map Prod.snd := by
    unfold trakBytes traks
    rw [List.filter_map,List.map_map]
    rfl
  rw [hwalk,h,List.filter_map,List.map_map]
  rfl

/-- Of the `trak` boxes, those are left that look like video. -/
theorem trakBytes_createVideoOnlyMoov (content : Bytes) :
    trakBytes (createVideoOnlyMoov content) = (trakBytes content).filter isVideoTrack := by
  obtain ⟨bs,hfits,hmap⟩ := boxesFrom_encode content.length content
  have hcreate : createVideoOnlyMoov content =
      encodeAll (bs.filter (fun b => !(b.kind == tagTrak && !isVideoTrack b.encode))) := by
    have hwalk : createVideoOnlyMoov content =
        ((boxesIn content).map (fun b => (b.kind,b.bytes))).flatMap
          (fun b => if b.1 = tagTrak ∧ !isVideoTrack b.2 then [] else b.2) := by
      unfold createVideoOnlyMoov
      rw [List.flatMap_map]
    have hboxes : (boxesIn content).map (fun b => (b.kind,b.bytes)) =
        bs.map (fun b => (b.kind,b.encode)) := hmap
    rw [hwalk,hboxes,List.flatMap_map]
    clear hwalk hboxes hmap hfits
    induction bs with
    | nil => rfl
    | cons b bs ih =>
      rw [List.flatMap_cons,ih]
      by_cases hkind : b.kind = tagTrak
      · cases hvideo : isVideoTrack b.encode <;> simp [hkind,hvideo]
      · simp [hkind]
  have hkept : ∀ b ∈ bs.filter (fun b => !(b.kind == tagTrak && !isVideoTrack b.encode)), b.Fits :=
    fun b hb => hfits b (List.mem_filter.mp hb).1
  rw [hcreate,trakBytes_eq (boxesIn_encodeAll hkept),trakBytes_eq hmap,List.filter_map,
    List.filter_filter,List.filter_filter]
  apply congrArg (List.map encode)
  apply List.filter_congr
  intro b _
  have hnot : b.kind ≠ tagTrak → (b.kind == tagTrak) = false := by simp
  by_cases hkind : b.kind = tagTrak
  · cases hvideo : isVideoTrack b.encode <;> simp [hkind,hvideo]
  · simp [hnot hkind]

/-- The track that is made of a `trak`. -/
def trackOf (trak : Bytes) : Option ParsedTrack :=
  (parseTrakBox (trak.drop 8)).toOption.bind Prod.fst

/-- The `trak` of a track of the kind. -/
def IsKind (kind : String) (trak : Bytes) : Prop :=
  ∃ t, trackOf trak = some t ∧ t.mediaType = kind

instance (kind : String) (trak : Bytes) : Decidable (IsKind kind trak) :=
  decidable_of_iff ((trackOf trak).map (fun t => t.mediaType) = some kind) (by
    unfold IsKind
    cases trackOf trak <;> simp)

/-- The contents of the boxes at the end of a path. -/
def bodiesAt (path : List Bytes) (data : Bytes) : List Bytes :=
  path.foldl (fun found kind => found.flatMap (bodiesOf kind)) [data]

/-- The format of the first sample entry. -/
def sampleFormats (trak : Bytes) : List Bytes :=
  (bodiesAt [tagMdia,tagMinf,tagStbl,tagStsd] (trak.drop 8)).map (fun stsd => (stsd.drop 12).take 4)

/-- The `trak` boxes in an initialization segment. -/
def initTraks (data : Bytes) : List Bytes := (bodiesOf tagMoov data).flatMap trakBytes

end Traks

section Fragmented

variable {p : Mp4Parser}

/-- The contents of the `moov` boxes that are written for a fragmented file. -/
def writtenMoovs (p : Mp4Parser) : List Bytes :=
  (p.boxes.filter (fun b => b.header.boxType == tagMoov)).filterMap (fun b =>
    if p.hasAc3Audio then some (createVideoOnlyMoov b.content)
    else if 8+b.content.length ≤ maxBoxSize then some b.content else none)

/-- The `moov` boxes among the boxes of the initialization segment. -/
theorem filterMap_initBox (p : Mp4Parser) (bs : List Mp4Box) :
    ((bs.filterMap (initBox p)).filter (fun b => b.kind == tagMoov)).map RawBox.body =
      (bs.filter (fun b => b.header.boxType == tagMoov)).filterMap (fun b =>
        if p.hasAc3Audio then some (createVideoOnlyMoov b.content)
        else if 8+b.content.length ≤ maxBoxSize then some b.content else none) := by
  have hne : tagMoov ≠ tagFtyp := by decide
  induction bs with
  | nil => rfl
  | cons b bs ih =>
    rw [List.filterMap_cons]
    by_cases hmoov : b.header.boxType = tagMoov
    · have hbox : initBox p b = if p.hasAc3Audio then
          some ⟨tagMoov,createVideoOnlyMoov b.content⟩ else writtenBox b := by
        unfold initBox
        rw [if_neg (by rw [hmoov]; exact hne),if_pos hmoov]
      rw [List.filter_cons_of_pos (by simpa using hmoov),List.filterMap_cons,hbox]
      by_cases hac3 : p.hasAc3Audio = true
      · rw [if_pos hac3,if_pos hac3]
        dsimp only
        rw [List.filter_cons_of_pos (by simp),List.map_cons,ih]
      · rw [if_neg hac3,if_neg hac3]
        unfold writtenBox
        by_cases hfits : 8+b.content.length ≤ maxBoxSize
        · rw [if_pos hfits,if_pos hfits]
          dsimp only
          rw [List.filter_cons_of_pos (by simpa using hmoov),List.map_cons,ih]
        · rw [if_neg hfits,if_neg hfits]
          exact ih
    · rw [List.filter_cons_of_neg (by simpa using hmoov),← ih]
      by_cases hftyp : b.header.boxType = tagFtyp
      · have hbox : initBox p b = writtenBox b := if_pos hftyp
        rw [hbox]
        unfold writtenBox
        by_cases hfits : 8+b.content.length ≤ maxBoxSize
        · rw [if_pos hfits]
          dsimp only
          rw [List.filter_cons_of_neg (by simpa using hmoov)]
        · rw [if_neg hfits]
      · have hbox : initBox p b = none := by
          unfold initBox
          rw [if_neg hftyp,if_neg hmoov]
        rw [hbox]

variable (hsmall : ∀ b ∈ p.boxes, b.header.boxType = tagMoov → 8+b.content.length < 2^32)
  {first : List MseSegment} (h : p.initSegments = .ok first)

include hsmall h

theorem bodiesOf_initSegments {seg : MseSegment} (hseg : seg ∈ first) :
    bodiesOf tagMoov seg.data = writtenMoovs p := by
  have hfits : ∀ r ∈ p.boxes.filterMap (initBox p), r.Fits := by
    intro r hr
    obtain ⟨b,hb,hbox⟩ := List.mem_filterMap.mp hr
    exact (initBox_fits (hsmall b hb) hbox).1
  rw [initSegments_data hsmall h hseg,bodiesOf_encodeAll _ hfits,filterMap_initBox]
  rfl

/-- There is an initialization segment if there is a `moov` for it. -/
theorem initSegments_ne_nil (hmoov : writtenMoovs p ≠ []) : first ≠ [] := by
  intro hnil
  have hparts : p.boxes.mapM p.initData =
      .ok (p.boxes.map (fun b => encodeAll (initBox p b).toList)) := mapM_initData hsmall
  unfold Mp4Parser.initSegments at h
  rw [hparts] at h
  cases h
  rw [encodeAll_toList_flatten] at hnil
  split_ifs at hnil with hempty
  have hboxes : p.boxes.filterMap (initBox p) = [] := by
    cases hlist : p.boxes.filterMap (initBox p) with
    | nil => rfl
    | cons r rs =>
      have hlength := congrArg List.length (List.isEmpty_iff.mp hempty)
      rw [hlist,encodeAll_cons,encode] at hlength
      simp only [List.length_append,length_toBe,List.length_nil] at hlength
      omega
  apply hmoov
  unfold writtenMoovs
  rw [← filterMap_initBox,hboxes]
  rfl

end Fragmented

namespace ParserState

open RegularMp4

section Statement

variable (s : ParserState)

/-- The `trak` boxes of the file. -/
def fileTraks : List Bytes := (allTraks s.boxes).map BoxAt.bytes

/-- A track of sound whose sample entry is one for AC-3. -/
def Ac3Track (t : ParsedTrack) : Prop :=
  ∃ trak ∈ s.fileTraks, trackOf trak = some t ∧ t.mediaType = "soun" ∧
    tagAc3 ∈ sampleFormats trak

/-- The track ids of the fragments that the media segments are made of. -/
def mseSources (segments : List MseSegment) : List (List Nat) :=
  let media := segments.filter (fun seg => seg.segmentType == .media)
  if s.isFragmented then
    List.zipWith (fun pair _ => tfhdIds pair.1.content) (fragmentPairs s.boxes) media
  else media.map (fun seg => fragmentIds seg.data)

/-- There is an initialization segment with all `trak` boxes of video and none of sound, and no
media segment of an AC-3 track. -/
structure Ac3Filtered (segments : List MseSegment) : Prop where
  init : ∃ seg ∈ segments, seg.segmentType = .initialization ∧
    (∀ trak ∈ s.fileTraks, IsKind "vide" trak → trak ∈ initTraks seg.data) ∧
    ∀ trak ∈ initTraks seg.data, ¬ IsKind "soun" trak
  media : ∀ t, s.Ac3Track t → ∀ ids ∈ s.mseSources segments, t.trackId.toNat ∉ ids

/-- The `trak` boxes that stand in what is written without a filter: in the `moov` boxes that are
not too large, or in the last one with its `mvex`. -/
def copiedTraks : List Bytes :=
  if s.isFragmented then
    ((s.boxes.filter (fun b => b.header.boxType == tagMoov)).filter
      (fun b => decide (8+b.content.length ≤ maxBoxSize))).flatMap (fun b => trakBytes b.content)
  else
    (s.regular.lastBox tagMoov).elim [] (fun moov =>
      trakBytes (moov.content++s.regular.createMvexBox.toOption.getD []))

/-- Where there is a filter, it takes the `trak` boxes of video for such and none of sound.
Where there is none, there is nothing to filter. -/
def TraksFiltered : Prop :=
  if s.isFragmented && s.fragmented.hasAc3Audio then
    ∀ trak ∈ s.fileTraks, (IsKind "vide" trak → isVideoTrack trak) ∧
      (IsKind "soun" trak → ¬ isVideoTrack trak)
  else
    (∀ trak ∈ s.fileTraks, IsKind "vide" trak → trak ∈ s.copiedTraks) ∧
      ∀ trak ∈ s.copiedTraks, ¬ IsKind "soun" trak

/-- There is a fragment with the track id. -/
def Delivers (id : UInt32) : Prop :=
  if s.isFragmented then s.HasFragment id else s.regular.Emits id

/-- The filter works, and there is no fragment of an AC-3 track. -/
structure FiltersAc3 : Prop where
  small : SmallMoovs s.regular
  traks : s.TraksFiltered
  media : ∀ t, s.Ac3Track t → ¬ s.Delivers t.trackId

/-- The file has a video track and an AC-3 track. -/
structure VideoWithAc3 : Prop where
  video : ∃ t ∈ s.tracks, t.mediaType = "vide"
  ac3 : ∃ t, s.Ac3Track t

/-- The `trak` boxes that are sent. -/
def sentTraks : List Bytes :=
  if s.isFragmented && s.fragmented.hasAc3Audio then s.fileTraks.filter isVideoTrack
  else s.copiedTraks

end Statement

section Sent

variable {s s' : ParserState} {file : Bytes} {segments : List MseSegment}

theorem fileTraks_eq (s : ParserState) : s.fileTraks =
    (s.boxes.filter (fun b => b.header.boxType == tagMoov)).flatMap
      (fun b => trakBytes b.content) := by
  unfold fileTraks allTraks
  rw [List.map_flatMap]
  rfl

/-- Sending the `trak` boxes that are to be sent is what the filter is for. -/
theorem traksFiltered_iff (s : ParserState) : s.TraksFiltered ↔
    (∀ trak ∈ s.fileTraks, IsKind "vide" trak → trak ∈ s.sentTraks) ∧
      ∀ trak ∈ s.sentTraks, ¬ IsKind "soun" trak := by
  unfold TraksFiltered sentTraks
  by_cases hfilter : (s.isFragmented && s.fragmented.hasAc3Audio) = true
  · rw [if_pos hfilter,if_pos hfilter]
    constructor
    · intro h
      constructor
      · exact fun trak htrak hvide => List.mem_filter.mpr ⟨htrak,(h trak htrak).1 hvide⟩
      · intro trak htrak hsoun
        obtain ⟨hmem,hvideo⟩ := List.mem_filter.mp htrak
        exact (h trak hmem).2 hsoun hvideo
    · intro h trak htrak
      constructor
      · exact fun hvide => (List.mem_filter.mp (h.1 trak htrak hvide)).2
      · exact fun hsoun hvideo => h.2 trak (List.mem_filter.mpr ⟨htrak,hvideo⟩) hsoun
  · rw [if_neg hfilter,if_neg hfilter]

/-- The initialization segments, if there are any, have the `trak` boxes. -/
structure Sends (segments : List MseSegment) (sent : List Bytes) : Prop where
  all : ∀ seg ∈ segments, seg.segmentType = .initialization → initTraks seg.data = sent
  some : sent ≠ [] → ∃ seg ∈ segments, seg.segmentType = .initialization

theorem writtenMoovs_traks (hfragmented : s.isFragmented = true) :
    (writtenMoovs s.fragmented).flatMap trakBytes = s.sentTraks := by
  unfold sentTraks writtenMoovs
  have hboxes : s.fragmented.boxes = s.boxes := rfl
  rw [hfragmented,Bool.true_and,hboxes]
  by_cases hac3 : s.fragmented.hasAc3Audio = true
  · rw [if_pos hac3,fileTraks_eq,List.filter_flatMap]
    simp only [hac3,if_true]
    rw [List.filterMap_eq_map',List.flatMap_map]
    simp only [trakBytes_createVideoOnlyMoov]
  · rw [if_neg hac3]
    unfold copiedTraks
    simp only [if_pos hfragmented,hac3,Bool.false_eq_true,if_false]
    induction s.boxes.filter (fun b => b.header.boxType == tagMoov) with
    | nil => rfl
    | cons b bs ih =>
      by_cases hfits : 8+b.content.length ≤ maxBoxSize
      · rw [List.filterMap_cons,if_pos hfits,List.filter_cons_of_pos (by simpa using hfits)]
        dsimp only
        rw [List.flatMap_cons,List.flatMap_cons,ih]
      · rw [List.filterMap_cons,if_neg hfits,List.filter_cons_of_neg (by simpa using hfits)]
        exact ih

theorem sends_fragmented (hfragmented : s.isFragmented = true) (hsmall : SmallMoovs s.regular)
    (h : s.generateMseSegments = .ok (segments,s')) : Sends segments s.sentTraks := by
  obtain ⟨hextract,_⟩ := (generateMseSegments_fragmented hfragmented).mp h
  obtain ⟨first,media,hfirst,hmedia,rfl⟩ := Mp4Parser.extractFragmentedSegments_ok hextract
  have hsmall' : ∀ b ∈ s.fragmented.boxes, b.header.boxType = tagMoov →
      8+b.content.length < 2^32 := by
    intro b hb hkind
    have := hsmall b hb hkind
    omega
  constructor
  · intro seg hseg htype
    rcases List.mem_append.mp hseg with hseg | hseg
    · unfold initTraks
      rw [bodiesOf_initSegments hsmall' hfirst hseg,writtenMoovs_traks hfragmented]
    · obtain ⟨_,_,hmediaType,_⟩ := forall₂_mem_right (mediaSegments_labels hmedia) hseg
      rw [hmediaType] at htype
      cases htype
  · intro hsent
    have hmoovs : writtenMoovs s.fragmented ≠ [] := by
      intro hnil
      rw [← writtenMoovs_traks hfragmented,hnil] at hsent
      exact hsent rfl
    obtain ⟨seg,hseg⟩ := List.exists_mem_of_ne_nil _ (initSegments_ne_nil hsmall' hfirst hmoovs)
    exact ⟨seg,List.mem_append_left _ hseg,initSegments_type hfirst seg hseg⟩

theorem sends_regular (hs : new.parse file = .ok s) (hregular : s.isFragmented = false)
    (hsmall : SmallMoovs s.regular) (h : s.generateMseSegments = .ok (segments,s')) :
    Sends segments s.sentTraks := by
  obtain ⟨c,hcreate,_⟩ := (generateMseSegments_regular hregular).mp h
  obtain ⟨init,media,hinit,rfl,htypes,_⟩ :=
    createFragments_labels (parse_freshly hs) (parse_hasAc3Audio hs) hcreate
  obtain ⟨moov,mvex,hlast,hmvex,_,_,_,hfits,hdata⟩ :=
    initSegment_data (parse_hasAc3Audio hs) hsmall hinit
  have htype := s.regular.initSegment_type hinit
  have hsent : initTraks init.data = s.sentTraks := by
    have hall : ∀ r ∈ (s.regular.boxes.filter (fun b => b.header.boxType == tagFtyp)).filterMap
        writtenBox++[⟨tagMoov,moov.content++mvex⟩], r.Fits := by
      intro r hr
      rcases List.mem_append.mp hr with hr | hr
      · exact (ftyp_fits hr).1
      · rw [List.mem_singleton.mp hr]
        exact hfits
    have hnone : ((s.regular.boxes.filter (fun b => b.header.boxType == tagFtyp)).filterMap
        writtenBox).filter (fun b => b.kind == tagMoov) = [] := by
      apply List.filter_eq_nil_iff.mpr
      intro r hr
      rw [(ftyp_fits hr).2]
      decide
    unfold initTraks sentTraks copiedTraks
    rw [hdata,bodiesOf_encodeAll _ hall,List.filter_append,hnone,List.nil_append,
      List.filter_cons_of_pos (by simp),List.filter_nil,List.map_singleton,
      List.flatMap_singleton,hregular,hlast,hmvex]
    rfl
  constructor
  · intro seg hseg hinitType
    rcases List.mem_cons.mp hseg with rfl | hseg
    · exact hsent
    · rw [htypes seg hseg] at hinitType
      cases hinitType
  · exact fun _ => ⟨init,List.mem_cons_self,htype⟩

/-- The sources of the media segments are the fragments that are delivered. -/
theorem mem_mseSources (hs : new.parse file = .ok s)
    (h : s.generateMseSegments = .ok (segments,s')) (id : UInt32) :
    (∃ ids ∈ s.mseSources segments, id.toNat ∈ ids) ↔ s.Delivers id := by
  unfold mseSources Delivers
  by_cases hfragmented : s.isFragmented = true
  · obtain ⟨hextract,_⟩ := (generateMseSegments_fragmented hfragmented).mp h
    obtain ⟨first,media,hfirst,hmedia,rfl⟩ := Mp4Parser.extractFragmentedSegments_ok hextract
    have hlabels := mediaSegments_labels hmedia
    have hsources : List.zipWith (fun (pair : Mp4Box × Mp4Box) (_ : MseSegment) =>
        tfhdIds pair.1.content) (fragmentPairs s.boxes) media =
        (fragmentPairs s.boxes).map (fun pair => tfhdIds pair.1.content) :=
      zipWith_eq_map (hlabels.imp (fun _ _ _ => rfl))
    dsimp only
    rw [if_pos hfragmented,if_pos hfragmented,filter_media hfirst hmedia,hsources]
    unfold HasFragment
    simp
  · obtain ⟨c,hcreate,_⟩ :=
      (generateMseSegments_regular (by simpa using hfragmented)).mp h
    obtain ⟨init,media,hinit,rfl,htypes,hmem⟩ :=
      createFragments_labels (parse_freshly hs) (parse_hasAc3Audio hs) hcreate
    have htype := s.regular.initSegment_type hinit
    have hall : (init::media).filter (fun seg => seg.segmentType == .media) = media := by
      rw [List.filter_cons_of_neg (by simp [htype])]
      apply List.filter_eq_self.mpr
      intro seg hseg
      simp [htypes seg hseg]
    dsimp only
    rw [if_neg hfragmented,if_neg hfragmented,hall]
    constructor
    · intro hids
      obtain ⟨_,hids,hid⟩ := hids
      obtain ⟨seg,hseg,rfl⟩ := List.mem_map.mp hids
      obtain ⟨other,hemits,hlabel⟩ := (hmem (mseLabel seg)).mp (List.mem_map_of_mem hseg)
      have hone : fragmentIds seg.data = [other.toNat] := congrArg SegmentLabel.ids hlabel
      rw [hone] at hid
      rw [UInt32.toNat_inj.mp (List.mem_singleton.mp hid)]
      exact hemits
    · intro hemits
      obtain ⟨seg,hseg,hlabel⟩ := List.mem_map.mp ((hmem (trackLabel id)).mpr ⟨id,hemits,rfl⟩)
      have hone : fragmentIds seg.data = [id.toNat] := congrArg SegmentLabel.ids hlabel
      exact ⟨_,List.mem_map_of_mem hseg,by rw [hone]; exact List.mem_singleton_self _⟩

theorem exists_video_trak (hs : new.parse file = .ok s)
    (h : ∃ t ∈ s.tracks, t.mediaType = "vide") : ∃ trak ∈ s.fileTraks, IsKind "vide" trak := by
  obtain ⟨t,ht,hvide⟩ := h
  obtain ⟨trak,htrak,pending,hread⟩ := parse_track hs ht
  refine ⟨trak.bytes,List.mem_map_of_mem htrak,t,?_,hvide⟩
  have hparse : parseTrakBox (trak.bytes.drop 8) = .ok (some t,pending) := hread
  unfold trackOf
  rw [hparse]
  rfl

/-- For `moov` boxes of less than 4 GiB, AC-3 is filtered exactly if the filter works. -/
theorem ac3Filtered_iff_of_sends (hs : new.parse file = .ok s) (hav : s.VideoWithAc3)
    (h : s.generateMseSegments = .ok (segments,s')) (hsends : Sends segments s.sentTraks) :
    s.Ac3Filtered segments ↔ s.TraksFiltered ∧ ∀ t, s.Ac3Track t → ¬ s.Delivers t.trackId := by
  have hsources : ∀ t : ParsedTrack, (∀ ids ∈ s.mseSources segments, t.trackId.toNat ∉ ids) ↔
      ¬ s.Delivers t.trackId := by
    intro t
    rw [← mem_mseSources hs h]
    push Not
    rfl
  rw [traksFiltered_iff]
  constructor
  · intro hfiltered
    obtain ⟨seg,hseg,htype,hvide,hsoun⟩ := hfiltered.init
    rw [hsends.all seg hseg htype] at hvide hsoun
    exact ⟨⟨hvide,hsoun⟩,fun t ht => (hsources t).mp (hfiltered.media t ht)⟩
  · intro hall
    obtain ⟨⟨hvide,hsoun⟩,hmedia⟩ := hall
    constructor
    · obtain ⟨trak,htrak,hkind⟩ := exists_video_trak hs hav.video
      obtain ⟨seg,hseg,htype⟩ := hsends.some (List.ne_nil_of_mem (hvide trak htrak hkind))
      refine ⟨seg,hseg,htype,?_⟩
      rw [hsends.all seg hseg htype]
      exact ⟨hvide,hsoun⟩
    · exact fun t ht => (hsources t).mpr (hmedia t ht)

/-- AC-3 is filtered exactly if the filter works, where no `moov` has 4 GiB or more. -/
theorem ac3_filtered_iff (file : Bytes) (s s' : ParserState) (segments : List MseSegment)
    (hs : new.parse file = .ok s) (hav : s.VideoWithAc3)
    (h : s.generateMseSegments = .ok (segments,s')) :
    (s.FiltersAc3 → s.Ac3Filtered segments) ∧
      (SmallMoovs s.regular → s.Ac3Filtered segments → s.FiltersAc3) := by
  have hsends : SmallMoovs s.regular → Sends segments s.sentTraks := by
    intro hsmall
    by_cases hfragmented : s.isFragmented = true
    · exact sends_fragmented hfragmented hsmall h
    · exact sends_regular hs (by simpa using hfragmented) hsmall h
  constructor
  · intro hfilters
    exact (ac3Filtered_iff_of_sends hs hav h (hsends hfilters.small)).mpr
      ⟨hfilters.traks,hfilters.media⟩
  · intro hsmall hfiltered
    obtain ⟨htraks,hmedia⟩ := (ac3Filtered_iff_of_sends hs hav h (hsends hsmall)).mp hfiltered
    exact ⟨hsmall,htraks,hmedia⟩

end Sent

section Ac3Files

def tagSoun : Bytes := [0x73,0x6f,0x75,0x6e]

/-- A `trak` without a sample table. What stands before the handler should be 0. -/
def flaggedTrak (trackId preDefined : Nat) (handler format : Bytes) : RawBox :=
  ⟨tagTrak,encodeAll [⟨tagTkhd,numbers [0,0,trackId]⟩,
    ⟨tagMdia,encodeAll [⟨tagMdhd,numbers [0,0,1000,0]⟩,⟨tagHdlr,numbers [preDefined]++handler⟩,
      ⟨tagMinf,encodeAll [⟨tagStbl,encodeAll [⟨tagStsd,numbers [1,8]++format⟩]⟩]⟩]⟩]⟩

def ac3Moov (preDefined : Nat) : RawBox :=
  ⟨tagMoov,encodeAll [flaggedTrak 1 preDefined tagVide [0x61,0x76,0x63,0x31],
    flaggedTrak 2 0 tagSoun tagAc3]⟩

/-- A fragmented file with a video track, an AC-3 track and a fragment of the video. -/
def ac3File (preDefined : Nat) : Bytes :=
  encodeAll [avFtyp,ac3Moov preDefined,Mp4Parser.sampleMoof [tfdtBox 0] 100,Mp4Parser.sampleMdat]

def plainVideoTrack : ParsedTrack where
  mediaType := "vide"
  timescale := 1000
  duration := 0
  codec := "H.264"
  trackId := 1
  codecParams := some "42E01E"
  sampleTable := none
  codecMimeType := "video/mp4; codecs=\"avc1.42E01E\""

def plainAc3Track : ParsedTrack where
  mediaType := "soun"
  timescale := 1000
  duration := 0
  codec := "AC-3"
  trackId := 2
  codecParams := none
  sampleTable := none
  codecMimeType := "audio/mp4; codecs=\"ac-3\""

def ac3State (preDefined : Nat) : ParserState where
  boxes := [⟨⟨tagFtyp,16,8⟩,avFtyp.body⟩,⟨⟨tagMoov,264,24⟩,(ac3Moov preDefined).body⟩,
    ⟨⟨tagMoof,92,288⟩,(Mp4Parser.sampleMoof [tfdtBox 0] 100).body⟩,⟨⟨tagMdat,12,380⟩,[1,2,3,4]⟩]
  tracks := [plainVideoTrack,plainAc3Track]
  isFragmented := true
  fmp4Converter := .new
  mdatPayloadOffset := 380
  pendingSampleTable := none

/-- The video track is taken for video only because of what stands before its handler. -/
theorem ac3_filtered_flagged : ∃ segments s',
    (ac3State (beNat tagVide)).generateMseSegments = .ok (segments,s') ∧
      (ac3State (beNat tagVide)).Ac3Filtered segments := by
  obtain ⟨⟨segments,s'⟩,h⟩ :=
    @exists_ok _ (ac3State (beNat tagVide)).generateMseSegments (by decide +kernel)
  have hac3 : ∃ t, (ac3State (beNat tagVide)).Ac3Track t :=
    ⟨plainAc3Track,(flaggedTrak 2 0 tagSoun tagAc3).encode,by decide +kernel,by decide +kernel,
      rfl,by decide +kernel⟩
  refine ⟨segments,s',h,(ac3_filtered_iff (ac3File (beNat tagVide)) _ _ _ (by decide +kernel)
    ⟨⟨plainVideoTrack,List.mem_cons_self,rfl⟩,hac3⟩ h).1 ?_⟩
  constructor
  · have hmoovs : ∀ b ∈ (ac3State (beNat tagVide)).boxes, b.header.boxType = tagMoov →
        8+(b.content.length+(8+2*32)) < 2^32 := by decide +kernel
    exact hmoovs
  · have htraks : ∀ trak ∈ (ac3State (beNat tagVide)).fileTraks,
        (IsKind "vide" trak → isVideoTrack trak) ∧
          (IsKind "soun" trak → ¬ isVideoTrack trak) := by decide +kernel
    exact htraks
  · intro t ht
    obtain ⟨trak,htrak,htrack,hsoun,_⟩ := ht
    have hids : ∀ trak ∈ (ac3State (beNat tagVide)).fileTraks, (trackOf trak).all (fun t =>
        t.mediaType != "soun" || t.trackId == 2) := by decide +kernel
    have htwo := hids trak htrak
    rw [htrack] at htwo
    simp only [Option.all_some,hsoun,bne_self_eq_false,Bool.false_or,beq_iff_eq] at htwo
    have hnone : ∀ pair ∈ fragmentPairs (ac3State (beNat tagVide)).boxes,
        2 ∉ tfhdIds pair.1.content := by decide +kernel
    intro hdelivers
    obtain ⟨pair,hpair,hid⟩ := hdelivers
    rw [htwo] at hid
    exact hnone pair hpair hid

/-- A file that is not fragmented, with three video samples and one sample of AC-3. -/
def copiedMoov : RawBox :=
  ⟨tagMoov,encodeAll
    [trakBox 1 1000 tagVide (tables [0x61,0x76,0x63,0x31] [2,1,1] 500 24 [1,3]),
      trakBox 2 48000 tagSoun (tables tagAc3 [1] 1024 28 [])]⟩

def copiedFile : Bytes := encodeAll [avFtyp,avMdat,copiedMoov]

def copiedAc3Track : ParsedTrack where
  toSampledTrack := { avAudioTrack 48000 with codec := "AC-3", codecParams := none }
  codecMimeType := "audio/mp4; codecs=\"ac-3\""

def copiedState : ParserState where
  boxes := [⟨⟨tagFtyp,16,8⟩,avFtyp.body⟩,⟨⟨tagMdat,13,24⟩,avMdat.body⟩,
    ⟨⟨tagMoov,copiedMoov.size,37⟩,copiedMoov.body⟩]
  tracks := [⟨avVideoTrack,"video/mp4; codecs=\"avc1.42E01E\""⟩,copiedAc3Track]
  isFragmented := false
  fmp4Converter := .new
  mdatPayloadOffset := 24
  pendingSampleTable := none

/-- In the fragmented file the filter removes the video, and in the other one it is not used. -/
theorem ac3_filter_misses :
    (new.parse (ac3File 0) = .ok (ac3State 0) ∧ (ac3State 0).VideoWithAc3 ∧
      ∃ segments s', (ac3State 0).generateMseSegments = .ok (segments,s') ∧
        segments.map (fun seg => (initTraks seg.data).length) = [0,0] ∧
        ¬ (ac3State 0).Ac3Filtered segments) ∧
    new.parse copiedFile = .ok copiedState ∧ copiedState.VideoWithAc3 ∧
      ∃ segments s', copiedState.generateMseSegments = .ok (segments,s') ∧
        segments.map (fun seg => (initTraks seg.data).length) = [2,0,0,0] ∧
        ¬ copiedState.Ac3Filtered segments := by
  constructor
  · obtain ⟨⟨segments,s'⟩,h,hnone⟩ := exists_ok_map (x := (ac3State 0).generateMseSegments)
      (f := fun r => r.1.map (fun seg => (initTraks seg.data).length)) (b := [0,0])
      (by decide +kernel)
    refine ⟨by decide +kernel,⟨⟨plainVideoTrack,List.mem_cons_self,rfl⟩,plainAc3Track,
      (flaggedTrak 2 0 tagSoun tagAc3).encode,by decide +kernel,by decide +kernel,rfl,
      by decide +kernel⟩,segments,s',h,hnone,?_⟩
    intro hfiltered
    obtain ⟨seg,hseg,_,hvide,_⟩ := hfiltered.init
    have hmem := hvide (flaggedTrak 1 0 tagVide [0x61,0x76,0x63,0x31]).encode
      (by decide +kernel) (by decide +kernel)
    have hlength := List.mem_map_of_mem (f := fun seg : MseSegment =>
      (initTraks seg.data).length) hseg
    dsimp only at hnone
    rw [hnone] at hlength
    have hpos := List.length_pos_of_mem hmem
    simp only [List.mem_cons,List.not_mem_nil,or_false,or_self] at hlength
    omega
  · obtain ⟨⟨segments,s'⟩,h,hpair⟩ := exists_ok_map (x := copiedState.generateMseSegments)
      (f := fun r => (r.1.map (fun seg => (initTraks seg.data).length),
        r.1.all (fun seg => seg.segmentType != .initialization ||
          (initTraks seg.data).any (fun trak => decide (IsKind "soun" trak)))))
      (b := ([2,0,0,0],true)) (by decide +kernel)
    obtain ⟨hcopied,hall⟩ := Prod.mk.inj hpair
    refine ⟨by decide +kernel,⟨⟨_,List.mem_cons_self,rfl⟩,copiedAc3Track,
      (trakBox 2 48000 tagSoun (tables tagAc3 [1] 1024 28 [])).encode,by decide +kernel,
      by decide +kernel,rfl,by decide +kernel⟩,segments,s',h,hcopied,?_⟩
    intro hfiltered
    obtain ⟨seg,hseg,htype,_,hsoun⟩ := hfiltered.init
    have hany := List.all_eq_true.mp hall seg hseg
    simp only [htype,bne_self_eq_false,Bool.false_or] at hany
    obtain ⟨trak,htrak,hkind⟩ := List.any_eq_true.mp hany
    exact hsoun trak htrak (by simpa using hkind)

end Ac3Files

end ParserState

end OpenBroadcast.Media
