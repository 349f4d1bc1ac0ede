import OpenBroadcast.Media.AudioSegments

namespace OpenBroadcast.Media

open RawBox

/-- The bytes of a sample in the file. -/
def SampleEntry.bytes (file : Bytes) (se : SampleEntry) : Bytes :=
  (file.drop se.offset).take se.size.toNat

section Reading

/-- A fragment lists the samples of a group, and holds their bytes. -/
structure MovieFragment.Holds (found : MovieFragment) (trackId : UInt32)
    (group : List SampleEntry) (data : SampleEntry → Bytes) : Prop where
  trackId : found.tfhd.trackId = trackId.toNat
  durations : found.run.samples.map RunSample.duration = group.map (fun se => some se.duration.toNat)
  sizes : found.run.samples.map RunSample.size = group.map (fun se => some se.size.toNat)
  syncs : found.run.samples.map RunSample.isSync = group.map (fun se => some se.isKeyframe)
  compositionOffsets : found.run.samples.map RunSample.compositionOffset =
    group.map (fun se => some se.compositionOffset.toInt)
  payload : found.payload = group.flatMap data

variable {loop : GroupLoop} {start : Nat} {mdat : Bytes} {s : FragmentedMp4Converter}
  {group : List SampleEntry}

theorem readMovieFragment_segment (hplain : loop.Plain)
    (hinside : AllInside start mdat.length group) (hfits : Fits loop.timescale s group) :
    readMovieFragment (loop.segment start mdat s group).data =
      some (s.fragment loop.trackId (loop.frames start mdat group)) := by
  have hnumber := hfits.number
  have htime := hfits.time
  apply FragmentedMp4Converter.readMovieFragment_encode
  · omega
  · omega
  · rw [moofLength_frames]
    exact hfits.moof
  · rw [hplain.length_data hinside]
    exact hfits.mdat

/-- A video frame keeps all that the sample says. -/
theorem fragment_holds (hframe : loop.frame = videoFrame)
    (hinside : AllInside start mdat.length group) :
    (s.fragment loop.trackId (loop.frames start mdat group)).Holds loop.trackId group
      (fun se => se.dataIn start mdat) := by
  have hplain : loop.Plain := by
    intro se data
    rw [hframe]
    exact ⟨_,_,rfl⟩
  have hsamples : (s.fragment loop.trackId (loop.frames start mdat group)).run.samples =
      group.map (fun se => (videoFrame se (se.dataIn start mdat)).sample) := by
    simp only [FragmentedMp4Converter.fragment,GroupLoop.frames,List.map_map,hframe]
    rfl
  constructor
  · rfl
  · rw [hsamples,List.map_map]
    rfl
  · rw [hsamples,List.map_map]
    apply List.map_congr_left
    intro se hse
    have hsize := hplain.size hinside hse
    rw [hframe] at hsize
    exact congrArg some hsize
  · rw [hsamples,List.map_map]
    apply List.map_congr_left
    intro se _
    exact FrameData.sample_isSync _
  · rw [hsamples,List.map_map]
    rfl
  · exact hplain.flatMap_data start mdat group

end Reading

section File

theorem parseBox_content {start : Nat} {file rest : Bytes} {b : Mp4Box}
    (h : parseBox start (file.drop start) = .ok (b,rest)) :
    b.content = (file.drop b.header.contentStart).take b.content.length ∧
    rest = file.drop (start+b.header.size) := by
  obtain ⟨size,header,_,hle,hlen,rfl,rfl⟩ := parseBox_ok h
  refine ⟨?_,List.drop_drop⟩
  dsimp only
  rw [List.drop_drop,List.take_eq_take_iff,List.length_take]
  omega

theorem parseBox_content_lt {start : Nat} {data rest : Bytes} {b : Mp4Box}
    (h : parseBox start data = .ok (b,rest)) : b.content.length < 2^64 := by
  unfold parseBox at h
  split_ifs at h
  obtain ⟨⟨size,header⟩,_,h⟩ := bind_eq_ok.mp h
  dsimp only at h
  split_ifs at h
  cases h
  dsimp only
  rw [List.length_take]
  omega

/-- The content of a box is that part of the file to which its header leads. -/
theorem parseBoxesFrom_content {n start : Nat} {file : Bytes} {bs : List Mp4Box}
    (h : parseBoxesFrom n start (file.drop start) = .ok bs) {b : Mp4Box} (hb : b ∈ bs) :
    b.content = (file.drop b.header.contentStart).take b.content.length ∧
    b.content.length < 2^64 := by
  induction bs generalizing n start with
  | nil => cases hb
  | cons c bs ih =>
    obtain ⟨m,rest,hc,hbs⟩ := parseBoxesFrom_cons h
    obtain ⟨hcontent,rfl⟩ := parseBox_content hc
    rcases List.mem_cons.mp hb with rfl | hb
    · exact ⟨hcontent,parseBox_content_lt hc⟩
    · exact ih hbs hb

theorem dataIn_eq_bytes {file mdat : Bytes} {start : Nat}
    (hmdat : mdat = (file.drop start).take mdat.length) {se : SampleEntry}
    (h : se.Inside start mdat.length) : se.dataIn start mdat = se.bytes file := by
  obtain ⟨hstart,hend⟩ := h
  unfold SampleEntry.dataIn SampleEntry.bytes
  rw [hmdat,List.drop_take,List.take_take,List.drop_drop]
  congr 1
  · omega
  · congr 1
    omega

end File

namespace RegularMp4

variable (p : RegularMp4)

section Initialization

/-- What the new `moov` holds before its `mvex`. -/
def moovContent (moov : Mp4Box) : Bytes :=
  if p.hasAc3Audio then createVideoOnlyMoov moov.content else moov.content

/-- The new `moov` has a size that can be written. -/
def MoovFits (moov : Mp4Box) : Prop :=
  8+((p.moovContent moov).length+(8+p.tracks.length*32))%2^32 < 2^32

def trexBox (trackId : UInt32) : RawBox where
  kind := tagTrex
  body := [0,0,0,0]++toBe 4 trackId.toNat++[0,0,0,1]++List.replicate 12 0

theorem trexBox_fits (trackId : UInt32) : (trexBox trackId).Fits :=
  ⟨rfl,by simp [trexBox,RawBox.size]⟩

theorem length_encode_trexBox (trackId : UInt32) : (trexBox trackId).encode.length = 32 := by
  rw [(trexBox_fits trackId).length_encode]
  simp [trexBox,RawBox.size]

theorem createTrexBox_ok (trackId : UInt32) :
    createTrexBox trackId = .ok (trexBox trackId).encode := wrapBox_encode (trexBox_fits trackId) rfl

/-- The `mvex` with a `trex` for each track can always be written. -/
theorem createMvexBox_ok :
    ∃ mvex, p.createMvexBox = .ok mvex ∧ mvex.length = 8+p.tracks.length*32 := by
  have htrexes : p.tracks.mapM (fun t => createTrexBox t.trackId) =
      .ok (p.tracks.map (fun t => (trexBox t.trackId).encode)) := by
    simp only [createTrexBox_ok]
    exact List.mapM_pure
  have hlength : (p.tracks.map (fun t => (trexBox t.trackId).encode)).flatten.length =
      p.tracks.length*32 := by
    induction p.tracks with
    | nil => rfl
    | cons t tracks ih =>
      rw [List.map_cons,List.flatten_cons,List.length_append,length_encode_trexBox,ih,
        List.length_cons]
      omega
  obtain ⟨mvex,hmvex⟩ := (wrapBox_eq_ok_iff tagMvex _).mpr
    (by rw [hlength]; omega : 8+(p.tracks.map (fun t =>
      (trexBox t.trackId).encode)).flatten.length%2^32 < 2^32)
  refine ⟨mvex,?_,?_⟩
  · unfold createMvexBox
    rw [htrexes]
    exact hmvex
  · rw [length_wrapBox rfl hmvex,hlength]

theorem initSegment_eq_ok {moov : Mp4Box} (hmoov : p.lastBox tagMoov = some moov) :
    (∃ init, p.initSegment = .ok init) ↔ p.MoovFits moov := by
  obtain ⟨mvex,hmvex,hlength⟩ := p.createMvexBox_ok
  have hsize : (p.moovContent moov++mvex).length =
      (p.moovContent moov).length+(8+p.tracks.length*32) := by
    rw [List.length_append,hlength]
  have hcreate : p.createMseCompatibleMoov moov = wrapBox tagMoov (p.moovContent moov++mvex) := by
    unfold createMseCompatibleMoov
    rw [hmvex]
    rfl
  unfold MoovFits
  rw [← hsize,← wrapBox_eq_ok_iff tagMoov,← hcreate]
  unfold initSegment
  simp only [hmoov,bind_eq_ok]
  constructor
  · intro h
    obtain ⟨init,data,hdata,_⟩ := h
    exact ⟨data,hdata⟩
  · intro h
    obtain ⟨data,hdata⟩ := h
    exact ⟨_,data,hdata,rfl⟩

theorem initSegment_type {init : MseSegment} (h : p.initSegment = .ok init) :
    init.segmentType = .initialization := by
  unfold initSegment at h
  dsimp only at h
  split at h
  · obtain ⟨data,_,h⟩ := bind_eq_ok.mp h
    cases h
    rfl
  · cases h

end Initialization

section Conversion

theorem videoLoop_plain : p.videoLoop.Plain := fun _ _ => ⟨_,_,rfl⟩

/-- A new parser has parsed the file. What it says about tracks comes from a `moov`, and sample
sizes are counted with four bytes. -/
structure FreshlyParsed (file : Bytes) (p : RegularMp4) : Prop where
  boxes : parseBoxes file = .ok p.boxes
  converter : p.fmp4Converter = .new
  payloadOffset : ∀ mdat, p.lastBox tagMdat = some mdat →
    p.mdatPayloadOffset = mdat.header.contentStart
  moov : p.tracks ≠ [] → ∃ moov, p.lastBox tagMoov = some moov
  counts : ∀ track ∈ p.tracks, ∀ t, track.sampleTable = some t → t.sampleSizes.length < 2^32

/-- The samples of the video track are there, and lie inside the `mdat`. -/
structure HasVideo (p : RegularMp4) (entries : List SampleEntry) : Prop where
  mdat : ∃ mdat, p.lastBox tagMdat = some mdat
  resolved : ∃ track t, p.videoTrack = some track ∧ 0 < track.timescale ∧
    track.sampleTable = some t ∧ t.resolveSampleOffsets = .ok entries
  nonempty : entries ≠ []
  inside : AllInside p.mdatPayloadOffset p.mdatData.length entries
  small : totalSize entries < 2^31

/-- Nothing of the video is lost or out of order. -/
def VideoKept (file : Bytes) (p : RegularMp4) (entries : List SampleEntry)
    (segments : List MseSegment) : Prop :=
  ∃ (init : MseSegment) (video audio : List MseSegment) (groups : List (List SampleEntry))
    (found : List MovieFragment),
    segments = init::video++audio ∧ init.segmentType = .initialization ∧
    (∀ seg ∈ video, seg.segmentType = .media ∧ seg.trackId = p.trackId.toNat) ∧
    (∀ seg ∈ audio, ∃ track, p.audioTrack = some track ∧ seg.trackId = track.trackId.toNat) ∧
    video.map (fun seg => readMovieFragment seg.data) = found.map some ∧
    CutBeforeKeyframes entries groups ∧ found.length = groups.length ∧
    found.flatMap MovieFragment.payload = entries.flatMap (SampleEntry.bytes file) ∧
    ∀ i group fragment, groups[i]? = some group → found[i]? = some fragment →
      fragment.Holds p.trackId group (SampleEntry.bytes file) ∧
      fragment.baseMediaDecodeTime = ticks (groups.take i).flatten

/-- There is media data, and nothing panics: neither the sizes nor the times of the video, nor
the audio. -/
structure Passes (p : RegularMp4) (entries : List SampleEntry) : Prop where
  media : p.mdatData ≠ []
  moov : ∀ moov, p.lastBox tagMoov = some moov → p.MoovFits moov
  video : Encodable p.timescale .new (gops entries)
  audio : p.AudioPasses

variable {p} {file : Bytes} {entries : List SampleEntry}

theorem FreshlyParsed.content_of_mdat (hp : FreshlyParsed file p) {mdat : Mp4Box}
    (hmdat : p.lastBox tagMdat = some mdat) :
    p.mdatData = (file.drop p.mdatPayloadOffset).take p.mdatData.length ∧
    p.mdatData.length < 2^64 := by
  have hmem : mdat ∈ p.boxes := (List.mem_filter.mp (List.mem_of_getLast? hmdat)).1
  have hdata : p.mdatData = mdat.content := by
    unfold mdatData
    rw [hmdat]
    rfl
  rw [hdata,hp.payloadOffset mdat hmdat]
  have hboxes : parseBoxesFrom file.length 0 (file.drop 0) = .ok p.boxes := hp.boxes
  exact parseBoxesFrom_content hboxes hmem

theorem FreshlyParsed.mdat_content (hp : FreshlyParsed file p) (hvideo : HasVideo p entries) :
    p.mdatData = (file.drop p.mdatPayloadOffset).take p.mdatData.length ∧
    p.mdatData.length < 2^64 := by
  obtain ⟨mdat,hmdat⟩ := hvideo.mdat
  exact hp.content_of_mdat hmdat

section Video

omit p in
/-- Where the index does not matter, mapping with it is mapping. -/
theorem map_mapIdx_eq_map {α β γ : Type} {l : List α} {f : Nat → α → β} {g : β → γ} {k : α → γ}
    (h : ∀ i a, l[i]? = some a → g (f i a) = k a) : (l.mapIdx f).map g = l.map k := by
  apply List.ext_getElem?
  intro i
  rw [List.getElem?_map,List.getElem?_mapIdx,List.getElem?_map]
  cases ha : l[i]? with
  | none => rfl
  | some a => exact congrArg some (h i a ha)

omit p in
theorem map_snd_mapIdx {α : Type} (l : List α) (index : Nat → Nat) :
    (l.mapIdx (fun i a => (index i,a))).map Prod.snd = l := by
  have hid := @map_mapIdx_eq_map α (Nat × α) α l (fun i a => (index i,a)) Prod.snd id
    (fun _ _ _ => rfl)
  rw [hid,List.map_id]

/-- The segments of the groups of pictures, and what a reader should find in them. -/
def gopSegment (p : RegularMp4) (entries : List SampleEntry) (i : Nat)
    (group : List SampleEntry) : MseSegment :=
  p.videoLoop.segment p.mdatPayloadOffset p.mdatData
    (FragmentedMp4Converter.new.before (gops entries) i) group

def gopFragment (p : RegularMp4) (entries : List SampleEntry) (i : Nat)
    (group : List SampleEntry) : MovieFragment :=
  (FragmentedMp4Converter.new.before (gops entries) i).fragment p.trackId
    (p.videoLoop.frames p.mdatPayloadOffset p.mdatData group)

variable (hp : FreshlyParsed file p) (hvideo : HasVideo p entries)

include hvideo

theorem HasVideo.allInside {group : List SampleEntry} (hgroup : group ∈ gops entries) :
    AllInside p.mdatPayloadOffset p.mdatData.length group := by
  intro se hse
  apply hvideo.inside
  rw [← (gops_cut entries).flatten]
  exact List.mem_flatten_of_mem hgroup hse

include hp

/-- The groups of the video, one after the other. None is skipped. -/
theorem gops_eq_ok {st : Emission} :
    (gops entries).foldlM (emitGroup p.videoLoop p.mdatPayloadOffset p.mdatData) ⟨.new,0,[]⟩ =
        .ok st ↔
      Encodable p.timescale .new (gops entries) ∧
      st = (gops entries).foldl
        (Emission.emitted p.videoLoop p.mdatPayloadOffset p.mdatData) ⟨.new,0,[]⟩ := by
  obtain ⟨track,t,htrack,_,ht,hentries⟩ := hvideo.resolved
  have hcut := gops_cut entries
  have hcount := length_lt_of_mem hp.counts (List.mem_of_find?_eq_some htrack) ht hentries
  have hlengths : ∀ group ∈ gops entries, group.length < 2^32 := by
    intro group hgroup
    have hle : group.length ≤ (gops entries).flatten.length :=
      (List.sublist_flatten_of_mem hgroup).length_le
    rw [hcut.flatten] at hle
    omega
  have hkept : (gops entries).filter
      (fun group => AllInside p.mdatPayloadOffset p.mdatData.length group) = gops entries :=
    List.filter_eq_self.mpr (fun group hgroup => by simpa using hvideo.allInside hgroup)
  have hreadable : ∀ group ∈ gops entries,
      Readable p.mdatPayloadOffset p.mdatData.length group :=
    fun group hgroup => (hvideo.allInside hgroup).readable (hp.mdat_content hvideo).2
  have hsync : Emission.InSync ⟨.new,0,[]⟩ := rfl
  rw [emitGroups_eq_ok p.videoLoop_plain hcut.nonempty hlengths hsync,hkept]
  exact ⟨fun h => h.2,fun h => ⟨hreadable,h⟩⟩

theorem videoSegments_eq :
    p.videoSegments = (gops entries).foldlM
      (emitGroup p.videoLoop p.mdatPayloadOffset p.mdatData) ⟨.new,0,[]⟩ >>= fun st =>
      .ok (st.segments,st.converter) := by
  obtain ⟨track,t,htrack,_,ht,hentries⟩ := hvideo.resolved
  have htable : p.videoTrack.bind SampledTrack.sampleTable = some t := by
    rw [htrack]
    exact ht
  have hgops : p.gopSegments t = (gops entries).foldlM
      (emitGroup p.videoLoop p.mdatPayloadOffset p.mdatData) ⟨.new,0,[]⟩ := by
    have hempty : entries.isEmpty = false := by simpa using hvideo.nonempty
    rw [← gopLoop_eq _ hvideo.nonempty,← hp.converter]
    unfold gopSegments
    rw [hentries]
    exact if_neg (by simp [hempty])
  unfold videoSegments
  rw [htable]
  dsimp only
  rw [hgops]
  rfl

theorem videoSegments_eq_ok {video : List MseSegment} {c : FragmentedMp4Converter}
    (h : p.videoSegments = .ok (video,c)) :
    Encodable p.timescale .new (gops entries) ∧
    video = (gops entries).mapIdx (p.gopSegment entries) := by
  rw [videoSegments_eq hp hvideo] at h
  obtain ⟨st,hst,h⟩ := bind_eq_ok.mp h
  cases h
  obtain ⟨hencodable,rfl⟩ := (gops_eq_ok hp hvideo).mp hst
  refine ⟨hencodable,?_⟩
  rw [foldl_emitted,List.nil_append]
  rfl

theorem videoSegments_ok (h : Encodable p.timescale .new (gops entries)) :
    ∃ r, p.videoSegments = .ok r := by
  rw [videoSegments_eq hp hvideo]
  exact ⟨_,bind_eq_ok.mpr ⟨_,(gops_eq_ok hp hvideo).mpr ⟨h,rfl⟩,rfl⟩⟩

omit hp in
theorem readMovieFragment_gopSegment (h : Encodable p.timescale .new (gops entries)) {i : Nat}
    {group : List SampleEntry} (hgroup : (gops entries)[i]? = some group) :
    readMovieFragment (p.gopSegment entries i group).data =
      some (p.gopFragment entries i group) :=
  readMovieFragment_segment p.videoLoop_plain
    (hvideo.allInside (List.mem_of_getElem? hgroup)) (h i group hgroup)

theorem gopFragment_holds {i : Nat} {group : List SampleEntry}
    (hgroup : group ∈ gops entries) :
    (p.gopFragment entries i group).Holds p.trackId group (SampleEntry.bytes file) := by
  have hinside := hvideo.allInside hgroup
  have hholds : (p.gopFragment entries i group).Holds p.trackId group
      (fun se => se.dataIn p.mdatPayloadOffset p.mdatData) := by
    have hframe : p.videoLoop.frame = videoFrame := rfl
    exact fragment_holds hframe hinside
  have hbytes : group.flatMap (fun se => se.dataIn p.mdatPayloadOffset p.mdatData) =
      group.flatMap (SampleEntry.bytes file) := by
    rw [List.flatMap_def,List.flatMap_def]
    congr 1
    apply List.map_congr_left
    exact fun se hse => dataIn_eq_bytes (hp.mdat_content hvideo).1 (hinside se hse)
  exact { hholds with payload := by rw [hholds.payload,hbytes] }

theorem gopFragments_payload :
    ((gops entries).mapIdx (p.gopFragment entries)).flatMap MovieFragment.payload =
      entries.flatMap (SampleEntry.bytes file) := by
  have hpayloads : ((gops entries).mapIdx (p.gopFragment entries)).map MovieFragment.payload =
      (gops entries).map (fun group => group.flatMap (SampleEntry.bytes file)) :=
    map_mapIdx_eq_map (fun i group hgroup =>
      (gopFragment_holds hp hvideo (List.mem_of_getElem? hgroup)).payload)
  calc
    _ = (gops entries).flatMap (fun group => group.flatMap (SampleEntry.bytes file)) := by
      rw [List.flatMap_def,hpayloads,← List.flatMap_def]
    _ = (gops entries).flatten.flatMap (SampleEntry.bytes file) := by
      rw [List.flatten_eq_flatMap,List.flatMap_assoc]
      rfl
    _ = entries.flatMap (SampleEntry.bytes file) := by rw [(gops_cut entries).flatten]

end Video

/-- Without media data nothing but the initialization is returned. -/
theorem not_videoKept_init (hvideo : HasVideo p entries) {init : MseSegment} :
    ¬ VideoKept file p entries [init] := by
  intro h
  obtain ⟨_,video,_,groups,found,hsegments,_,_,_,hread,hcut,hlength,_⟩ := h
  have hnil : video = [] := by
    rw [List.cons_append,List.cons.injEq] at hsegments
    exact (List.append_eq_nil_iff.mp hsegments.2.symm).1
  have hfound : found = [] := by simpa [hnil] using hread.symm
  have hgroups : groups = [] := by
    rw [hfound] at hlength
    exact List.length_eq_zero_iff.mp hlength.symm
  apply hvideo.nonempty
  rw [← hcut.flatten,hgroups]
  rfl

theorem videoKept_gops (hp : FreshlyParsed file p) (hvideo : HasVideo p entries)
    (h : Encodable p.timescale .new (gops entries)) {init : MseSegment}
    (hinit : init.segmentType = .initialization) {audio : List MseSegment}
    (haudio : ∀ seg ∈ audio, ∃ track, p.audioTrack = some track ∧
      seg.trackId = track.trackId.toNat) :
    VideoKept file p entries (init::(gops entries).mapIdx (p.gopSegment entries)++audio) := by
  have hread : ((gops entries).mapIdx (p.gopSegment entries)).map
      (fun seg => readMovieFragment seg.data) =
      ((gops entries).mapIdx (p.gopFragment entries)).map some := by
    apply List.ext_getElem?
    intro i
    rw [List.getElem?_map,List.getElem?_mapIdx,List.getElem?_map,List.getElem?_mapIdx]
    cases hgroup : (gops entries)[i]? with
    | none => rfl
    | some group => exact congrArg some (readMovieFragment_gopSegment hvideo h hgroup)
  refine ⟨init,_,audio,gops entries,(gops entries).mapIdx (p.gopFragment entries),rfl,hinit,
    fun seg hseg => segment_of_mem_mapIdx hseg,haudio,hread,gops_cut entries,List.length_mapIdx,
    gopFragments_payload hp hvideo,?_⟩
  intro i group fragment hgroup hfragment
  rw [List.getElem?_mapIdx,hgroup] at hfragment
  cases hfragment
  exact ⟨gopFragment_holds hp hvideo (List.mem_of_getElem? hgroup),Nat.zero_add _⟩

/-- The conversion keeps the video exactly if there is media data and nothing overflows on the
way, also not in the audio. -/
theorem regular_mp4_keeps_video_iff (file : Bytes) (p : RegularMp4) (entries : List SampleEntry)
    (hp : FreshlyParsed file p) (hvideo : HasVideo p entries) :
    (∃ segments c, p.createFragmentsFromRegularMp4 = .ok (segments,c) ∧
      VideoKept file p entries segments) ↔ Passes p entries := by
  obtain ⟨track,_,htrack,_⟩ := hvideo.resolved
  obtain ⟨moov,hmoov⟩ := hp.moov (List.ne_nil_of_mem (List.mem_of_find?_eq_some htrack))
  constructor
  · intro h
    obtain ⟨segments,c,hcreate,hkept⟩ := h
    obtain ⟨init,hinit,hcreate⟩ := bind_eq_ok.mp hcreate
    have hmoovFits := (p.initSegment_eq_ok hmoov).mp ⟨init,hinit⟩
    by_cases hmedia : p.mdatData = []
    · rw [if_pos (by simpa using hmedia)] at hcreate
      cases hcreate
      exact absurd hkept (not_videoKept_init hvideo)
    · rw [if_neg (by simpa using hmedia)] at hcreate
      obtain ⟨⟨video,c₁⟩,hsegments,hcreate⟩ := bind_eq_ok.mp hcreate
      obtain ⟨audio,haudio,_⟩ := bind_eq_ok.mp hcreate
      refine ⟨hmedia,?_,(videoSegments_eq_ok hp hvideo hsegments).1,
        (audioSegments_eq_ok hp.counts).mp ⟨audio,haudio⟩⟩
      intro moov' hmoov'
      rw [hmoov] at hmoov'
      cases hmoov'
      exact hmoovFits
  · intro h
    obtain ⟨init,hinit⟩ := (p.initSegment_eq_ok hmoov).mpr (h.moov moov hmoov)
    obtain ⟨⟨video,c⟩,hsegments⟩ := videoSegments_ok hp hvideo h.video
    obtain ⟨audio,haudio⟩ := (audioSegments_eq_ok hp.counts).mpr h.audio
    obtain ⟨_,rfl⟩ := videoSegments_eq_ok hp hvideo hsegments
    have hcreate : p.createFragmentsFromRegularMp4 =
        .ok (init::(gops entries).mapIdx (p.gopSegment entries)++audio,c) := by
      unfold createFragmentsFromRegularMp4
      rw [hinit,hsegments,haudio]
      exact if_neg (by simpa using h.media)
    exact ⟨_,c,hcreate,videoKept_gops hp hvideo h.video (p.initSegment_type hinit)
      (audioSegments_trackId hp.counts haudio)⟩

section SampleFile

/-- The body of a full box that holds numbers of 32 bits. -/
def numbers (ns : List Nat) : Bytes := [0,0,0,0]++ns.flatMap (toBe 4)

/-- A `trak` with its `tkhd`, and the `mdhd`, the `hdlr` and the tables of its `mdia`. -/
def trakBox (trackId timescale : Nat) (handler : Bytes) (tables : List RawBox) : RawBox :=
  ⟨tagTrak,encodeAll [⟨[0x74,0x6b,0x68,0x64],numbers [0,0,trackId]⟩,
    ⟨tagMdia,encodeAll [⟨[0x6d,0x64,0x68,0x64],numbers [0,0,timescale,0]⟩,
      ⟨tagHdlr,numbers [0]++handler⟩,
      ⟨[0x6d,0x69,0x6e,0x66],encodeAll [⟨[0x73,0x74,0x62,0x6c],encodeAll tables⟩]⟩]⟩]⟩

/-- The `stsd`, `stsz`, `stts`, `stsc`, `stco` and `stss` of a track with one chunk. -/
def tables (format : Bytes) (sizes : List Nat) (duration offset : Nat) (sync : List Nat) :
    List RawBox :=
  [⟨[0x73,0x74,0x73,0x64],numbers [1,8]++format⟩,
    ⟨[0x73,0x74,0x73,0x7a],numbers (0::sizes.length::sizes)⟩,
    ⟨[0x73,0x74,0x74,0x73],numbers [1,sizes.length,duration]⟩,
    ⟨[0x73,0x74,0x73,0x63],numbers [1,1,sizes.length,1]⟩,
    ⟨[0x73,0x74,0x63,0x6f],numbers [1,offset]⟩,
    ⟨[0x73,0x74,0x73,0x73],numbers (sync.length::sync)⟩]

def avFtyp : RawBox := ⟨tagFtyp,[0x69,0x73,0x6f,0x6d,0,0,0,0]⟩

/-- Three video samples, of which the first and the last are keyframes, and an audio sample. -/
def avMdat : RawBox := ⟨tagMdat,[0xaa,0xab,0xbb,0xcc,0xdd]⟩

def avMoov (audioTimescale : Nat) : RawBox :=
  ⟨tagMoov,encodeAll
    [trakBox 1 1000 tagVide (tables [0x61,0x76,0x63,0x31] [2,1,1] 500 24 [1,3]),
      trakBox 2 audioTimescale [0x73,0x6f,0x75,0x6e] (tables [0x6d,0x70,0x34,0x61] [1] 1024 28 [])]⟩

def avFile (audioTimescale : Nat) : Bytes := encodeAll [avFtyp,avMdat,avMoov audioTimescale]

def avVideoTrack : SampledTrack where
  mediaType := "vide"
  timescale := 1000
  duration := 0
  codec := "H.264"
  trackId := 1
  codecParams := some "42E01E"
  sampleTable := some ⟨[2,1,1],[(3,500)],[(1,3,1)],[24],[1,3],[]⟩

def avAudioTrack (timescale : Nat) : SampledTrack where
  mediaType := "soun"
  timescale := timescale
  duration := 0
  codec := "AAC"
  trackId := 2
  codecParams := some "02"
  sampleTable := some ⟨[1],[(1,1024)],[(1,1,1)],[28],[],[]⟩

/-- What `parse` makes of the file. -/
def avParsed (audioTimescale : Nat) : RegularMp4 where
  boxes := [⟨⟨tagFtyp,16,8⟩,avFtyp.body⟩,⟨⟨tagMdat,13,24⟩,avMdat.body⟩,
    ⟨⟨tagMoov,(avMoov audioTimescale).size,37⟩,(avMoov audioTimescale).body⟩]
  tracks := [avVideoTrack,avAudioTrack audioTimescale]
  fmp4Converter := .new
  mdatPayloadOffset := 24

def avEntries : List SampleEntry :=
  [⟨24,2,500,true,0⟩,⟨26,1,500,false,0⟩,⟨27,1,500,true,0⟩]

def avAudioEntries : List SampleEntry := [⟨28,1,1024,true,0⟩]

theorem avFile_parsed (audioTimescale : Nat) (h : audioTimescale = 48000 ∨ audioTimescale = 0) :
    FreshlyParsed (avFile audioTimescale) (avParsed audioTimescale) := by
  constructor
  · rcases h with rfl | rfl
    · decide +kernel
    · decide +kernel
  · rfl
  · intro mdat hmdat
    cases hmdat
    rfl
  · exact fun _ => ⟨_,rfl⟩
  · intro track htrack t ht
    rcases List.mem_cons.mp htrack with rfl | htrack
    · cases ht
      decide
    · cases List.mem_singleton.mp htrack
      cases ht
      decide

theorem avFile_hasVideo (audioTimescale : Nat) : HasVideo (avParsed audioTimescale) avEntries where
  mdat := ⟨_,rfl⟩
  resolved := ⟨_,_,rfl,by decide,rfl,by decide +kernel⟩
  nonempty := by decide
  inside := (by decide +kernel : AllInside 24 avMdat.body.length avEntries)
  small := by decide

/-- Two segments for the video, of which the second begins after the two samples of the first. -/
theorem regular_mp4_keeps_video_avFile :
    ∃ segments c, (avParsed 48000).createFragmentsFromRegularMp4 = .ok (segments,c) ∧
      VideoKept (avFile 48000) (avParsed 48000) avEntries segments := by
  apply (regular_mp4_keeps_video_iff (avFile 48000) (avParsed 48000) avEntries
    (avFile_parsed 48000 (Or.inl rfl)) (avFile_hasVideo 48000)).mpr
  have hgops : gops avEntries =
      [[⟨24,2,500,true,0⟩,⟨26,1,500,false,0⟩],[⟨27,1,500,true,0⟩]] := by decide +kernel
  constructor
  · decide
  · intro moov hmoov
    cases hmoov
    unfold MoovFits
    decide +kernel
  · rw [hgops,encodable_cons,encodable_cons]
    refine ⟨?_,?_,encodable_nil _ _⟩ <;> constructor <;> decide
  · intro _ track t htrack ht
    cases htrack
    cases ht
    have hchunks : audioChunks (avAudioTrack 48000) avAudioEntries = [avAudioEntries] := by
      decide +kernel
    have hinside : AllInside 24 avMdat.body.length avAudioEntries := by decide +kernel
    have hkept : (avParsed 48000).keptGroups [avAudioEntries] = [avAudioEntries] := by
      decide +kernel
    refine ⟨avAudioEntries,by decide +kernel,?_,?_⟩
    · intro group hgroup
      rw [hchunks,List.mem_singleton] at hgroup
      rw [hgroup]
      exact hinside.readable (by decide)
    · rw [hchunks,hkept,encodable_cons]
      refine ⟨?_,encodable_nil _ _⟩
      constructor <;> decide

def emptyMoov : RawBox :=
  ⟨tagMoov,encodeAll [trakBox 1 1000 tagVide (tables [0x61,0x76,0x63,0x31] [0] 500 24 [])]⟩

/-- A video sample without bytes, in an `mdat` without bytes. -/
def emptyFile : Bytes := encodeAll [avFtyp,⟨tagMdat,[]⟩,emptyMoov]

def emptyParsed : RegularMp4 where
  boxes := [⟨⟨tagFtyp,16,8⟩,avFtyp.body⟩,⟨⟨tagMdat,8,24⟩,[]⟩,
    ⟨⟨tagMoov,emptyMoov.size,32⟩,emptyMoov.body⟩]
  tracks := [{ avVideoTrack with sampleTable := some ⟨[0],[(1,500)],[(1,1,1)],[24],[],[]⟩ }]
  fmp4Converter := .new
  mdatPayloadOffset := 24

theorem emptyFile_parsed : FreshlyParsed emptyFile emptyParsed := by
  constructor
  · decide +kernel
  · rfl
  · intro mdat hmdat
    cases hmdat
    rfl
  · exact fun _ => ⟨_,rfl⟩
  · intro track htrack t ht
    cases List.mem_singleton.mp htrack
    cases ht
    decide

theorem emptyFile_hasVideo : HasVideo emptyParsed [⟨24,0,500,true,0⟩] where
  mdat := ⟨_,rfl⟩
  resolved := ⟨_,_,rfl,by decide,rfl,by decide +kernel⟩
  nonempty := by decide
  inside := by decide +kernel
  small := by decide

/-- With a timescale of 0 for the audio the conversion panics, and the video is lost. It is also
lost without media data. -/
theorem conversion_loses_video :
    (FreshlyParsed (avFile 0) (avParsed 0) ∧ HasVideo (avParsed 0) avEntries ∧
      (avParsed 0).createFragmentsFromRegularMp4 = .error .panic) ∧
    FreshlyParsed emptyFile emptyParsed ∧ HasVideo emptyParsed [⟨24,0,500,true,0⟩] ∧
    ∃ init c, emptyParsed.createFragmentsFromRegularMp4 = .ok ([init],c) ∧
      ¬ VideoKept emptyFile emptyParsed [⟨24,0,500,true,0⟩] [init] := by
  have hpanic : (avParsed 0).createFragmentsFromRegularMp4 = .error .panic := by decide +kernel
  refine ⟨⟨avFile_parsed 0 (Or.inr rfl),avFile_hasVideo 0,hpanic⟩,emptyFile_parsed,
    emptyFile_hasVideo,?_⟩
  obtain ⟨moov,hmoov⟩ := emptyFile_parsed.moov (by decide)
  have hfits : emptyParsed.MoovFits moov := by
    cases hmoov
    unfold MoovFits
    decide +kernel
  obtain ⟨init,hinit⟩ := (emptyParsed.initSegment_eq_ok hmoov).mpr hfits
  refine ⟨init,.new,?_,not_videoKept_init emptyFile_hasVideo⟩
  unfold createFragmentsFromRegularMp4
  rw [hinit]
  rfl

end SampleFile

end Conversion

end RegularMp4

end OpenBroadcast.Media
