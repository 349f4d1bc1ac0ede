import OpenBroadcast.Media.SkippedGroups

namespace OpenBroadcast.Media

section Segments

/-- The second segment begins where the first one ends, up to two milliseconds. -/
def StreamSegment.Contiguous (a b : StreamSegment) : Prop :=
  ((b.ptsUs.toNat : Int)-(a.ptsUs.toNat+a.durationUs.toNat)).natAbs ≤ 2000

def MseSegment.Contiguous (a b : MseSegment) : Prop :=
  ((b.timestamp.getD 0 : Int)-(a.timestamp.getD 0+a.duration.getD 0)).natAbs ≤ 2

/-- The times of the stream segment are a thousand times those of the segment. -/
def TimesThousand (mse : MseSegment) (seg : StreamSegment) : Prop :=
  seg.ptsUs.toNat = mse.timestamp.getD 0*1000 ∧ seg.durationUs.toNat = mse.duration.getD 0*1000

theorem fromMseSegment_times {mse : MseSegment} {streamId : StreamId} {sequence : Nat}
    {seg : StreamSegment} (h : StreamSegment.fromMseSegment mse streamId sequence = .ok seg) :
    TimesThousand mse seg := by
  obtain ⟨pts,hpts,h⟩ := bind_eq_ok.mp h
  obtain ⟨duration,hduration,h⟩ := bind_eq_ok.mp h
  obtain ⟨rfl,hptsLt⟩ := checkedU64_eq_ok hpts
  obtain ⟨rfl,hdurationLt⟩ := checkedU64_eq_ok hduration
  split_ifs at h with hlength
  cases h
  constructor
  · exact (UInt64.toNat_ofNat').trans (Nat.mod_eq_of_lt hptsLt)
  · exact (UInt64.toNat_ofNat').trans (Nat.mod_eq_of_lt hdurationLt)

theorem TimesThousand.contiguous_iff {a b : MseSegment} {x y : StreamSegment}
    (ha : TimesThousand a x) (hb : TimesThousand b y) : a.Contiguous b ↔ x.Contiguous y := by
  unfold MseSegment.Contiguous StreamSegment.Contiguous
  rw [ha.1,ha.2,hb.1]
  omega

end Segments

section Groups

/-- Samples that begin at `t` and take `d` take about `d` milliseconds. -/
def NearMillis (timescale t d : Nat) : Prop :=
  (((t+d)*1000/timescale : Nat) - (t*1000/timescale + d : Nat) : Int).natAbs ≤ 2

/-- A group that is followed by another one takes about as many milliseconds as ticks. -/
def GroupsNearMillis (timescale : Nat) (groups : List (List SampleEntry)) : Prop :=
  ∀ before group next after, groups = before++group::next::after →
    NearMillis timescale (ticks before.flatten) (ticks group)

/-- One tick is a millisecond. -/
theorem nearMillis_thousand (t d : Nat) : NearMillis 1000 t d := by
  unfold NearMillis
  rw [Nat.mul_div_cancel _ (by decide),Nat.mul_div_cancel _ (by decide)]
  simp

variable {loop : GroupLoop} {start : Nat} {mdat : Bytes}

theorem contiguous_segment_iff (s : FragmentedMp4Converter) (group next : List SampleEntry) :
    (loop.segment start mdat s group).Contiguous
        (loop.segment start mdat (s.after group) next) ↔
      NearMillis loop.timescale s.baseMediaDecodeTime (ticks group) := by
  unfold MseSegment.Contiguous NearMillis GroupLoop.segment FragmentedMp4Converter.after
  dsimp only [Option.getD]
  push_cast
  rfl

/-- The segments of some groups follow each other exactly if the ticks of the groups are
milliseconds. -/
theorem isChain_segments_iff (groups : List (List SampleEntry)) (s : FragmentedMp4Converter) :
    (groups.mapIdx (fun i group => loop.segment start mdat (s.before groups i) group)).IsChain
        MseSegment.Contiguous ↔
      ∀ before group next after, groups = before++group::next::after →
        NearMillis loop.timescale (s.baseMediaDecodeTime+ticks before.flatten) (ticks group) := by
  induction groups generalizing s with
  | nil => simp
  | cons first groups ih =>
    rw [List.mapIdx_cons]
    simp only [FragmentedMp4Converter.before_succ,FragmentedMp4Converter.before_zero]
    cases groups with
    | nil =>
      refine ⟨fun _ => ?_,fun _ => List.isChain_singleton _⟩
      intro before group next after heq
      have hlength := congrArg List.length heq
      simp only [List.length_append,List.length_cons,List.length_nil] at hlength
      omega
    | cons second groups =>
      have htail := ih (s.after first)
      rw [List.mapIdx_cons] at htail ⊢
      simp only [FragmentedMp4Converter.before_zero] at htail ⊢
      rw [List.isChain_cons_cons,contiguous_segment_iff,htail]
      constructor
      · intro h before group next after heq
        cases before with
        | nil =>
          cases heq
          exact h.1
        | cons x before =>
          rw [List.cons_append,List.cons.injEq] at heq
          obtain ⟨rfl,heq⟩ := heq
          rw [List.flatten_cons,ticks_append,← Nat.add_assoc]
          exact h.2 before group next after heq
      · intro h
        refine ⟨h [] first second groups rfl,?_⟩
        intro before group next after heq
        have := h (first::before) group next after (by rw [heq]; rfl)
        rwa [List.flatten_cons,ticks_append,← Nat.add_assoc] at this

end Groups

section Pieces

namespace RegularMp4

variable {p : RegularMp4}

/-- One piece of data, and what is left of it. -/
theorem pieceSegments_cons {n index : Nat} {data : Bytes} {c c' : FragmentedMp4Converter}
    {segments : List MseSegment} (hne : data ≠ [])
    (h : p.pieceSegments (n+1) index data c = .ok (segments,c')) :
    ∃ seg rest c₁, segments = seg::rest ∧ seg.timestamp = some (index*1000) ∧
      seg.duration = some p.timescale ∧
      p.pieceSegments n (index+1) (data.drop chunkSize) c₁ = .ok (rest,c') := by
  rw [pieceSegments] at h
  · obtain ⟨timestamp,htimestamp,h⟩ := bind_eq_ok.mp h
    obtain ⟨⟨fragment,c₁⟩,_,h⟩ := bind_eq_ok.mp h
    obtain ⟨⟨rest,c₂⟩,hrest,h⟩ := bind_eq_ok.mp h
    cases h
    obtain ⟨rfl,_⟩ := checkedU64_eq_ok htimestamp
    exact ⟨_,rest,c₁,rfl,rfl,rfl,hrest⟩
  · exact hne

theorem pieceSegments_nil {n index : Nat} {c c' : FragmentedMp4Converter}
    {segments : List MseSegment} (h : p.pieceSegments n index [] c = .ok (segments,c')) :
    segments = [] ∧ c' = c := by
  cases n <;>
  · cases h
    exact ⟨rfl,rfl⟩

/-- The pieces follow each other exactly if there is only one, or the timescale is about a
thousand. -/
theorem isChain_pieces_iff {n index : Nat} {data : Bytes} (hn : data.length ≤ n)
    {c c' : FragmentedMp4Converter} {segments : List MseSegment}
    (h : p.pieceSegments n index data c = .ok (segments,c')) :
    segments.IsChain MseSegment.Contiguous ↔
      (chunkSize < data.length → ((1000 : Int)-p.timescale).natAbs ≤ 2) := by
  induction n generalizing index data c segments with
  | zero =>
    have hnil : data = [] := List.length_eq_zero_iff.mp (by omega)
    subst hnil
    simp [(pieceSegments_nil h).1]
  | succ n ih =>
    by_cases hne : data = []
    · subst hne
      simp [(pieceSegments_nil h).1]
    obtain ⟨seg,rest,c₁,rfl,htime,hduration,hrest⟩ := pieceSegments_cons hne h
    have hpos := List.length_pos_iff.mpr hne
    have hlength : (data.drop chunkSize).length ≤ n := by
      rw [List.length_drop]
      unfold chunkSize
      omega
    by_cases hmore : chunkSize < data.length
    · have hrestNe : data.drop chunkSize ≠ [] := by
        intro hnil
        rw [List.drop_eq_nil_iff] at hnil
        omega
      have hlate : ∀ other : MseSegment, other.timestamp = some ((index+1)*1000) →
          (seg.Contiguous other ↔ ((1000 : Int)-p.timescale).natAbs ≤ 2) := by
        intro other hother
        unfold MseSegment.Contiguous
        rw [htime,hduration,hother]
        simp only [Option.getD_some]
        omega
      cases n with
      | zero =>
        have := List.length_pos_iff.mpr hrestNe
        omega
      | succ n =>
        have hchain := ih hlength hrest
        obtain ⟨second,others,_,rfl,hsecond,_,_⟩ := pieceSegments_cons hrestNe hrest
        rw [List.isChain_cons_cons,hlate second hsecond,hchain]
        exact ⟨fun h _ => h.1,fun h => ⟨h hmore,fun _ => h hmore⟩⟩
    · have hnil : data.drop chunkSize = [] := List.drop_eq_nil_iff.mpr (by omega)
      rw [hnil] at hrest
      simp [(pieceSegments_nil hrest).1,hmore]

end RegularMp4

end Pieces

section Tracks

namespace RegularMp4

variable (p : RegularMp4)

/-- How many segments come before those of the audio. -/
def videoCount : Nat :=
  if p.mdatData.isEmpty then 0 else (p.videoSegments.toOption.map (fun r => r.1.length)).getD 0

/-- The segments of the video follow each other, and so do those of the audio. -/
def TracksContiguous (segments : List StreamSegment) : Prop :=
  ∃ init video audio, segments = init::video++audio ∧ video.length = p.videoCount ∧
    video.IsChain StreamSegment.Contiguous ∧ audio.IsChain StreamSegment.Contiguous

/-- In every track, an emitted group that is followed by another one takes about as many
milliseconds as ticks. Without a sample table this is asked of the pieces. -/
structure TicksAreMillis : Prop where
  video : ∀ track t entries, p.videoTrack = some track → track.sampleTable = some t →
    t.resolveSampleOffsets = .ok entries →
    GroupsNearMillis track.timescale ((gops entries).filter p.isKept)
  pieces : p.videoTrack.bind SampledTrack.sampleTable = none → chunkSize < p.mdatData.length →
    ((1000 : Int)-p.timescale).natAbs ≤ 2
  audio : ∀ track t entries, p.audioTrack = some track → track.sampleTable = some t →
    t.resolveSampleOffsets = .ok entries →
    GroupsNearMillis track.timescale ((audioChunks track entries).filter p.isKept)

variable {p}

theorem groupsNearMillis_iff {loop : GroupLoop} {start : Nat} {mdat : Bytes}
    (groups : List (List SampleEntry)) :
    (groups.mapIdx (fun i group =>
        loop.segment start mdat (FragmentedMp4Converter.new.before groups i) group)).IsChain
      MseSegment.Contiguous ↔ GroupsNearMillis loop.timescale groups := by
  have hnew : FragmentedMp4Converter.new.baseMediaDecodeTime = 0 := rfl
  rw [isChain_segments_iff,hnew]
  simp only [Nat.zero_add]
  rfl

/-- What is said of all samples of the track that is found is said of these samples. -/
theorem forall_entries_iff {found : Option SampledTrack} {track : SampledTrack} {t : SampleTable}
    {entries : List SampleEntry} (htrack : found = some track) (ht : track.sampleTable = some t)
    (hentries : t.resolveSampleOffsets = .ok entries) (P : SampledTrack → List SampleEntry → Prop) :
    (∀ track t entries, found = some track → track.sampleTable = some t →
      t.resolveSampleOffsets = .ok entries → P track entries) ↔ P track entries := by
  constructor
  · exact fun hall => hall track t entries htrack ht hentries
  · intro h track' t' entries' htrack' ht' hentries'
    have hsame : track = track' := Option.some.inj (htrack.symm.trans htrack')
    subst hsame
    have htable : t = t' := Option.some.inj (ht.symm.trans ht')
    subst htable
    have hlist : entries = entries' := Except.ok.inj (hentries.symm.trans hentries')
    rwa [← hlist]

variable (hcounts : ∀ track ∈ p.tracks, ∀ t, track.sampleTable = some t →
  t.sampleSizes.length < 2^32)

include hcounts

theorem isChain_video_iff (hconverter : p.fmp4Converter = .new) {video : List MseSegment}
    {c : FragmentedMp4Converter} (h : p.videoSegments = .ok (video,c)) :
    video.IsChain MseSegment.Contiguous ↔
      (∀ track t entries, p.videoTrack = some track → track.sampleTable = some t →
        t.resolveSampleOffsets = .ok entries →
        GroupsNearMillis track.timescale ((gops entries).filter p.isKept)) ∧
      (p.videoTrack.bind SampledTrack.sampleTable = none → chunkSize < p.mdatData.length →
        ((1000 : Int)-p.timescale).natAbs ≤ 2) := by
  cases htable : p.videoTrack.bind SampledTrack.sampleTable with
  | none =>
    have hpieces := h
    unfold videoSegments at hpieces
    rw [htable] at hpieces
    rw [isChain_pieces_iff (le_refl _) hpieces]
    constructor
    · intro hlong
      refine ⟨?_,fun _ => hlong⟩
      intro track t entries htrack ht
      rw [htrack,Option.bind_some,ht] at htable
      cases htable
    · exact fun hboth => hboth.2 rfl
  | some t =>
    obtain ⟨track,htrack,ht⟩ := Option.bind_eq_some_iff.mp htable
    obtain ⟨entries,hentries,_,_,rfl⟩ := videoSegments_table hcounts hconverter htrack ht h
    have htimescale : p.videoLoop.timescale = track.timescale := by
      change (p.videoTrack.map (fun t => t.timescale)).getD 1000 = _
      rw [htrack]
      rfl
    have hall := forall_entries_iff htrack ht hentries (fun track entries =>
      GroupsNearMillis track.timescale ((gops entries).filter p.isKept))
    rw [groupsNearMillis_iff,htimescale,hall]
    exact ⟨fun hnear => ⟨hnear,fun hnone => by cases hnone⟩,And.left⟩

theorem isChain_audio_iff (hac3 : p.hasAc3Audio = false) {audio : List MseSegment}
    (h : p.audioSegments = .ok audio) :
    audio.IsChain MseSegment.Contiguous ↔
      ∀ track t entries, p.audioTrack = some track → track.sampleTable = some t →
        t.resolveSampleOffsets = .ok entries →
        GroupsNearMillis track.timescale ((audioChunks track entries).filter p.isKept) := by
  by_cases htable : ∃ track t, p.audioTrack = some track ∧ track.sampleTable = some t
  · obtain ⟨track,t,htrack,ht⟩ := htable
    obtain ⟨entries,hentries,_,rfl⟩ := audioSegments_table hcounts hac3 htrack ht h
    have hall := forall_entries_iff htrack ht hentries (fun track entries =>
      GroupsNearMillis track.timescale ((audioChunks track entries).filter p.isKept))
    rw [groupsNearMillis_iff,hall]
    rfl
  · rw [audioSegments_none (fun hboth => htable hboth.2)] at h
    cases h
    constructor
    · exact fun _ track t entries htrack ht => absurd ⟨track,t,htrack,ht⟩ htable
    · exact fun _ => List.isChain_nil

omit hcounts in
theorem length_videoCount (hmedia : p.mdatData ≠ []) {video : List MseSegment}
    {c : FragmentedMp4Converter} (h : p.videoSegments = .ok (video,c)) :
    p.videoCount = video.length := by
  unfold videoCount
  rw [if_neg (by simpa using hmedia),h]
  rfl

/-- What the conversion returns is contiguous as stream segments exactly if ticks are
milliseconds. -/
theorem tracksContiguous_iff (hconverter : p.fmp4Converter = .new) (hac3 : p.hasAc3Audio = false)
    {mse : List MseSegment} {c : FragmentedMp4Converter}
    (h : p.createFragmentsFromRegularMp4 = .ok (mse,c)) {segments : List StreamSegment}
    (htimes : List.Forall₂ TimesThousand mse segments) :
    p.TracksContiguous segments ↔ (p.mdatData ≠ [] → p.TicksAreMillis) := by
  have hchain : ∀ {l : List MseSegment} {m : List StreamSegment}, List.Forall₂ TimesThousand l m →
      (l.IsChain MseSegment.Contiguous ↔ m.IsChain StreamSegment.Contiguous) :=
    fun h => isChain_congr (fun _ _ _ _ ha hb => ha.contiguous_iff hb) h
  obtain ⟨init,_,h⟩ := bind_eq_ok.mp h
  by_cases hmedia : p.mdatData = []
  · rw [if_pos (by simpa using hmedia)] at h
    cases h
    obtain ⟨seg,_,_,hnil,rfl⟩ := List.forall₂_cons_left_iff.mp htimes
    cases hnil
    constructor
    · exact fun _ hne => absurd hmedia hne
    · intro _
      refine ⟨seg,[],[],rfl,?_,List.isChain_nil,List.isChain_nil⟩
      unfold videoCount
      rw [if_pos (by simpa using hmedia)]
      rfl
  · rw [if_neg (by simpa using hmedia)] at h
    obtain ⟨⟨video,c'⟩,hvideo,h⟩ := bind_eq_ok.mp h
    obtain ⟨audio,haudio,h⟩ := bind_eq_ok.mp h
    cases h
    obtain ⟨seg,rest,_,htail,rfl⟩ := List.forall₂_cons_left_iff.mp htimes
    obtain ⟨videoStream,audioStream,rfl,hv,ha⟩ := forall₂_append htail
    have hcount : videoStream.length = p.videoCount := by
      rw [length_videoCount hmedia hvideo]
      exact hv.length_eq.symm
    have hvideoChain := (hchain hv).symm.trans (isChain_video_iff hcounts hconverter hvideo)
    have haudioChain := (hchain ha).symm.trans (isChain_audio_iff hcounts hac3 haudio)
    constructor
    · intro hcontiguous _
      obtain ⟨_,v,a,hsplit,hlength,hvChain,haChain⟩ := hcontiguous
      have hsame := List.append_inj (List.cons.inj hsplit).2 (by rw [hcount,hlength])
      rw [← hsame.1] at hvChain
      rw [← hsame.2] at haChain
      obtain ⟨hgroups,hpieces⟩ := hvideoChain.mp hvChain
      exact ⟨hgroups,hpieces,haudioChain.mp haChain⟩
    · intro hmillis
      have hall := hmillis hmedia
      exact ⟨seg,videoStream,audioStream,rfl,hcount,hvideoChain.mpr ⟨hall.video,hall.pieces⟩,
        haudioChain.mpr hall.audio⟩

end RegularMp4

end Tracks

namespace ParserState

open RawBox RegularMp4

/-- Every segment becomes a stream segment. -/
theorem generateStreamSegments_forall₂ {s s' : ParserState} {streamId : StreamId}
    {segments : List StreamSegment} (h : s.generateStreamSegments streamId = .ok (segments,s')) :
    ∃ mse, s.generateMseSegments = .ok (mse,s') ∧
      List.Forall₂ (fun one seg => ∃ i, StreamSegment.fromMseSegment one streamId i = .ok seg)
        mse segments := by
  obtain ⟨⟨mse,_⟩,hmse,h⟩ := bind_eq_ok.mp h
  obtain ⟨_,hsegments,h⟩ := bind_eq_ok.mp h
  cases h
  refine ⟨mse,hmse,?_⟩
  have hpairs : List.Forall₂ (fun (pair : Nat × MseSegment) seg =>
      ∃ i, StreamSegment.fromMseSegment pair.2 streamId i = .ok seg)
      (mse.mapIdx (fun i mse => (i,mse))) segments := by
    apply (mapM_eq_ok_iff.mp hsegments).imp
    rintro ⟨i,one⟩ seg hseg
    exact ⟨i,hseg⟩
  rw [← map_snd_mapIdx mse id]
  exact List.forall₂_map_left_iff.mpr hpairs

theorem generateStreamSegments_eq_ok {s s' : ParserState} {streamId : StreamId}
    {segments : List StreamSegment} (h : s.generateStreamSegments streamId = .ok (segments,s')) :
    ∃ mse, s.generateMseSegments = .ok (mse,s') ∧ List.Forall₂ TimesThousand mse segments := by
  obtain ⟨mse,hmse,hall⟩ := generateStreamSegments_forall₂ h
  refine ⟨mse,hmse,hall.imp ?_⟩
  intro one seg hseg
  obtain ⟨i,hi⟩ := hseg
  exact fromMseSegment_times hi

/-- For a file that is not fragmented, the stream segments of each track follow each other exactly
if there is no media data, or ticks are about milliseconds. -/
theorem stream_segments_contiguous_iff (file : Bytes) (s s' : ParserState) (streamId : StreamId)
    (segments : List StreamSegment) (hs : new.parse file = .ok s) (hregular : s.isFragmented = false)
    (h : s.generateStreamSegments streamId = .ok (segments,s')) :
    s.regular.TracksContiguous segments ↔
      (s.regular.mdatData ≠ [] → s.regular.TicksAreMillis) := by
  have hp := parse_freshly hs
  obtain ⟨mse,hmse,htimes⟩ := generateStreamSegments_eq_ok h
  obtain ⟨c,hcreate,_⟩ := (generateMseSegments_regular hregular).mp hmse
  exact tracksContiguous_iff hp.counts hp.converter (parse_hasAc3Audio hs) hcreate htimes

section TimescaleFile

/-- The video has a timescale of a thousand, and the audio has one segment. -/
theorem stream_segments_contiguous_avFile :
    ∃ segments s', avState.generateStreamSegments ⟨[1]⟩ = .ok (segments,s') ∧
      avState.regular.TracksContiguous segments := by
  obtain ⟨⟨segments,s'⟩,h⟩ :=
    @exists_ok _ (avState.generateStreamSegments ⟨[1]⟩) (by decide +kernel)
  refine ⟨segments,s',h,
    (stream_segments_contiguous_iff _ _ _ _ _ avFile_parse rfl h).mpr (fun _ => ?_)⟩
  have haudio : ((avAudioTrack 48000).sampleTable.map SampleTable.resolveSampleOffsets) =
      some (.ok avAudioEntries) := by decide +kernel
  constructor
  · intro track t entries htrack _ _ before group next after _
    cases htrack
    exact nearMillis_thousand _ _
  · exact fun hnone => by cases hnone
  · intro track t entries htrack ht hentries before group next after heq
    cases htrack
    change (avAudioTrack 48000).sampleTable = some t at ht
    rw [ht,Option.map_some,hentries] at haudio
    cases haudio
    have hone : ((audioChunks (avAudioTrack 48000) avAudioEntries).filter
        avState.regular.isKept).length = 1 := by decide +kernel
    have hlength := congrArg List.length heq
    change ((audioChunks (avAudioTrack 48000) avAudioEntries).filter
        avState.regular.isKept).length = _ at hlength
    rw [hone] at hlength
    simp only [List.length_append,List.length_cons] at hlength
    omega

def ninetyTables : List RawBox := tables [0x61,0x76,0x63,0x31] [1,1] 3000 24 [1,2]

/-- Two keyframes of a thirtieth of a second, with a timescale of 90000. -/
def ninetyFile : Bytes :=
  encodeAll [avFtyp,⟨tagMdat,[0xaa,0xbb]⟩,⟨tagMoov,(trakBox 1 90000 tagVide ninetyTables).encode⟩]

def ninetyState : ParserState where
  boxes := [⟨⟨tagFtyp,16,8⟩,avFtyp.body⟩,⟨⟨tagMdat,10,24⟩,[0xaa,0xbb]⟩,
    ⟨⟨tagMoov,8+(trakBox 1 90000 tagVide ninetyTables).size,34⟩,
      (trakBox 1 90000 tagVide ninetyTables).encode⟩]
  tracks := [⟨{ skippingTrack with
    timescale := 90000
    sampleTable := some ⟨[1,1],[(2,3000)],[(1,2,1)],[24],[1,2],[]⟩ },
      "video/mp4; codecs=\"avc1.42E01E\""⟩]
  isFragmented := false
  fmp4Converter := .new
  mdatPayloadOffset := 24
  pendingSampleTable := none

/-- The first segment is said to take three seconds, and the second one begins after 33 ms. -/
theorem ticks_taken_for_millis :
    new.parse ninetyFile = .ok ninetyState ∧
    ∃ segments s', ninetyState.generateStreamSegments ⟨[1]⟩ = .ok (segments,s') ∧
      segments.map (fun seg => (seg.ptsUs,seg.durationUs)) =
        [(0,0),(0,3000000),(33000,3000000)] ∧
      ¬ ninetyState.regular.TracksContiguous segments := by
  have hparse : new.parse ninetyFile = .ok ninetyState := by decide +kernel
  have htimes : (ninetyState.generateStreamSegments ⟨[1]⟩).toOption.map (fun r =>
      r.1.map (fun seg => (seg.ptsUs,seg.durationUs))) =
      some [(0,0),(0,3000000),(33000,3000000)] := by decide +kernel
  obtain ⟨⟨segments,s'⟩,h⟩ :=
    @exists_ok _ (ninetyState.generateStreamSegments ⟨[1]⟩) (by decide +kernel)
  rw [h] at htimes
  have hmap := Option.some.inj htimes
  refine ⟨hparse,segments,s',h,hmap,?_⟩
  intro hcontiguous
  obtain ⟨mse,hmse,htimes⟩ := generateStreamSegments_eq_ok h
  obtain ⟨c,hcreate,_⟩ := (generateMseSegments_regular rfl).mp hmse
  have hp := parse_freshly hparse
  have hmillis := (tracksContiguous_iff hp.counts hp.converter (parse_hasAc3Audio hparse) hcreate
    htimes).mp hcontiguous (by decide)
  have hentries : SampleTable.resolveSampleOffsets ⟨[1,1],[(2,3000)],[(1,2,1)],[24],[1,2],[]⟩ =
      .ok [⟨24,1,3000,true,0⟩,⟨25,1,3000,true,0⟩] := by decide +kernel
  have hnear := hmillis.video _ _ _ rfl rfl hentries [] [⟨24,1,3000,true,0⟩]
    [⟨25,1,3000,true,0⟩] [] (by decide +kernel)
  revert hnear
  unfold NearMillis
  decide

end TimescaleFile

end ParserState

end OpenBroadcast.Media
