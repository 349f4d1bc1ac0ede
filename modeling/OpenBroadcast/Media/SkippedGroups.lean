import OpenBroadcast.Media.Parser

namespace OpenBroadcast.Media

section Times

/-- The groups of a track, each with the time that the samples before it take. -/
def timed : Nat → List (List SampleEntry) → List (Nat × List SampleEntry)
  | _,[] => []
  | t,group::groups => (t,group)::timed (t+ticks group) groups

variable (kept : List SampleEntry → Bool)

/-- The groups that are skipped before one that is not take no time. -/
def SkippedTakeNoTime (groups : List (List SampleEntry)) : Prop :=
  ∀ before group after, groups = before++group::after → kept group = true →
    ticks (before.filter (fun group => !kept group)).flatten = 0

variable {kept}

theorem ticks_flatten_filter (groups : List (List SampleEntry)) :
    ticks (groups.filter kept).flatten+ticks (groups.filter (fun group => !kept group)).flatten =
      ticks groups.flatten := by
  induction groups with
  | nil => rfl
  | cons group groups ih =>
    rw [List.flatten_cons,ticks_append]
    cases hkept : kept group with
    | true =>
      rw [List.filter_cons_of_pos hkept,List.filter_cons_of_neg (by simp [hkept]),
        List.flatten_cons,ticks_append]
      omega
    | false =>
      rw [List.filter_cons_of_neg (by simp [hkept]),List.filter_cons_of_pos (by simp [hkept]),
        List.flatten_cons,ticks_append]
      omega

variable {timescale : Nat} {segment : FragmentedMp4Converter → List SampleEntry → MseSegment}
  {R : MseSegment → Nat × List SampleEntry → Prop}

/-- A clock that only the kept groups advance, against one that all groups advance. -/
theorem forall₂_clock_iff (hR : ∀ s group t, kept group = true → Fits timescale s group →
      (R (segment s group) (t,group) ↔ s.baseMediaDecodeTime = t))
    {groups : List (List SampleEntry)} {s : FragmentedMp4Converter} {t : Nat}
    (h : Encodable timescale s (groups.filter kept)) :
    List.Forall₂ R
        ((groups.filter kept).mapIdx (fun i group => segment (s.before (groups.filter kept) i) group))
        ((timed t groups).filter (fun timedGroup => kept timedGroup.2)) ↔
      ∀ before group after, groups = before++group::after → kept group = true →
        s.baseMediaDecodeTime+ticks (before.filter kept).flatten = t+ticks before.flatten := by
  induction groups generalizing s t with
  | nil => simp [timed]
  | cons first groups ih =>
    -- A split of the groups is at the first one, or behind it.
    have hsplit : ∀ P : List (List SampleEntry) → List SampleEntry → Prop,
        (∀ before group after, first::groups = before++group::after → P before group) ↔
          P [] first ∧ ∀ before group after, groups = before++group::after →
            P (first::before) group := by
      intro P
      constructor
      · intro h
        exact ⟨h [] first groups rfl,fun before group after heq =>
          h (first::before) group after (by rw [heq]; rfl)⟩
      · intro h before group after heq
        cases before with
        | nil =>
          cases heq
          exact h.1
        | cons x before =>
          cases heq
          exact h.2 before group after rfl
    rw [hsplit]
    cases hkept : kept first with
    | true =>
      rw [List.filter_cons_of_pos hkept,encodable_cons] at h
      have htimed : (timed t (first::groups)).filter (fun timedGroup => kept timedGroup.2) =
          (t,first)::(timed (t+ticks first) groups).filter (fun timedGroup => kept timedGroup.2) :=
        List.filter_cons_of_pos hkept
      rw [List.filter_cons_of_pos hkept,List.mapIdx_cons,htimed,List.forall₂_cons]
      simp only [FragmentedMp4Converter.before_succ,FragmentedMp4Converter.before_zero]
      rw [hR s first t hkept h.1,ih h.2]
      apply and_congr
      · simp
      · apply forall₄_congr
        intro before group after _
        rw [List.filter_cons_of_pos hkept,List.flatten_cons,List.flatten_cons,ticks_append,
          ticks_append]
        unfold FragmentedMp4Converter.after
        dsimp only
        rw [Nat.add_assoc,Nat.add_assoc]
    | false =>
      have hnot : ¬ kept first = true := by simp [hkept]
      rw [List.filter_cons_of_neg hnot] at h
      have htimed : (timed t (first::groups)).filter (fun timedGroup => kept timedGroup.2) =
          (timed (t+ticks first) groups).filter (fun timedGroup => kept timedGroup.2) :=
        List.filter_cons_of_neg hnot
      rw [List.filter_cons_of_neg hnot,htimed,ih h]
      constructor
      · intro hall
        refine ⟨fun hfalse => (by cases hfalse),?_⟩
        intro before group after heq hgroup
        rw [List.filter_cons_of_neg hnot,List.flatten_cons,ticks_append,← Nat.add_assoc]
        exact hall before group after heq hgroup
      · intro hall before group after heq hgroup
        have := hall.2 before group after heq hgroup
        rwa [List.filter_cons_of_neg hnot,List.flatten_cons,ticks_append,← Nat.add_assoc] at this

/-- The two clocks show the same times exactly if the skipped groups take no time. -/
theorem forall₂_timed_iff (hR : ∀ s group t, kept group = true → Fits timescale s group →
      (R (segment s group) (t,group) ↔ s.baseMediaDecodeTime = t))
    {groups : List (List SampleEntry)} (h : Encodable timescale .new (groups.filter kept)) :
    List.Forall₂ R
        ((groups.filter kept).mapIdx (fun i group =>
          segment (FragmentedMp4Converter.new.before (groups.filter kept) i) group))
        ((timed 0 groups).filter (fun timedGroup => kept timedGroup.2)) ↔
      SkippedTakeNoTime kept groups := by
  rw [forall₂_clock_iff hR h]
  unfold SkippedTakeNoTime
  have hnew : FragmentedMp4Converter.new.baseMediaDecodeTime = 0 := rfl
  apply forall₅_congr
  intro before group after _ _
  rw [hnew,← @ticks_flatten_filter kept before]
  omega

end Times

section Segments

/-- The segment holds the samples of the group, and begins at the time. -/
def AtTrackTime (file : Bytes) (trackId : UInt32) (seg : MseSegment)
    (timedGroup : Nat × List SampleEntry) : Prop :=
  ∃ found, readMovieFragment seg.data = some found ∧ found.tfhd.trackId = trackId.toNat ∧
    found.run.samples.map RunSample.duration =
      timedGroup.2.map (fun se => some se.duration.toNat) ∧
    found.payload = timedGroup.2.flatMap (SampleEntry.bytes file) ∧
    found.baseMediaDecodeTime = timedGroup.1

theorem atTrackTime_iff {loop : GroupLoop} (hplain : loop.Plain) {file mdat : Bytes} {start t : Nat}
    (hmdat : mdat = (file.drop start).take mdat.length) {s : FragmentedMp4Converter}
    {group : List SampleEntry} (hinside : AllInside start mdat.length group)
    (hfits : Fits loop.timescale s group) :
    AtTrackTime file loop.trackId (loop.segment start mdat s group) (t,group) ↔
      s.baseMediaDecodeTime = t := by
  have hread := readMovieFragment_segment hplain hinside hfits
  constructor
  · intro h
    obtain ⟨found,hfound,_,_,_,htime⟩ := h
    rw [hread] at hfound
    cases hfound
    exact htime
  · intro h
    refine ⟨_,hread,rfl,?_,?_,h⟩
    · have hframes : (s.fragment loop.trackId (loop.frames start mdat group)).run.samples =
          (loop.frames start mdat group).map FrameData.sample := rfl
      rw [hframes]
      unfold GroupLoop.frames
      rw [List.map_map,List.map_map]
      apply List.map_congr_left
      intro se _
      obtain ⟨key,offset,hframe⟩ := hplain se (se.dataIn start mdat)
      simp only [Function.comp,hframe]
      rfl
    · have hpayload : (s.fragment loop.trackId (loop.frames start mdat group)).payload =
          (loop.frames start mdat group).flatMap FrameData.data := rfl
      rw [hpayload,hplain.flatMap_data,List.flatMap_def,List.flatMap_def]
      apply congrArg List.flatten
      apply List.map_congr_left
      exact fun se hse => dataIn_eq_bytes hmdat (hinside se hse)

namespace RegularMp4

variable {p : RegularMp4}

def isKept (p : RegularMp4) (group : List SampleEntry) : Bool :=
  AllInside p.mdatPayloadOffset p.mdatData.length group

theorem length_lt_of_mem_gops {entries group : List SampleEntry} (h : group ∈ gops entries)
    (hlength : entries.length < 2^32) : group.length < 2^32 := by
  have hle : group.length ≤ (gops entries).flatten.length :=
    (List.sublist_flatten_of_mem h).length_le
  rw [(gops_cut entries).flatten] at hle
  omega

/-- With a sample table, the groups of pictures that are kept are emitted one after the other. -/
theorem videoSegments_table (hcounts : ∀ track ∈ p.tracks, ∀ t, track.sampleTable = some t →
      t.sampleSizes.length < 2^32) (hconverter : p.fmp4Converter = .new) {track : SampledTrack}
    (htrack : p.videoTrack = some track) {t : SampleTable} (ht : track.sampleTable = some t)
    {video : List MseSegment} {c : FragmentedMp4Converter}
    (h : p.videoSegments = .ok (video,c)) :
    ∃ entries, t.resolveSampleOffsets = .ok entries ∧ entries ≠ [] ∧
      Encodable p.timescale .new ((gops entries).filter p.isKept) ∧
      video = ((gops entries).filter p.isKept).mapIdx (fun i group =>
        p.videoLoop.segment p.mdatPayloadOffset p.mdatData
          (FragmentedMp4Converter.new.before ((gops entries).filter p.isKept) i) group) := by
  unfold videoSegments at h
  rw [htrack,Option.bind_some,ht] at h
  obtain ⟨st,hst,h⟩ := bind_eq_ok.mp h
  cases h
  unfold gopSegments at hst
  obtain ⟨entries,hentries,hst⟩ := bind_eq_ok.mp hst
  split_ifs at hst with hempty
  have hne : entries ≠ [] := by simpa using hempty
  rw [gopLoop_eq _ hne,hconverter] at hst
  have hlength := length_lt_of_mem hcounts (List.mem_of_find?_eq_some htrack) ht hentries
  have hsync : Emission.InSync ⟨.new,0,[]⟩ := rfl
  obtain ⟨_,hencodable,rfl⟩ := (emitGroups_eq_ok p.videoLoop_plain (gops_cut entries).nonempty
    (fun group hgroup => length_lt_of_mem_gops hgroup hlength) hsync).mp hst
  refine ⟨entries,hentries,hne,hencodable,?_⟩
  rw [foldl_emitted,List.nil_append]
  rfl

/-- So are the chunks of the audio. -/
theorem audioSegments_table (hcounts : ∀ track ∈ p.tracks, ∀ t, track.sampleTable = some t →
      t.sampleSizes.length < 2^32) (hac3 : p.hasAc3Audio = false) {track : SampledTrack}
    (htrack : p.audioTrack = some track) {t : SampleTable} (ht : track.sampleTable = some t)
    {audio : List MseSegment} (h : p.audioSegments = .ok audio) :
    ∃ entries, t.resolveSampleOffsets = .ok entries ∧
      Encodable track.timescale .new ((audioChunks track entries).filter p.isKept) ∧
      audio = ((audioChunks track entries).filter p.isKept).mapIdx (fun i group =>
        (audioLoop track).segment p.mdatPayloadOffset p.mdatData
          (FragmentedMp4Converter.new.before ((audioChunks track entries).filter p.isKept) i)
          group) := by
  rw [audioSegments_eq hac3 htrack ht] at h
  obtain ⟨entries,hentries,h⟩ := bind_eq_ok.mp h
  obtain ⟨st,hst,h⟩ := bind_eq_ok.mp h
  cases h
  obtain ⟨_,hencodable,rfl⟩ := (audioChunks_eq_ok hcounts htrack ht hentries).mp hst
  refine ⟨entries,hentries,hencodable,?_⟩
  rw [foldl_emitted,List.nil_append]
  rfl

/-- The kept groups, each with the time that all samples before it take. -/
def keptTimed (p : RegularMp4) (groups : List (List SampleEntry)) : List (Nat × List SampleEntry) :=
  (timed 0 groups).filter (fun timedGroup => p.isKept timedGroup.2)

theorem length_keptTimed (groups : List (List SampleEntry)) :
    (p.keptTimed groups).length = (groups.filter p.isKept).length := by
  have hmap : ∀ t, ((timed t groups).filter (fun timedGroup => p.isKept timedGroup.2)).map Prod.snd =
      groups.filter p.isKept := by
    induction groups with
    | nil => exact fun _ => rfl
    | cons group groups ih =>
      intro t
      rw [timed,List.filter_cons,List.filter_cons]
      dsimp only
      split_ifs
      · rw [List.map_cons,ih]
      · exact ih _
  rw [← hmap 0,List.length_map]
  rfl

/-- A list of segments with these lengths is split in one way. -/
theorem split_left {α : Type} {R : α → Nat × List SampleEntry → Prop}
    {video audio video' audio' : List α} {groups : List (List SampleEntry)}
    (hsplit : video++audio = video'++audio')
    (hlength : video'.length = (groups.filter p.isKept).length)
    (h : List.Forall₂ R video (p.keptTimed groups)) : video = video' := by
  apply List.append_inj_left hsplit
  rw [h.length_eq,length_keptTimed,hlength]

theorem split_right {α : Type} {R : α → Nat × List SampleEntry → Prop}
    {video audio video' audio' : List α} {groups : List (List SampleEntry)}
    (hsplit : video++audio = video'++audio')
    (hlength : audio'.length = (groups.filter p.isKept).length)
    (h : List.Forall₂ R audio (p.keptTimed groups)) : audio = audio' := by
  apply List.append_inj_right' hsplit
  rw [h.length_eq,length_keptTimed,hlength]

/-- Every segment of a track with a sample table begins at the time that all samples before it in
this table take. -/
def OnTrackTime (file : Bytes) (p : RegularMp4) (segments : List MseSegment) : Prop :=
  ∃ (init : MseSegment) (video audio : List MseSegment),
    segments = init::video++audio ∧ init.segmentType = .initialization ∧
    (p.mdatData ≠ [] →
      (∀ track t entries, p.videoTrack = some track → track.sampleTable = some t →
        t.resolveSampleOffsets = .ok entries →
        List.Forall₂ (AtTrackTime file p.trackId) video (p.keptTimed (gops entries))) ∧
      ∀ track t entries, p.audioTrack = some track → track.sampleTable = some t →
        t.resolveSampleOffsets = .ok entries →
        List.Forall₂ (AtTrackTime file track.trackId) audio
          (p.keptTimed (audioChunks track entries)))

/-- Groups of the video and of the audio that are skipped before one that is emitted take no
time. -/
def GapsTakeNoTime (p : RegularMp4) : Prop :=
  p.mdatData ≠ [] →
    (∀ track t entries, p.videoTrack = some track → track.sampleTable = some t →
      t.resolveSampleOffsets = .ok entries → SkippedTakeNoTime p.isKept (gops entries)) ∧
    ∀ track t entries, p.audioTrack = some track → track.sampleTable = some t →
      t.resolveSampleOffsets = .ok entries →
      SkippedTakeNoTime p.isKept (audioChunks track entries)

variable {file : Bytes}

/-- One track: the segments of its groups are on time exactly if the skipped ones take none. -/
theorem forall₂_atTrackTime_iff {loop : GroupLoop} (hplain : loop.Plain)
    (hmdat : p.mdatData = (file.drop p.mdatPayloadOffset).take p.mdatData.length)
    {groups : List (List SampleEntry)}
    (h : Encodable loop.timescale .new (groups.filter p.isKept)) :
    List.Forall₂ (AtTrackTime file loop.trackId)
        ((groups.filter p.isKept).mapIdx (fun i group =>
          loop.segment p.mdatPayloadOffset p.mdatData
            (FragmentedMp4Converter.new.before (groups.filter p.isKept) i) group))
        (p.keptTimed groups) ↔
      SkippedTakeNoTime p.isKept groups := by
  apply forall₂_timed_iff _ h
  intro s group t hkept hfits
  exact atTrackTime_iff hplain hmdat (by simpa [isKept] using hkept) hfits

/-- A file with data: the parts of the result, and when they are on time. -/
theorem onTrackTime_iff_of_mdat (hp : p.FreshlyParsed file) (hac3 : p.hasAc3Audio = false)
    (hmedia : p.mdatData ≠ []) {init : MseSegment} (hinit : init.segmentType = .initialization)
    {video audio : List MseSegment} {c : FragmentedMp4Converter}
    (hvideo : p.videoSegments = .ok (video,c)) (haudio : p.audioSegments = .ok audio) :
    OnTrackTime file p (init::video++audio) ↔ GapsTakeNoTime p := by
  obtain ⟨mdat,hlast⟩ : ∃ mdat, p.lastBox tagMdat = some mdat := by
    cases hlast : p.lastBox tagMdat with
    | some mdat => exact ⟨mdat,rfl⟩
    | none =>
      refine absurd ?_ hmedia
      unfold mdatData
      rw [hlast]
      rfl
  have hmdat := (hp.content_of_mdat hlast).1
  constructor
  · intro h
    obtain ⟨_,video',audio',hsegments,_,htimes⟩ := h
    have hsplit : video'++audio' = video++audio := (List.cons.inj hsegments).2.symm
    intro _
    obtain ⟨hvideoTimes,haudioTimes⟩ := htimes hmedia
    constructor
    · intro track t entries htrack ht hentries
      obtain ⟨entries',hentries',_,hencodable,hsegments⟩ :=
        videoSegments_table hp.counts hp.converter htrack ht hvideo
      rw [hentries] at hentries'
      cases hentries'
      have htimes := hvideoTimes track t entries htrack ht hentries
      rw [split_left hsplit (by rw [hsegments,List.length_mapIdx]) htimes,hsegments] at htimes
      exact (forall₂_atTrackTime_iff p.videoLoop_plain hmdat hencodable).mp htimes
    · intro track t entries htrack ht hentries
      obtain ⟨entries',hentries',hencodable,hsegments⟩ :=
        audioSegments_table hp.counts hac3 htrack ht haudio
      rw [hentries] at hentries'
      cases hentries'
      have htimes := haudioTimes track t entries htrack ht hentries
      rw [split_right hsplit (by rw [hsegments,List.length_mapIdx]) htimes,hsegments] at htimes
      exact (forall₂_atTrackTime_iff (audioLoop_plain track) hmdat hencodable).mp htimes
  · intro h
    obtain ⟨hvideoGaps,haudioGaps⟩ := h hmedia
    refine ⟨init,video,audio,rfl,hinit,fun _ => ⟨?_,?_⟩⟩
    · intro track t entries htrack ht hentries
      obtain ⟨entries',hentries',_,hencodable,hsegments⟩ :=
        videoSegments_table hp.counts hp.converter htrack ht hvideo
      rw [hentries] at hentries'
      cases hentries'
      rw [hsegments]
      exact (forall₂_atTrackTime_iff p.videoLoop_plain hmdat hencodable).mpr
        (hvideoGaps track t entries htrack ht hentries)
    · intro track t entries htrack ht hentries
      obtain ⟨entries',hentries',hencodable,hsegments⟩ :=
        audioSegments_table hp.counts hac3 htrack ht haudio
      rw [hentries] at hentries'
      cases hentries'
      rw [hsegments]
      exact (forall₂_atTrackTime_iff (audioLoop_plain track) hmdat hencodable).mpr
        (haudioGaps track t entries htrack ht hentries)

/-- What the conversion returns is on time exactly if what is skipped takes no time. -/
theorem onTrackTime_iff_of_create (hp : p.FreshlyParsed file) (hac3 : p.hasAc3Audio = false)
    {segments : List MseSegment} {c : FragmentedMp4Converter}
    (h : p.createFragmentsFromRegularMp4 = .ok (segments,c)) :
    OnTrackTime file p segments ↔ GapsTakeNoTime p := by
  obtain ⟨init,hinit,h⟩ := bind_eq_ok.mp h
  by_cases hmedia : p.mdatData = []
  · rw [if_pos (by simpa using hmedia)] at h
    cases h
    constructor
    · exact fun _ hne => absurd hmedia hne
    · exact fun _ => ⟨init,[],[],rfl,p.initSegment_type hinit,fun hne => absurd hmedia hne⟩
  · rw [if_neg (by simpa using hmedia)] at h
    obtain ⟨⟨video,c'⟩,hvideo,h⟩ := bind_eq_ok.mp h
    obtain ⟨audio,haudio,h⟩ := bind_eq_ok.mp h
    cases h
    exact onTrackTime_iff_of_mdat hp hac3 hmedia (p.initSegment_type hinit) hvideo haudio

end RegularMp4

end Segments

namespace ParserState

open RawBox RegularMp4

/-- For a file that is not fragmented, the segments are on the time of their track exactly if
what is skipped before them takes no time. -/
theorem segments_on_track_time_iff (file : Bytes) (s s' : ParserState) (segments : List MseSegment)
    (hs : new.parse file = .ok s) (hregular : s.isFragmented = false)
    (h : s.generateMseSegments = .ok (segments,s')) :
    s.regular.OnTrackTime file segments ↔ s.regular.GapsTakeNoTime := by
  obtain ⟨c,hcreate,_⟩ := (generateMseSegments_regular hregular).mp h
  exact onTrackTime_iff_of_create (parse_freshly hs) (parse_hasAc3Audio hs) hcreate

section SkippingFile

theorem skippedTakeNoTime_of_all {kept : List SampleEntry → Bool} {groups : List (List SampleEntry)}
    (h : groups.all (fun group => kept group || ticks group == 0) = true) :
    SkippedTakeNoTime kept groups := by
  intro before group after heq _
  have hbefore : ∀ group ∈ before, (kept group || ticks group == 0) = true := fun group hgroup =>
    List.all_eq_true.mp h group (heq ▸ List.mem_append_left _ hgroup)
  clear heq
  induction before with
  | nil => rfl
  | cons first before ih =>
    obtain ⟨hfirst,hrest⟩ := List.forall_mem_cons.mp hbefore
    cases hkept : kept first with
    | true =>
      rw [List.filter_cons_of_neg (by simp [hkept])]
      exact ih hrest
    | false =>
      have hzero : ticks first = 0 := by simpa [hkept] using hfirst
      rw [List.filter_cons_of_pos (by simp [hkept]),List.flatten_cons,ticks_append,hzero,ih hrest]

/-- What `parse` leaves of the file with three video samples and one audio sample. -/
def avState : ParserState where
  boxes := (avParsed 48000).boxes
  tracks := [⟨avVideoTrack,"video/mp4; codecs=\"avc1.42E01E\""⟩,
    ⟨avAudioTrack 48000,"audio/mp4; codecs=\"mp4a.40.2\""⟩]
  isFragmented := false
  fmp4Converter := .new
  mdatPayloadOffset := 24
  pendingSampleTable := none

theorem avFile_parse : new.parse (avFile 48000) = .ok avState := by decide +kernel

/-- Three keyframes, of which the second reaches past the end of the `mdat`. -/
def skippingTables : List RawBox :=
  [⟨tagStsd,numbers [1,8]++[0x61,0x76,0x63,0x31]⟩,⟨tagStsz,numbers [0,3,1,100,1]⟩,
    ⟨tagStts,numbers [1,3,500]⟩,⟨tagStsc,numbers [1,1,1,1]⟩,⟨tagStco,numbers [3,24,25,25]⟩]

def skippingFile : Bytes :=
  encodeAll [avFtyp,⟨tagMdat,[0xaa,0xbb]⟩,⟨tagMoov,(trakBox 1 1000 tagVide skippingTables).encode⟩]

def skippingTrack : SampledTrack where
  mediaType := "vide"
  timescale := 1000
  duration := 0
  codec := "H.264"
  trackId := 1
  codecParams := some "42E01E"
  sampleTable := some ⟨[1,100,1],[(3,500)],[(1,1,1)],[24,25,25],[],[]⟩

def skippingState : ParserState where
  boxes := [⟨⟨tagFtyp,16,8⟩,avFtyp.body⟩,⟨⟨tagMdat,10,24⟩,[0xaa,0xbb]⟩,
    ⟨⟨tagMoov,8+(trakBox 1 1000 tagVide skippingTables).size,34⟩,
      (trakBox 1 1000 tagVide skippingTables).encode⟩]
  tracks := [⟨skippingTrack,"video/mp4; codecs=\"avc1.42E01E\""⟩]
  isFragmented := false
  fmp4Converter := .new
  mdatPayloadOffset := 24
  pendingSampleTable := none

/-- Three keyframes, of which the second reaches past the end of the `mdat` and takes no time. -/
def restingTables : List RawBox :=
  [⟨tagStsd,numbers [1,8]++[0x61,0x76,0x63,0x31]⟩,⟨tagStsz,numbers [0,3,1,100,1]⟩,
    ⟨tagStts,numbers [3,1,500,1,0,1,500]⟩,⟨tagStsc,numbers [1,1,1,1]⟩,⟨tagStco,numbers [3,24,25,25]⟩]

def restingFile : Bytes :=
  encodeAll [avFtyp,⟨tagMdat,[0xaa,0xbb]⟩,⟨tagMoov,(trakBox 1 1000 tagVide restingTables).encode⟩]

def restingTrack : SampledTrack :=
  { skippingTrack with
    sampleTable := some ⟨[1,100,1],[(1,500),(1,0),(1,500)],[(1,1,1)],[24,25,25],[],[]⟩ }

def restingState : ParserState where
  boxes := [⟨⟨tagFtyp,16,8⟩,avFtyp.body⟩,⟨⟨tagMdat,10,24⟩,[0xaa,0xbb]⟩,
    ⟨⟨tagMoov,8+(trakBox 1 1000 tagVide restingTables).size,34⟩,
      (trakBox 1 1000 tagVide restingTables).encode⟩]
  tracks := [⟨restingTrack,"video/mp4; codecs=\"avc1.42E01E\""⟩]
  isFragmented := false
  fmp4Converter := .new
  mdatPayloadOffset := 24
  pendingSampleTable := none

theorem restingFile_parse : new.parse restingFile = .ok restingState := by decide +kernel

/-- The second group is skipped, and the segment of the third begins where its sample does. -/
theorem segments_on_track_time_restingFile :
    ∃ segments s', restingState.generateMseSegments = .ok (segments,s') ∧
      segments.map (fun seg => carriedTime seg.data) = [none,some 0,some 500] ∧
      restingState.regular.OnTrackTime restingFile segments := by
  have htimes : restingState.generateMseSegments.toOption.map (fun r =>
      r.1.map (fun seg => carriedTime seg.data)) = some [none,some 0,some 500] := by
    decide +kernel
  obtain ⟨⟨segments,s'⟩,h⟩ :=
    @exists_ok _ restingState.generateMseSegments (by decide +kernel)
  refine ⟨segments,s',h,?_,(segments_on_track_time_iff _ _ _ _ restingFile_parse rfl h).mpr ?_⟩
  · rw [h] at htimes
    exact Option.some.inj htimes
  have hresolved : (restingTrack.sampleTable.map SampleTable.resolveSampleOffsets) =
      some (.ok [⟨24,1,500,true,0⟩,⟨25,100,0,true,0⟩,⟨25,1,500,true,0⟩]) := by decide +kernel
  intro _
  constructor
  · intro track t entries htrack ht hentries
    cases htrack
    change restingTrack.sampleTable = some t at ht
    rw [ht,Option.map_some,hentries] at hresolved
    cases hresolved
    exact skippedTakeNoTime_of_all (by decide +kernel)
  · intro track t entries htrack
    cases htrack

/-- The third sample begins at 1000, and its segment at 500. -/
theorem skipped_group_shifts_time :
    new.parse skippingFile = .ok skippingState ∧
    ∃ segments s', skippingState.generateMseSegments = .ok (segments,s') ∧
      segments.map (fun seg => carriedTime seg.data) = [none,some 0,some 500] ∧
      ¬ skippingState.regular.OnTrackTime skippingFile segments := by
  have hparse : new.parse skippingFile = .ok skippingState := by decide +kernel
  have htimes : skippingState.generateMseSegments.toOption.map (fun r =>
      r.1.map (fun seg => carriedTime seg.data)) = some [none,some 0,some 500] := by
    decide +kernel
  obtain ⟨⟨segments,s'⟩,h⟩ :=
    @exists_ok _ skippingState.generateMseSegments (by decide +kernel)
  refine ⟨hparse,segments,s',h,?_,?_⟩
  · rw [h] at htimes
    exact Option.some.inj htimes
  · obtain ⟨c,hcreate,_⟩ := (generateMseSegments_regular rfl).mp h
    rw [onTrackTime_iff_of_create (parse_freshly hparse) (parse_hasAc3Audio hparse) hcreate]
    intro hgaps
    have hentries : SampleTable.resolveSampleOffsets
        ⟨[1,100,1],[(3,500)],[(1,1,1)],[24,25,25],[],[]⟩ =
        .ok [⟨24,1,500,true,0⟩,⟨25,100,500,true,0⟩,⟨25,1,500,true,0⟩] := by decide +kernel
    have hskipped := (hgaps (by decide)).1 skippingTrack _ _ rfl rfl hentries
    have hzero := hskipped [[⟨24,1,500,true,0⟩],[⟨25,100,500,true,0⟩]] [⟨25,1,500,true,0⟩] []
      (by decide +kernel) (by decide +kernel)
    revert hzero
    decide +kernel

end SkippingFile

end ParserState

end OpenBroadcast.Media
