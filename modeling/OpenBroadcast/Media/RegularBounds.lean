import OpenBroadcast.Media.FragmentNumbers
import OpenBroadcast.Media.ParserTotality
import OpenBroadcast.Media.TableBounds

namespace OpenBroadcast.Media

open RawBox

namespace FragmentedMp4Converter

section Pieces

variable {s s' : FragmentedMp4Converter} {f : FrameData} {trackId : UInt32}

/-- The sizes of the boxes of a fragment with one frame are small. -/
theorem createMoof_single : ∃ moof, s.createMoof [f] trackId = .ok moof := by
  have hsize : calculateMoofSize [f] = .ok 92 := rfl
  obtain ⟨trun,htrun⟩ := (wrapBox_eq_ok_iff tagTrun ([1]++[0x00,0x03,0x01]++
    toBe 4 ([f].length%2^32)++toBe 4 100++[f].flatMap sampleEntry)).mpr (by simp [sampleEntry])
  have hcreate : createTrun [f] = .ok trun := by
    unfold createTrun
    rw [hsize]
    exact htrun
  have htrunLength : trun.length = 28 := by
    rw [length_wrapBox rfl htrun]
    simp [sampleEntry]
  obtain ⟨traf,htraf⟩ := (wrapBox_eq_ok_iff tagTraf (createTfhd trackId++s.createTfdt++trun)).mpr
    (by simp [createTfhd,createTfdt,tagTfhd,tagTfdt,htrunLength])
  have htrafLength : traf.length = 68 := by
    rw [length_wrapBox rfl htraf]
    simp [createTfhd,createTfdt,tagTfhd,tagTfdt,htrunLength]
  obtain ⟨moof,hmoof⟩ := (wrapBox_eq_ok_iff tagMoof (s.createMfhd++traf)).mpr
    (by simp [createMfhd,tagMfhd,htrafLength])
  refine ⟨moof,?_⟩
  unfold createMoof createTraf
  rw [hcreate]
  simp only [bind,Except.bind,htraf,hmoof]

theorem createMdat_single (hsize : 8+f.size.toNat < 2^32) : ∃ mdat, createMdat [f] = .ok mdat := by
  have hsum : ([f].map (fun f => f.size.toNat)).sum = f.size.toNat := by simp
  have hdata : checkedU32 f.size.toNat = .ok f.size.toNat := if_pos (by omega)
  have hbox : checkedU32 (8+f.size.toNat) = .ok (8+f.size.toNat) := if_pos hsize
  unfold createMdat
  rw [hsum,hdata]
  simp only [bind,Except.bind,hbox]
  exact ⟨_,rfl⟩

/-- One frame becomes a fragment as long as the counters go on. -/
theorem createFragment_single (hsize : 8+f.size.toNat < 2^32) :
    ∃ data, s.createFragment [f] trackId = s.next [f] >>= fun next => .ok (data,next) := by
  obtain ⟨moof,hmoof⟩ := @createMoof_single s f trackId
  obtain ⟨mdat,hmdat⟩ := createMdat_single hsize
  unfold createFragment
  rw [hmoof,hmdat]
  exact ⟨moof++mdat,rfl⟩

theorem next_single_eq_ok : s.next [f] = .ok s' ↔
    s.sequenceNumber+1 < 2^32 ∧ s.baseMediaDecodeTime+f.duration.toNat < 2^64 ∧
      s' = ⟨s.sequenceNumber+1,s.baseMediaDecodeTime+f.duration.toNat⟩ := by
  have htotal : totalDuration [f] = f.duration.toNat := by simp [totalDuration]
  constructor
  · intro h
    obtain ⟨rfl,hnumber,htime⟩ := next_eq_ok h
    rw [htotal] at htime
    rw [htotal]
    exact ⟨hnumber,htime,rfl⟩
  · intro h
    obtain ⟨hnumber,htime,rfl⟩ := h
    have hnext := @next_ok s [f] (by omega) (by rw [htotal]; exact htime)
    rwa [htotal] at hnext

end Pieces

end FragmentedMp4Converter

namespace RegularMp4

variable (p : RegularMp4)

section Pieces

/-- The counters can go on for all pieces of some data. -/
def PiecesBounded (index length : Nat) (c : FragmentedMp4Converter) : Prop :=
  ∀ k, k*chunkSize < length → (index+k)*1000 < 2^64 ∧ c.sequenceNumber+k+1 < 2^32 ∧
    c.baseMediaDecodeTime+(k+1)*(UInt32.ofNat p.timescale).toNat < 2^64

theorem piecesBounded_step {index length : Nat} {c : FragmentedMp4Converter} (h : 0 < length) :
    p.PiecesBounded index length c ↔ index*1000 < 2^64 ∧ c.sequenceNumber+1 < 2^32 ∧
      c.baseMediaDecodeTime+(UInt32.ofNat p.timescale).toNat < 2^64 ∧
      p.PiecesBounded (index+1) (length-chunkSize)
        ⟨c.sequenceNumber+1,c.baseMediaDecodeTime+(UInt32.ofNat p.timescale).toNat⟩ := by
  have htime : ∀ k, c.baseMediaDecodeTime+(k+1+1)*(UInt32.ofNat p.timescale).toNat =
      c.baseMediaDecodeTime+(UInt32.ofNat p.timescale).toNat+
        (k+1)*(UInt32.ofNat p.timescale).toNat := by
    intro k
    rw [Nat.succ_mul (k+1)]
    omega
  have hindex : ∀ k, (index+(k+1))*1000 = (index+1+k)*1000 := by
    intro k
    omega
  constructor
  · intro hall
    obtain ⟨hfirst,hnumber,hclock⟩ := hall 0 (by omega)
    rw [Nat.zero_add,Nat.one_mul] at hclock
    refine ⟨hfirst,hnumber,hclock,?_⟩
    intro k hk
    have hnext := hall (k+1) (by rw [Nat.succ_mul]; omega)
    rw [htime,hindex] at hnext
    exact ⟨hnext.1,by have := hnext.2.1; dsimp only; omega,hnext.2.2⟩
  · intro hall k hk
    obtain ⟨hfirst,hnumber,hclock,hrest⟩ := hall
    cases k with
    | zero =>
      rw [Nat.zero_add,Nat.one_mul]
      exact ⟨hfirst,hnumber,hclock⟩
    | succ k =>
      rw [Nat.succ_mul] at hk
      obtain ⟨hindexLt,hnumberLt,hclockLt⟩ := hrest k (by omega)
      rw [htime,hindex]
      dsimp only at hnumberLt
      exact ⟨hindexLt,by omega,hclockLt⟩

theorem pieceSegments_round {n index : Nat} {data : Bytes} (hdata : data ≠ [])
    {c : FragmentedMp4Converter} : ∃ segment : Nat → Bytes → MseSegment, ∃ f : FrameData, ∃ fragment,
      f.duration = .ofNat p.timescale ∧ p.pieceSegments (n+1) index data c =
        checkedU64 (index*1000) >>= fun timestamp => c.next [f] >>= fun next =>
          p.pieceSegments n (index+1) (data.drop chunkSize) next >>= fun r =>
            .ok (segment timestamp fragment::r.1,r.2) := by
  let f := FrameData.new (data.take chunkSize) (.ofNat p.timescale) (index == 0) 0
  have hlength : (data.take chunkSize).length ≤ 65536 := List.length_take_le _ _
  have hsize : 8+f.size.toNat < 2^32 := by
    have hcut : f.size.toNat = (data.take chunkSize).length%2^32 := UInt32.toNat_ofNat'
    omega
  obtain ⟨fragment,hfragment⟩ := @FragmentedMp4Converter.createFragment_single c f p.trackId hsize
  refine ⟨fun timestamp fragment =>
    ⟨.media,fragment,some timestamp,some p.timescale,index == 0,p.trackId.toNat⟩,f,fragment,rfl,?_⟩
  cases data with
  | nil => exact absurd rfl hdata
  | cons b data =>
    rw [pieceSegments]
    · show checkedU64 _ >>= (fun timestamp => c.createFragment [f] p.trackId >>= _) = _
      rw [hfragment]
      apply bind_congr
      intro timestamp
      rw [bind_assoc]
      rfl
    · simp

/-- The pieces become segments as long as the counters go on. -/
theorem pieceSegments_ok_iff {n index : Nat} {data : Bytes} {c : FragmentedMp4Converter}
    (hn : data.length ≤ n) :
    (∃ r, p.pieceSegments n index data c = .ok r) ↔ p.PiecesBounded index data.length c := by
  induction n generalizing index data c with
  | zero =>
    have hnil : data = [] := List.length_eq_zero_iff.mp (by omega)
    subst hnil
    exact ⟨fun _ k hk => absurd hk (Nat.not_lt_zero _),fun _ => ⟨_,rfl⟩⟩
  | succ n ih =>
    by_cases hdata : data = []
    · subst hdata
      exact ⟨fun _ k hk => absurd hk (Nat.not_lt_zero _),fun _ => ⟨_,rfl⟩⟩
    · have hpos : 0 < data.length := List.length_pos_iff.mpr hdata
      have hchunk : chunkSize = 65536 := rfl
      have hrest : ∀ next, (∃ r, p.pieceSegments n (index+1) (data.drop chunkSize) next = .ok r) ↔
          p.PiecesBounded (index+1) (data.length-chunkSize) next := by
        intro next
        rw [← List.length_drop]
        apply ih
        rw [List.length_drop]
        omega
      obtain ⟨segment,f,fragment,hduration,hround⟩ := @pieceSegments_round p n index data hdata c
      rw [p.piecesBounded_step hpos,← hrest,hround,← hduration]
      simp only [bind_eq_ok,FragmentedMp4Converter.next_single_eq_ok]
      constructor
      · intro h
        obtain ⟨_,timestamp,htimestamp,next,⟨hnumber,htime,rfl⟩,r,hr,_⟩ := h
        exact ⟨(checkedU64_eq_ok htimestamp).2,hnumber,htime,r,hr⟩
      · intro h
        obtain ⟨htimestamp,hnumber,htime,r,hr⟩ := h
        exact ⟨_,_,if_pos htimestamp,_,⟨hnumber,htime,rfl⟩,r,hr,rfl⟩

end Pieces

section Groups

/-- No sample of a group is looked for before the media data, and the groups that lie inside it
become fragments without an overflow. -/
structure GroupsBounded (timescale : Nat) (c : FragmentedMp4Converter)
    (groups : List (List SampleEntry)) : Prop where
  readable : ∀ group ∈ groups, Readable p.mdatPayloadOffset p.mdatData.length group
  encodable : EncodableAt timescale 0 c (p.keptGroups groups)

variable {p}

theorem emitGroups_returns_iff {loop : GroupLoop} (hplain : loop.Plain)
    {groups : List (List SampleEntry)} (hne : [] ∉ groups)
    (hlength : ∀ group ∈ groups, group.length < 2^32) (c : FragmentedMp4Converter) :
    groups.foldlM (emitGroup loop p.mdatPayloadOffset p.mdatData) ⟨c,0,[]⟩ ≠ .error .panic ↔
      p.GroupsBounded loop.timescale c groups := by
  rw [(onlyPanics_emitGroups groups _).returns_iff]
  simp only [emitGroups_eq_ok_at hplain hne hlength]
  constructor
  · intro h
    obtain ⟨st,hreadable,hencodable,_⟩ := h
    exact ⟨hreadable,hencodable⟩
  · intro h
    exact ⟨_,h.readable,h.encodable,rfl⟩

end Groups

section Video

/-- The samples of the video, or the pieces of the data where there is no table, are converted
without an overflow. -/
def VideoBounded : Prop :=
  match p.videoTrack.bind SampledTrack.sampleTable with
  | some t => t.Bounded ∧ p.GroupsBounded p.timescale p.fmp4Converter (gops t.samples)
  | none => p.PiecesBounded 0 p.mdatData.length p.fmp4Converter

/-- The table of the video lists samples, if there is one. -/
def VideoFound : Prop :=
  ∀ t, p.videoTrack.bind SampledTrack.sampleTable = some t → t.samples ≠ []

variable {p} {t : SampleTable}

theorem length_samples_lt (hb : t.Bounded) (hlt : t.sampleSizes.length < 2^32) :
    t.samples.length < 2^32 := by
  have hle := SampleTable.length_resolveSampleOffsets
    (SampleTable.resolveSampleOffsets_eq_ok.mpr ⟨hb,rfl⟩)
  omega

theorem gopSegments_eq (hb : t.Bounded) : p.gopSegments t =
    if t.samples = [] then .error (.io "Sample table resolved to zero samples")
    else (gops t.samples).foldlM (emitGroup p.videoLoop p.mdatPayloadOffset p.mdatData)
      ⟨p.fmp4Converter,0,[]⟩ := by
  unfold gopSegments
  rw [SampleTable.resolveSampleOffsets_eq_ok.mpr ⟨hb,rfl⟩]
  by_cases hempty : t.samples = []
  · rw [if_pos hempty,hempty]
    rfl
  · have hsome : t.samples.isEmpty = false := by simpa using hempty
    rw [if_neg hempty,← gopLoop_eq _ hempty]
    exact if_neg (by simp [hsome])

theorem gops_returns_iff (hb : t.Bounded) (hlt : t.sampleSizes.length < 2^32) :
    (gops t.samples).foldlM (emitGroup p.videoLoop p.mdatPayloadOffset p.mdatData)
      ⟨p.fmp4Converter,0,[]⟩ ≠ .error .panic ↔
      p.GroupsBounded p.timescale p.fmp4Converter (gops t.samples) := by
  have hcut := gops_cut t.samples
  have hcount := length_samples_lt hb hlt
  apply emitGroups_returns_iff p.videoLoop_plain hcut.nonempty
  intro group hgroup
  have hle : group.length ≤ (gops t.samples).flatten.length :=
    (List.sublist_flatten_of_mem hgroup).length_le
  rw [hcut.flatten] at hle
  omega

theorem gopSegments_returns_iff (hlt : t.sampleSizes.length < 2^32) :
    p.gopSegments t ≠ .error .panic ↔
      t.Bounded ∧ p.GroupsBounded p.timescale p.fmp4Converter (gops t.samples) := by
  have hresolve := (SampleTable.onlyPanics_resolveSampleOffsets t).returns_iff
  by_cases hb : t.Bounded
  · rw [gopSegments_eq hb]
    by_cases hempty : t.samples = []
    · have hgroups : p.GroupsBounded p.timescale p.fmp4Converter (gops t.samples) := by
        rw [hempty]
        exact ⟨fun group h => (by cases h),encodableAt_nil _ _ _⟩
      rw [if_pos hempty]
      simp only [hb,hgroups,and_self,iff_true]
      intro h
      cases h
    · rw [if_neg hempty,gops_returns_iff hb hlt]
      exact ⟨fun h => ⟨hb,h⟩,fun h => h.2⟩
  · refine ⟨fun h => ?_,fun h => absurd h.1 hb⟩
    obtain ⟨entries,hentries⟩ := hresolve.mp (bind_returns_iff.mp h).1
    exact absurd (SampleTable.resolveSampleOffsets_eq_ok.mp hentries).1 hb

theorem gopSegments_ok_iff (hlt : t.sampleSizes.length < 2^32) :
    (∃ st, p.gopSegments t = .ok st) ↔ p.gopSegments t ≠ .error .panic ∧ t.samples ≠ [] := by
  have hfold : OnlyPanics ((gops t.samples).foldlM
      (emitGroup p.videoLoop p.mdatPayloadOffset p.mdatData) ⟨p.fmp4Converter,0,[]⟩) :=
    onlyPanics_emitGroups _ _
  by_cases hb : t.Bounded
  · rw [gopSegments_eq hb]
    by_cases hempty : t.samples = []
    · simp [hempty]
    · rw [if_neg hempty,hfold.returns_iff]
      exact ⟨fun h => ⟨h,hempty⟩,fun h => h.1⟩
  · constructor
    · intro h
      obtain ⟨st,hst⟩ := h
      have hreturns : p.gopSegments t ≠ .error .panic := by
        rw [hst]
        intro hpanic
        cases hpanic
      exact absurd ((gopSegments_returns_iff hlt).mp hreturns).1 hb
    · intro h
      exact absurd ((gopSegments_returns_iff hlt).mp h.1).1 hb

variable (hcounts : ∀ track ∈ p.tracks, ∀ t, track.sampleTable = some t →
  t.sampleSizes.length < 2^32)

include hcounts

theorem length_lt_of_video (ht : p.videoTrack.bind SampledTrack.sampleTable = some t) :
    t.sampleSizes.length < 2^32 := by
  obtain ⟨track,htrack,ht⟩ := Option.bind_eq_some_iff.mp ht
  exact hcounts track (List.mem_of_find?_eq_some htrack) t ht

theorem videoSegments_returns_iff : p.videoSegments ≠ .error .panic ↔ p.VideoBounded := by
  unfold videoSegments VideoBounded
  cases ht : p.videoTrack.bind SampledTrack.sampleTable with
  | none =>
    dsimp only
    rw [(onlyPanics_pieceSegments _ _ _ _).returns_iff]
    exact pieceSegments_ok_iff p (le_refl _)
  | some t =>
    dsimp only
    rw [← gopSegments_returns_iff (length_lt_of_video hcounts ht),bind_returns_iff]
    refine and_iff_left (fun st _ h => ?_)
    cases h

theorem videoSegments_ok_iff :
    (∃ r, p.videoSegments = .ok r) ↔ p.VideoBounded ∧ p.VideoFound := by
  rw [← videoSegments_returns_iff hcounts]
  unfold videoSegments VideoFound
  cases ht : p.videoTrack.bind SampledTrack.sampleTable with
  | none =>
    dsimp only
    rw [(onlyPanics_pieceSegments _ _ _ _).returns_iff]
    simp
  | some t =>
    have hok := @gopSegments_ok_iff p t (length_lt_of_video hcounts ht)
    dsimp only
    rw [bind_returns_iff]
    simp only [bind_eq_ok,Option.some.injEq,forall_eq']
    constructor
    · intro h
      obtain ⟨r,st,hst,_⟩ := h
      obtain ⟨hreturns,hfound⟩ := hok.mp ⟨st,hst⟩
      exact ⟨⟨hreturns,fun _ _ h => (by cases h)⟩,hfound⟩
    · intro h
      obtain ⟨st,hst⟩ := hok.mpr ⟨h.1.1,h.2⟩
      exact ⟨_,st,hst,rfl⟩

end Video

section Audio

/-- The samples of the audio are converted without an overflow. -/
def AudioBounded : Prop :=
  p.hasAc3Audio = false → ∀ track t, p.audioTrack = some track → track.sampleTable = some t →
    t.Bounded ∧ p.GroupsBounded track.timescale .new (audioChunks track t.samples)

variable {p}

theorem audioPasses_iff : p.AudioPasses ↔ p.AudioBounded := by
  have hgroups : ∀ timescale groups, p.GroupsBounded timescale .new groups ↔
      (∀ group ∈ groups, Readable p.mdatPayloadOffset p.mdatData.length group) ∧
      Encodable timescale .new (p.keptGroups groups) := by
    intro timescale groups
    have hself : EncodableAt timescale 0 .new (p.keptGroups groups) ↔
        Encodable timescale .new (p.keptGroups groups) :=
      @encodableAt_self timescale .new (p.keptGroups groups)
    rw [← hself]
    exact ⟨fun h => ⟨h.readable,h.encodable⟩,fun h => ⟨h.1,h.2⟩⟩
  have hentries : ∀ (track : SampledTrack) (t : SampleTable),
      (∃ entries, t.resolveSampleOffsets = .ok entries ∧
        (∀ group ∈ audioChunks track entries,
          Readable p.mdatPayloadOffset p.mdatData.length group) ∧
        Encodable track.timescale .new (p.keptGroups (audioChunks track entries))) ↔
      t.Bounded ∧ p.GroupsBounded track.timescale .new (audioChunks track t.samples) := by
    intro track t
    simp only [SampleTable.resolveSampleOffsets_eq_ok,hgroups,and_assoc,exists_and_left,
      exists_eq_left]
  unfold AudioPasses AudioBounded
  simp only [hentries]

end Audio

section Conversion

/-- The conversion stays within its bounds: the new `moov` has a size that can be written, and where
there are media data, so do the video and, behind it, the audio. -/
def Bounded : Prop :=
  ∀ moov, p.lastBox tagMoov = some moov → p.MoovFits moov ∧
    (p.mdatData ≠ [] → p.VideoBounded ∧ (p.VideoFound → p.AudioBounded))

variable {p}

variable (hcounts : ∀ track ∈ p.tracks, ∀ t, track.sampleTable = some t →
  t.sampleSizes.length < 2^32)

include hcounts

/-- The media behind the initialization segment. -/
theorem media_returns_iff (init : MseSegment) :
    (p.videoSegments >>= fun r => p.audioSegments >>= fun audio =>
      .ok (init::r.1++audio,r.2) : Except Mp4Error (List MseSegment × FragmentedMp4Converter)) ≠
        .error .panic ↔ p.VideoBounded ∧ (p.VideoFound → p.AudioBounded) := by
  have haudio : p.audioSegments ≠ .error .panic ↔ p.AudioBounded := by
    rw [onlyPanics_audioSegments.returns_iff,audioSegments_eq_ok hcounts,audioPasses_iff]
  have hbehind : ∀ r : List MseSegment × FragmentedMp4Converter,
      (p.audioSegments >>= fun audio => .ok (init::r.1++audio,r.2) :
        Except Mp4Error (List MseSegment × FragmentedMp4Converter)) ≠ .error .panic ↔
      p.AudioBounded := by
    intro r
    rw [bind_returns_iff,haudio]
    refine and_iff_left (fun audio _ h => ?_)
    cases h
  rw [bind_returns_iff,videoSegments_returns_iff hcounts]
  apply and_congr_right
  intro hvideo
  simp only [hbehind]
  constructor
  · intro h hfound
    obtain ⟨r,hr⟩ := (videoSegments_ok_iff hcounts).mpr ⟨hvideo,hfound⟩
    exact h r hr
  · intro h r hr
    exact h ((videoSegments_ok_iff hcounts).mp ⟨r,hr⟩).2

/-- A regular file is converted, or refused with an error, exactly if the conversion stays within
its bounds. -/
theorem createFragments_returns_iff :
    p.createFragmentsFromRegularMp4 ≠ .error .panic ↔ p.Bounded := by
  unfold createFragmentsFromRegularMp4 Bounded
  rw [bind_returns_iff]
  cases hmoov : p.lastBox tagMoov with
  | none =>
    have hinit : p.initSegment = .error (.io "No moov box found in MP4") := by
      unfold initSegment
      rw [hmoov]
    simp [hinit]
  | some moov =>
    have hreturns := (onlyPanics_initSegment hmoov).returns_iff
    rw [p.initSegment_eq_ok hmoov] at hreturns
    simp only [Option.some.injEq,forall_eq']
    rw [hreturns]
    apply and_congr_right
    intro hfits
    obtain ⟨init,hinit⟩ := (p.initSegment_eq_ok hmoov).mpr hfits
    simp only [hinit,Except.ok.injEq,forall_eq']
    by_cases hmdat : p.mdatData = []
    · simp [hmdat,pure,Except.pure]
    · have hsome : p.mdatData.isEmpty = false := by simpa using hmdat
      rw [hsome,if_neg (by decide),← media_returns_iff hcounts init]
      exact ⟨fun h _ => h,fun h => h hmdat⟩

end Conversion

end RegularMp4

end OpenBroadcast.Media
