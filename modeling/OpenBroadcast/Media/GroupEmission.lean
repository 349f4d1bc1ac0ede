import OpenBroadcast.Media.Fmp4Timeline
import OpenBroadcast.Media.SampleGroups

namespace OpenBroadcast.Media

open RawBox

/-- The time that some samples take. -/
def ticks (group : List SampleEntry) : Nat := (group.map (fun se => se.duration.toNat)).sum

def totalSize (group : List SampleEntry) : Nat := (group.map (fun se => se.size.toNat)).sum

theorem ticks_append (a b : List SampleEntry) : ticks (a++b) = ticks a+ticks b := by
  unfold ticks
  rw [List.map_append,List.sum_append]

section Samples

/-- The sample lies inside a payload of `length` bytes that begins at `start`. -/
def SampleEntry.Inside (start length : Nat) (se : SampleEntry) : Prop :=
  start ≤ se.offset ∧ se.offset-start+se.size.toNat ≤ length

instance (start length : Nat) (se : SampleEntry) : Decidable (se.Inside start length) :=
  inferInstanceAs (Decidable (_ ∧ _))

/-- The bytes of a sample in the `mdat`. -/
def SampleEntry.dataIn (start : Nat) (mdat : Bytes) (se : SampleEntry) : Bytes :=
  (mdat.drop (se.offset-start)).take se.size.toNat

variable {start : Nat} {mdat : Bytes}

theorem SampleEntry.Inside.length_dataIn {se : SampleEntry} (h : se.Inside start mdat.length) :
    (se.dataIn start mdat).length = se.size.toNat := by
  unfold dataIn
  rw [List.length_take,List.length_drop]
  have := h.2
  omega

def AllInside (start length : Nat) (group : List SampleEntry) : Prop :=
  ∀ se ∈ group, se.Inside start length

instance (start length : Nat) (group : List SampleEntry) :
    Decidable (AllInside start length group) := inferInstanceAs (Decidable (∀ se ∈ group, _))

/-- Up to the first sample that exceeds the `mdat`, none begins before it and none ends where
no offset leads to. -/
def Readable (start length : Nat) : List SampleEntry → Prop
  | [] => True
  | se::group => start ≤ se.offset ∧ se.offset-start+se.size.toNat < 2^64 ∧
    (se.Inside start length → Readable start length group)

theorem AllInside.readable {length : Nat} {group : List SampleEntry}
    (h : AllInside start length group) (hlength : length < 2^64) :
    Readable start length group := by
  induction group with
  | nil => trivial
  | cons se group ih =>
    have hse := h se List.mem_cons_self
    have hrest := ih (fun x hx => h x (List.mem_cons_of_mem _ hx))
    exact ⟨hse.1,by have := hse.2; omega,fun _ => hrest⟩

variable {frame : SampleEntry → Bytes → FrameData} {group : List SampleEntry}
  {found : Option (List FrameData)}

/-- One round: the sample is read, or the group is given up. -/
theorem groupFrames_cons_eq_ok {se : SampleEntry} :
    groupFrames frame start mdat (se::group) = .ok found ↔
      start ≤ se.offset ∧ se.offset-start+se.size.toNat < 2^64 ∧
      if se.Inside start mdat.length then
        ∃ frames, groupFrames frame start mdat group = .ok frames ∧
          found = frames.map (fun frames => frame se (se.dataIn start mdat)::frames)
      else found = none := by
  rw [groupFrames]
  by_cases hstart : se.offset < start
  · rw [if_pos hstart]
    exact ⟨fun h => (by cases h),fun h => absurd h.1 (by omega)⟩
  have hdata : (mdat.drop (se.offset-start)).take
      (se.offset-start+se.size.toNat-(se.offset-start)) = se.dataIn start mdat := by
    rw [Nat.add_sub_cancel_left]
    rfl
  have hinside : se.Inside start mdat.length ↔
      ¬ mdat.length < se.offset-start+se.size.toNat := by
    unfold SampleEntry.Inside
    omega
  rw [if_neg hstart,bind_eq_ok]
  constructor
  · intro h
    obtain ⟨stop,hstop,h⟩ := h
    obtain ⟨rfl,hlt⟩ := checkedU64_eq_ok hstop
    refine ⟨by omega,hlt,?_⟩
    by_cases hend : mdat.length < se.offset-start+se.size.toNat
    · rw [if_neg (fun hin => hinside.mp hin hend)]
      rw [if_pos hend] at h
      cases h
      rfl
    · rw [if_pos (hinside.mpr hend)]
      rw [if_neg hend,hdata] at h
      obtain ⟨frames,hframes,h⟩ := bind_eq_ok.mp h
      cases h
      exact ⟨frames,hframes,rfl⟩
  · intro h
    obtain ⟨_,hlt,h⟩ := h
    refine ⟨_,if_pos hlt,?_⟩
    by_cases hend : mdat.length < se.offset-start+se.size.toNat
    · rw [if_neg (fun hin => hinside.mp hin hend)] at h
      rw [if_pos hend,h]
      rfl
    · rw [if_pos (hinside.mpr hend)] at h
      obtain ⟨frames,hframes,hfound⟩ := h
      rw [if_neg hend,hdata,bind_eq_ok]
      exact ⟨frames,hframes,by rw [hfound]; rfl⟩

theorem groupFrames_eq_ok :
    groupFrames frame start mdat group = .ok found ↔ Readable start mdat.length group ∧
      found = if AllInside start mdat.length group then
        some (group.map (fun se => frame se (se.dataIn start mdat))) else none := by
  induction group generalizing found with
  | nil =>
    have : AllInside start mdat.length [] := by simp [AllInside]
    simp [groupFrames,Readable,this,eq_comm]
  | cons se group ih =>
    rw [groupFrames_cons_eq_ok,Readable]
    by_cases hin : se.Inside start mdat.length
    · have hall : AllInside start mdat.length (se::group) ↔ AllInside start mdat.length group := by
        simp [AllInside,hin]
      simp only [hin,if_true,true_implies,hall,ih,and_assoc,exists_eq_left,exists_and_left]
      split_ifs <;> simp
    · have hall : ¬ AllInside start mdat.length (se::group) :=
        fun h => hin (h se List.mem_cons_self)
      simp only [hin,if_false,false_implies,hall,and_true,and_assoc]

end Samples

section Fragments

namespace FragmentedMp4Converter

variable {s : FragmentedMp4Converter} {trackId : UInt32} {frames : List FrameData}

theorem createMdat_eq_ok {data : Bytes} (h : createMdat frames = .ok data) :
    8+(frames.map (fun f => f.size.toNat)).sum < 2^32 := by
  obtain ⟨dataSize,hdata,h⟩ := bind_eq_ok.mp h
  obtain ⟨boxSize,hbox,_⟩ := bind_eq_ok.mp h
  obtain ⟨rfl,_⟩ := checkedU32_eq_ok hdata
  exact (checkedU32_eq_ok hbox).2

theorem calculateMoofSizeV2_eq_ok {size : Nat} (hlength : frames.length < 2^32)
    (h : s.calculateMoofSizeV2 frames = .ok size) : size = s.moofLength frames := by
  obtain ⟨entries,hentries,h⟩ := bind_eq_ok.mp h
  obtain ⟨rfl,_⟩ := checkedU32_eq_ok hentries
  obtain ⟨rfl,_⟩ := checkedU32_eq_ok h
  rw [Nat.mod_eq_of_lt hlength]
  rfl

theorem createMoofV2_eq_ok {data : Bytes} (hlength : frames.length < 2^32)
    (h : s.createMoofV2 frames trackId = .ok data) : s.moofLength frames+8 < 2^32 := by
  obtain ⟨traf,htraf,_⟩ := bind_eq_ok.mp h
  obtain ⟨trun,htrun,_⟩ := bind_eq_ok.mp htraf
  obtain ⟨size,hsize,htrun⟩ := bind_eq_ok.mp htrun
  obtain ⟨offset,hoffset,_⟩ := bind_eq_ok.mp htrun
  rw [← calculateMoofSizeV2_eq_ok hlength hsize]
  exact (checkedU32_eq_ok hoffset).2

/-- The counters behind a group of samples. -/
def after (s : FragmentedMp4Converter) (group : List SampleEntry) : FragmentedMp4Converter :=
  ⟨s.sequenceNumber+1,s.baseMediaDecodeTime+ticks group⟩

/-- The counters before the group with an index. -/
def before (s : FragmentedMp4Converter) (groups : List (List SampleEntry)) (i : Nat) :
    FragmentedMp4Converter :=
  ⟨s.sequenceNumber+i,s.baseMediaDecodeTime+ticks (groups.take i).flatten⟩

theorem before_succ (s : FragmentedMp4Converter) (group : List SampleEntry)
    (groups : List (List SampleEntry)) (i : Nat) :
    s.before (group::groups) (i+1) = (s.after group).before groups i := by
  unfold before after
  rw [List.take_succ_cons,List.flatten_cons,ticks_append]
  congr 1 <;> dsimp only <;> omega

theorem before_zero (s : FragmentedMp4Converter) (groups : List (List SampleEntry)) :
    s.before groups 0 = s := rfl

end FragmentedMp4Converter

/-- A group of samples becomes a fragment without an overflow. -/
structure Fits (timescale : Nat) (s : FragmentedMp4Converter) (group : List SampleEntry) :
    Prop where
  timescale : timescale ≠ 0
  timestamp : s.baseMediaDecodeTime*1000 < 2^64
  moof : (if 2^32 ≤ s.baseMediaDecodeTime then 96 else 92)+group.length*16 < 2^32
  mdat : 8+totalSize group < 2^32
  number : s.sequenceNumber+1 < 2^32
  time : s.baseMediaDecodeTime+ticks group < 2^64

/-- The same where another clock says when the group begins. -/
structure FitsAt (timescale decodeTime : Nat) (s : FragmentedMp4Converter)
    (group : List SampleEntry) : Prop where
  timescale : timescale ≠ 0
  timestamp : decodeTime*1000 < 2^64
  moof : (if 2^32 ≤ s.baseMediaDecodeTime then 96 else 92)+group.length*16 < 2^32
  mdat : 8+totalSize group < 2^32
  number : s.sequenceNumber+1 < 2^32
  time : s.baseMediaDecodeTime+ticks group < 2^64
  clock : decodeTime+ticks group < 2^64

/-- Where the clocks agree, there is no difference. -/
theorem fitsAt_self {timescale : Nat} {s : FragmentedMp4Converter} {group : List SampleEntry} :
    FitsAt timescale s.baseMediaDecodeTime s group ↔ Fits timescale s group :=
  ⟨fun h => ⟨h.timescale,h.timestamp,h.moof,h.mdat,h.number,h.time⟩,
    fun h => ⟨h.timescale,h.timestamp,h.moof,h.mdat,h.number,h.time,h.time⟩⟩

/-- The frames of a loop are made by `new`, and keep the durations. -/
def GroupLoop.Plain (loop : GroupLoop) : Prop :=
  ∀ se data, ∃ isKeyframe compositionOffset,
    loop.frame se data = .new data se.duration isKeyframe compositionOffset

variable (loop : GroupLoop) (start : Nat) (mdat : Bytes)

def GroupLoop.frames (group : List SampleEntry) : List FrameData :=
  group.map (fun se => loop.frame se (se.dataIn start mdat))

variable {loop} (hplain : loop.Plain)

include hplain

theorem GroupLoop.Plain.built (group : List SampleEntry) :
    ∀ f ∈ loop.frames start mdat group, f.Built := by
  intro f hf
  obtain ⟨se,_,rfl⟩ := List.mem_map.mp hf
  obtain ⟨key,offset,hframe⟩ := hplain se (se.dataIn start mdat)
  exact ⟨_,_,_,_,hframe⟩

theorem GroupLoop.Plain.data (se : SampleEntry) (data : Bytes) : (loop.frame se data).data = data := by
  obtain ⟨key,offset,hframe⟩ := hplain se data
  rw [hframe]
  rfl

theorem GroupLoop.Plain.totalDuration (group : List SampleEntry) :
    totalDuration (loop.frames start mdat group) = ticks group := by
  unfold Media.totalDuration ticks frames
  rw [List.map_map]
  congr 1
  apply List.map_congr_left
  intro se _
  obtain ⟨key,offset,hframe⟩ := hplain se (se.dataIn start mdat)
  simp [hframe,FrameData.new]

theorem GroupLoop.Plain.flatMap_data (group : List SampleEntry) :
    (loop.frames start mdat group).flatMap FrameData.data =
      group.flatMap (fun se => se.dataIn start mdat) := by
  unfold frames
  rw [List.flatMap_map]
  simp only [hplain.data]

variable {start mdat} {group : List SampleEntry} (hinside : AllInside start mdat.length group)

include hinside

theorem GroupLoop.Plain.size {se : SampleEntry} (hse : se ∈ group) :
    (loop.frame se (se.dataIn start mdat)).size.toNat = se.size.toNat := by
  obtain ⟨key,offset,hframe⟩ := hplain se (se.dataIn start mdat)
  have hsize := (hinside se hse).length_dataIn
  rw [hframe,FrameData.new,hsize]
  simp

theorem GroupLoop.Plain.sum_sizes :
    ((loop.frames start mdat group).map (fun f => f.size.toNat)).sum = totalSize group := by
  unfold frames totalSize
  rw [List.map_map]
  congr 1
  apply List.map_congr_left
  exact fun se hse => hplain.size hinside hse

theorem GroupLoop.Plain.length_data :
    ((loop.frames start mdat group).flatMap FrameData.data).length = totalSize group := by
  rw [hplain.flatMap_data,List.length_flatMap]
  unfold totalSize
  congr 1
  apply List.map_congr_left
  exact fun se hse => (hinside se hse).length_dataIn

end Fragments

section Panics

/-- Code that fails only by a panic. -/
def OnlyPanics {α : Type} (x : Except Mp4Error α) : Prop := ∀ message, x ≠ .error (.io message)

theorem OnlyPanics.ok {α : Type} (a : α) : OnlyPanics (.ok a) := by
  intro message h
  cases h

theorem OnlyPanics.bind {α β : Type} {x : Except Mp4Error α} {f : α → Except Mp4Error β}
    (hx : OnlyPanics x) (hf : ∀ a, OnlyPanics (f a)) : OnlyPanics (x >>= f) := by
  intro message h
  cases x with
  | error e =>
    cases h
    exact hx message rfl
  | ok a => exact hf a message h

theorem onlyPanics_checkedU32 (n : Nat) : OnlyPanics (checkedU32 n) := by
  intro message h
  unfold checkedU32 at h
  split_ifs at h
  cases h

theorem onlyPanics_checkedU64 (n : Nat) : OnlyPanics (checkedU64 n) := by
  intro message h
  unfold checkedU64 at h
  split_ifs at h
  cases h

theorem onlyPanics_wrapBox (kind content : Bytes) : OnlyPanics (wrapBox kind content) := by
  have hsize : OnlyPanics (boxSize32 content.length) := by
    intro message h
    unfold boxSize32 at h
    split_ifs at h
    cases h
  exact hsize.bind (fun _ => .ok _)

namespace FragmentedMp4Converter

variable (s : FragmentedMp4Converter) (frames : List FrameData) (trackId : UInt32)

theorem onlyPanics_createMoofV2 : OnlyPanics (s.createMoofV2 frames trackId) := by
  have hsize : OnlyPanics (s.calculateMoofSizeV2 frames) :=
    (onlyPanics_checkedU32 _).bind (fun _ => onlyPanics_checkedU32 _)
  have htrun : OnlyPanics (s.createTrunV2 frames) :=
    hsize.bind (fun _ => (onlyPanics_checkedU32 _).bind (fun _ => onlyPanics_wrapBox _ _))
  have htraf : OnlyPanics (s.createTrafV2 frames trackId) :=
    htrun.bind (fun _ => onlyPanics_wrapBox _ _)
  exact htraf.bind (fun _ => onlyPanics_wrapBox _ _)

theorem onlyPanics_next : OnlyPanics (s.next frames) :=
  (onlyPanics_checkedU32 _).bind (fun _ => (onlyPanics_checkedU64 _).bind
    (fun _ => (onlyPanics_checkedU64 _).bind (fun _ => .ok _)))

theorem onlyPanics_createFragmentV2 : OnlyPanics (s.createFragmentV2 frames trackId) := by
  have hmdat : OnlyPanics (createMdatV2 frames) :=
    (onlyPanics_checkedU32 _).bind (fun _ => (onlyPanics_checkedU32 _).bind (fun _ => .ok _))
  exact (s.onlyPanics_createMoofV2 frames trackId).bind
    (fun _ => hmdat.bind (fun _ => (s.onlyPanics_next frames).bind (fun _ => .ok _)))

end FragmentedMp4Converter

end Panics

section Emitting

variable (loop : GroupLoop) (start : Nat) (mdat : Bytes)

/-- The segment for a group of samples. -/
def GroupLoop.segment (s : FragmentedMp4Converter) (group : List SampleEntry) : MseSegment where
  segmentType := .media
  data := encodeAll [s.moofBox loop.trackId (loop.frames start mdat group),
    FragmentedMp4Converter.mdatBox (loop.frames start mdat group)]
  timestamp := some (s.baseMediaDecodeTime*1000/loop.timescale)
  duration := some (ticks group)
  isKeyframe := true
  trackId := loop.trackId.toNat

def Emission.emitted (st : Emission) (group : List SampleEntry) : Emission where
  converter := st.converter.after group
  decodeTime := st.decodeTime+ticks group
  segments := st.segments++[loop.segment start mdat st.converter group]

/-- The two clocks show the same time. -/
def Emission.InSync (st : Emission) : Prop := st.decodeTime = st.converter.baseMediaDecodeTime

theorem Emission.InSync.emitted {st : Emission} (h : st.InSync) (group : List SampleEntry) :
    (st.emitted loop start mdat group).InSync := by
  unfold InSync at h ⊢
  unfold Emission.emitted FragmentedMp4Converter.after
  dsimp only
  rw [h]

/-- Where the clocks differ, the time stamp is that of the loop. -/
def Emission.emittedAt (st : Emission) (group : List SampleEntry) : Emission where
  converter := st.converter.after group
  decodeTime := st.decodeTime+ticks group
  segments := st.segments++[{ loop.segment start mdat st.converter group with
    timestamp := some (st.decodeTime*1000/loop.timescale) }]

theorem Emission.InSync.emittedAt {st : Emission} (h : st.InSync) (group : List SampleEntry) :
    st.emittedAt loop start mdat group = st.emitted loop start mdat group := by
  have htime : st.decodeTime = st.converter.baseMediaDecodeTime := h
  simp only [Emission.emittedAt,Emission.emitted,GroupLoop.segment,htime]

theorem Emission.InSync.foldl_emittedAt {st : Emission} (h : st.InSync)
    (groups : List (List SampleEntry)) :
    groups.foldl (Emission.emittedAt loop start mdat) st =
      groups.foldl (Emission.emitted loop start mdat) st := by
  induction groups generalizing st with
  | nil => rw [List.foldl_nil,List.foldl_nil]
  | cons group groups ih =>
    have hnext := ih (h.emitted loop start mdat group)
    rw [List.foldl_cons,List.foldl_cons,h.emittedAt,hnext]

variable {loop start mdat} (hplain : loop.Plain) {group : List SampleEntry}
  (hinside : AllInside start mdat.length group)

theorem moofLength_frames (s : FragmentedMp4Converter) :
    s.moofLength (loop.frames start mdat group)+8 =
      (if 2^32 ≤ s.baseMediaDecodeTime then 96 else 92)+group.length*16 := by
  unfold FragmentedMp4Converter.moofLength FragmentedMp4Converter.timeLength GroupLoop.frames
  rw [List.length_map]
  split_ifs <;> omega

include hplain hinside

theorem createFragmentV2_group {timescale decodeTime : Nat} {s : FragmentedMp4Converter}
    (h : FitsAt timescale decodeTime s group) :
    s.createFragmentV2 (loop.frames start mdat group) loop.trackId =
      .ok ((loop.segment start mdat s group).data,s.after group) := by
  have hnumber := h.number
  have htime := h.time
  rw [FragmentedMp4Converter.createFragmentV2_ok loop.trackId (hplain.built start mdat group)
    (by rw [moofLength_frames]; exact h.moof) (by rw [hplain.length_data hinside]; exact h.mdat)
    (by omega) (by rw [hplain.totalDuration]; exact htime),hplain.totalDuration]
  rfl

theorem fits_of_createFragmentV2 {s : FragmentedMp4Converter} {r : Bytes × FragmentedMp4Converter}
    (hlength : group.length < 2^32)
    (h : s.createFragmentV2 (loop.frames start mdat group) loop.trackId = .ok r) :
    (if 2^32 ≤ s.baseMediaDecodeTime then 96 else 92)+group.length*16 < 2^32 ∧
    8+totalSize group < 2^32 ∧ s.sequenceNumber+1 < 2^32 ∧
    s.baseMediaDecodeTime+ticks group < 2^64 := by
  obtain ⟨moof,hmoof,h⟩ := bind_eq_ok.mp h
  obtain ⟨data,hdata,h⟩ := bind_eq_ok.mp h
  obtain ⟨next,hnext,_⟩ := bind_eq_ok.mp h
  have hframes : (loop.frames start mdat group).length < 2^32 := by
    rwa [GroupLoop.frames,List.length_map]
  have hmoof := FragmentedMp4Converter.createMoofV2_eq_ok hframes hmoof
  have hdata := FragmentedMp4Converter.createMdat_eq_ok hdata
  obtain ⟨_,hnumber,htotal⟩ := FragmentedMp4Converter.next_eq_ok hnext
  rw [moofLength_frames] at hmoof
  rw [hplain.sum_sizes hinside] at hdata
  rw [hplain.totalDuration] at htotal
  exact ⟨hmoof,hdata,hnumber,htotal⟩

theorem emitFrames_ok {st : Emission}
    (hfits : FitsAt loop.timescale st.decodeTime st.converter group) :
    emitFrames loop (loop.frames start mdat group) st =
      .ok (st.emittedAt loop start mdat group) := by
  have hclock := hfits.clock
  have hduration : checkedU64 (ticks group) = .ok (ticks group) := if_pos (by omega)
  have hscaled : checkedU64 (st.decodeTime*1000) = .ok (st.decodeTime*1000) :=
    if_pos hfits.timestamp
  have htotal : checkedU64 (st.decodeTime+ticks group) = .ok (st.decodeTime+ticks group) :=
    if_pos hclock
  simp only [emitFrames,hplain.totalDuration,hduration,timestampMs,hscaled,
    createFragmentV2_group hplain hinside hfits,bind,Except.bind,if_neg hfits.timescale,pure,
    Except.pure,htotal]
  rfl

theorem fits_of_emitFrames {st st' : Emission} (hlength : group.length < 2^32)
    (h : emitFrames loop (loop.frames start mdat group) st = .ok st') :
    FitsAt loop.timescale st.decodeTime st.converter group := by
  obtain ⟨duration,hduration,h⟩ := bind_eq_ok.mp h
  obtain ⟨rfl,_⟩ := checkedU64_eq_ok hduration
  obtain ⟨timestamp,htimestamp,h⟩ := bind_eq_ok.mp h
  obtain ⟨scaled,hscaled,htimestamp⟩ := bind_eq_ok.mp htimestamp
  obtain ⟨rfl,hscaledLt⟩ := checkedU64_eq_ok hscaled
  have hpositive : loop.timescale ≠ 0 := by
    intro hzero
    rw [if_pos hzero] at htimestamp
    cases htimestamp
  cases hfragment : st.converter.createFragmentV2 (loop.frames start mdat group) loop.trackId with
  | error e =>
    cases e with
    | io message => exact absurd hfragment (st.converter.onlyPanics_createFragmentV2 _ _ message)
    | panic =>
      rw [hfragment] at h
      cases h
  | ok r =>
    obtain ⟨hmoof,hdata,hnumber,htotal⟩ := fits_of_createFragmentV2 hplain hinside hlength hfragment
    rw [hfragment] at h
    obtain ⟨_,hst,h⟩ := bind_eq_ok.mp h
    cases hst
    obtain ⟨decodeTime,hclock,_⟩ := bind_eq_ok.mp h
    obtain ⟨_,hclockLt⟩ := checkedU64_eq_ok hclock
    rw [hplain.totalDuration] at hclockLt
    exact ⟨hpositive,hscaledLt,hmoof,hdata,hnumber,htotal,hclockLt⟩

/-- Frames become a segment exactly if they fit. -/
theorem emitFrames_eq_ok {st st' : Emission} (hlength : group.length < 2^32) :
    emitFrames loop (loop.frames start mdat group) st = .ok st' ↔
      FitsAt loop.timescale st.decodeTime st.converter group ∧
        st' = st.emittedAt loop start mdat group := by
  constructor
  · intro h
    have hfits := fits_of_emitFrames hplain hinside hlength h
    rw [emitFrames_ok hplain hinside hfits] at h
    exact ⟨hfits,(Except.ok.inj h).symm⟩
  · intro h
    rw [h.2]
    exact emitFrames_ok hplain hinside h.1

end Emitting

section Runs

/-- Groups of samples become fragments, one after the other, without an overflow. -/
def Encodable (timescale : Nat) (s : FragmentedMp4Converter) (groups : List (List SampleEntry)) :
    Prop :=
  ∀ i group, groups[i]? = some group → Fits timescale (s.before groups i) group

theorem encodable_nil (timescale : Nat) (s : FragmentedMp4Converter) :
    Encodable timescale s [] := by
  intro i group h
  cases h

theorem encodable_cons {timescale : Nat} {s : FragmentedMp4Converter} {group : List SampleEntry}
    {groups : List (List SampleEntry)} :
    Encodable timescale s (group::groups) ↔
      Fits timescale s group ∧ Encodable timescale (s.after group) groups := by
  constructor
  · intro h
    refine ⟨h 0 group rfl,?_⟩
    intro i other hother
    rw [← FragmentedMp4Converter.before_succ]
    exact h (i+1) other hother
  · intro h i other hother
    cases i with
    | zero =>
      cases hother
      exact h.1
    | succ i =>
      rw [FragmentedMp4Converter.before_succ]
      exact h.2 i other hother

/-- The same where another clock says when the first group begins. -/
def EncodableAt (timescale decodeTime : Nat) (s : FragmentedMp4Converter)
    (groups : List (List SampleEntry)) : Prop :=
  ∀ i group, groups[i]? = some group →
    FitsAt timescale (decodeTime+ticks (groups.take i).flatten) (s.before groups i) group

theorem encodableAt_self {timescale : Nat} {s : FragmentedMp4Converter}
    {groups : List (List SampleEntry)} :
    EncodableAt timescale s.baseMediaDecodeTime s groups ↔ Encodable timescale s groups := by
  have hself : ∀ i group, FitsAt timescale (s.baseMediaDecodeTime+ticks (groups.take i).flatten)
      (s.before groups i) group ↔ Fits timescale (s.before groups i) group :=
    fun i group => @fitsAt_self timescale (s.before groups i) group
  unfold EncodableAt Encodable
  simp only [hself]

theorem encodableAt_nil (timescale decodeTime : Nat) (s : FragmentedMp4Converter) :
    EncodableAt timescale decodeTime s [] := by
  intro i group h
  cases h

theorem encodableAt_cons {timescale decodeTime : Nat} {s : FragmentedMp4Converter}
    {group : List SampleEntry} {groups : List (List SampleEntry)} :
    EncodableAt timescale decodeTime s (group::groups) ↔ FitsAt timescale decodeTime s group ∧
      EncodableAt timescale (decodeTime+ticks group) (s.after group) groups := by
  have hclock : ∀ i, decodeTime+ticks ((group::groups).take (i+1)).flatten =
      decodeTime+ticks group+ticks (groups.take i).flatten := by
    intro i
    rw [List.take_succ_cons,List.flatten_cons,ticks_append,Nat.add_assoc]
  constructor
  · intro h
    refine ⟨h 0 group rfl,?_⟩
    intro i other hother
    rw [← FragmentedMp4Converter.before_succ,← hclock]
    exact h (i+1) other hother
  · intro h i other hother
    cases i with
    | zero =>
      cases hother
      exact h.1
    | succ i =>
      rw [FragmentedMp4Converter.before_succ,hclock]
      exact h.2 i other hother

variable {loop : GroupLoop} {start : Nat} {mdat : Bytes} (hplain : loop.Plain)

include hplain

/-- One group: it is emitted, or skipped. -/
theorem emitGroup_eq_ok {st st' : Emission} {group : List SampleEntry} (hne : group ≠ [])
    (hlength : group.length < 2^32) :
    emitGroup loop start mdat st group = .ok st' ↔ Readable start mdat.length group ∧
      if AllInside start mdat.length group then
        FitsAt loop.timescale st.decodeTime st.converter group ∧
          st' = st.emittedAt loop start mdat group
      else st' = st := by
  have hframes : (loop.frames start mdat group).isEmpty = false := by
    simpa [GroupLoop.frames] using hne
  unfold emitGroup
  rw [bind_eq_ok]
  simp only [groupFrames_eq_ok,and_assoc,exists_and_left,exists_eq_left]
  apply and_congr_right
  intro _
  split_ifs with hinside
  · change (if (loop.frames start mdat group).isEmpty = true then .ok st
      else emitFrames loop (loop.frames start mdat group) st) = _ ↔ _
    rw [hframes,if_neg (by decide)]
    exact emitFrames_eq_ok hplain hinside hlength
  · exact ⟨fun h => by cases h; rfl,fun h => by rw [h]; rfl⟩

/-- All groups: those that lie inside the `mdat` are emitted, one after the other. -/
theorem emitGroups_eq_ok_at {groups : List (List SampleEntry)} (hne : [] ∉ groups)
    (hlength : ∀ group ∈ groups, group.length < 2^32) {st st' : Emission} :
    groups.foldlM (emitGroup loop start mdat) st = .ok st' ↔
      (∀ group ∈ groups, Readable start mdat.length group) ∧
      EncodableAt loop.timescale st.decodeTime st.converter
        (groups.filter (fun group => AllInside start mdat.length group)) ∧
      st' = (groups.filter (fun group => AllInside start mdat.length group)).foldl
        (Emission.emittedAt loop start mdat) st := by
  induction groups generalizing st with
  | nil => simp [encodableAt_nil,pure,Except.pure,eq_comm]
  | cons group groups ih =>
    have hgroup : group ≠ [] := fun h => hne (by simp [h])
    have hrest : [] ∉ groups := fun h => hne (List.mem_cons_of_mem _ h)
    have hlengths : ∀ other ∈ groups, other.length < 2^32 :=
      fun other h => hlength other (List.mem_cons_of_mem _ h)
    rw [List.foldlM_cons,bind_eq_ok]
    simp only [emitGroup_eq_ok hplain hgroup (hlength group List.mem_cons_self)]
    by_cases hinside : AllInside start mdat.length group
    · rw [List.filter_cons_of_pos (by simpa using hinside),encodableAt_cons,List.foldl_cons]
      simp only [hinside,if_true,and_assoc,exists_and_left,exists_eq_left,ih hrest hlengths,
        List.forall_mem_cons]
      exact ⟨fun h => ⟨h.1,h.2.2.1,h.2.1,h.2.2.2⟩,fun h => ⟨h.1,h.2.2.1,h.2.1,h.2.2.2⟩⟩
    · rw [List.filter_cons_of_neg (by simpa using hinside)]
      simp only [hinside,if_false,and_assoc,exists_and_left,exists_eq_left,ih hrest hlengths,
        List.forall_mem_cons]

theorem emitGroups_eq_ok {groups : List (List SampleEntry)} (hne : [] ∉ groups)
    (hlength : ∀ group ∈ groups, group.length < 2^32) {st st' : Emission} (hsync : st.InSync) :
    groups.foldlM (emitGroup loop start mdat) st = .ok st' ↔
      (∀ group ∈ groups, Readable start mdat.length group) ∧
      Encodable loop.timescale st.converter
        (groups.filter (fun group => AllInside start mdat.length group)) ∧
      st' = (groups.filter (fun group => AllInside start mdat.length group)).foldl
        (Emission.emitted loop start mdat) st := by
  have hclock : st.decodeTime = st.converter.baseMediaDecodeTime := hsync
  rw [emitGroups_eq_ok_at hplain hne hlength,hclock,encodableAt_self,hsync.foldl_emittedAt]

omit hplain

/-- What has been emitted: the segments of the groups, at their times. -/
theorem foldl_emitted (groups : List (List SampleEntry)) (st : Emission) :
    (groups.foldl (Emission.emitted loop start mdat) st).segments =
      st.segments++groups.mapIdx (fun i group =>
        loop.segment start mdat (st.converter.before groups i) group) := by
  induction groups generalizing st with
  | nil => simp
  | cons group groups ih =>
    rw [List.foldl_cons,ih,List.mapIdx_cons]
    simp only [FragmentedMp4Converter.before_succ,FragmentedMp4Converter.before_zero]
    simp [Emission.emitted]

end Runs

end OpenBroadcast.Media
