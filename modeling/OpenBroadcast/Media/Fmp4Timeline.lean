import OpenBroadcast.Media.Fmp4RoundTrip

namespace OpenBroadcast.Media

open RawBox

section Walk

/-- The data from the first box of a kind on. The search goes into `moof` and `traf` and steps over
all other boxes. -/
def findBoxFrom (kind : Bytes) : Nat → Bytes → Option Bytes
  | 0,_ => none
  | n+1,data =>
    let size := beNat (data.take 4)
    let found := (data.drop 4).take 4
    if found = kind then some data
    else if found = tagMoof ∨ found = tagTraf then findBoxFrom kind n (data.drop 8)
    else if size < 8 then none
    else findBoxFrom kind n (data.drop size)

def findBox (kind data : Bytes) : Option Bytes := findBoxFrom kind data.length data

/-- The number in the `mfhd` of a fragment. -/
def carriedNumber (data : Bytes) : Option Nat := do
  let mfhd ← findBox tagMfhd data
  return beNat ((mfhd.drop 12).take 4)

/-- The time in the `tfdt` of a fragment, which has 32 bits in version 0 and 64 in version 1. -/
def carriedTime (data : Bytes) : Option Nat := do
  let tfdt ← findBox tagTfdt data
  match (tfdt.drop 8).head? with
  | some 0 => some (beNat ((tfdt.drop 12).take 4))
  | some 1 => some (beNat ((tfdt.drop 12).take 8))
  | _ => none

variable {kind : Bytes} {n : Nat}

theorem findBoxFrom_inside {size tag : Bytes} (hsize : size.length = 4) (htag : tag.length = 4)
    (hne : tag ≠ kind) (hcontainer : tag = tagMoof ∨ tag = tagTraf) (rest : Bytes) :
    findBoxFrom kind (n+1) (size++tag++rest) = findBoxFrom kind n rest := by
  have hfound : ((size++tag++rest).drop 4).take 4 = tag := by
    rw [List.append_assoc,List.drop_left' hsize,List.take_left' htag]
  have hdrop : (size++tag++rest).drop 8 = rest := by
    apply List.drop_left'
    rw [List.length_append,hsize,htag]
  rw [findBoxFrom]
  rw [hfound,if_neg hne,if_pos hcontainer,hdrop]

theorem findBoxFrom_over {b : RawBox} (h : b.Fits) (hne : b.kind ≠ kind)
    (hleaf : ¬ (b.kind = tagMoof ∨ b.kind = tagTraf)) (rest : Bytes) :
    findBoxFrom kind (n+1) (b.encode++rest) = findBoxFrom kind n rest := by
  have h8 := b.eight_le_size
  rw [findBoxFrom]
  rw [h.read_kind,h.read_size,if_neg hne,if_neg hleaf,if_neg (by omega),h.drop_size]

theorem findBoxFrom_here {b : RawBox} (h : b.Fits) (rest : Bytes) :
    findBoxFrom b.kind (n+1) (b.encode++rest) = some (b.encode++rest) := by
  rw [findBoxFrom]
  rw [h.read_kind,if_pos rfl]

end Walk

theorem wrapBox_eq_ok {kind content data : Bytes} (h : wrapBox kind content = .ok data) :
    ∃ size : Bytes, size.length = 4 ∧ data = size++kind++content := by
  unfold wrapBox at h
  obtain ⟨size,_,hdata⟩ := bind_eq_ok.mp h
  cases hdata
  exact ⟨toBe 4 size,length_toBe 4 size,rfl⟩

theorem wrapBox_eq_ok_iff (kind content : Bytes) :
    (∃ data, wrapBox kind content = .ok data) ↔ 8+content.length%2^32 < 2^32 := by
  unfold wrapBox boxSize32
  split_ifs with h
  · exact ⟨fun _ => h,fun _ => ⟨_,rfl⟩⟩
  · refine ⟨fun hok => ?_,fun hfits => absurd hfits h⟩
    obtain ⟨data,hdata⟩ := hok
    cases hdata

theorem length_wrapBox {kind content data : Bytes} (hkind : kind.length = 4)
    (h : wrapBox kind content = .ok data) : data.length = 8+content.length := by
  obtain ⟨size,hsize,rfl⟩ := wrapBox_eq_ok h
  rw [List.length_append,List.length_append,hsize,hkind]

theorem checkedU32_eq_ok {n m : Nat} (h : checkedU32 n = .ok m) : n = m ∧ n < 2^32 := by
  unfold checkedU32 at h
  split_ifs at h with hn
  cases h
  exact ⟨rfl,hn⟩

theorem checkedU64_eq_ok {n m : Nat} (h : checkedU64 n = .ok m) : n = m ∧ n < 2^64 := by
  unfold checkedU64 at h
  split_ifs at h with hn
  cases h
  exact ⟨rfl,hn⟩

namespace FragmentedMp4Converter

variable {s s' : FragmentedMp4Converter} {trackId : UInt32} {frames : List FrameData}

section Layout

/-- How the bytes of a fragment begin, whatever its boxes say about their sizes. -/
def Begins (s : FragmentedMp4Converter) (tfdt : RawBox) (data : Bytes) : Prop :=
  ∃ size size' rest : Bytes, ∃ trackId, size.length = 4 ∧ size'.length = 4 ∧
    data = size++tagMoof++(s.mfhdBox.encode++(size'++tagTraf++
      ((tfhdBox trackId).encode++(tfdt.encode++rest))))

theorem Begins.number {tfdt : RawBox} {data : Bytes} (h : Begins s tfdt data)
    (hseq : s.sequenceNumber < 2^32) : carriedNumber data = some s.sequenceNumber := by
  obtain ⟨size,size',rest,trackId,hsize,_,hdata⟩ := h
  obtain ⟨n,hn⟩ : ∃ n, data.length = n+2 := by
    apply Nat.exists_eq_add_of_le'
    rw [hdata,List.length_append,List.length_append,hsize]
    omega
  have hfound : findBox tagMfhd data = some (s.mfhdBox.encode++(size'++tagTraf++
      ((tfhdBox trackId).encode++(tfdt.encode++rest)))) := by
    rw [findBox,hn,hdata,findBoxFrom_inside hsize rfl (by decide) (Or.inl rfl)]
    exact findBoxFrom_here s.mfhdBox_fits _
  have hencode : s.mfhdBox.encode = toBe 4 16++tagMfhd++[0,0,0,0]++toBe 4 s.sequenceNumber :=
    s.encode_mfhdBox
  have hhead : (toBe 4 16++tagMfhd++[0,0,0,0]).length = 12 := rfl
  simp only [carriedNumber,hfound,Option.bind_eq_bind,Option.bind_some,hencode]
  rw [List.append_assoc,List.drop_left' hhead,List.take_left' (length_toBe 4 _),
    beNat_toBe_four hseq]
  rfl

/-- The `tfdt` is found behind the headers. -/
theorem Begins.findBox_tfdt {tfdt : RawBox} {data : Bytes} (h : Begins s tfdt data)
    (hfits : tfdt.Fits) (hkind : tfdt.kind = tagTfdt) :
    ∃ rest, findBox tagTfdt data = some (tfdt.encode++rest) := by
  obtain ⟨size,size',rest,trackId,hsize,hsize',hdata⟩ := h
  obtain ⟨n,hn⟩ : ∃ n, data.length = n+5 := by
    apply Nat.exists_eq_add_of_le'
    rw [hdata]
    simp only [List.length_append,hsize,hsize',s.mfhdBox_fits.length_encode,size_mfhdBox]
    omega
  have hmfhd : s.mfhdBox.kind = tagMfhd := rfl
  have htfhd : (tfhdBox trackId).kind = tagTfhd := rfl
  refine ⟨rest,?_⟩
  rw [findBox,hn,hdata,findBoxFrom_inside hsize rfl (by decide) (Or.inl rfl),
    findBoxFrom_over s.mfhdBox_fits (by rw [hmfhd]; decide) (by rw [hmfhd]; decide),
    findBoxFrom_inside hsize' rfl (by decide) (Or.inr rfl),
    findBoxFrom_over (tfhdBox_fits trackId) (by rw [htfhd]; decide) (by rw [htfhd]; decide),
    ← hkind]
  exact findBoxFrom_here hfits rest

/-- The `tfdt` of `create_fragment`, which has room for 32 bits. -/
def shortTimeBox (s : FragmentedMp4Converter) : RawBox :=
  ⟨tagTfdt,[0,0,0,0]++toBe 4 (s.baseMediaDecodeTime%2^32)⟩

theorem encode_shortTimeBox (s : FragmentedMp4Converter) :
    s.shortTimeBox.encode = s.createTfdt := by
  simp [shortTimeBox,RawBox.encode,RawBox.size,createTfdt]

theorem begins_of_wraps {tfdt trun traf moof mdat : Bytes} {b : RawBox} (hb : b.encode = tfdt)
    (htraf : wrapBox tagTraf (createTfhd trackId++tfdt++trun) = .ok traf)
    (hmoof : wrapBox tagMoof (s.createMfhd++traf) = .ok moof) : Begins s b (moof++mdat) := by
  obtain ⟨size',hsize',rfl⟩ := wrapBox_eq_ok htraf
  obtain ⟨size,hsize,rfl⟩ := wrapBox_eq_ok hmoof
  refine ⟨size,size',trun++mdat,trackId,hsize,hsize',?_⟩
  rw [hb,encode_mfhdBox,encode_tfhdBox]
  simp only [List.append_assoc]

theorem createFragment_begins {data : Bytes}
    (h : s.createFragment frames trackId = .ok (data,s')) :
    Begins s s.shortTimeBox data ∧ s.next frames = .ok s' := by
  obtain ⟨moof,hmoof,h⟩ := bind_eq_ok.mp h
  obtain ⟨mdat,_,h⟩ := bind_eq_ok.mp h
  obtain ⟨s₁,hnext,h⟩ := bind_eq_ok.mp h
  cases h
  obtain ⟨traf,htraf,hmoof⟩ := bind_eq_ok.mp hmoof
  obtain ⟨trun,_,htraf⟩ := bind_eq_ok.mp htraf
  exact ⟨begins_of_wraps s.encode_shortTimeBox htraf hmoof,hnext⟩

theorem createFragmentV2_begins {data : Bytes}
    (h : s.createFragmentV2 frames trackId = .ok (data,s')) :
    Begins s s.timeBox data ∧ s.next frames = .ok s' := by
  obtain ⟨moof,hmoof,h⟩ := bind_eq_ok.mp h
  obtain ⟨mdat,_,h⟩ := bind_eq_ok.mp h
  obtain ⟨s₁,hnext,h⟩ := bind_eq_ok.mp h
  cases h
  obtain ⟨traf,htraf,hmoof⟩ := bind_eq_ok.mp hmoof
  obtain ⟨trun,_,htraf⟩ := bind_eq_ok.mp htraf
  exact ⟨begins_of_wraps s.encode_timeBox htraf hmoof,hnext⟩

theorem next_eq_ok (h : s.next frames = .ok s') :
    s' = ⟨s.sequenceNumber+1,s.baseMediaDecodeTime+totalDuration frames⟩ ∧
    s.sequenceNumber+1 < 2^32 ∧ s.baseMediaDecodeTime+totalDuration frames < 2^64 := by
  obtain ⟨number,hnumber,h⟩ := bind_eq_ok.mp h
  obtain ⟨duration,hduration,h⟩ := bind_eq_ok.mp h
  obtain ⟨time,htime,h⟩ := bind_eq_ok.mp h
  cases h
  obtain ⟨rfl,hlt⟩ := checkedU32_eq_ok hnumber
  obtain ⟨rfl,_⟩ := checkedU64_eq_ok hduration
  obtain ⟨rfl,htotal⟩ := checkedU64_eq_ok htime
  exact ⟨rfl,hlt,htotal⟩

theorem Begins.shortTime {data : Bytes} (h : Begins s s.shortTimeBox data) :
    carriedTime data = some (s.baseMediaDecodeTime%2^32) := by
  have hfits : s.shortTimeBox.Fits := ⟨rfl,by simp [shortTimeBox,RawBox.size]⟩
  obtain ⟨rest,hfound⟩ := h.findBox_tfdt hfits rfl
  rw [encode_shortTimeBox,createTfdt] at hfound
  have hread := beNat_toBe_four (Nat.mod_lt s.baseMediaDecodeTime (by decide : 0 < 2^32))
  have hhead : (toBe 4 16++tagTfdt++[0,0,0,0]).length = 12 := rfl
  simp only [carriedTime,hfound,Option.bind_eq_bind,Option.bind_some]
  rw [List.append_assoc,List.drop_left' hhead,List.take_left' (length_toBe 4 _),hread]
  rfl

theorem Begins.time {data : Bytes} (h : Begins s s.timeBox data)
    (htime : s.baseMediaDecodeTime < 2^64) :
    carriedTime data = some s.baseMediaDecodeTime := by
  obtain ⟨rest,hfound⟩ := h.findBox_tfdt s.timeBox_fits rfl
  by_cases hlong : 2^32-1 < s.baseMediaDecodeTime
  · rw [encode_timeBox,createTfdtAuto,if_pos hlong] at hfound
    have hhead : (toBe 4 20++tagTfdt++[1,0,0,0]).length = 12 := rfl
    have hread : beNat (toBe 8 s.baseMediaDecodeTime) = s.baseMediaDecodeTime := by
      rw [beNat_toBe]
      exact Nat.mod_eq_of_lt htime
    simp only [carriedTime,hfound,Option.bind_eq_bind,Option.bind_some]
    rw [List.append_assoc,List.drop_left' hhead,List.take_left' (length_toBe 8 _),hread]
    rfl
  · have hshort : s.timeBox = s.shortTimeBox := by
      unfold timeBox shortTimeBox
      rw [if_neg hlong]
    rw [hshort] at h
    rw [h.shortTime,Nat.mod_eq_of_lt (by omega)]

end Layout

section Runs

/-- A call of `create_fragment`, or of `create_fragment_v2`. -/
structure FragmentCall where
  v2 : Bool
  frames : List FrameData
  trackId : UInt32

def perform (s : FragmentedMp4Converter) (c : FragmentCall) :
    Except Mp4Error (Bytes × FragmentedMp4Converter) :=
  if c.v2 then s.createFragmentV2 c.frames c.trackId else s.createFragment c.frames c.trackId

/-- Calls one after the other, with the fragments that they return. -/
def performAll : FragmentedMp4Converter → List FragmentCall →
    Except Mp4Error (List Bytes × FragmentedMp4Converter)
  | s,[] => .ok ([],s)
  | s,c::cs => do
    let (data,s) ← s.perform c
    let (fragments,s) ← performAll s cs
    return (data::fragments,s)

/-- The duration of all frames of some calls. -/
def elapsed (cs : List FragmentCall) : Nat := (cs.map (fun c => totalDuration c.frames)).sum

/-- What the `tfdt` of a call holds of the time. -/
def FragmentCall.holds (c : FragmentCall) (time : Nat) : Nat := if c.v2 then time else time%2^32

/-- One call: the fragment carries the counters, and these go on. -/
theorem perform_carries {c : FragmentCall} {data : Bytes} (h : s.perform c = .ok (data,s'))
    (htime : s.baseMediaDecodeTime < 2^64) :
    carriedNumber data = some s.sequenceNumber ∧
    carriedTime data = some (c.holds s.baseMediaDecodeTime) ∧
    s' = ⟨s.sequenceNumber+1,s.baseMediaDecodeTime+totalDuration c.frames⟩ ∧
    s'.baseMediaDecodeTime < 2^64 := by
  unfold perform at h
  unfold FragmentCall.holds
  split_ifs at h ⊢ with hv2
  · obtain ⟨hbegins,hnext⟩ := createFragmentV2_begins h
    obtain ⟨rfl,hnumber,htotal⟩ := next_eq_ok hnext
    exact ⟨hbegins.number (by omega),hbegins.time htime,rfl,htotal⟩
  · obtain ⟨hbegins,hnext⟩ := createFragment_begins h
    obtain ⟨rfl,hnumber,htotal⟩ := next_eq_ok hnext
    exact ⟨hbegins.number (by omega),hbegins.shortTime,rfl,htotal⟩

theorem performAll_carries {cs : List FragmentCall} {fragments : List Bytes}
    (h : s.performAll cs = .ok (fragments,s')) (htime : s.baseMediaDecodeTime < 2^64) :
    fragments.length = cs.length ∧ ∀ (i : Nat) (c : FragmentCall), cs[i]? = some c →
      ∃ data, fragments[i]? = some data ∧ carriedNumber data = some (s.sequenceNumber+i) ∧
        carriedTime data = some (c.holds (s.baseMediaDecodeTime+elapsed (cs.take i))) := by
  induction cs generalizing s fragments with
  | nil =>
    cases h
    exact ⟨rfl,by simp⟩
  | cons c cs ih =>
    obtain ⟨⟨data,s₁⟩,hc,h⟩ := bind_eq_ok.mp h
    obtain ⟨⟨rest,s₂⟩,hcs,h⟩ := bind_eq_ok.mp h
    cases h
    obtain ⟨hnumber,hcarried,rfl,hnext⟩ := perform_carries hc htime
    obtain ⟨hlength,hrest⟩ := ih hcs hnext
    refine ⟨by simp [hlength],?_⟩
    intro i d hd
    cases i with
    | zero =>
      cases hd
      exact ⟨data,rfl,hnumber,by simpa [elapsed] using hcarried⟩
    | succ i =>
      obtain ⟨data',hdata',hnumber',hcarried'⟩ := hrest i d hd
      refine ⟨data',hdata',?_,?_⟩
      · rw [hnumber']
        dsimp only
        congr 1
        omega
      · rw [hcarried']
        dsimp only
        rw [List.take_succ_cons,Nat.add_assoc]
        rfl

/-- All fragments carry their number, from 1 on, and the duration of all frames before them. -/
def OnTimeline (cs : List FragmentCall) (fragments : List Bytes) : Prop :=
  fragments.length = cs.length ∧ ∀ i < cs.length, ∃ data, fragments[i]? = some data ∧
    carriedNumber data = some (i+1) ∧ carriedTime data = some (elapsed (cs.take i))

/-- Over every run of calls that succeed: the fragments are on the timeline exactly if
`create_fragment` is called only as long as the time has 32 bits. -/
theorem run_on_timeline_iff (cs : List FragmentCall) (fragments : List Bytes)
    (s : FragmentedMp4Converter) (h : new.performAll cs = .ok (fragments,s)) :
    OnTimeline cs fragments ↔
      ∀ i c, cs[i]? = some c → c.v2 = false → elapsed (cs.take i) < 2^32 := by
  obtain ⟨hlength,hcarries⟩ := performAll_carries h (by decide)
  have hnew : new.sequenceNumber = 1 ∧ new.baseMediaDecodeTime = 0 := ⟨rfl,rfl⟩
  rw [hnew.1,hnew.2] at hcarries
  constructor
  · intro hyp i c hc hv1
    obtain ⟨data,hdata,_,htime⟩ := hcarries i c hc
    obtain ⟨data',hdata',_,htime'⟩ := hyp.2 i (List.getElem?_eq_some_iff.mp hc).1
    rw [hdata] at hdata'
    cases hdata'
    rw [htime] at htime'
    have hmod : (0+elapsed (cs.take i))%2^32 = elapsed (cs.take i) := by
      simpa [FragmentCall.holds,hv1] using htime'
    rw [← hmod]
    exact Nat.mod_lt _ (by decide)
  · intro hshort
    refine ⟨hlength,?_⟩
    intro i hi
    obtain ⟨data,hdata,hnumber,htime⟩ := hcarries i cs[i] (List.getElem?_eq_getElem hi)
    refine ⟨data,hdata,by rw [hnumber,Nat.add_comm],?_⟩
    rw [htime,Nat.zero_add]
    unfold FragmentCall.holds
    split_ifs with hv2
    · rfl
    · rw [Nat.mod_eq_of_lt (hshort i cs[i] (List.getElem?_eq_getElem hi) (by simpa using hv2))]

/-- Two frames that take 2^32 units of time, and then a third one. -/
def longThenShort (first second : Bool) : List FragmentCall :=
  [⟨first,[.new [1] 0xffffffff true 0,.new [2] 1 true 0],1⟩,⟨second,[.new [3] 1000 true 0],1⟩]

theorem longThenShort_ok (first second : Bool) :
    ∃ fragments s, new.performAll (longThenShort first second) = .ok (fragments,s) := by
  have hok : (new.performAll (longThenShort first second)).toBool = true := by
    cases first <;> cases second <;> decide +kernel
  cases h : new.performAll (longThenShort first second) with
  | ok r => exact ⟨r.1,r.2,rfl⟩
  | error e =>
    rw [h] at hok
    cases hok

theorem run_on_timeline_longThenShort :
    ∃ fragments s, new.performAll (longThenShort false true) = .ok (fragments,s) ∧
      OnTimeline (longThenShort false true) fragments := by
  obtain ⟨fragments,s,h⟩ := longThenShort_ok false true
  refine ⟨fragments,s,h,(run_on_timeline_iff _ fragments s h).mpr ?_⟩
  intro i c hc hv1
  rcases i with _ | _ | i
  · decide
  · cases hc
    cases hv1
  · cases hc

/-- The time of the third frame does not fit into the `tfdt` of `create_fragment`. -/
theorem late_fragment_off_timeline :
    ∃ fragments s, new.performAll (longThenShort true false) = .ok (fragments,s) ∧
      ¬ OnTimeline (longThenShort true false) fragments := by
  obtain ⟨fragments,s,h⟩ := longThenShort_ok true false
  refine ⟨fragments,s,h,?_⟩
  intro hyp
  obtain ⟨data,hdata,_,htime⟩ := hyp.2 1 (by decide)
  obtain ⟨data',hdata',_,hcarried⟩ := (performAll_carries h (by decide)).2 1 _ rfl
  rw [hdata] at hdata'
  cases hdata'
  rw [hcarried] at htime
  revert htime
  decide

end Runs

end FragmentedMp4Converter

end OpenBroadcast.Media
