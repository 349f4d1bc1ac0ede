import OpenBroadcast.Media.FlagSearch
import OpenBroadcast.Media.MovieFragment
import OpenBroadcast.Media.TrackKinds

namespace OpenBroadcast.Media

open RawBox

/-- What the timeline needs of a `traf`: the contents of its `tfhd` and its `tfdt`, and the samples
of its runs. -/
structure TimedTraf where
  tfhd : Bytes
  tfdt : Bytes
  samples : List RunSample
  deriving DecidableEq, Repr

namespace TimedTraf

variable (t : TimedTraf)

def flags : Nat := beNat ((t.tfhd.drop 1).take 3)

def trackId : Nat := beNat ((t.tfhd.drop 4).take 4)

def time : Nat := beNat (t.tfdt.drop 4)

/-- The samples without a duration of their own have the default one, which the `tfhd` has at the
place or the `trex` of the track has. -/
def durationAt (place : Nat) (trex : Nat → Nat) : Nat :=
  let default := if t.flags.testBit 3 then beNat ((t.tfhd.drop place).take 4) else trex t.trackId
  (t.samples.map (fun s => s.duration.getD default)).sum

/-- The base data offset has eight bytes. -/
def duration (trex : Nat → Nat) : Nat :=
  t.durationAt (8+2*field t.flags 0+field t.flags 1) trex

/-- The duration that is read when the flag of the base data offset is cleared, but not its
bytes. -/
def clearedDuration (trex : Nat → Nat) : Nat := t.durationAt (8+field t.flags 1) trex

/-- What the `traf` is longer with a `tfdt` of version 1. -/
def growth : Nat := 12-t.tfdt.length

/-- The `traf` as it is written, with another time. -/
def emitted (time : Nat) : TimedTraf := ⟨fixedTfhd t.tfhd,(tfdtBox time).body,t.samples⟩

variable {t}

theorem field_fixed_zero (h : 8 ≤ t.tfhd.length) :
    field (TimedTraf.flags { t with tfhd := fixedTfhd t.tfhd }) 0 = 0 := by
  have hbit := flags_fixedTfhd h (show 0 < 24 by decide)
  rw [if_pos rfl] at hbit
  unfold field flags
  rw [hbit]
  rfl

theorem testBit_fixed (h : 8 ≤ t.tfhd.length) (i : Nat) (hi : i < 24) (h0 : i ≠ 0) (h17 : i ≠ 17) :
    (TimedTraf.flags { t with tfhd := fixedTfhd t.tfhd }).testBit i = t.flags.testBit i := by
  have hbit := flags_fixedTfhd h hi
  rwa [if_neg h0,if_neg h17] at hbit

theorem field_fixed (h : 8 ≤ t.tfhd.length) (i : Nat) (hi : i < 24) (h0 : i ≠ 0) (h17 : i ≠ 17) :
    field (TimedTraf.flags { t with tfhd := fixedTfhd t.tfhd }) i = field t.flags i := by
  unfold field
  rw [testBit_fixed h i hi h0 h17]

end TimedTraf

section Reader

/-- A well-formed `traf` with a decode time. -/
def readTimedTraf (body : Bytes) : Option TimedTraf := do
  let cs ← readBoxes body
  if cs.any (fun c => isTraf c || isMfhd c) then none
  else
    match cs.filter isTfhd,cs.filter isTfdt with
    | [h],[d] => do
      let runs ← (cs.filter isTrun).mapM (fun c => readTrackRun c.body)
      let t : TimedTraf := ⟨h.body,d.body,runs.flatMap TrackRun.samples⟩
      if 8+2*field t.flags 0+field t.flags 1+field t.flags 3 ≤ h.body.length ∧
        (readTfdt d.body).isSome then some t else none
    | _,_ => none

/-- The `traf` boxes of a well-formed `moof`. -/
def readTimedMoof (content : Bytes) : Option (List TimedTraf) := do
  let bs ← readBoxes content
  if bs.any (fun b => isTfhd b || (isMfhd b && !mfhdOk b)) then none
  else (bs.filter isTraf).mapM (fun b => readTimedTraf b.body)

/-- The `traf` boxes of a media segment. -/
def segmentTrafs (data : Bytes) : Option (List TimedTraf) :=
  match bodiesOf tagMoof data with
  | [moof] => readTimedMoof moof
  | _ => none

end Reader

/-- In every track, a fragment starts when the one before it ends. -/
def Continuous (trex : Nat → Nat) (trafs : List TimedTraf) : Prop :=
  ∀ id, (trafs.filter (fun t => t.trackId == id)).IsChain
    (fun a b => b.time = a.time+a.duration trex)

/-- What `readTimedTraf` finds in the box, with the children it finds it in. -/
structure TimedParsed (body : Bytes) (t : TimedTraf) (cs : List RawBox) (h d : RawBox) : Prop where
  boxes : readBoxes body = some cs
  flat : ∀ c ∈ cs, ¬ isTraf c ∧ ¬ isMfhd c
  tfhd : cs.filter isTfhd = [h]
  tfdt : cs.filter isTfdt = [d]
  tfhdBody : h.body = t.tfhd
  tfdtBody : d.body = t.tfdt
  runs : ∃ runs, (cs.filter isTrun).mapM (fun c => readTrackRun c.body) = some runs ∧
    t.samples = runs.flatMap TrackRun.samples
  long : 8+2*field t.flags 0+field t.flags 1+field t.flags 3 ≤ t.tfhd.length
  version : (readTfdt t.tfdt).isSome

theorem readTimedTraf_eq_some {body : Bytes} {t : TimedTraf} :
    readTimedTraf body = some t ↔ ∃ cs h d, TimedParsed body t cs h d := by
  constructor
  · intro ht
    simp only [readTimedTraf,Option.bind_eq_bind,Option.bind_eq_some_iff] at ht
    obtain ⟨cs,hcs,ht⟩ := ht
    split_ifs at ht with hany
    split at ht
    · next h d htfhd htfdt =>
      simp only [Option.bind_eq_some_iff] at ht
      obtain ⟨runs,hruns,ht⟩ := ht
      split_ifs at ht with hok
      cases ht
      exact ⟨cs,h,d,hcs,not_any_nested_iff.mp hany,htfhd,htfdt,rfl,rfl,⟨runs,hruns,rfl⟩,hok.1,hok.2⟩
    · cases ht
  · intro hyp
    obtain ⟨cs,h,d,hp⟩ := hyp
    obtain ⟨runs,hruns,hsamples⟩ := hp.runs
    have ht : (⟨h.body,d.body,runs.flatMap TrackRun.samples⟩ : TimedTraf) = t := by
      rw [hp.tfhdBody,hp.tfdtBody,← hsamples]
    simp only [readTimedTraf,hp.boxes,Option.bind_eq_bind,Option.bind_some]
    rw [if_neg (not_any_nested_iff.mpr hp.flat),hp.tfhd,hp.tfdt]
    simp only [hruns,Option.bind_some,ht]
    rw [hp.tfhdBody,hp.tfdtBody]
    exact if_pos ⟨hp.long,hp.version⟩

namespace TimedParsed

variable {body : Bytes} {t : TimedTraf} {cs : List RawBox} {h d : RawBox}

theorem exact (hp : TimedParsed body t cs h d) : body = encodeAll cs ∧ ∀ c ∈ cs, c.Fits :=
  readBoxes_exact hp.boxes

/-- With the flags changed. -/
theorem fix (hp : TimedParsed body t cs h d) :
    TimedParsed (encodeAll (cs.map fixLeaf)) { t with tfhd := fixedTfhd t.tfhd } (cs.map fixLeaf)
      (fixLeaf h) d := by
  have hfilter : ∀ kind, kind ≠ tagTfhd → (cs.map fixLeaf).filter (fun c => c.kind == kind) =
      cs.filter (fun c => c.kind == kind) := by
    intro kind hkind
    rw [List.filter_map]
    have hsame : ∀ c ∈ cs.filter ((fun c : RawBox => c.kind == kind) ∘ fixLeaf), fixLeaf c = c := by
      intro c hc
      have hc := (List.mem_filter.mp hc).2
      rw [Function.comp_apply,kind_fixLeaf,beq_iff_eq] at hc
      exact if_neg (by rw [isTfhd,hc,beq_iff_eq]; exact hkind)
    rw [List.map_congr_left hsame,List.map_id']
    apply List.filter_congr
    intro c _
    rw [Function.comp_apply,kind_fixLeaf]
  have htfhd : isTfhd h = true :=
    (List.mem_filter.mp (hp.tfhd ▸ List.mem_singleton_self h : h ∈ cs.filter isTfhd)).2
  have hfixed : fixLeaf h = ⟨h.kind,fixedTfhd h.body⟩ := if_pos htfhd
  have h8 : 8 ≤ t.tfhd.length := by
    have := hp.long
    omega
  constructor
  · exact readBoxes_fixLeaf hp.boxes
  · exact Searchable.flat_map hp.flat
  · rw [List.filter_map]
    have hkinds : cs.filter (isTfhd ∘ fixLeaf) = cs.filter isTfhd := by
      apply List.filter_congr
      intro c _
      rw [Function.comp_apply,isTfhd,kind_fixLeaf]
      rfl
    rw [hkinds,hp.tfhd,List.map_singleton]
  · exact (hfilter tagTfdt (by decide)).trans hp.tfdt
  · rw [hfixed,hp.tfhdBody]
  · exact hp.tfdtBody
  · obtain ⟨runs,hruns,hsamples⟩ := hp.runs
    exact ⟨runs,by rw [← hruns]; exact congrArg _ (hfilter tagTrun (by decide)),hsamples⟩
  · have hlong := hp.long
    rw [TimedTraf.field_fixed_zero h8,TimedTraf.field_fixed h8 1 (by decide) (by decide) (by decide),
      TimedTraf.field_fixed h8 3 (by decide) (by decide) (by decide)]
    dsimp only
    rw [length_fixedTfhd]
    omega
  · exact hp.version

/-- With another time. -/
theorem retime (hp : TimedParsed body t cs h d) (time : Nat) :
    TimedParsed (encodeAll (newChildren time cs)) { t with tfdt := (tfdtBox time).body }
      (newChildren time cs) h (tfdtBox time) := by
  constructor
  · exact readBoxes_encodeAll (TrafParsed.newChildren_fits time hp.exact.2)
  · exact TrafParsed.newChildren_flat time hp.flat
  · rw [TrafParsed.filter_newChildren_tfhd,hp.tfhd]
  · exact TrafParsed.filter_newChildren_tfdt time (by rw [hp.tfdt]; exact le_refl 1)
  · exact hp.tfhdBody
  · rfl
  · rw [TrafParsed.filter_newChildren_trun]
    exact hp.runs
  · exact hp.long
  · simp [readTfdt,tfdtBox]

theorem length_new (hp : TimedParsed body t cs h d) (time : Nat) :
    (encodeAll (newChildren time cs)).length = body.length+t.growth := by
  have hlength := length_newChildren time cs
  have hmem : d ∈ cs.filter isTfdt := by
    rw [hp.tfdt]
    exact List.mem_singleton_self d
  have hfit := hp.exact.2 d (List.mem_filter.mp hmem).1
  have hany : cs.any isTfdt = true :=
    List.any_eq_true.mpr ⟨d,(List.mem_filter.mp hmem).1,(List.mem_filter.mp hmem).2⟩
  rw [hp.tfdt,if_pos hany,encodeAll_cons,encodeAll_nil,List.append_nil,hfit.length_encode,
    RawBox.size,hp.tfdtBody,List.length_singleton] at hlength
  obtain ⟨version,hversion⟩ := Option.isSome_iff_exists.mp hp.version
  rw [hp.exact.1]
  unfold TimedTraf.growth
  rcases readTfdt_length hversion with ⟨_,htwelve⟩ | ⟨_,htwelve⟩ <;> omega

end TimedParsed

/-- What `readTimedMoof` finds in the content, with the boxes it finds it in. -/
structure TimedMoof (content : Bytes) (view : List TimedTraf) (bs : List RawBox) : Prop where
  boxes : readBoxes content = some bs
  noTfhd : ∀ b ∈ bs, ¬ isTfhd b
  mfhd : ∀ b ∈ bs, isMfhd b → mfhdOk b
  trafs : (bs.filter isTraf).mapM (fun b => readTimedTraf b.body) = some view

theorem readTimedMoof_eq_some {content : Bytes} {view : List TimedTraf} :
    readTimedMoof content = some view ↔ ∃ bs, TimedMoof content view bs := by
  constructor
  · intro hv
    simp only [readTimedMoof,Option.bind_eq_bind,Option.bind_eq_some_iff] at hv
    obtain ⟨bs,hbs,hv⟩ := hv
    split_ifs at hv with hany
    obtain ⟨hnoTfhd,hmfhd⟩ := not_any_misplaced_iff.mp hany
    exact ⟨bs,hbs,hnoTfhd,hmfhd,hv⟩
  · intro hyp
    obtain ⟨bs,hp⟩ := hyp
    simp only [readTimedMoof,hp.boxes,Option.bind_eq_bind,Option.bind_some]
    rw [if_neg (not_any_misplaced_iff.mpr ⟨hp.noTfhd,hp.mfhd⟩)]
    exact hp.trafs

/-- A box of a `moof` after both changes. -/
def emittedBox (time : Nat) (b : RawBox) : RawBox := newChild time (fixBox b)

theorem emittedBox_traf {b h d : RawBox} {t : TimedTraf} {cs : List RawBox} (hb : isTraf b)
    (hp : TimedParsed b.body t cs h d) (time : Nat) :
    emittedBox time b = ⟨tagTraf,encodeAll (newChildren time (cs.map fixLeaf))⟩ := by
  have htraf : isTraf ⟨b.kind,encodeAll (cs.map fixLeaf)⟩ := hb
  unfold emittedBox newChild
  rw [fixBox_traf hb hp.boxes,if_pos htraf,readBoxes_fixLeaf hp.boxes]
  rfl

theorem emittedBox_other {b : RawBox} (hb : ¬ isTraf b) (time : Nat) :
    emittedBox time b = fixLeaf b := by
  unfold emittedBox
  rw [newChild_other (by rw [isTraf_fixBox]; exact hb),fixBox_other hb]

theorem isTraf_emittedBox (time : Nat) (b : RawBox) : isTraf (emittedBox time b) = isTraf b := by
  unfold emittedBox
  rw [isTraf_newChild,isTraf_fixBox]

theorem read_emittedBox {b : RawBox} (hb : isTraf b) {t : TimedTraf}
    (ht : readTimedTraf b.body = some t) (time : Nat) :
    readTimedTraf (emittedBox time b).body = some (t.emitted time) := by
  obtain ⟨cs,h,d,hp⟩ := readTimedTraf_eq_some.mp ht
  rw [emittedBox_traf hb hp]
  exact readTimedTraf_eq_some.mpr ⟨_,_,_,hp.fix.retime time⟩

namespace TimedMoof

variable {content : Bytes} {view : List TimedTraf} {bs : List RawBox}

theorem exact (hp : TimedMoof content view bs) : content = encodeAll bs ∧ ∀ b ∈ bs, b.Fits :=
  readBoxes_exact hp.boxes

theorem searchable (hp : TimedMoof content view bs) : ∀ b ∈ bs, Searchable b := by
  intro b hb
  constructor
  · intro hmfhd
    have hok := hp.mfhd b hb hmfhd
    simp only [mfhdOk,Bool.and_eq_true,beq_iff_eq] at hok
    exact hok.2
  · intro htraf
    obtain ⟨t,_,ht⟩ := exists_view hp.trafs hb htraf
    obtain ⟨cs,h,d,htp⟩ := readTimedTraf_eq_some.mp ht
    exact ⟨cs,htp.boxes,htp.flat⟩

theorem kind_emittedBox (hp : TimedMoof content view bs) (time : Nat) :
    ∀ b ∈ bs, (emittedBox time b).kind = b.kind := by
  intro b hb
  by_cases htraf : isTraf b
  · obtain ⟨t,_,ht⟩ := exists_view hp.trafs hb htraf
    obtain ⟨cs,h,d,htp⟩ := readTimedTraf_eq_some.mp ht
    rw [emittedBox_traf htraf htp]
    have hkind : b.kind = tagTraf := by simpa [isTraf] using htraf
    exact hkind.symm
  · rw [emittedBox_other htraf,kind_fixLeaf]

theorem length_new (hp : TimedMoof content view bs) (time : Nat) :
    (encodeAll (bs.map (emittedBox time))).length =
      content.length+(view.map TimedTraf.growth).sum := by
  rw [hp.exact.1]
  apply length_traf_map _ _ hp.trafs
  · intro b hb htraf
    have hfits := hp.exact.2 b hb
    rw [emittedBox_other htraf,(fixLeaf_fits hfits).length_encode,hfits.length_encode,size_fixLeaf]
  · intro b hb htraf t ht
    obtain ⟨cs,h,d,htp⟩ := readTimedTraf_eq_some.mp ht
    have hfits := hp.exact.2 b hb
    have hnew := htp.fix.length_new time
    have hsame := length_encodeAll_fixLeaf htp.exact.2
    have hgrowth : TimedTraf.growth { t with tfhd := fixedTfhd t.tfhd } = t.growth := rfl
    rw [← htp.exact.1] at hsame
    rw [emittedBox_traf htraf htp,hfits.length_encode]
    simp only [encode,List.length_append,length_toBe,RawBox.size,tagTraf,List.length_cons,
      List.length_nil]
    omega

theorem new_fits (hp : TimedMoof content view bs) {time : Nat}
    (hsize : 8+(content.length+(view.map TimedTraf.growth).sum) < 2^32) :
    ∀ b ∈ bs.map (emittedBox time), b.Fits := by
  intro c hc
  obtain ⟨b,hb,rfl⟩ := List.mem_map.mp hc
  apply fits_of_mem hc
  · rw [hp.kind_emittedBox time b hb]
    exact (hp.exact.2 b hb).kind
  · rw [hp.length_new]
    omega

/-- The two rewriters together. -/
theorem rewritten {moof : Mp4Box} (hp : TimedMoof moof.content view bs)
    (hsize : 8+(moof.content.length+(view.map TimedTraf.growth).sum) < 2^32) (time : Nat) :
    ∃ fixed, fixMoofTfhdFlags moof = .ok fixed ∧ ensureMoofHasTfdt fixed time =
      .ok (RawBox.mk tagMoof (encodeAll (bs.map (emittedBox time)))).encode := by
  have hlength : (encodeAll (bs.map fixBox)).length = moof.content.length := by
    rw [← fixTfhdFlagsFrom_map _ (le_refl _) hp.exact.2 hp.searchable,length_fixTfhdFlagsFrom,
      ← hp.exact.1]
  refine ⟨(RawBox.mk tagMoof (encodeAll (bs.map fixBox))).encode,?_,?_⟩
  · unfold fixMoofTfhdFlags fixTfhdFlagsRecursive
    rw [hp.exact.1,fixTfhdFlagsFrom_map _ (le_refl _) hp.exact.2 hp.searchable]
    exact wrapBox_ok tagMoof (by omega)
  · have hmap : (bs.map fixBox).map (newChild time) = bs.map (emittedBox time) := by
      rw [List.map_map]
      rfl
    rw [← hmap]
    apply ensureMoofHasTfdt_encode time
    · intro c hc
      obtain ⟨b,hb,rfl⟩ := List.mem_map.mp hc
      exact (hp.searchable b hb).fits (hp.exact.2 b hb)
    · intro c hc htraf
      obtain ⟨b,hb,rfl⟩ := List.mem_map.mp hc
      rw [isTraf_fixBox] at htraf
      obtain ⟨t,_,ht⟩ := exists_view hp.trafs hb htraf
      obtain ⟨cs,h,d,htp⟩ := readTimedTraf_eq_some.mp ht
      have hnew := (hp.new_fits hsize (emittedBox time b) (List.mem_map_of_mem hb)).size
      rw [emittedBox_traf htraf htp,RawBox.size] at hnew
      rw [fixBox_traf htraf htp.boxes]
      exact ⟨_,_,htp.fix.boxes,htp.fix.tfhd,hnew⟩
    · omega
    · rw [hmap,hp.length_new]
      exact hsize

theorem read_new (hp : TimedMoof content view bs) {time : Nat}
    (hsize : 8+(content.length+(view.map TimedTraf.growth).sum) < 2^32) :
    readTimedMoof (encodeAll (bs.map (emittedBox time))) =
      some (view.map (fun t => t.emitted time)) := by
  apply readTimedMoof_eq_some.mpr
  refine ⟨bs.map (emittedBox time),readBoxes_encodeAll (hp.new_fits hsize),?_,?_,?_⟩
  · intro c hc
    obtain ⟨b,hb,rfl⟩ := List.mem_map.mp hc
    unfold isTfhd
    rw [hp.kind_emittedBox time b hb]
    exact hp.noTfhd b hb
  · intro c hc hmfhd
    obtain ⟨b,hb,rfl⟩ := List.mem_map.mp hc
    unfold isMfhd at hmfhd
    rw [hp.kind_emittedBox time b hb] at hmfhd
    have hkind : b.kind = tagMfhd := by simpa using hmfhd
    have hsame : emittedBox time b = b := by
      rw [emittedBox_other (by simp [isTraf,hkind,tagMfhd,tagTraf])]
      exact if_neg (by simp [isTfhd,hkind,tagMfhd,tagTfhd])
    rw [hsame]
    exact hp.mfhd b hb hmfhd
  · apply mapM_traf_map (isTraf_emittedBox time) _ hp.trafs
    intro b _ hb t ht
    exact read_emittedBox hb ht time

end TimedMoof

/-- In a segment of a `moof` and an `mdat`, which is not written if it is too large, there is one
`moof`. -/
theorem segmentTrafs_encode {moof : Bytes} {mdat : Mp4Box} (hmoof : 8+moof.length < 2^32)
    (hmdat : mdat.header.boxType = tagMdat) :
    segmentTrafs ((RawBox.mk tagMoof moof).encode++serializeBox mdat) = readTimedMoof moof := by
  have hfits : (RawBox.mk tagMoof moof).Fits := ⟨rfl,hmoof⟩
  have hone : bodiesOf tagMoof ((RawBox.mk tagMoof moof).encode++serializeBox mdat) = [moof] := by
    rw [serializeBox_mdat hmdat]
    by_cases hsize : 8+mdat.content.length ≤ maxBoxSize
    · have hpayload : (RawBox.mk tagMdat mdat.content).Fits :=
        ⟨rfl,lt_of_le_of_lt hsize (by decide)⟩
      have hboth : ∀ b ∈ [RawBox.mk tagMoof moof,RawBox.mk tagMdat mdat.content], b.Fits := by
        intro b hb
        rcases List.mem_pair.mp hb with rfl | rfl
        · exact hfits
        · exact hpayload
      have hbodies := bodiesOf_encodeAll tagMoof hboth
      rw [encodeAll_cons,encodeAll_cons,encodeAll_nil,List.append_nil] at hbodies
      rw [if_pos hsize,hbodies]
      rfl
    · have hbodies := @bodiesOf_encodeAll tagMoof [RawBox.mk tagMoof moof] (by simpa using hfits)
      rw [encodeAll_cons,encodeAll_nil] at hbodies
      rw [if_neg hsize,hbodies]
      rfl
  unfold segmentTrafs
  rw [hone]

theorem fragmentPairs_mem {bs : List Mp4Box} {pair : Mp4Box × Mp4Box}
    (h : pair ∈ fragmentPairs bs) : pair.1 ∈ bs ∧ Mp4Parser.isPair pair.1 pair.2 := by
  fun_induction fragmentPairs bs with
  | case1 a b rest hab ih =>
    rcases List.mem_cons.mp h with rfl | h
    · exact ⟨List.mem_cons_self,hab⟩
    · obtain ⟨hmem,hpair⟩ := ih h
      exact ⟨List.mem_cons_of_mem _ (List.mem_cons_of_mem _ hmem),hpair⟩
  | case2 a b rest hab ih =>
    obtain ⟨hmem,hpair⟩ := ih h
    exact ⟨List.mem_cons_of_mem _ hmem,hpair⟩
  | case3 => cases h

namespace Mp4Parser

/-- The `traf` boxes of a fragment, where they can be read. -/
def trafsOf (moof : Mp4Box) : List TimedTraf := (readTimedMoof moof.content).getD []

/-- The `traf` boxes of the file. -/
def sourceTrafs (p : Mp4Parser) : Option (List TimedTraf) :=
  ((p.boxes.filter (fun b => b.header.boxType == tagMoof)).mapM
    (fun moof => readTimedMoof moof.content)).map List.flatten

/-- The `traf` boxes of the media segments. -/
def emittedTrafs (segments : List MseSegment) : Option (List TimedTraf) :=
  ((segments.filter (fun seg => seg.segmentType == .media)).mapM
    (fun seg => segmentTrafs seg.data)).map List.flatten

/-- The segments can be read, and their timeline is continuous. -/
def TimelineKept (trex : Nat → Nat) (segments : List MseSegment) : Prop :=
  ∃ trafs, emittedTrafs segments = some trafs ∧ Continuous trex trafs

/-- The `traf` boxes of the fragments with an `mdat`, with the number of their fragment. -/
def indexedTrafs (p : Mp4Parser) : List (Nat × TimedTraf) :=
  ((fragmentPairs p.boxes).mapIdx (fun i pair => (i,pair))).flatMap
    (fun e => (trafsOf e.2.1).map (fun t => (e.1,t)))

/-- A `moof` is less than 4 GiB also with the new decode times. -/
def SmallFragments (p : Mp4Parser) : Prop :=
  ∀ pair ∈ fragmentPairs p.boxes,
    8+(pair.1.content.length+((trafsOf pair.1).map TimedTraf.growth).sum) < 2^32

/-- The samples of a fragment last for the frame durations up to the next fragment of its track. -/
def EvenlySpaced (p : Mp4Parser) (trex : Nat → Nat) : Prop :=
  ∀ id, (p.indexedTrafs.filter (fun e => e.2.trackId == id)).IsChain
    (fun a b => b.1*p.frameDuration = a.1*p.frameDuration+a.2.clearedDuration trex)

variable {p : Mp4Parser} {trex : Nat → Nat} {source : List TimedTraf} {segments : List MseSegment}

/-- Every fragment with an `mdat` can be read. -/
theorem read_trafsOf (hsource : p.sourceTrafs = some source) :
    ∀ pair ∈ fragmentPairs p.boxes, readTimedMoof pair.1.content = some (trafsOf pair.1) := by
  intro pair hpair
  obtain ⟨hmem,hkinds⟩ := fragmentPairs_mem hpair
  unfold isPair at hkinds
  rw [Bool.and_eq_true] at hkinds
  obtain ⟨views,hviews,_⟩ := Option.map_eq_some_iff.mp hsource
  obtain ⟨view,_,hview⟩ :=
    forall₂_mem_left (mapM_eq_some_iff.mp hviews) (List.mem_filter.mpr ⟨hmem,hkinds.1⟩)
  unfold trafsOf
  rw [hview]
  rfl

/-- The `traf` boxes of one media segment. -/
theorem segmentTrafs_mediaSegment {index : Nat} {moof mdat : Mp4Box} {seg : MseSegment}
    (hview : readTimedMoof moof.content = some (trafsOf moof))
    (hsmall : 8+(moof.content.length+((trafsOf moof).map TimedTraf.growth).sum) < 2^32)
    (hmdat : mdat.header.boxType = tagMdat) (h : p.mediaSegment index moof mdat = .ok seg) :
    index*p.frameDuration < 2^64 ∧ segmentTrafs seg.data =
      some ((trafsOf moof).map (fun t => t.emitted (index*p.frameDuration))) := by
  obtain ⟨bs,hp⟩ := readTimedMoof_eq_some.mp hview
  obtain ⟨fixed,hfixed,hensured⟩ := hp.rewritten hsmall (index*p.frameDuration)
  have hdata := mediaSegment_data h
  simp only [mediaData,hfixed,bind,Except.bind,checkedU64] at hdata
  by_cases htime : index*p.frameDuration < 2^64
  · rw [if_pos htime] at hdata
    dsimp only at hdata
    rw [hensured] at hdata
    have hnew : 8+(encodeAll (bs.map (emittedBox (index*p.frameDuration)))).length < 2^32 := by
      rw [hp.length_new]
      exact hsmall
    rw [← Except.ok.inj hdata,segmentTrafs_encode hnew hmdat,hp.read_new hsmall]
    exact ⟨htime,rfl⟩
  · rw [if_neg htime] at hdata
    cases hdata

/-- What the media segments hold. -/
theorem emittedTrafs_eq (hsource : p.sourceTrafs = some source) (hsmall : p.SmallFragments)
    (h : p.extractFragmentedSegments = .ok segments) :
    (∀ e ∈ p.indexedTrafs, e.1*p.frameDuration < 2^64) ∧ emittedTrafs segments =
      some (p.indexedTrafs.map (fun e => e.2.emitted (e.1*p.frameDuration))) := by
  obtain ⟨first,media,hfirst,hmedia,rfl⟩ := extractFragmentedSegments_ok h
  have hmediaOnly := filter_media hfirst hmedia
  rw [mediaSegments_eq,mapM_eq_ok_iff] at hmedia
  simp only [Nat.zero_add] at hmedia
  have hpairs : ∀ e ∈ (fragmentPairs p.boxes).mapIdx (fun i pair => (i,pair)),
      e.2 ∈ fragmentPairs p.boxes := by
    intro e he
    obtain ⟨i,hi,rfl⟩ := List.mem_mapIdx.mp he
    exact List.getElem_mem hi
  have hread : List.Forall₂ (fun (e : Nat × Mp4Box × Mp4Box) seg =>
      e.1*p.frameDuration < 2^64 ∧ segmentTrafs seg.data =
        some ((trafsOf e.2.1).map (fun t => t.emitted (e.1*p.frameDuration))))
      ((fragmentPairs p.boxes).mapIdx (fun i pair => (i,pair))) media := by
    apply ((List.forall₂_and_left _ _).mpr ⟨hpairs,hmedia⟩).imp
    rintro ⟨i,moof,mdat⟩ seg hseg
    obtain ⟨hpair,hseg⟩ := hseg
    have hkinds := (fragmentPairs_mem hpair).2
    simp only [isPair,Bool.and_eq_true,beq_iff_eq] at hkinds
    exact segmentTrafs_mediaSegment (read_trafsOf hsource _ hpair) (hsmall _ hpair) hkinds.2 hseg
  constructor
  · intro e he
    obtain ⟨x,hx,he⟩ := List.mem_flatMap.mp he
    obtain ⟨t,_,rfl⟩ := List.mem_map.mp he
    obtain ⟨_,_,htime,_⟩ := forall₂_mem_left hread hx
    exact htime
  · have hmap : media.mapM (fun seg => segmentTrafs seg.data) =
        some (((fragmentPairs p.boxes).mapIdx (fun i pair => (i,pair))).map (fun e =>
          (trafsOf e.2.1).map (fun t => t.emitted (e.1*p.frameDuration)))) := by
      rw [mapM_eq_some_iff,List.forall₂_map_right_iff]
      exact hread.flip.imp (fun _ _ hseg => hseg.2)
    unfold emittedTrafs indexedTrafs
    rw [hmediaOnly,hmap,List.map_flatMap,Option.map_some]
    simp only [List.map_map,List.flatMap_def]
    rfl

theorem duration_emitted {t : TimedTraf} (h : 8 ≤ t.tfhd.length) (time : Nat) :
    (t.emitted time).duration trex = t.clearedDuration trex := by
  have hflags : (t.emitted time).flags = TimedTraf.flags { t with tfhd := fixedTfhd t.tfhd } := rfl
  have htrack : (t.emitted time).trackId = t.trackId := by
    unfold TimedTraf.trackId TimedTraf.emitted
    rw [drop_fixedTfhd (le_refl 4)]
  unfold TimedTraf.duration TimedTraf.clearedDuration TimedTraf.durationAt
  rw [htrack,hflags,TimedTraf.field_fixed_zero h,
    TimedTraf.field_fixed h 1 (by decide) (by decide) (by decide),
    TimedTraf.testBit_fixed h 3 (by decide) (by decide) (by decide)]
  unfold TimedTraf.emitted
  dsimp only
  rw [Nat.mul_zero,Nat.add_zero,drop_fixedTfhd (by omega)]

theorem time_emitted (t : TimedTraf) {time : Nat} (h : time < 2^64) :
    (t.emitted time).time = time := by
  have hdrop : ((tfdtBox time).body.drop 4) = toBe 8 time := rfl
  unfold TimedTraf.time TimedTraf.emitted
  rw [hdrop,beNat_toBe]
  exact Nat.mod_eq_of_lt (lt_of_lt_of_eq h (by decide))

theorem long_indexedTrafs : ∀ e ∈ p.indexedTrafs, 8 ≤ e.2.tfhd.length := by
  intro e he
  obtain ⟨x,_,he⟩ := List.mem_flatMap.mp he
  obtain ⟨t,ht,rfl⟩ := List.mem_map.mp he
  unfold trafsOf at ht
  cases hview : readTimedMoof x.2.1.content with
  | none =>
    rw [hview] at ht
    cases ht
  | some view =>
    rw [hview] at ht
    obtain ⟨bs,hp⟩ := readTimedMoof_eq_some.mp hview
    obtain ⟨b,_,hb⟩ := forall₂_mem_right (mapM_eq_some_iff.mp hp.trafs) ht
    obtain ⟨cs,h,d,htp⟩ := readTimedTraf_eq_some.mp hb
    have hlong := htp.long
    dsimp only
    omega

/-- The new decode times make a timeline exactly if the fragments are evenly spaced. -/
theorem continuous_emitted_iff (htimes : ∀ e ∈ p.indexedTrafs, e.1*p.frameDuration < 2^64) :
    Continuous trex (p.indexedTrafs.map (fun e => e.2.emitted (e.1*p.frameDuration))) ↔
      p.EvenlySpaced trex := by
  have htrack : ∀ e : Nat × TimedTraf, (e.2.emitted (e.1*p.frameDuration)).trackId = e.2.trackId := by
    intro e
    unfold TimedTraf.trackId TimedTraf.emitted
    rw [drop_fixedTfhd (le_refl 4)]
  apply forall_congr'
  intro id
  rw [List.filter_map]
  have hfilter : p.indexedTrafs.filter ((fun t : TimedTraf => t.trackId == id) ∘
      fun e : Nat × TimedTraf => e.2.emitted (e.1*p.frameDuration)) =
      p.indexedTrafs.filter (fun e => e.2.trackId == id) := by
    apply List.filter_congr
    intro e _
    rw [Function.comp_apply,htrack]
  have hall : List.Forall₂ (fun (t : TimedTraf) (e : Nat × TimedTraf) =>
      t.time = e.1*p.frameDuration ∧ t.duration trex = e.2.clearedDuration trex)
      ((p.indexedTrafs.filter (fun e => e.2.trackId == id)).map
        (fun e => e.2.emitted (e.1*p.frameDuration)))
      (p.indexedTrafs.filter (fun e => e.2.trackId == id)) := by
    rw [List.forall₂_map_left_iff,List.forall₂_same]
    intro e he
    have hmem := (List.mem_filter.mp he).1
    exact ⟨time_emitted e.2 (htimes e hmem),duration_emitted (long_indexedTrafs e hmem) _⟩
  rw [hfilter]
  apply isChain_congr _ hall
  intro t u a b ht hu
  rw [ht.1,ht.2,hu.1]

/-- Whatever the decode times of a file are, those of its segments make a timeline if its fragments
are evenly spaced and small, and small fragments have to be evenly spaced for this. -/
theorem timeline_kept_iff (p : Mp4Parser) (trex : Nat → Nat) (source : List TimedTraf)
    (segments : List MseSegment) (hsource : p.sourceTrafs = some source)
    (h : p.extractFragmentedSegments = .ok segments) :
    (p.SmallFragments ∧ p.EvenlySpaced trex → TimelineKept trex segments) ∧
      (p.SmallFragments → TimelineKept trex segments → p.EvenlySpaced trex) := by
  have hiff : p.SmallFragments → (TimelineKept trex segments ↔ p.EvenlySpaced trex) := by
    intro hsmall
    obtain ⟨htimes,hemitted⟩ := emittedTrafs_eq hsource hsmall h
    rw [← continuous_emitted_iff htimes]
    constructor
    · intro hkept
      obtain ⟨trafs,htrafs,hcontinuous⟩ := hkept
      rwa [Option.some.inj (htrafs.symm.trans hemitted)] at hcontinuous
    · exact fun hcontinuous => ⟨_,hemitted,hcontinuous⟩
  constructor
  · intro hcond
    exact (hiff hcond.1).mpr hcond.2
  · intro hsmall
    exact (hiff hsmall).mp

end Mp4Parser

section TimedFiles

open ParserState RegularMp4

/-- A fragment of one sample. -/
def timedMoof (trackId time duration : Nat) : RawBox :=
  ⟨tagMoof,encodeAll [⟨tagMfhd,[0,0,0,0,0,0,0,1]⟩,
    ⟨tagTraf,encodeAll [⟨tagTfhd,[0,2,0,0]++toBe 4 trackId⟩,tfdtBox time,
      ⟨tagTrun,[0,0,3,1]++[1,104,duration,4].flatMap (toBe 4)⟩]⟩]⟩

def timedTrak (trackId duration : Nat) (handler format : Bytes) : RawBox :=
  ⟨tagTrak,encodeAll [⟨tagTkhd,numbers [0,0,trackId]⟩,
    ⟨tagMdia,encodeAll [⟨tagMdhd,numbers [0,0,1000,duration]⟩,⟨tagHdlr,numbers [0]++handler⟩,
      ⟨tagMinf,encodeAll [⟨tagStbl,encodeAll [⟨tagStsd,numbers [1,8]++format⟩]⟩]⟩]⟩]⟩

/-- A video track of the duration 200, and an audio track. -/
def timedMoov : RawBox :=
  ⟨tagMoov,encodeAll [timedTrak 1 200 tagVide [0x61,0x76,0x63,0x31],
    timedTrak 2 100 [0x73,0x6f,0x75,0x6e] [0x6d,0x70,0x34,0x61]]⟩

/-- A file with fragments of which the track, the decode time and the duration are given. -/
def timedFile (fragments : List (Nat × Nat × Nat)) : Bytes :=
  encodeAll ([avFtyp,timedMoov]++
    fragments.flatMap (fun f => [timedMoof f.1 f.2.1 f.2.2,Mp4Parser.sampleMdat]))

/-- The parser after it has read the file. -/
def timedParser (fragments : List (Nat × Nat × Nat)) : Mp4Parser where
  boxes := ⟨⟨tagFtyp,16,8⟩,avFtyp.body⟩::⟨⟨tagMoov,264,24⟩,timedMoov.body⟩::
    (fragments.mapIdx (fun i f =>
      [⟨⟨tagMoof,96,288+108*i⟩,(timedMoof f.1 f.2.1 f.2.2).body⟩,
        ⟨⟨tagMdat,12,384+108*i⟩,[1,2,3,4]⟩])).flatten
  tracks := [⟨"vide",1000,200,"H.264"⟩,⟨"soun",1000,100,"AAC"⟩]

/-- A track that is in none of the fragments is no matter. -/
theorem chain_of_tracks {α : Type} {track : α → Nat} {R : α → α → Prop} {l : List α}
    (h : ∀ id ∈ l.map track, (l.filter (fun a => track a == id)).IsChain R) (id : Nat) :
    (l.filter (fun a => track a == id)).IsChain R := by
  by_cases hid : id ∈ l.map track
  · exact h id hid
  · have hnone : l.filter (fun a => track a == id) = [] := by
      apply List.filter_eq_nil_iff.mpr
      intro a ha hyes
      exact hid (List.mem_map.mpr ⟨a,ha,by simpa using hyes⟩)
    rw [hnone]
    exact .nil

/-- Two video fragments of the same duration. -/
theorem timeline_kept_even :
    (new.parse (timedFile [(1,0,100),(1,100,100)])).map (fun s => (s.isFragmented,s.fragmented)) =
      .ok (true,timedParser [(1,0,100),(1,100,100)]) ∧
    ∃ segments, (timedParser [(1,0,100),(1,100,100)]).extractFragmentedSegments =
      .ok segments ∧ Mp4Parser.TimelineKept (fun _ => 0) segments := by
  obtain ⟨segments,h⟩ :=
    @exists_ok _ (timedParser [(1,0,100),(1,100,100)]).extractFragmentedSegments (by decide +kernel)
  have hsource : ∃ source,
      (timedParser [(1,0,100),(1,100,100)]).sourceTrafs = some source :=
    Option.isSome_iff_exists.mp (by decide +kernel)
  obtain ⟨source,hsource⟩ := hsource
  refine ⟨by decide +kernel,segments,h,
    (Mp4Parser.timeline_kept_iff _ _ source segments hsource h).1 ⟨?_,?_⟩⟩
  · unfold Mp4Parser.SmallFragments
    decide +kernel
  · apply chain_of_tracks
    decide +kernel

/-- Two video fragments of the duration 100 around two audio fragments of the duration 50. -/
def interleaved : List (Nat × Nat × Nat) := [(1,0,100),(2,0,50),(2,50,50),(1,100,100)]

/-- The second video fragment comes after 150 instead of 100. -/
theorem interleaved_timeline_broken :
    (new.parse (timedFile interleaved)).map (fun s => (s.isFragmented,s.fragmented)) =
      .ok (true,timedParser interleaved) ∧
    (∃ source, (timedParser interleaved).sourceTrafs = some source ∧
      source.map (fun t => (t.trackId,t.time)) = [(1,0),(2,0),(2,50),(1,100)] ∧
      Continuous (fun _ => 0) source) ∧
    ∃ segments, (timedParser interleaved).extractFragmentedSegments = .ok segments ∧
      (∃ trafs, Mp4Parser.emittedTrafs segments = some trafs ∧
        trafs.map (fun t => (t.trackId,t.time)) = [(1,0),(2,50),(2,100),(1,150)]) ∧
      ¬ Mp4Parser.TimelineKept (fun _ => 0) segments := by
  refine ⟨by decide +kernel,?_,?_⟩
  · have hread : (timedParser interleaved).sourceTrafs.map (fun source =>
        (source.map (fun t => (t.trackId,t.time)),
          (source.map TimedTraf.trackId).all (fun id =>
            decide ((source.filter (fun t => t.trackId == id)).IsChain
              (fun a b => b.time = a.time+a.duration (fun _ => 0)))))) =
        some ([(1,0),(2,0),(2,50),(1,100)],true) := by decide +kernel
    obtain ⟨source,hsource,hpair⟩ := Option.map_eq_some_iff.mp hread
    obtain ⟨htimes,hchains⟩ := Prod.mk.inj hpair
    refine ⟨source,hsource,htimes,?_⟩
    apply chain_of_tracks
    intro id hid
    exact of_decide_eq_true (List.all_eq_true.mp hchains id hid)
  · have hsegments : (timedParser interleaved).extractFragmentedSegments.toOption.map
        (fun segments => (Mp4Parser.emittedTrafs segments).map (fun trafs =>
          (trafs.map (fun t => (t.trackId,t.time)),
            decide ((trafs.filter (fun t => t.trackId == 1)).IsChain
              (fun a b => b.time = a.time+a.duration (fun _ => 0)))))) =
        some (some ([(1,0),(2,50),(2,100),(1,150)],false)) := by decide +kernel
    obtain ⟨segments,h,hread⟩ := exists_ok_map hsegments
    obtain ⟨trafs,htrafs,hpair⟩ := Option.map_eq_some_iff.mp hread
    obtain ⟨htimes,hvideo⟩ := Prod.mk.inj hpair
    refine ⟨segments,h,⟨trafs,htrafs,htimes⟩,?_⟩
    intro hkept
    obtain ⟨trafs',htrafs',hcontinuous⟩ := hkept
    rw [htrafs] at htrafs'
    cases htrafs'
    exact of_decide_eq_false hvideo (hcontinuous 1)

end TimedFiles

end OpenBroadcast.Media
