import OpenBroadcast.Framework.ListRelations
import OpenBroadcast.Media.FragmentRewrite

namespace OpenBroadcast.Media

open RawBox

/-- The length of an optional field of four bytes. -/
def field (flags i : Nat) : Nat := if flags.testBit i then 4 else 0

structure TfhdView where
  flags : Nat
  trackId : Nat
  defaultSampleSize : Option Nat
  deriving DecidableEq, Repr

structure TrunView where
  dataOffset : Option Int
  sampleSizes : List (Option Nat)
  deriving DecidableEq, Repr

/-- What a reader of the format needs of a `traf`; `tfdt` is the version of that box. -/
structure TrafView where
  tfhd : TfhdView
  tfdt : Option Nat
  truns : List TrunView
  deriving DecidableEq, Repr

def readTfhd (body : Bytes) : Option TfhdView :=
  let flags := beNat ((body.drop 1).take 3)
  -- The base data offset has eight bytes.
  let before := 8+2*field flags 0+field flags 1+field flags 3
  if body.length = before+field flags 4+field flags 5 then
    some
      { flags := flags
        trackId := beNat ((body.drop 4).take 4)
        defaultSampleSize :=
          if flags.testBit 4 then some (beNat ((body.drop before).take 4)) else none }
  else none

def readTfdt (body : Bytes) : Option Nat :=
  if body.head? = some 0 ∧ body.length = 8 then some 0
  else if body.head? = some 1 ∧ body.length = 12 then some 1
  else none

def signed32 (n : Nat) : Int := if n < 2^31 then n else (n : Int)-2^32

def readTrun (body : Bytes) : Option TrunView :=
  let flags := beNat ((body.drop 1).take 3)
  let count := beNat ((body.drop 4).take 4)
  let before := 8+field flags 0+field flags 2
  let sample := field flags 8+field flags 9+field flags 10+field flags 11
  if body.length = before+count*sample then
    some
      { dataOffset :=
          if flags.testBit 0 then some (signed32 (beNat ((body.drop 8).take 4))) else none
        sampleSizes := (List.range count).map (fun i =>
          if flags.testBit 9 then
            some (beNat ((body.drop (before+i*sample+field flags 8)).take 4))
          else none) }
  else none

def isTrun (b : RawBox) : Bool := b.kind == tagTrun
def isMfhd (b : RawBox) : Bool := b.kind == tagMfhd

/-- At most one `tfdt`. -/
def readTfdts : List RawBox → Option (Option Nat)
  | [] => some none
  | [t] => (readTfdt t.body).map some
  | _ => none

/-- A well-formed `traf` has one `tfhd`, at most one `tfdt` and no box that belongs into
a `moof`. -/
def readTraf (body : Bytes) : Option TrafView := do
  let cs ← readBoxes body
  if cs.any (fun c => isTraf c || isMfhd c) then none
  else
    match cs.filter isTfhd with
    | [h] => do
      let tfhd ← readTfhd h.body
      let tfdt ← readTfdts (cs.filter isTfdt)
      let truns ← (cs.filter isTrun).mapM (fun c => readTrun c.body)
      return ⟨tfhd,tfdt,truns⟩
    | _ => none

/-- An `mfhd` has the version 0 and no flags. -/
def mfhdOk (b : RawBox) : Bool := b.body.length == 8 && b.body.take 4 == [0,0,0,0]

/-- The contents of a well-formed `moof`. -/
def readMoof (content : Bytes) : Option (List TrafView) := do
  let bs ← readBoxes content
  if bs.any (fun b => isTfhd b || (isMfhd b && !mfhdOk b)) then none
  else (bs.filter isTraf).mapM (fun b => readTraf b.body)

/-- What `readTraf` finds in the box, with the children it finds it in. -/
structure TrafParsed (body : Bytes) (v : TrafView) (cs : List RawBox) (h : RawBox) : Prop where
  boxes : readBoxes body = some cs
  flat : ∀ c ∈ cs, ¬ isTraf c ∧ ¬ isMfhd c
  one : cs.filter isTfhd = [h]
  tfhd : readTfhd h.body = some v.tfhd
  tfdt : readTfdts (cs.filter isTfdt) = some v.tfdt
  truns : (cs.filter isTrun).mapM (fun c => readTrun c.body) = some v.truns

theorem not_any_nested_iff {cs : List RawBox} :
    ¬ cs.any (fun c => isTraf c || isMfhd c) = true ↔ ∀ c ∈ cs, ¬ isTraf c ∧ ¬ isMfhd c := by
  rw [List.any_eq_true]
  push Not
  simp

theorem not_any_misplaced_iff {bs : List RawBox} :
    ¬ bs.any (fun b => isTfhd b || (isMfhd b && !mfhdOk b)) = true ↔
      (∀ b ∈ bs, ¬ isTfhd b) ∧ ∀ b ∈ bs, isMfhd b → mfhdOk b := by
  rw [List.any_eq_true,← forall₂_and]
  push Not
  simp

theorem readTraf_eq_some {body : Bytes} {v : TrafView} :
    readTraf body = some v ↔ ∃ cs h, TrafParsed body v cs h := by
  constructor
  · intro hv
    simp only [readTraf,Option.bind_eq_bind,Option.bind_eq_some_iff] at hv
    obtain ⟨cs,hcs,hv⟩ := hv
    split_ifs at hv with hany
    split at hv
    · next h hone =>
      simp only [Option.bind_eq_some_iff] at hv
      obtain ⟨tfhd,htfhd,tfdt,htfdt,truns,htruns,hv⟩ := hv
      cases hv
      exact ⟨cs,h,hcs,not_any_nested_iff.mp hany,hone,htfhd,htfdt,htruns⟩
    · cases hv
  · intro hyp
    obtain ⟨cs,h,hp⟩ := hyp
    simp only [readTraf,hp.boxes,Option.bind_eq_bind,Option.bind_some]
    rw [if_neg (not_any_nested_iff.mpr hp.flat)]
    simp [hp.one,hp.tfhd,hp.tfdt,hp.truns]

/-- By how much the rewrite makes a `traf` longer. -/
def TrafView.growth (v : TrafView) : Nat :=
  match v.tfdt with
  | none => 20
  | some 0 => 4
  | some _ => 0

theorem readTfdt_length {body : Bytes} {version : Nat} (h : readTfdt body = some version) :
    (version = 0 ∧ body.length = 8) ∨ (version = 1 ∧ body.length = 12) := by
  unfold readTfdt at h
  split_ifs at h with h0 h1
  · cases h
    exact Or.inl ⟨rfl,h0.2⟩
  · cases h
    exact Or.inr ⟨rfl,h1.2⟩

namespace TrafParsed

variable {body : Bytes} {v : TrafView} {cs : List RawBox} {h : RawBox}

theorem exact (hp : TrafParsed body v cs h) : body = encodeAll cs ∧ ∀ c ∈ cs, c.Fits :=
  readBoxes_exact hp.boxes

theorem length_new (hp : TrafParsed body v cs h) (time : Nat) :
    (encodeAll (newChildren time cs)).length = body.length+v.growth := by
  have hlen := length_newChildren time cs
  have htfdt := hp.tfdt
  rw [hp.exact.1]
  cases hfilter : cs.filter isTfdt with
  | nil =>
    have hany : ¬ (cs.any isTfdt = true) := by
      simpa [List.filter_eq_nil_iff] using hfilter
    rw [hfilter] at htfdt hlen
    have hgrowth : v.growth = 20 := by
      rw [readTfdts] at htfdt
      rw [TrafView.growth,← Option.some.inj htfdt]
    rw [if_neg hany,encodeAll_nil,List.length_nil,List.length_nil] at hlen
    omega
  | cons t ts =>
    have ht : t ∈ cs.filter isTfdt := by
      rw [hfilter]
      simp
    have hmem : t ∈ cs := (List.mem_filter.mp ht).1
    have hany : cs.any isTfdt = true := List.any_eq_true.mpr ⟨t,hmem,(List.mem_filter.mp ht).2⟩
    rw [hfilter] at htfdt hlen
    cases ts with
    | cons => cases htfdt
    | nil =>
      obtain ⟨version,hversion,heq⟩ := Option.map_eq_some_iff.mp htfdt
      have hsize := (hp.exact.2 t hmem).length_encode
      rw [if_pos hany,encodeAll_cons,encodeAll_nil,List.append_nil,hsize,List.length_singleton,
        RawBox.size] at hlen
      rcases readTfdt_length hversion with ⟨rfl,hbody⟩ | ⟨rfl,hbody⟩
      · have hgrowth : v.growth = 4 := by simp [TrafView.growth,← heq]
        omega
      · have hgrowth : v.growth = 0 := by simp [TrafView.growth,← heq]
        omega

theorem growth_le (v : TrafView) : v.growth ≤ 20 := by
  unfold TrafView.growth
  split <;> omega

theorem readTfhd_length {b : Bytes} {t : TfhdView} (ht : readTfhd b = some t) :
    8 ≤ b.length ∧ t.flags = beNat ((b.drop 1).take 3) := by
  simp only [readTfhd] at ht
  rw [Option.ite_none_right_eq_some] at ht
  obtain ⟨hlen,heq⟩ := ht
  cases heq
  exact ⟨by omega,rfl⟩

/-- The `tfhd` alone has sixteen bytes. -/
theorem length_body (hp : TrafParsed body v cs h) : 16 ≤ body.length := by
  have hsum := length_encodeAll_filter isTfhd cs
  have hmem : h ∈ cs.filter isTfhd := by
    rw [hp.one]
    simp
  have hsize := (hp.exact.2 h (List.mem_filter.mp hmem).1).length_encode
  rw [hp.one,encodeAll_cons,encodeAll_nil,List.append_nil,hsize,RawBox.size] at hsum
  have h8 := (readTfhd_length hp.tfhd).1
  rw [hp.exact.1]
  omega

theorem mem_newChildren {time : Nat} {c : RawBox} (hc : c ∈ newChildren time cs) :
    c ∈ cs ∨ c = tfdtBox time := by
  simp only [newChildren,List.mem_append,List.mem_map,List.mem_filter] at hc
  rcases hc with (hc | hc) | ⟨d,⟨hd,_⟩,rfl⟩
  · exact Or.inl hc.1
  · split_ifs at hc
    · cases hc
    · exact Or.inr (List.mem_singleton.mp hc)
  · unfold retime
    split_ifs
    · exact Or.inr rfl
    · exact Or.inl hd

theorem filter_newChildren {p : RawBox → Bool} (time : Nat) (cs : List RawBox)
    (htfdt : ∀ c, isTfdt c → p c = false) (htfhd : ∀ c, isTfhd c → p c = false) :
    (newChildren time cs).filter p = cs.filter p := by
  have hbox : p (tfdtBox time) = false := htfdt _ rfl
  have hfirst : (cs.filter isTfhd).filter p = [] := by
    apply List.filter_eq_nil_iff.mpr
    intro c hc
    simp [htfhd c (List.mem_filter.mp hc).2]
  have hmid : (if cs.any isTfdt then [] else [tfdtBox time]).filter p = [] := by
    split_ifs <;> simp [hbox]
  rw [newChildren,List.filter_append,List.filter_append,hfirst,hmid]
  clear hfirst hmid
  induction cs with
  | nil => rfl
  | cons c cs ih =>
    simp only [List.nil_append] at ih ⊢
    by_cases hh : isTfhd c = true
    · simp [hh,htfhd c hh,ih]
    · by_cases hd : isTfdt c = true
      · simp [hh,hd,retime,hbox,htfdt c hd,ih]
      · cases hp : p c <;> simp [hh,hd,retime,hp,ih]

theorem filter_newChildren_tfhd (time : Nat) (cs : List RawBox) :
    (newChildren time cs).filter isTfhd = cs.filter isTfhd := by
  have hbox : isTfhd (tfdtBox time) = false := rfl
  have hmid : (if cs.any isTfdt then [] else [tfdtBox time]).filter isTfhd = [] := by
    split_ifs <;> simp [hbox]
  have hlast : ((cs.filter (fun c => !isTfhd c)).map (retime time)).filter isTfhd = [] := by
    apply List.filter_eq_nil_iff.mpr
    intro c hc
    obtain ⟨d,hd,rfl⟩ := List.mem_map.mp hc
    have hno := (List.mem_filter.mp hd).2
    unfold retime
    split_ifs
    · simp [hbox]
    · simpa using hno
  rw [newChildren,List.filter_append,List.filter_append,hmid,hlast,List.append_nil,List.append_nil,
    List.filter_filter]
  simp

theorem filter_retime (time : Nat) (cs : List RawBox) :
    (cs.map (retime time)).filter isTfdt =
      List.replicate (cs.filter isTfdt).length (tfdtBox time) := by
  have hbox : isTfdt (tfdtBox time) = true := rfl
  induction cs with
  | nil => rfl
  | cons c cs ih =>
    cases hc : isTfdt c
    · simp [hc,retime,ih]
    · simp [hc,retime,hbox,ih,List.replicate_succ]

theorem filter_newChildren_tfdt (time : Nat) {cs : List RawBox}
    (hone : (cs.filter isTfdt).length ≤ 1) :
    (newChildren time cs).filter isTfdt = [tfdtBox time] := by
  have hbox : isTfdt (tfdtBox time) = true := rfl
  have hfirst : (cs.filter isTfhd).filter isTfdt = [] := by
    apply List.filter_eq_nil_iff.mpr
    intro c hc
    have hkind : c.kind = tagTfhd := by simpa [isTfhd] using (List.mem_filter.mp hc).2
    simp [isTfdt,hkind,tagTfhd,tagTfdt]
  rw [newChildren,List.filter_append,List.filter_append,hfirst,filter_retime,
    filter_tfdt_of_not_tfhd]
  by_cases hany : cs.any isTfdt
  · obtain ⟨t,ht,hyes⟩ := List.any_eq_true.mp hany
    have hpos : 0 < (cs.filter isTfdt).length :=
      List.length_pos_of_mem (List.mem_filter.mpr ⟨ht,hyes⟩)
    have hlen : (cs.filter isTfdt).length = 1 := by omega
    simp [hany,hlen]
  · have hnil : cs.filter isTfdt = [] := by
      simpa [List.filter_eq_nil_iff] using hany
    simp [hany,hnil,hbox]

theorem tfdt_le_one (hp : TrafParsed body v cs h) : (cs.filter isTfdt).length ≤ 1 := by
  have htfdt := hp.tfdt
  rcases hfilter : cs.filter isTfdt with _ | ⟨t,_ | ⟨t',ts⟩⟩
  · simp
  · simp
  · rw [hfilter] at htfdt
    cases htfdt

theorem filter_newChildren_trun (time : Nat) (cs : List RawBox) :
    (newChildren time cs).filter isTrun = cs.filter isTrun := by
  apply filter_newChildren time cs
  · intro c hc
    have hkind : c.kind = tagTfdt := by simpa [isTfdt] using hc
    simp [isTrun,hkind,tagTrun,tagTfdt]
  · intro c hc
    have hkind : c.kind = tagTfhd := by simpa [isTfhd] using hc
    simp [isTrun,hkind,tagTrun,tagTfhd]

theorem newChildren_fits (time : Nat) {cs : List RawBox} (h : ∀ c ∈ cs, c.Fits) :
    ∀ c ∈ newChildren time cs, c.Fits := by
  intro c hc
  rcases mem_newChildren hc with hc | rfl
  · exact h c hc
  · exact tfdtBox_fits time

theorem newChildren_flat (time : Nat) {cs : List RawBox} (h : ∀ c ∈ cs, ¬ isTraf c ∧ ¬ isMfhd c) :
    ∀ c ∈ newChildren time cs, ¬ isTraf c ∧ ¬ isMfhd c := by
  intro c hc
  rcases mem_newChildren hc with hc | rfl
  · exact h c hc
  · exact ⟨Bool.false_ne_true,Bool.false_ne_true⟩

/-- After the rewrite a reader finds the same, with a `tfdt` of version 1. -/
theorem new (hp : TrafParsed body v cs h) (time : Nat) :
    TrafParsed (encodeAll (newChildren time cs)) { v with tfdt := some 1 }
      (newChildren time cs) h := by
  constructor
  · exact readBoxes_encodeAll (newChildren_fits time hp.exact.2)
  · exact newChildren_flat time hp.flat
  · rw [filter_newChildren_tfhd,hp.one]
  · exact hp.tfhd
  · rw [filter_newChildren_tfdt time hp.tfdt_le_one]
    simp [readTfdts,readTfdt,tfdtBox]
  · rw [filter_newChildren_trun]
    exact hp.truns

end TrafParsed

/-- What `readMoof` finds in the content, with the boxes it finds it in. -/
structure MoofParsed (content : Bytes) (view : List TrafView) (bs : List RawBox) : Prop where
  boxes : readBoxes content = some bs
  noTfhd : ∀ b ∈ bs, ¬ isTfhd b
  mfhd : ∀ b ∈ bs, isMfhd b → mfhdOk b
  trafs : (bs.filter isTraf).mapM (fun b => readTraf b.body) = some view

theorem readMoof_eq_some {content : Bytes} {view : List TrafView} :
    readMoof content = some view ↔ ∃ bs, MoofParsed content view bs := by
  constructor
  · intro hv
    simp only [readMoof,Option.bind_eq_bind,Option.bind_eq_some_iff] at hv
    obtain ⟨bs,hbs,hv⟩ := hv
    split_ifs at hv with hany
    obtain ⟨hnoTfhd,hmfhd⟩ := not_any_misplaced_iff.mp hany
    exact ⟨bs,hbs,hnoTfhd,hmfhd,hv⟩
  · intro hyp
    obtain ⟨bs,hp⟩ := hyp
    simp only [readMoof,hp.boxes,Option.bind_eq_bind,Option.bind_some]
    rw [if_neg (not_any_misplaced_iff.mpr ⟨hp.noTfhd,hp.mfhd⟩)]
    exact hp.trafs

def TrafView.retimed (v : TrafView) : TrafView := { v with tfdt := some 1 }

theorem newChild_traf {b : RawBox} (hb : isTraf b) {v : TrafView} {cs : List RawBox} {h : RawBox}
    (hp : TrafParsed b.body v cs h) (time : Nat) :
    newChild time b = ⟨tagTraf,encodeAll (newChildren time cs)⟩ := by
  rw [newChild,if_pos hb,hp.boxes]
  rfl

theorem newChild_other {b : RawBox} (hb : ¬ isTraf b) (time : Nat) : newChild time b = b :=
  if_neg hb

theorem isTraf_newChild (time : Nat) (b : RawBox) : isTraf (newChild time b) = isTraf b := by
  unfold newChild
  by_cases hb : isTraf b
  · rw [if_pos hb,hb]
    rfl
  · rw [if_neg hb]

section Views

variable {α : Type} {read : RawBox → Option α} {f : RawBox → RawBox} {bs : List RawBox}
  {view : List α}

/-- When the `traf` boxes are rewritten, a reader finds the rewritten views. -/
theorem mapM_traf_map {g : α → α} (hf : ∀ b, isTraf (f b) = isTraf b)
    (hread : ∀ b ∈ bs, isTraf b → ∀ v, read b = some v → read (f b) = some (g v))
    (hview : (bs.filter isTraf).mapM read = some view) :
    ((bs.map f).filter isTraf).mapM read = some (view.map g) := by
  induction bs generalizing view with
  | nil =>
    cases hview
    rfl
  | cons b bs ih =>
    have htail := fun c hc => hread c (List.mem_cons_of_mem b hc)
    by_cases hb : isTraf b
    · rw [List.filter_cons_of_pos hb] at hview
      obtain ⟨v,vs,hv,hvs,rfl⟩ := mapM_cons_eq_some.mp hview
      rw [List.map_cons,List.filter_cons_of_pos (by rw [hf]; exact hb),List.map_cons]
      exact mapM_cons_eq_some.mpr
        ⟨g v,vs.map g,hread b List.mem_cons_self hb v hv,ih htail hvs,rfl⟩
    · rw [List.filter_cons_of_neg hb] at hview
      rw [List.map_cons,List.filter_cons_of_neg (by rw [hf]; exact hb)]
      exact ih htail hview

/-- The content grows by what its `traf` boxes grow by. -/
theorem length_traf_map {growth : α → Nat}
    (hother : ∀ b ∈ bs, ¬ isTraf b → (f b).encode.length = b.encode.length)
    (htraf : ∀ b ∈ bs, isTraf b → ∀ v, read b = some v →
      (f b).encode.length = b.encode.length+growth v)
    (hview : (bs.filter isTraf).mapM read = some view) :
    (encodeAll (bs.map f)).length = (encodeAll bs).length+(view.map growth).sum := by
  induction bs generalizing view with
  | nil =>
    cases hview
    rfl
  | cons b bs ih =>
    have hother' := fun c hc => hother c (List.mem_cons_of_mem b hc)
    have htraf' := fun c hc => htraf c (List.mem_cons_of_mem b hc)
    rw [List.map_cons,encodeAll_cons,encodeAll_cons,List.length_append,List.length_append]
    by_cases hb : isTraf b
    · rw [List.filter_cons_of_pos hb] at hview
      obtain ⟨v,vs,hv,hvs,rfl⟩ := mapM_cons_eq_some.mp hview
      have htail := ih hother' htraf' hvs
      have hnew := htraf b List.mem_cons_self hb v hv
      rw [List.map_cons,List.sum_cons]
      omega
    · rw [List.filter_cons_of_neg hb] at hview
      have htail := ih hother' htraf' hview
      have hsame := hother b List.mem_cons_self hb
      omega

/-- Every `traf` has its view. -/
theorem exists_view (hview : (bs.filter isTraf).mapM read = some view) {b : RawBox} (hmem : b ∈ bs)
    (hb : isTraf b) : ∃ v ∈ view, read b = some v :=
  forall₂_mem_left (mapM_eq_some_iff.mp hview) (List.mem_filter.mpr ⟨hmem,hb⟩)

end Views

section Moof

variable {bs : List RawBox} {view : List TrafView}

theorem length_newMoof (time : Nat) (hfits : ∀ b ∈ bs, b.Fits)
    (hview : (bs.filter isTraf).mapM (fun b => readTraf b.body) = some view) :
    (encodeAll (bs.map (newChild time))).length =
      (encodeAll bs).length+(view.map TrafView.growth).sum := by
  apply length_traf_map _ _ hview
  · intro b _ hb
    rw [newChild_other hb]
  · intro b hmem hb v hv
    obtain ⟨cs,h,hp⟩ := readTraf_eq_some.mp hv
    rw [newChild_traf hb hp,(hfits b hmem).length_encode]
    simp only [encode,List.length_append,length_toBe,RawBox.size,hp.length_new time]
    simp only [tagTraf,List.length_cons,List.length_nil]
    omega

/-- Each `traf` has at least 24 bytes, so that the content at most doubles. -/
theorem growth_bound (hfits : ∀ b ∈ bs, b.Fits)
    (hview : (bs.filter isTraf).mapM (fun b => readTraf b.body) = some view) :
    24*(view.map TrafView.growth).sum ≤ 20*(encodeAll bs).length := by
  induction bs generalizing view with
  | nil =>
    cases hview
    simp
  | cons b bs ih =>
    have hfit : ∀ c ∈ bs, c.Fits := fun c hc => hfits c (by simp [hc])
    have hlen := (hfits b (by simp)).length_encode
    rw [encodeAll_cons,List.length_append,hlen,RawBox.size]
    by_cases hb : isTraf b
    · rw [List.filter_cons_of_pos hb] at hview
      obtain ⟨v,vs,hv,hvs,rfl⟩ := mapM_cons_eq_some.mp hview
      obtain ⟨cs,h,hp⟩ := readTraf_eq_some.mp hv
      have htail := ih hfit hvs
      have hbody := hp.length_body
      have hgrowth := TrafParsed.growth_le v
      simp only [List.map_cons,List.sum_cons]
      omega
    · rw [List.filter_cons_of_neg hb] at hview
      have htail := ih hfit hview
      omega

theorem mapM_newChild (time : Nat)
    (hview : (bs.filter isTraf).mapM (fun b => readTraf b.body) = some view) :
    ((bs.map (newChild time)).filter isTraf).mapM (fun b => readTraf b.body) =
      some (view.map TrafView.retimed) := by
  apply mapM_traf_map (isTraf_newChild time) _ hview
  intro b _ hb v hv
  obtain ⟨cs,h,hp⟩ := readTraf_eq_some.mp hv
  rw [newChild_traf hb hp]
  exact readTraf_eq_some.mpr ⟨_,h,hp.new time⟩

theorem traf_parsed (hview : (bs.filter isTraf).mapM (fun b => readTraf b.body) = some view)
    {b : RawBox} (hmem : b ∈ bs) (hb : isTraf b) :
    ∃ v ∈ view, ∃ cs h, TrafParsed b.body v cs h := by
  obtain ⟨v,hv,hread⟩ := exists_view hview hmem hb
  exact ⟨v,hv,readTraf_eq_some.mp hread⟩

end Moof

/-- Every `tfhd` has default-base-is-moof and no base-data-offset, and every `trun` has a
data offset. -/
def MoofRelative (view : List TrafView) : Prop :=
  ∀ v ∈ view, v.tfhd.flags.testBit 17 ∧ ¬ v.tfhd.flags.testBit 0 ∧
    ∀ r ∈ v.truns, r.dataOffset.isSome

theorem length_encode_le {b : RawBox} {bs : List RawBox} (h : b ∈ bs) :
    b.encode.length ≤ (encodeAll bs).length := by
  induction bs with
  | nil => cases h
  | cons c bs ih =>
    rw [encodeAll_cons,List.length_append]
    rcases List.mem_cons.mp h with rfl | h
    · omega
    · have := ih h
      omega

namespace MoofParsed

variable {content : Bytes} {view : List TrafView} {bs : List RawBox}

theorem exact (hp : MoofParsed content view bs) : content = encodeAll bs ∧ ∀ b ∈ bs, b.Fits :=
  readBoxes_exact hp.boxes

/-- The search for flags to change finds none. -/
theorem quiet (hp : MoofParsed content view bs) (hrel : MoofRelative view) :
    ∀ b ∈ bs, Quiet b := by
  intro b hb
  by_cases htraf : isTraf b
  · obtain ⟨v,hv,cs,h,htp⟩ := traf_parsed hp.trafs hb htraf
    have hkind : b.kind = tagTraf := by simpa [isTraf] using htraf
    refine .traf cs hkind htp.exact.1 htp.exact.2 ?_
    intro c hc
    by_cases htfhd : isTfhd c
    · have hch : c = h := by
        have := List.mem_filter.mpr ⟨hc,htfhd⟩
        rw [htp.one] at this
        exact List.mem_singleton.mp this
      subst hch
      obtain ⟨_,hflags⟩ := TrafParsed.readTfhd_length htp.tfhd
      obtain ⟨h17,h0,_⟩ := hrel v hv
      rw [hflags] at h17 h0
      exact .tfhd (by simpa [isTfhd] using htfhd) (fun _ => ⟨h17,h0⟩)
    · obtain ⟨hnoTraf,hnoMfhd⟩ := htp.flat c hc
      exact .other (by simpa [isTfhd] using htfhd) (by simpa [isMfhd] using hnoMfhd)
        (by simpa [isTraf] using hnoTraf)
  · by_cases hmfhd : isMfhd b
    · have hok := hp.mfhd b hb hmfhd
      exact .mfhd (by simpa [isMfhd] using hmfhd) (by simp [mfhdOk] at hok; exact hok.2)
    · exact .other (by simpa [isTfhd] using hp.noTfhd b hb) (by simpa [isMfhd] using hmfhd)
        (by simpa [isTraf] using htraf)

theorem newChild_size (hp : MoofParsed content view bs) (hsmall : content.length < 2^31)
    (time : Nat) {b : RawBox} (hb : b ∈ bs) {v : TrafView} {cs : List RawBox} {h : RawBox}
    (htp : TrafParsed b.body v cs h) :
    8+(encodeAll (newChildren time cs)).length < 2^32 := by
  have hle := length_encode_le hb
  have hgrowth := TrafParsed.growth_le v
  rw [(hp.exact.2 b hb).length_encode,RawBox.size,← hp.exact.1] at hle
  rw [htp.length_new]
  omega

theorem rewritable (hp : MoofParsed content view bs) (hsmall : content.length < 2^31)
    (time : Nat) : ∀ b ∈ bs, isTraf b → Rewritable time b := by
  intro b hb htraf
  obtain ⟨v,_,cs,h,htp⟩ := traf_parsed hp.trafs hb htraf
  exact ⟨cs,h,htp.boxes,htp.one,hp.newChild_size hsmall time hb htp⟩

theorem newChild_fits (hp : MoofParsed content view bs) (hsmall : content.length < 2^31)
    (time : Nat) : ∀ b ∈ bs.map (newChild time), b.Fits := by
  intro c hc
  obtain ⟨b,hb,rfl⟩ := List.mem_map.mp hc
  by_cases htraf : isTraf b
  · obtain ⟨v,_,cs,h,htp⟩ := traf_parsed hp.trafs hb htraf
    rw [newChild_traf htraf htp]
    exact ⟨rfl,hp.newChild_size hsmall time hb htp⟩
  · rw [newChild_other htraf]
    exact hp.exact.2 b hb

theorem length_new_lt (hp : MoofParsed content view bs) (hsmall : content.length < 2^31)
    (time : Nat) : 8+(encodeAll (bs.map (newChild time))).length < 2^32 := by
  have hbound := growth_bound hp.exact.2 hp.trafs
  rw [length_newMoof time hp.exact.2 hp.trafs]
  rw [← hp.exact.1] at hbound ⊢
  omega

/-- After the rewrite a reader finds the same, with a `tfdt` of version 1 in every `traf`. -/
theorem new (hp : MoofParsed content view bs) (hsmall : content.length < 2^31) (time : Nat) :
    MoofParsed (encodeAll (bs.map (newChild time))) (view.map TrafView.retimed)
      (bs.map (newChild time)) := by
  constructor
  · exact readBoxes_encodeAll (hp.newChild_fits hsmall time)
  · intro c hc
    obtain ⟨b,hb,rfl⟩ := List.mem_map.mp hc
    unfold newChild
    split_ifs
    · exact Bool.false_ne_true
    · exact hp.noTfhd b hb
  · intro c hc
    obtain ⟨b,hb,rfl⟩ := List.mem_map.mp hc
    unfold newChild
    split_ifs
    · exact fun hmfhd => Bool.noConfusion hmfhd
    · exact hp.mfhd b hb
  · exact mapM_newChild time hp.trafs

/-- The two rewriters together. -/
theorem rewritten {moof : Mp4Box} (hp : MoofParsed moof.content view bs) (hrel : MoofRelative view)
    (hsmall : moof.content.length < 2^31) (time : Nat) :
    fixMoofTfhdFlags moof = .ok (RawBox.mk tagMoof (encodeAll bs)).encode ∧
    ensureMoofHasTfdt (RawBox.mk tagMoof (encodeAll bs)).encode time =
      .ok (RawBox.mk tagMoof (encodeAll (bs.map (newChild time)))).encode := by
  have hcontent := hp.exact.1
  rw [hcontent] at hsmall
  constructor
  · rw [fixMoofTfhdFlags,fixTfhdFlagsRecursive,hcontent,
      fixTfhdFlagsFrom_encodeAll _ hp.exact.2 (hp.quiet hrel)]
    exact wrapBox_ok tagMoof (by omega)
  · rw [← hcontent] at hsmall
    apply ensureMoofHasTfdt_encode time hp.exact.2 (hp.rewritable hsmall time)
    · rw [← hcontent]
      omega
    · exact hp.length_new_lt hsmall time

end MoofParsed

end OpenBroadcast.Media
