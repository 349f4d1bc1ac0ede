import OpenBroadcast.Media.Fragments

namespace OpenBroadcast.Media

open RawBox

section Loops

variable {S : Type}

/-- Over well-formed boxes, the loop is a fold over these boxes. -/
theorem forChildrenFrom_encodeAll (step : S → Bytes → Bytes → Except Mp4Error S)
    {bs : List RawBox} (h : ∀ b ∈ bs, b.Fits) (n : Nat) (hn : (encodeAll bs).length ≤ n) (s : S) :
    forChildrenFrom step n (encodeAll bs).length (encodeAll bs) s =
      bs.foldlM (fun s b => step s b.kind b.encode) s := by
  induction bs generalizing n s with
  | nil => cases n <;> rfl
  | cons b bs ih =>
    have hb : b.Fits := h b (by simp)
    have h8 := b.eight_le_size
    have hlen : (b.encode++encodeAll bs).length = b.size+(encodeAll bs).length := by
      rw [List.length_append,hb.length_encode]
    rw [encodeAll_cons] at hn ⊢
    rw [hlen] at hn ⊢
    cases n with
    | zero => omega
    | succ n =>
      have hne : b.encode++encodeAll bs ≠ [] := by
        intro hnil
        rw [hnil,List.length_nil] at hlen
        omega
      rw [forChildrenFrom,if_neg (by simp only [hne,or_false]; omega),if_neg (by omega)]
      dsimp only
      rw [hb.read_size,if_neg (by omega),hb.read_kind,hb.take_size,hb.drop_size,
        Nat.add_sub_cancel_left,List.foldlM_cons]
      congr 1
      funext s
      exact ih (fun c hc => h c (by simp [hc])) n (by omega) s

theorem forChildren_encodeAll (step : S → Bytes → Bytes → Except Mp4Error S)
    {bs : List RawBox} (h : ∀ b ∈ bs, b.Fits) (s : S) :
    forChildren step (encodeAll bs).length (encodeAll bs) s =
      bs.foldlM (fun s b => step s b.kind b.encode) s :=
  forChildrenFrom_encodeAll step h _ le_rfl s

theorem wrapBox_ok (kind : Bytes) {content : Bytes} (h : 8+content.length < 2^32) :
    wrapBox kind content = .ok (RawBox.mk kind content).encode := by
  have hmod : content.length%2^32 = content.length := Nat.mod_eq_of_lt (by omega)
  simp only [wrapBox,boxSize32,hmod,h,if_true,encode,size]
  rfl

end Loops

section Flags

/-- A `tfhd` whose flags are as they should be. -/
def FlagsOk (body : Bytes) : Prop :=
  (beNat ((body.drop 1).take 3)).testBit 17 ∧ ¬ (beNat ((body.drop 1).take 3)).testBit 0

/-- What the search for flags to change leaves alone: also the start of an `mfhd` reads as
the size of a box, and it is 0. -/
inductive Quiet : RawBox → Prop
  | tfhd {b : RawBox} (kind : b.kind = tagTfhd) (flags : 8 ≤ b.body.length → FlagsOk b.body) : Quiet b
  | mfhd {b : RawBox} (kind : b.kind = tagMfhd) (zero : b.body.take 4 = [0,0,0,0]) : Quiet b
  | traf {b : RawBox} (cs : List RawBox) (kind : b.kind = tagTraf) (body : b.body = encodeAll cs)
      (fits : ∀ c ∈ cs, c.Fits) (quiet : ∀ c ∈ cs, Quiet c) : Quiet b
  | other {b : RawBox} (tfhd : b.kind ≠ tagTfhd) (mfhd : b.kind ≠ tagMfhd)
      (traf : b.kind ≠ tagTraf) : Quiet b

theorem fixSingleTfhdFlags_of_ok {b : RawBox} (h : b.Fits)
    (hflags : 8 ≤ b.body.length → FlagsOk b.body) (rest : Bytes) :
    fixSingleTfhdFlags (b.encode++rest) b.size = b.encode++rest := by
  unfold fixSingleTfhdFlags
  by_cases hsmall : b.size < 16 ∨ (b.encode++rest).length < 12
  · rw [if_pos hsmall]
  · rw [if_neg hsmall]
    have hbody : 8 ≤ b.body.length := by
      rw [RawBox.size] at hsmall
      omega
    have hread : ((b.encode++rest).drop 9).take 3 = (b.body.drop 1).take 3 := by
      have hdrop : (b.encode++rest).drop 9 = ((b.encode++rest).drop 8).drop 1 := by
        rw [List.drop_drop]
      rw [hdrop,h.drop_header,List.drop_append_of_le_length (by omega),
        List.take_append_of_le_length (by rw [List.length_drop]; omega)]
    obtain ⟨h17,h0⟩ := hflags hbody
    dsimp only
    rw [hread,if_pos (by rw [h17,Bool.eq_false_of_not_eq_true h0]; rfl)]

/-- The search stops at a size of 0. -/
theorem fixTfhdFlagsFrom_zero (n : Nat) {data : Bytes} (h : data.take 4 = [0,0,0,0]) :
    fixTfhdFlagsFrom n data = data := by
  cases n with
  | zero => rfl
  | succ n => rw [fixTfhdFlagsFrom,h,if_pos (Or.inr (Or.inl (by decide)))]

theorem take_four_append {body : Bytes} (h : body.take 4 = [0,0,0,0]) (rest : Bytes) :
    (body++rest).take 4 = [0,0,0,0] := by
  have hlength := congrArg List.length h
  rw [List.length_take,List.length_cons,List.length_cons,List.length_cons,
    List.length_singleton] at hlength
  rw [List.take_append_of_le_length (by omega),h]

theorem fixTfhdFlagsFrom_encodeAll (n : Nat) {bs : List RawBox} (h : ∀ b ∈ bs, b.Fits)
    (hq : ∀ b ∈ bs, Quiet b) : fixTfhdFlagsFrom n (encodeAll bs) = encodeAll bs := by
  induction n generalizing bs with
  | zero => rfl
  | succ n ih =>
    cases bs with
    | nil => rfl
    | cons b bs =>
      have hb : b.Fits := h b (by simp)
      have htail : fixTfhdFlagsFrom n (encodeAll bs) = encodeAll bs :=
        ih (fun c hc => h c (by simp [hc])) (fun c hc => hq c (by simp [hc]))
      have h8 := b.eight_le_size
      have hlen : (b.encode++encodeAll bs).length = b.size+(encodeAll bs).length := by
        rw [List.length_append,hb.length_encode]
      rw [encodeAll_cons,fixTfhdFlagsFrom]
      rw [hb.read_size,if_neg (by omega),hb.read_kind]
      -- Whatever the box is, the data is unchanged when the search goes on behind it.
      have hsame : (if b.kind = tagTfhd then fixSingleTfhdFlags (b.encode++encodeAll bs) b.size
          else if b.kind = tagTraf ∨ b.kind = tagMfhd then
            (b.encode++encodeAll bs).take 8++fixTfhdFlagsFrom n ((b.encode++encodeAll bs).drop 8)
          else b.encode++encodeAll bs) = b.encode++encodeAll bs := by
        cases hq b (by simp) with
        | tfhd kind flags => rw [if_pos kind,fixSingleTfhdFlags_of_ok hb flags]
        | mfhd kind zero =>
          have hstop : fixTfhdFlagsFrom n (b.body++encodeAll bs) = b.body++encodeAll bs :=
            fixTfhdFlagsFrom_zero n (take_four_append zero _)
          rw [if_neg (by rw [kind]; decide),if_pos (Or.inr kind),hb.drop_header,hstop,
            ← hb.drop_header,List.take_append_drop]
        | traf cs kind body fits quiet =>
          have hinner : fixTfhdFlagsFrom n (encodeAll (cs++bs)) = encodeAll (cs++bs) := by
            apply ih
            · intro c hc
              rcases List.mem_append.mp hc with hc | hc
              · exact fits c hc
              · exact h c (by simp [hc])
            · intro c hc
              rcases List.mem_append.mp hc with hc | hc
              · exact quiet c hc
              · exact hq c (by simp [hc])
          rw [encodeAll_append,← body] at hinner
          rw [if_neg (by rw [kind]; decide),if_pos (Or.inl kind),hb.drop_header,hinner,
            ← hb.drop_header,List.take_append_drop]
        | other tfhd mfhd traf =>
          rw [if_neg tfhd,if_neg (by simp [mfhd,traf])]
      dsimp only
      rw [hsame,hb.take_size,hb.drop_size,htail]

end Flags

section Tfdt

def isTfhd (b : RawBox) : Bool := b.kind == tagTfhd
def isTfdt (b : RawBox) : Bool := b.kind == tagTfdt
def isTraf (b : RawBox) : Bool := b.kind == tagTraf

/-- The box that `create_tfdt_box` writes. -/
def tfdtBox (time : Nat) : RawBox := ⟨tagTfdt,[1,0,0,0]++toBe 8 time⟩

theorem size_tfdtBox (time : Nat) : (tfdtBox time).size = 20 := by
  simp [tfdtBox,RawBox.size]

theorem tfdtBox_fits (time : Nat) : (tfdtBox time).Fits :=
  ⟨rfl,by rw [size_tfdtBox]; decide⟩

theorem encode_tfdtBox (time : Nat) : (tfdtBox time).encode = createTfdtBox time := by
  rw [encode,size_tfdtBox,tfdtBox,createTfdtBox,List.append_assoc (toBe 4 20++tagTfdt)]

def retime (time : Nat) (b : RawBox) : RawBox := if isTfdt b then tfdtBox time else b

/-- The children of a `traf` after the rewrite. -/
def newChildren (time : Nat) (cs : List RawBox) : List RawBox :=
  cs.filter isTfhd++(if cs.any isTfdt then [] else [tfdtBox time])++
    (cs.filter (fun c => !isTfhd c)).map (retime time)

/-- A child of a `moof` after the rewrite. -/
def newChild (time : Nat) (b : RawBox) : RawBox :=
  if isTraf b then ⟨tagTraf,encodeAll (newChildren time ((readBoxes b.body).getD []))⟩ else b

theorem trafChild_fold (time : Nat) (cs : List RawBox) (s : TrafParts) :
    cs.foldlM (fun s b => trafChild time s b.kind b.encode) s = .ok
      { tfhd := ((cs.filter isTfhd).getLast?.map encode).or s.tfhd
        hasTfdt := s.hasTfdt || cs.any isTfdt
        content := s.content++
          encodeAll ((cs.filter (fun c => !isTfhd c)).map (retime time)) } := by
  induction cs generalizing s with
  | nil => simp [pure,Except.pure]
  | cons b cs ih =>
    rw [List.foldlM_cons]
    by_cases htfhd : b.kind = tagTfhd
    · have hnot : isTfdt b = false := by simp [isTfdt,htfhd,tagTfhd,tagTfdt]
      have hyes : isTfhd b = true := by simp [isTfhd,htfhd]
      have hstep : trafChild time s b.kind b.encode = .ok { s with tfhd := some b.encode } := by
        rw [trafChild,if_pos htfhd]
      rw [hstep]
      refine (ih _).trans ?_
      simp only [List.filter_cons,hyes,hnot,List.any_cons,Bool.false_or,Bool.not_true,
        if_true,Bool.false_eq_true,if_false,List.getLast?_cons]
      cases (cs.filter isTfhd).getLast? <;> simp
    · have hno : isTfhd b = false := by simpa [isTfhd] using htfhd
      by_cases htfdt : b.kind = tagTfdt
      · have hyes : isTfdt b = true := by simp [isTfdt,htfdt]
        have hstep : trafChild time s b.kind b.encode =
            .ok { s with hasTfdt := true, content := s.content++createTfdtBox time } := by
          rw [trafChild,if_neg htfhd,if_pos htfdt]
        rw [hstep]
        refine (ih _).trans ?_
        simp [hno,hyes,retime,encode_tfdtBox]
      · have hnot : isTfdt b = false := by simpa [isTfdt] using htfdt
        have hstep : trafChild time s b.kind b.encode =
            .ok { s with content := s.content++b.encode } := by
          rw [trafChild,if_neg htfhd,if_neg htfdt]
        rw [hstep]
        refine (ih _).trans ?_
        simp [hno,hnot,retime]

/-- A `traf` with one `tfhd` gets its children rewritten. -/
theorem ensureTrafHasTfdt_encode {b h : RawBox} {cs : List RawBox} (time : Nat) (hb : b.Fits)
    (hbody : b.body = encodeAll cs) (hfits : ∀ c ∈ cs, c.Fits) (hone : cs.filter isTfhd = [h])
    (hsize : 8+(encodeAll (newChildren time cs)).length < 2^32) :
    ensureTrafHasTfdt b.encode time =
      .ok (RawBox.mk tagTraf (encodeAll (newChildren time cs))).encode := by
  have h8 := b.eight_le_size
  have hread := hb.read_size []
  have hdrop := hb.drop_header []
  rw [List.append_nil] at hread hdrop
  rw [List.append_nil] at hdrop
  have hlimit : b.size-8 = (encodeAll cs).length := by
    rw [RawBox.size,hbody,Nat.add_sub_cancel_left]
  unfold ensureTrafHasTfdt
  rw [hb.length_encode,if_neg (by omega)]
  simp only [hread,hdrop,hlimit,hbody]
  rw [forChildren_encodeAll _ hfits,trafChild_fold,hone]
  simp only [bind,Except.bind,Bool.false_or,List.nil_append]
  have hcontent : ((([h].getLast?.map encode).or none).getD []++
      (if cs.any isTfdt then [] else createTfdtBox time))++
        encodeAll ((cs.filter (fun c => !isTfhd c)).map (retime time)) =
      encodeAll (newChildren time cs) := by
    rw [newChildren,hone,encodeAll_append,encodeAll_append]
    by_cases hany : cs.any isTfdt
    · simp [hany]
    · simp [hany,encode_tfdtBox]
  rw [hcontent]
  exact wrapBox_ok tagTraf hsize

/-- A `traf` of well-formed children with one `tfhd`, which the new children still fit into. -/
def Rewritable (time : Nat) (b : RawBox) : Prop :=
  ∃ cs h, readBoxes b.body = some cs ∧ cs.filter isTfhd = [h] ∧
    8+(encodeAll (newChildren time cs)).length < 2^32

theorem moofChild_fold (time : Nat) {bs : List RawBox} (hfits : ∀ b ∈ bs, b.Fits)
    (htraf : ∀ b ∈ bs, isTraf b → Rewritable time b) (content : Bytes) :
    bs.foldlM (fun s b => moofChild time s b.kind b.encode) content =
      .ok (content++encodeAll (bs.map (newChild time))) := by
  induction bs generalizing content with
  | nil => simp [pure,Except.pure]
  | cons b bs ih =>
    have hstep : moofChild time content b.kind b.encode =
        .ok (content++(newChild time b).encode) := by
      unfold moofChild newChild
      by_cases hb : isTraf b
      · obtain ⟨cs,h,hread,hone,hsize⟩ := htraf b (by simp) hb
        obtain ⟨hbody,hcs⟩ := readBoxes_exact hread
        rw [if_pos (by simpa [isTraf] using hb),if_pos hb,hread,
          ensureTrafHasTfdt_encode time (hfits b (by simp)) hbody hcs hone hsize]
        rfl
      · rw [if_neg (by simpa [isTraf] using hb),if_neg hb]
    rw [List.foldlM_cons,hstep]
    refine (ih (fun c hc => hfits c (by simp [hc])) (fun c hc => htraf c (by simp [hc])) _).trans ?_
    simp

theorem ensureMoofHasTfdt_encode (time : Nat) {bs : List RawBox} (hfits : ∀ b ∈ bs, b.Fits)
    (htraf : ∀ b ∈ bs, isTraf b → Rewritable time b) (hsize : 8+(encodeAll bs).length < 2^32)
    (hnew : 8+(encodeAll (bs.map (newChild time))).length < 2^32) :
    ensureMoofHasTfdt (RawBox.mk tagMoof (encodeAll bs)).encode time =
      .ok (RawBox.mk tagMoof (encodeAll (bs.map (newChild time)))).encode := by
  have hmoof : (RawBox.mk tagMoof (encodeAll bs)).Fits := ⟨rfl,hsize⟩
  have hread := hmoof.read_size []
  have hkind := hmoof.read_kind []
  have hdrop := hmoof.drop_header []
  rw [List.append_nil] at hread hkind hdrop
  rw [List.append_nil] at hdrop
  have hlimit : (RawBox.mk tagMoof (encodeAll bs)).size-8 = (encodeAll bs).length := by
    rw [RawBox.size,Nat.add_sub_cancel_left]
  unfold ensureMoofHasTfdt
  rw [hmoof.length_encode,if_neg (by rw [RawBox.size]; omega),hkind,if_neg (by simp)]
  simp only [hread,hdrop,hlimit]
  rw [forChildren_encodeAll _ hfits,moofChild_fold time hfits htraf,List.nil_append]
  exact wrapBox_ok tagMoof hnew

end Tfdt

section Sizes

theorem length_encodeAll_filter (p : RawBox → Bool) (cs : List RawBox) :
    (encodeAll (cs.filter p)).length+(encodeAll (cs.filter (fun c => !p c))).length =
      (encodeAll cs).length := by
  induction cs with
  | nil => rfl
  | cons c cs ih =>
    cases hp : p c <;> simp only [List.filter_cons,hp,Bool.not_true,Bool.not_false,if_true,
      Bool.false_eq_true,if_false,encodeAll_cons,List.length_append] <;> omega

theorem length_encodeAll_retime (time : Nat) (cs : List RawBox) :
    (encodeAll (cs.map (retime time))).length+(encodeAll (cs.filter isTfdt)).length =
      (encodeAll cs).length+20*(cs.filter isTfdt).length := by
  have h20 : (tfdtBox time).encode.length = 20 := by
    rw [(tfdtBox_fits time).length_encode,size_tfdtBox]
  induction cs with
  | nil => rfl
  | cons c cs ih =>
    cases hc : isTfdt c <;> simp only [List.map_cons,List.filter_cons,hc,retime,if_true,
      Bool.false_eq_true,if_false,encodeAll_cons,List.length_append,List.length_cons,h20] <;> omega

theorem filter_tfdt_of_not_tfhd (cs : List RawBox) :
    (cs.filter (fun c => !isTfhd c)).filter isTfdt = cs.filter isTfdt := by
  rw [List.filter_filter]
  apply List.filter_congr
  intro c _
  simp only [isTfdt,isTfhd]
  by_cases hc : c.kind = tagTfdt
  · simp [hc,tagTfdt,tagTfhd]
  · simp [hc]

/-- The children grow by a whole box if they have no `tfdt`, and otherwise by what the new
one is longer. -/
theorem length_newChildren (time : Nat) (cs : List RawBox) :
    (encodeAll (newChildren time cs)).length+(encodeAll (cs.filter isTfdt)).length =
      (encodeAll cs).length+20*(cs.filter isTfdt).length+(if cs.any isTfdt then 0 else 20) := by
  have h20 : (tfdtBox time).encode.length = 20 := by
    rw [(tfdtBox_fits time).length_encode,size_tfdtBox]
  have hretime := length_encodeAll_retime time (cs.filter (fun c => !isTfhd c))
  have hparts := length_encodeAll_filter isTfhd cs
  rw [filter_tfdt_of_not_tfhd] at hretime
  simp only [newChildren,encodeAll_append,List.length_append]
  by_cases hany : cs.any isTfdt
  · simp only [hany,if_true,encodeAll_nil,List.length_nil]
    omega
  · simp only [hany,Bool.false_eq_true,if_false,encodeAll_cons,encodeAll_nil,List.append_nil,h20]
    omega

end Sizes

end OpenBroadcast.Media
