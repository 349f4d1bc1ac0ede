import OpenBroadcast.Media.ChildBoxes
import OpenBroadcast.Media.Parser

namespace OpenBroadcast.Media

open RawBox

section Panics

theorem OnlyPanics.map {α β : Type} {x : Except Mp4Error α} (h : OnlyPanics x) (f : α → β) :
    OnlyPanics (x.map f) := by
  intro message hx
  cases x with
  | error e =>
    cases hx
    exact h message rfl
  | ok a => cases hx

theorem onlyPanics_attempt {α : Type} (x : Except Mp4Error α) : OnlyPanics (attempt x) := by
  intro message h
  unfold attempt at h
  split at h <;> cases h

theorem attempt_panics_iff {α : Type} {x : Except Mp4Error α} :
    attempt x = .error .panic ↔ x = .error .panic := by
  unfold attempt
  constructor
  · intro h
    split at h
    · rfl
    · cases h
  · intro h
    rw [h]

theorem failsOnlyWith_panic {σ α : Type} {act : σ → α → Except Mp4Error σ}
    (h : ∀ s a, OnlyPanics (act s a)) : FailsOnlyWith act .panic := by
  intro s a e he
  cases e with
  | io message => exact absurd he (h s a message)
  | panic => rfl

theorem onlyPanics_foldlM {σ α : Type} {act : σ → α → Except Mp4Error σ}
    (h : ∀ s a, OnlyPanics (act s a)) (l : List α) (s : σ) : OnlyPanics (l.foldlM act s) := by
  induction l generalizing s with
  | nil => exact .ok s
  | cons a l ih =>
    rw [List.foldlM_cons]
    exact (h s a).bind ih

theorem bind_panics_iff {α β : Type} {x : Except Mp4Error α} {f : α → Except Mp4Error β}
    (h : ∀ a, x = .ok a → f a ≠ .error .panic) :
    x >>= f = .error .panic ↔ x = .error .panic := by
  cases hx : x with
  | error e => cases e <;> simp [bind,Except.bind]
  | ok a =>
    have hf := h a hx
    constructor
    · intro hbind
      exact absurd hbind hf
    · intro hok
      cases hok

theorem not_iff_returns {α : Type} {x : Except Mp4Error α} {P : Prop}
    (h : x = .error .panic ↔ ¬ P) : x ≠ .error .panic ↔ P := by
  rw [ne_eq,h,not_not]

/-- Code in two steps returns if the first step does, and the second one does on its result. -/
theorem bind_returns_iff {α β : Type} {x : Except Mp4Error α} {f : α → Except Mp4Error β} :
    x >>= f ≠ .error .panic ↔ x ≠ .error .panic ∧ ∀ a, x = .ok a → f a ≠ .error .panic := by
  cases x with
  | error e => simp [bind,Except.bind]
  | ok a => simp [bind,Except.bind]

theorem OnlyPanics.returns_iff {α : Type} {x : Except Mp4Error α} (h : OnlyPanics x) :
    x ≠ .error .panic ↔ ∃ a, x = .ok a := by
  cases hx : x with
  | error e =>
    cases e with
    | io message => exact absurd hx (h message)
    | panic => simp
  | ok a => simp

end Panics

section Steps

/-- The steps of the loops, for a box that is all there. -/
def stblAct (mediaType : String) (s : StblState) (kind content : Bytes) :
    Except Mp4Error StblState :=
  if kind = tagStsd then do
    let result ← attempt (parseStsdBox content mediaType)
    return { s with codecResult := some result }
  else .ok { s with table := s.table.update kind content }

def mdiaAct (s : MdiaState) (kind content : Bytes) : Except Mp4Error MdiaState :=
  if kind = tagMdhd then
    .ok (if content.length < 20 then s else { s with
      timescale := (readU32 12 content).toNat
      duration := (readU32 16 content).toNat })
  else if kind = tagHdlr then
    .ok (if content.length < 12 then s
      else { s with mediaType := fromUtf8Lossy ((content.drop 8).take 4) })
  else if kind = tagMinf then do
    let (result,pending) ← parseMinfBox content s.mediaType s.pending
    return { s with codec := result.toOption.getD s.codec, pending := pending }
  else .ok s

def trakAct (s : TrakState) (kind content : Bytes) : Except Mp4Error TrakState :=
  if kind = tagTkhd then
    .ok (if content.length < 16 then s else { s with trackId := readU32 12 content })
  else if kind = tagMdia then do
    let mdia ← parseMdiaBox content s.mdia.pending
    return { s with mdia := mdia }
  else .ok s

/-- A `tkhd` that is read but has no track id is skipped once more. -/
def trakSkip (kind : Bytes) (contentSize : Nat) : Nat :=
  if kind = tagTkhd ∧ 12 ≤ contentSize ∧ contentSize < 16 then contentSize+contentSize
  else contentSize

theorem stblStep_acts (mediaType : String) :
    Acts (stblStep mediaType) plainSkip (stblAct mediaType) := by
  constructor
  · intro s kind n rest h
    unfold stblStep stblAct
    rw [readExact_whole h]
    dsimp only
    split_ifs
    · cases attempt (parseStsdBox (rest.take n) mediaType) <;> rfl
    · rfl
  · intro s kind n rest h
    unfold stblStep
    rw [readExact_cut h]

/-- A box with a header of its own is read if it is all there and large enough. -/
theorem parseHeaderBox_whole {α : Type} {least n : Nat} {message : String}
    {value : Bytes → Except Mp4Error α} {rest : Bytes} (h : n ≤ rest.length) :
    parseHeaderBox least message value n rest =
      if n < least then (.error (.io message),rest) else (value (rest.take n),rest.drop n) := by
  unfold parseHeaderBox
  rw [readExact_whole h]

theorem parseHeaderBox_cut {α S : Type} {least n : Nat} {message : String}
    {value : Bytes → Except Mp4Error α} {rest : Bytes} (h : rest.length < n) (s : S) (set : α → S) :
    orSkip (parseHeaderBox least message value n rest) n s set = (s,[]) := by
  have hend : rest.drop n = [] := List.drop_eq_nil_iff.mpr (le_of_lt h)
  unfold parseHeaderBox
  rw [readExact_cut h]
  split_ifs <;> simp [orSkip,hend]

theorem mdiaStep_acts : Acts mdiaStep plainSkip mdiaAct := by
  constructor
  · intro s kind n rest h
    have hlength : (rest.take n).length = n := by rw [List.length_take,Nat.min_eq_left h]
    unfold mdiaStep mdiaAct parseMdhdBox parseHdlrBox
    rw [parseHeaderBox_whole h,parseHeaderBox_whole h,readExact_whole h,hlength]
    by_cases hmdhd : kind = tagMdhd
    · rw [if_pos hmdhd,if_pos hmdhd]
      split_ifs <;> rfl
    rw [if_neg hmdhd,if_neg hmdhd]
    by_cases hhdlr : kind = tagHdlr
    · rw [if_pos hhdlr,if_pos hhdlr]
      split_ifs <;> rfl
    rw [if_neg hhdlr,if_neg hhdlr]
    split_ifs
    · dsimp only
      cases parseMinfBox (rest.take n) s.mediaType s.pending <;> rfl
    · rfl
  · intro s kind n rest h
    have hend : rest.drop n = [] := List.drop_eq_nil_iff.mpr (le_of_lt h)
    unfold mdiaStep parseMdhdBox parseHdlrBox
    rw [parseHeaderBox_cut h,parseHeaderBox_cut h,readExact_cut h,hend]
    split_ifs <;> rfl

theorem trakStep_acts : Acts trakStep trakSkip trakAct := by
  constructor
  · intro s kind n rest h
    have hlength : (rest.take n).length = n := by rw [List.length_take,Nat.min_eq_left h]
    unfold trakStep trakAct parseTkhdBox trakSkip
    rw [parseHeaderBox_whole h,readExact_whole h,hlength]
    dsimp only
    by_cases htkhd : kind = tagTkhd
    · rw [if_pos htkhd,if_pos htkhd]
      by_cases hsmall : n < 12
      · have hread : ¬ (kind = tagTkhd ∧ 12 ≤ n ∧ n < 16) := by omega
        have hid : n < 16 := by omega
        rw [if_pos hsmall,if_pos hid,if_neg hread]
        rfl
      · by_cases hid : n < 16
        · have hread : kind = tagTkhd ∧ 12 ≤ n ∧ n < 16 := ⟨htkhd,by omega,hid⟩
          have hno : ¬ 16 ≤ n := by omega
          rw [if_neg hsmall,if_neg hno,if_pos hid,if_pos hread,← List.drop_drop]
          rfl
        · have hread : ¬ (kind = tagTkhd ∧ 12 ≤ n ∧ n < 16) := by omega
          have hyes : 16 ≤ n := by omega
          rw [if_neg hsmall,if_pos hyes,if_neg hid,if_neg hread]
          rfl
    · have hread : ¬ (kind = tagTkhd ∧ 12 ≤ n ∧ n < 16) := fun hand => htkhd hand.1
      rw [if_neg htkhd,if_neg htkhd,if_neg hread]
      split_ifs
      · cases parseMdiaBox (rest.take n) s.mdia.pending <;> rfl
      · rfl
  · intro s kind n rest h
    have hend : rest.drop n = [] := List.drop_eq_nil_iff.mpr (le_of_lt h)
    unfold trakStep parseTkhdBox
    rw [parseHeaderBox_cut h,readExact_cut h,hend]
    split_ifs <;> rfl

section Minf

variable (mediaType : String) (pending : Option SampleTable)
  (s : Option (Except Mp4Error CodecInfo × Option SampleTable))

theorem minfStep_stbl {n : Nat} {rest : Bytes} (h : n ≤ rest.length) :
    minfStep mediaType pending s tagStbl n rest =
      (parseStblBox (rest.take n) mediaType pending).map (fun r => (some r,[])) := by
  unfold minfStep
  rw [if_pos rfl,readExact_whole h]
  dsimp only
  cases parseStblBox (rest.take n) mediaType pending <;> rfl

theorem minfStep_other {kind : Bytes} (h : kind ≠ tagStbl) (n : Nat) (rest : Bytes) :
    minfStep mediaType pending s kind n rest = .ok (s,rest.drop n) := if_neg h

theorem minfStep_cut {n : Nat} {rest : Bytes} (h : rest.length < n) (kind : Bytes) :
    minfStep mediaType pending s kind n rest = .ok (s,[]) := by
  unfold minfStep
  rw [readExact_cut h,List.drop_eq_nil_iff.mpr (le_of_lt h)]
  split_ifs <;> rfl

/-- The loop over a `minf` ends at its first `stbl`. -/
theorem childrenFrom_minfStep (n : Nat) (data : Bytes) :
    childrenFrom (minfStep mediaType pending) n data none =
      match (boxesFrom n data).find? (fun b => b.kind == tagStbl) with
      | none => .ok none
      | some stbl => (parseStblBox stbl.content mediaType pending).map some := by
  induction n generalizing data with
  | zero => rfl
  | succ n ih =>
    have hlength : (data.drop 8).length = data.length-8 := List.length_drop
    rw [childrenFrom,boxesFrom]
    dsimp only
    by_cases hheader : data.length < 8 ∨ beNat (data.take 4) < 8
    · rw [if_pos hheader,if_pos (by omega)]
      rfl
    rw [if_neg hheader]
    by_cases hall : beNat (data.take 4) ≤ data.length
    · have hskip : (data.drop 8).drop (beNat (data.take 4)-8) = data.drop (beNat (data.take 4)) := by
        rw [List.drop_drop]
        congr 1
        omega
      rw [if_neg (by omega)]
      by_cases hstbl : (data.drop 4).take 4 = tagStbl
      · rw [List.find?_cons_of_pos (by simpa using hstbl),hstbl,minfStep_stbl _ _ _ (by omega)]
        dsimp only
        rw [BoxAt.content_mk]
        cases parseStblBox ((data.drop 8).take (beNat (data.take 4)-8)) mediaType pending with
        | error e => rfl
        | ok r => exact childrenFrom_nil n _
      · rw [List.find?_cons_of_neg (by simpa using hstbl),minfStep_other _ _ _ hstbl,hskip]
        exact ih _
    · rw [if_pos (by omega),minfStep_cut _ _ _ (by omega)]
      exact childrenFrom_nil n _

end Minf

end Steps

section SampleDescription

variable {data : Bytes} {mediaType : String} {pending : Option SampleTable}

/-- Where the content of an `stsd` begins with an `avc1` entry, the first `avcC` box that the search
accepts is not so short that it ends before the level byte. -/
def SafeStsd (stsd : Bytes) : Prop :=
  16 ≤ stsd.length → fromUtf8Lossy ((stsd.drop 12).take 4) = "avc1" →
    ∀ config, findEntry tagAvcC 11 (stsd.drop 16) = some config → 4 ≤ config.length

theorem extractAvcProfile_panics_iff :
    extractAvcProfile data = .error .panic ↔
      ∃ config, findEntry tagAvcC 11 data = some config ∧ config.length < 4 := by
  unfold extractAvcProfile
  cases findEntry tagAvcC 11 data with
  | none => simp
  | some config =>
    dsimp only
    by_cases h : config.length < 4
    · simp [h]
    · simp [h]

theorem parseStsdBox_panics_iff :
    parseStsdBox data mediaType = .error .panic ↔ mediaType = "vide" ∧ ¬ SafeStsd data := by
  have hdrops : (data.drop 8).drop 8 = data.drop 16 := List.drop_drop
  have hformat : ((data.drop 8).drop 4).take 4 = (data.drop 12).take 4 := by rw [List.drop_drop]
  have hlength : (data.drop 8).length = data.length-8 := List.length_drop
  unfold parseStsdBox SafeStsd
  by_cases hsmall : data.length < 16
  · have hshort : (data.drop 8).length < 8 := by omega
    by_cases htiny : data.length < 8
    · rw [if_pos htiny]
      simp [hsmall]
    · rw [if_neg htiny]
      dsimp only
      rw [if_pos hshort]
      simp [hsmall]
  · rw [if_neg (by omega)]
    dsimp only
    rw [if_neg (by omega),hdrops,hformat]
    by_cases havc : mediaType = "vide" ∧ fromUtf8Lossy ((data.drop 12).take 4) = "avc1"
    · have hrest : ∀ profile, extractAvcProfile (data.drop 16) = .ok profile →
          (pure ⟨"H.264","video/mp4; codecs=\"avc1."++profile++"\"",some profile⟩ :
            Except Mp4Error CodecInfo) ≠ .error .panic := by
        intro profile _ h
        cases h
      rw [if_pos havc,bind_panics_iff hrest,extractAvcProfile_panics_iff]
      simp [havc,Nat.not_lt.mp hsmall]
    · rw [if_neg havc]
      have hright : ¬ (mediaType = "vide" ∧ ¬ (16 ≤ data.length →
          fromUtf8Lossy ((data.drop 12).take 4) = "avc1" → ∀ config,
            findEntry tagAvcC 11 (data.drop 16) = some config → 4 ≤ config.length)) := by
        intro h
        exact h.2 (fun _ hformat => absurd ⟨h.1,hformat⟩ havc)
      constructor
      · intro h
        split_ifs at h
        cases h
      · intro h
        exact absurd h hright

end SampleDescription

section Nesting

variable {data mdia : Bytes} {mediaType : String} {pending : Option SampleTable}

def SafeStbl (stbl : Bytes) : Prop := ∀ b ∈ boxesIn stbl, b.kind = tagStsd → SafeStsd b.content

/-- Only the first `stbl` is looked at. -/
def SafeMinf (minf : Bytes) : Prop :=
  ∀ stbl, (boxesIn minf).find? (fun b => b.kind == tagStbl) = some stbl → SafeStbl stbl.content

/-- The handler type after a box. -/
def nextHandler (mediaType : String) (b : BoxAt) : String :=
  if b.kind = tagHdlr ∧ 12 ≤ b.content.length then fromUtf8Lossy ((b.content.drop 8).take 4)
  else mediaType

/-- Every `minf` behind a `hdlr` for video is safe. -/
def SafeMdia (mdia : Bytes) : Prop :=
  ∀ pre b post, boxesIn mdia = pre++b::post → b.kind = tagMinf →
    pre.foldl nextHandler "" = "vide" → SafeMinf b.content

/-- The boxes that the loop over a `trak` meets. -/
def trakBoxes (trak : Bytes) : List BoxAt := walkFrom trakSkip trak.length trak

def SafeTrak (trak : Bytes) : Prop := ∀ b ∈ trakBoxes trak, b.kind = tagMdia → SafeMdia b.content

def SafeMoov (moov : Bytes) : Prop := ∀ b ∈ traks moov, SafeTrak b.content

theorem stblAct_panics_iff (s : StblState) (b : BoxAt) :
    stblAct mediaType s b.kind b.content = .error .panic ↔
      b.kind = tagStsd ∧ mediaType = "vide" ∧ ¬ SafeStsd b.content := by
  unfold stblAct
  by_cases hstsd : b.kind = tagStsd
  · rw [if_pos hstsd,bind_panics_iff (fun _ _ h => by cases h),attempt_panics_iff,
      parseStsdBox_panics_iff]
    simp [hstsd]
  · rw [if_neg hstsd]
    simp [hstsd]

theorem onlyPanics_stblAct (s : StblState) (b : BoxAt) :
    OnlyPanics (stblAct mediaType s b.kind b.content) := by
  unfold stblAct
  split_ifs
  · exact (onlyPanics_attempt _).bind (fun _ => .ok _)
  · exact .ok _

theorem onlyPanics_parseStblBox : OnlyPanics (parseStblBox data mediaType pending) := by
  unfold parseStblBox
  rw [(stblStep_acts mediaType).children_eq]
  exact (onlyPanics_foldlM onlyPanics_stblAct _ _).bind (fun _ => .ok _)

theorem walkFrom_plainSkip (data : Bytes) : walkFrom plainSkip data.length data = boxesIn data :=
  walkFrom_plain _ _

theorem parseStblBox_panics_iff :
    parseStblBox data mediaType pending = .error .panic ↔ mediaType = "vide" ∧ ¬ SafeStbl data := by
  unfold parseStblBox
  rw [bind_panics_iff (fun _ _ h => by cases h),(stblStep_acts mediaType).children_eq,
    foldlM_fails_iff_mem (failsOnlyWith_panic onlyPanics_stblAct) stblAct_panics_iff,
    walkFrom_plainSkip]
  unfold SafeStbl
  push Not
  constructor
  · intro h
    obtain ⟨b,hb,hkind,hvide,hnot⟩ := h
    exact ⟨hvide,b,hb,hkind,hnot⟩
  · intro h
    obtain ⟨hvide,b,hb,hkind,hnot⟩ := h
    exact ⟨b,hb,hkind,hvide,hnot⟩

theorem children_minfStep (mediaType : String) (pending : Option SampleTable) (data : Bytes) :
    children (minfStep mediaType pending) data none =
      match (boxesIn data).find? (fun b => b.kind == tagStbl) with
      | none => .ok none
      | some stbl => (parseStblBox stbl.content mediaType pending).map some :=
  childrenFrom_minfStep mediaType pending data.length data

theorem onlyPanics_parseMinfBox : OnlyPanics (parseMinfBox data mediaType pending) := by
  unfold parseMinfBox
  rw [children_minfStep]
  apply OnlyPanics.bind
  · cases (boxesIn data).find? (fun b => b.kind == tagStbl) with
    | none => exact .ok _
    | some stbl => exact onlyPanics_parseStblBox.map _
  · exact fun _ => .ok _

theorem map_panics_iff {α β : Type} {x : Except Mp4Error α} {f : α → β} :
    x.map f = .error .panic ↔ x = .error .panic := by
  cases x <;> simp [Except.map]

theorem parseMinfBox_panics_iff :
    parseMinfBox data mediaType pending = .error .panic ↔ mediaType = "vide" ∧ ¬ SafeMinf data := by
  unfold parseMinfBox
  rw [bind_panics_iff (fun _ _ h => by cases h),children_minfStep]
  unfold SafeMinf
  cases hfind : (boxesIn data).find? (fun b => b.kind == tagStbl) with
  | none => simp
  | some stbl =>
    dsimp only
    rw [map_panics_iff,parseStblBox_panics_iff]
    simp

/-- A `minf` that is not safe where the handler type is known to be that of video. -/
def UnsafeMinf (mediaType : String) (b : BoxAt) : Prop :=
  b.kind = tagMinf ∧ mediaType = "vide" ∧ ¬ SafeMinf b.content

theorem mdiaAct_panics_iff (s : MdiaState) (b : BoxAt) :
    mdiaAct s b.kind b.content = .error .panic ↔ UnsafeMinf s.mediaType b := by
  have hmdhd : tagMdhd ≠ tagMinf := by decide
  have hhdlr : tagHdlr ≠ tagMinf := by decide
  unfold mdiaAct UnsafeMinf
  split_ifs with h₁ h₂ h₃
  · simp [h₁,hmdhd]
  · simp [h₂,hhdlr]
  · rw [bind_panics_iff (fun _ _ h => by cases h),parseMinfBox_panics_iff]
    simp [h₃]
  · simp [h₃]

theorem onlyPanics_mdiaAct (s : MdiaState) (b : BoxAt) :
    OnlyPanics (mdiaAct s b.kind b.content) := by
  unfold mdiaAct
  by_cases hmdhd : b.kind = tagMdhd
  · rw [if_pos hmdhd]
    exact .ok _
  by_cases hhdlr : b.kind = tagHdlr
  · rw [if_neg hmdhd,if_pos hhdlr]
    exact .ok _
  rw [if_neg hmdhd,if_neg hhdlr]
  split_ifs
  · exact onlyPanics_parseMinfBox.bind (fun _ => .ok _)
  · exact .ok _

theorem mdiaAct_mediaType (s : MdiaState) (b : BoxAt) (s' : MdiaState)
    (h : mdiaAct s b.kind b.content = .ok s') : s'.mediaType = nextHandler s.mediaType b := by
  have hmdhd : tagMdhd ≠ tagHdlr := by decide
  have hminf : tagMinf ≠ tagHdlr := by decide
  unfold mdiaAct at h
  unfold nextHandler
  split_ifs at h with h₁ h₂ h₃ h₄ h₅
  · cases h
    simp [h₁,hmdhd]
  · cases h
    simp [h₁,hmdhd]
  · cases h
    simp [h₄]
  · cases h
    have hlong : 12 ≤ b.content.length := by omega
    simp [h₃,hlong]
  · obtain ⟨r,_,h⟩ := bind_eq_ok.mp h
    cases h
    simp [h₅,hminf]
  · cases h
    simp [h₃]

theorem parseMdiaBox_panics_iff :
    parseMdiaBox data pending = .error .panic ↔ ¬ SafeMdia data := by
  unfold parseMdiaBox
  rw [mdiaStep_acts.children_eq,walkFrom_plainSkip,
    foldlM_fails_iff (failsOnlyWith_panic onlyPanics_mdiaAct) mdiaAct_panics_iff mdiaAct_mediaType]
  unfold SafeMdia UnsafeMinf
  push Not
  rfl

theorem onlyPanics_parseMdiaBox : OnlyPanics (parseMdiaBox data pending) := by
  unfold parseMdiaBox
  rw [mdiaStep_acts.children_eq]
  exact onlyPanics_foldlM onlyPanics_mdiaAct _ _

theorem trakAct_panics_iff (s : TrakState) (b : BoxAt) :
    trakAct s b.kind b.content = .error .panic ↔ b.kind = tagMdia ∧ ¬ SafeMdia b.content := by
  have htkhd : tagTkhd ≠ tagMdia := by decide
  unfold trakAct
  split_ifs with h₁ h₂
  · simp [h₁,htkhd]
  · rw [bind_panics_iff (fun _ _ h => by cases h),parseMdiaBox_panics_iff]
    simp [h₂]
  · simp [h₂]

theorem onlyPanics_trakAct (s : TrakState) (b : BoxAt) :
    OnlyPanics (trakAct s b.kind b.content) := by
  unfold trakAct
  by_cases htkhd : b.kind = tagTkhd
  · rw [if_pos htkhd]
    exact .ok _
  rw [if_neg htkhd]
  split_ifs
  · exact onlyPanics_parseMdiaBox.bind (fun _ => .ok _)
  · exact .ok _

theorem parseTrakBox_panics_iff : parseTrakBox data = .error .panic ↔ ¬ SafeTrak data := by
  unfold parseTrakBox
  rw [bind_panics_iff (fun _ _ h => by split_ifs at h <;> cases h),trakStep_acts.children_eq,
    foldlM_fails_iff_mem (failsOnlyWith_panic onlyPanics_trakAct) trakAct_panics_iff]
  unfold SafeTrak trakBoxes
  push Not
  rfl

theorem onlyPanics_parseTrakBox : OnlyPanics (parseTrakBox data) := by
  unfold parseTrakBox
  rw [trakStep_acts.children_eq]
  apply (onlyPanics_foldlM onlyPanics_trakAct _ _).bind
  intro s
  split_ifs
  · exact .ok _
  · exact .ok _

theorem parseMoovBox_panics_iff (m : MoovState) :
    parseMoovBox m data = .error .panic ↔ ¬ SafeMoov data := by
  have honly : ∀ m trak, OnlyPanics (addTrak m trak) :=
    fun _ _ => onlyPanics_parseTrakBox.bind (fun _ => .ok _)
  have hbad : ∀ m trak, addTrak m trak = .error .panic ↔ ¬ SafeTrak trak.content := by
    intro m trak
    unfold addTrak
    rw [bind_panics_iff (fun _ _ h => by cases h)]
    exact parseTrakBox_panics_iff
  rw [parseMoovBox_eq,foldlM_fails_iff_mem (failsOnlyWith_panic honly) hbad]
  unfold SafeMoov
  push Not
  rfl

theorem onlyPanics_parseMoovBox (m : MoovState) : OnlyPanics (parseMoovBox m data) := by
  rw [parseMoovBox_eq]
  exact onlyPanics_foldlM (fun _ _ => onlyPanics_parseTrakBox.bind (fun _ => .ok _)) _ _

end Nesting

section Loops

theorem findEntryFrom_enough {kind : Bytes} {least n m : Nat} {data : Bytes}
    (hn : data.length ≤ n) (hm : data.length ≤ m) :
    findEntryFrom kind least n data = findEntryFrom kind least m data := by
  induction n generalizing m data with
  | zero =>
    have hnil : data = [] := List.length_eq_zero_iff.mp (by omega)
    subst hnil
    cases m <;> simp [findEntryFrom]
  | succ n ih =>
    cases m with
    | zero =>
      have hnil : data = [] := List.length_eq_zero_iff.mp (by omega)
      subst hnil
      simp [findEntryFrom]
    | succ m =>
      rw [findEntryFrom,findEntryFrom]
      split_ifs
      · rfl
      · rfl
      · apply ih <;> rw [List.length_drop] <;> omega
      · rfl

theorem skipLength_enough {data : Bytes} {n m offset : Nat} (hn : data.length ≤ offset+n)
    (hm : data.length ≤ offset+m) :
    Indexed.skipLength data n offset = Indexed.skipLength data m offset := by
  induction n generalizing m offset with
  | zero =>
    have hend : ¬ offset < data.length := by omega
    cases m with
    | zero => rfl
    | succ m => simp [Indexed.skipLength,hend]
  | succ n ih =>
    cases m with
    | zero =>
      have hend : ¬ offset < data.length := by omega
      simp [Indexed.skipLength,hend]
    | succ m =>
      have hnext := @ih m (offset+1) (by omega) (by omega)
      simp only [Indexed.skipLength,hnext]

theorem findTag_enough {data : Bytes} {tag : UInt8} {margin n m offset : Nat}
    (hn : data.length ≤ offset+n) (hm : data.length ≤ offset+m) :
    Indexed.findTag data tag margin n offset = Indexed.findTag data tag margin m offset := by
  induction n generalizing m offset with
  | zero =>
    have hend : ¬ offset+margin < data.length := by omega
    cases m with
    | zero => rfl
    | succ m => simp [Indexed.findTag,hend]
  | succ n ih =>
    cases m with
    | zero =>
      have hend : ¬ offset+margin < data.length := by omega
      simp [Indexed.findTag,hend]
    | succ m =>
      have hnext := @ih m (offset+1) (by omega) (by omega)
      simp only [Indexed.findTag,hnext]

/-- Every loop of the parser ends by itself within as many rounds as its data has bytes. -/
structure LoopsEnd : Prop where
  file : ∀ (s : ParserState) n start data, data.length ≤ n →
    s.parseFrom n start data = s.parseFrom data.length start data
  moov : ∀ m n data, data.length ≤ n → childrenFrom moovStep n data m = children moovStep data m
  trak : ∀ s n data, data.length ≤ n → childrenFrom trakStep n data s = children trakStep data s
  mdia : ∀ s n data, data.length ≤ n → childrenFrom mdiaStep n data s = children mdiaStep data s
  minf : ∀ mediaType pending n data, data.length ≤ n →
    childrenFrom (minfStep mediaType pending) n data none =
      children (minfStep mediaType pending) data none
  stbl : ∀ mediaType s n data, data.length ≤ n →
    childrenFrom (stblStep mediaType) n data s = children (stblStep mediaType) data s
  entry : ∀ kind least n data, data.length ≤ n →
    findEntryFrom kind least n data = findEntry kind least data
  tag : ∀ tag margin n offset data, data.length ≤ n →
    Indexed.findTag data tag margin n offset = Indexed.findTag data tag margin data.length offset
  length : ∀ n offset data, data.length ≤ n →
    Indexed.skipLength data n offset = Indexed.skipLength data data.length offset

theorem parseFrom_enough {n m start : Nat} {data : Bytes} (hn : data.length ≤ n)
    (hm : data.length ≤ m) (s : ParserState) :
    s.parseFrom n start data = s.parseFrom m start data := by
  induction n generalizing m start data s with
  | zero =>
    have hnil : data = [] := List.length_eq_zero_iff.mp (by omega)
    subst hnil
    cases m <;> rfl
  | succ n ih =>
    cases data with
    | nil => cases m <;> rfl
    | cons x data =>
      cases m with
      | zero => simp at hm
      | succ m =>
        rw [ParserState.parseFrom,ParserState.parseFrom]
        · cases hb : parseBox start (x::data) with
          | error e => cases e <;> rfl
          | ok r =>
            obtain ⟨b,rest⟩ := r
            have hrest := parseBox_rest_lt hb
            have htail : ∀ s : ParserState, s.parseFrom n (start+b.header.size) rest =
                s.parseFrom m (start+b.header.size) rest :=
              fun s => ih (by omega) (by omega) s
            exact bind_congr htail
        · simp
        · simp

theorem loopsEnd : LoopsEnd where
  file := fun s _ _ _ hn => parseFrom_enough hn (le_refl _) s
  moov := fun m _ _ hn => moovStep_acts.enough hn m
  trak := fun s _ _ hn => trakStep_acts.enough hn s
  mdia := fun s _ _ hn => mdiaStep_acts.enough hn s
  minf := by
    intro mediaType pending n data hn
    rw [childrenFrom_minfStep,children_minfStep,boxesIn,boxesFrom_enough hn (le_refl _)]
  stbl := fun mediaType s _ _ hn => (stblStep_acts mediaType).enough hn s
  entry := fun _ _ _ _ hn => findEntryFrom_enough hn (le_refl _)
  tag := fun _ _ _ _ _ hn => findTag_enough (by omega) (by omega)
  length := fun _ _ _ hn => skipLength_enough (by omega) (by omega)

end Loops

section File

/-- What is left of the file at each box header that is read. -/
def headersFrom : Nat → Bytes → List Bytes
  | 0,_ => []
  | n+1,data =>
    if data.length < 8 then []
    else
      match parseSize data with
      | .error _ => []
      | .ok (size,header) =>
        data::(if header ≤ size ∧ size-header < 2^63 ∧ size ≤ data.length then
          headersFrom n (data.drop size) else [])

/-- The size of a box is at least that of its header, its content can be allocated, and if it is
a `moov` that is all there, then this is safe. -/
def SafeBox (rest : Bytes) : Prop :=
  ∀ size header, parseSize rest = .ok (size,header) → header ≤ size ∧ size-header < 2^63 ∧
    (size ≤ rest.length → (rest.drop 4).take 4 = tagMoov →
      SafeMoov ((rest.drop header).take (size-header)))

def SafeBoxes (data : Bytes) : Prop := ∀ rest ∈ headersFrom data.length data, SafeBox rest

namespace ParserState

theorem addBox_panics_iff (s : ParserState) (b : Mp4Box) :
    s.addBox b = .error .panic ↔ b.header.boxType = tagMoov ∧ ¬ SafeMoov b.content := by
  unfold addBox boxTracks
  rw [bind_panics_iff (fun _ _ h => by cases h)]
  by_cases hmoov : b.header.boxType = tagMoov
  · rw [if_pos hmoov,parseMoovBox_panics_iff]
    simp [hmoov]
  · rw [if_neg hmoov]
    simp [hmoov]

theorem onlyPanics_addBox (s : ParserState) (b : Mp4Box) : OnlyPanics (s.addBox b) := by
  unfold addBox boxTracks
  apply OnlyPanics.bind
  · split_ifs
    · exact onlyPanics_parseMoovBox _
    · exact .ok _
  · exact fun _ => .ok _

/-- What `parse_box` makes of a header that has been read. -/
theorem parseBox_of_size {data : Bytes} {size header : Nat} (h : ¬ data.length < 8)
    (hs : parseSize data = .ok (size,header)) (start : Nat) :
    parseBox start data =
      if size < header then .error .panic
      else if 2^63 ≤ size-header then .error .panic
      else if data.length < size then .error eof
      else .ok (⟨⟨(data.drop 4).take 4,size,start+header⟩,
        (data.drop header).take (size-header)⟩,data.drop size) := by
  unfold parseBox
  rw [if_neg h,hs]
  rfl

theorem parseSize_error {data : Bytes} {e : Mp4Error} (h : parseSize data = .error e) : e = eof := by
  simp only [parseSize] at h
  split_ifs at h
  cases h
  rfl

theorem parseBox_cut {data : Bytes} {e : Mp4Error} (start : Nat)
    (h : data.length < 8 ∨ parseSize data = .error e) : parseBox start data = .error eof := by
  unfold parseBox
  by_cases h8 : data.length < 8
  · rw [if_pos h8]
  · rw [if_neg h8]
    rcases h with h | h
    · exact absurd h h8
    · rw [h,parseSize_error h]
      rfl

theorem safeBox_iff {rest : Bytes} {size header : Nat} (hs : parseSize rest = .ok (size,header)) :
    SafeBox rest ↔ header ≤ size ∧ size-header < 2^63 ∧
      (size ≤ rest.length → (rest.drop 4).take 4 = tagMoov →
        SafeMoov ((rest.drop header).take (size-header))) := by
  constructor
  · intro h
    exact h size header hs
  · intro h size' header' hs'
    rw [hs] at hs'
    cases hs'
    exact h

/-- A box that is added, and what is done then. -/
theorem addBox_bind_panics_iff (s : ParserState) (b : Mp4Box)
    {next : ParserState → Except Mp4Error ParserState} {P : Prop}
    (hnext : ∀ s', next s' = .error .panic ↔ P) :
    (s.addBox b >>= next) = .error .panic ↔
      (b.header.boxType = tagMoov ∧ ¬ SafeMoov b.content) ∨ P := by
  have hadd := addBox_panics_iff s b
  cases hb : s.addBox b with
  | error e =>
    have he := failsOnlyWith_panic onlyPanics_addBox s b e hb
    subst he
    exact iff_of_true rfl (Or.inl (hadd.mp hb))
  | ok s' =>
    have hsafe : ¬ (b.header.boxType = tagMoov ∧ ¬ SafeMoov b.content) := by
      intro hnot
      rw [hadd.mpr hnot] at hb
      cases hb
    show next s' = _ ↔ _
    rw [hnext,or_iff_right hsafe]

theorem parseFrom_panics_iff (n start : Nat) (data : Bytes) (s : ParserState) :
    s.parseFrom n start data = .error .panic ↔ ∃ rest ∈ headersFrom n data, ¬ SafeBox rest := by
  induction n generalizing start data s with
  | zero => cases data <;> simp [parseFrom,headersFrom]
  | succ n ih =>
    by_cases hnil : data = []
    · rw [hnil]
      simp [parseFrom,headersFrom]
    rw [parseFrom,headersFrom]
    · by_cases h8 : data.length < 8
      · rw [if_pos h8,parseBox_cut (e := eof) start (Or.inl h8)]
        simp [eof]
      rw [if_neg h8]
      cases hs : parseSize data with
      | error e =>
        rw [parseBox_cut start (Or.inr hs)]
        simp [eof]
      | ok r =>
        obtain ⟨size,header⟩ := r
        dsimp only
        rw [parseBox_of_size h8 hs,List.exists_mem_cons_iff,safeBox_iff hs]
        by_cases hlt : size < header
        · rw [if_pos hlt]
          exact ⟨fun _ => Or.inl (by omega),fun _ => rfl⟩
        by_cases hbig : 2^63 ≤ size-header
        · rw [if_neg hlt,if_pos hbig]
          exact ⟨fun _ => Or.inl (by omega),fun _ => rfl⟩
        rw [if_neg hlt,if_neg hbig]
        by_cases hcut : data.length < size
        · have hno : ¬ (header ≤ size ∧ size-header < 2^63 ∧ size ≤ data.length) := by omega
          have hsafe : header ≤ size ∧ size-header < 2^63 ∧ (size ≤ data.length →
              (data.drop 4).take 4 = tagMoov →
              SafeMoov ((data.drop header).take (size-header))) :=
            ⟨by omega,by omega,fun hle => absurd hle (by omega)⟩
          rw [if_pos hcut,if_neg hno]
          show (.ok s : Except Mp4Error ParserState) = .error .panic ↔ _
          constructor
          · intro h
            cases h
          · intro h
            obtain ⟨_,hrest,_⟩ := h.resolve_left (fun hnot => hnot hsafe)
            cases hrest
        · have hyes : header ≤ size ∧ size-header < 2^63 ∧ size ≤ data.length := by omega
          have hall := hyes.2.2
          rw [if_neg hcut,if_pos hyes]
          show (s.addBox _ >>= fun s' => s'.parseFrom n (start+size) (data.drop size)) = _ ↔ _
          rw [addBox_bind_panics_iff s _ (fun s' => ih (start+size) (data.drop size) s')]
          apply or_congr_left
          constructor
          · rintro ⟨hkind,hnot⟩ hsafe
            exact hnot (hsafe.2.2 hall hkind)
          · intro hnot
            by_contra hsafe
            push Not at hsafe
            exact hnot ⟨hyes.1,hyes.2.1,fun _ => hsafe⟩
    · exact hnil

theorem parse_returns_iff (s : ParserState) (data : Bytes) :
    s.parse data ≠ .error .panic ↔ SafeBoxes data := by
  unfold parse SafeBoxes
  rw [ne_eq,parseFrom_panics_iff]
  push Not
  rfl

end ParserState

end File

end OpenBroadcast.Media
