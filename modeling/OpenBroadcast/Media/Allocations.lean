import OpenBroadcast.Media.ParserTotality

namespace OpenBroadcast.Media

open RawBox

section Walk

variable {S V : Type} {step : S → Bytes → Nat → Bytes → Except Mp4Error (S × Bytes)}
  {skip : Bytes → Nat → Nat} {act : S → Bytes → Bytes → Except Mp4Error S}

/-- What a loop over child boxes allocates as it goes. -/
def allocationsFrom (step : S → Bytes → Nat → Bytes → Except Mp4Error (S × Bytes))
    (alloc : S → BoxAt → List Nat) : Nat → Bytes → S → List Nat
  | 0,_,_ => []
  | n+1,data,s =>
    let boxSize := beNat (data.take 4)
    if data.length < 8 ∨ boxSize < 8 then []
    else
      let kind := (data.drop 4).take 4
      alloc s ⟨kind,boxSize,data⟩++
        match step s kind (boxSize-8) (data.drop 8) with
        | .ok (s,rest) => allocationsFrom step alloc n rest s
        | .error _ => []

/-- The boxes that a loop meets: those that are all there, and the one behind them that is not. -/
def metFrom (skip : Bytes → Nat → Nat) : Nat → Bytes → List BoxAt
  | 0,_ => []
  | n+1,data =>
    let boxSize := beNat (data.take 4)
    if data.length < 8 ∨ boxSize < 8 then []
    else
      let kind := (data.drop 4).take 4
      ⟨kind,boxSize,data⟩::
        if boxSize ≤ data.length then metFrom skip n ((data.drop 8).drop (skip kind (boxSize-8)))
        else []

def met (skip : Bytes → Nat → Nat) (data : Bytes) : List BoxAt := metFrom skip data.length data

/-- The box is all there. -/
def BoxAt.Ends (b : BoxAt) : Prop := b.size ≤ b.rest.length

instance (b : BoxAt) : Decidable b.Ends := inferInstanceAs (Decidable (b.size ≤ b.rest.length))

/-- What some boxes say, where it depends on those before them. -/
def sizesOf (next : V → BoxAt → V) (declared : V → BoxAt → List Nat) (v : V) :
    List BoxAt → List Nat
  | [] => []
  | b::bs => declared v b++sizesOf next declared (next v b) bs

theorem sizesOf_const (declared : V → BoxAt → List Nat) (v : V) (bs : List BoxAt) :
    sizesOf (fun v _ => v) declared v bs = bs.flatMap (declared v) := by
  induction bs with
  | nil => rfl
  | cons b bs ih => rw [sizesOf,ih,List.flatMap_cons]

theorem allocationsFrom_nil (alloc : S → BoxAt → List Nat) (n : Nat) (s : S) :
    allocationsFrom step alloc n [] s = [] := by
  cases n <;> rfl

/-- A loop that comes to its end allocates what the boxes say that it meets. -/
theorem Acts.allocationsFrom_eq (h : Acts step skip act) {alloc : S → BoxAt → List Nat}
    (view : S → V) (next : V → BoxAt → V) (declared : V → BoxAt → List Nat)
    (hview : ∀ s b s', act s b.kind b.content = .ok s' → view s' = next (view s) b)
    (halloc : ∀ s b, (b.Ends → ∃ s', act s b.kind b.content = .ok s') →
      alloc s b = declared (view s) b)
    (n : Nat) (data : Bytes) (s : S) (hok : ∃ s', childrenFrom step n data s = .ok s') :
    allocationsFrom step alloc n data s = sizesOf next declared (view s) (metFrom skip n data) := by
  induction n generalizing data s with
  | zero => rfl
  | succ n ih =>
    rw [allocationsFrom,metFrom]
    rw [childrenFrom] at hok
    dsimp only at hok ⊢
    by_cases hheader : data.length < 8 ∨ beNat (data.take 4) < 8
    · rw [if_pos hheader,if_pos hheader]
      rfl
    rw [if_neg hheader] at hok
    rw [if_neg hheader,if_neg hheader,sizesOf]
    have hlength : (data.drop 8).length = data.length-8 := List.length_drop
    by_cases hall : beNat (data.take 4) ≤ data.length
    · rw [if_pos hall]
      rw [h.whole _ _ _ _ (by omega)] at hok ⊢
      have hcontent := BoxAt.content_mk ((data.drop 4).take 4) (beNat (data.take 4)) data
      cases hact : act s ((data.drop 4).take 4) ((data.drop 8).take (beNat (data.take 4)-8)) with
      | error e =>
        rw [hact] at hok
        obtain ⟨_,hok⟩ := hok
        cases hok
      | ok s' =>
        rw [hact] at hok
        have hbox : act s (⟨(data.drop 4).take 4,beNat (data.take 4),data⟩ : BoxAt).kind
            (⟨(data.drop 4).take 4,beNat (data.take 4),data⟩ : BoxAt).content = .ok s' := by
          rw [hcontent]
          exact hact
        rw [halloc _ _ (fun _ => ⟨s',hbox⟩),← hview _ _ _ hbox]
        congr 1
        exact ih _ s' hok
    · have hcut : ¬ BoxAt.Ends ⟨(data.drop 4).take 4,beNat (data.take 4),data⟩ := hall
      rw [if_neg hall,halloc _ _ (fun hends => absurd hends hcut),h.cut _ _ _ _ (by omega)]
      congr 1
      exact allocationsFrom_nil _ _ _

end Walk

section Declared

/-- The bytes of a table, by the number of entries that it says. -/
def tableSize (width : Nat) (data : Bytes) : List Nat :=
  if data.length < 8 then [] else [width*(readU32 4 data).toNat]

/-- What is allocated for the entries of a table of samples, in bytes. -/
def tableSizes (kind data : Bytes) : List Nat :=
  if kind = tagStsz then if data.length < 12 then [] else [4*(readU32 8 data).toNat]
  else if kind = tagStts then tableSize 8 data
  else if kind = tagStsc then tableSize 12 data
  else if kind = tagStco then tableSize 8 data
  else if kind = tagCo64 then tableSize 8 data
  else if kind = tagStss then tableSize 4 data
  else if kind = tagCtts then tableSize 8 data
  else []

/-- The length that the first box of a kind with at least `least` bytes says for its content. -/
def entrySizeFrom (kind : Bytes) (least : Nat) : Nat → Bytes → List Nat
  | 0,_ => []
  | n+1,data =>
    let boxSize := beNat (data.take 4)
    if data.length < 8 then []
    else if (data.drop 4).take 4 = kind ∧ least ≤ boxSize then [boxSize-8]
    else if 8 ≤ boxSize then entrySizeFrom kind least n (data.drop boxSize)
    else []

def entrySize (kind : Bytes) (least : Nat) (data : Bytes) : List Nat :=
  entrySizeFrom kind least data.length data

def stsdSizes (data : Bytes) (mediaType : String) : List Nat :=
  if data.length < 16 then []
  else
    let remaining := data.drop 8
    let format := fromUtf8Lossy ((remaining.drop 4).take 4)
    if mediaType = "vide" ∧ format = "avc1" then entrySize tagAvcC 11 (remaining.drop 8)
    else if mediaType = "soun" ∧ format = "mp4a" then
      entrySize tagEsds 20 (remaining.drop (if 36 < remaining.length then 36 else 8))
    else []

/-- The content of every box of an `stbl` is read. -/
def stblBoxSizes (mediaType : String) (b : BoxAt) : List Nat :=
  (b.size-8)::
    if b.Ends then
      if b.kind = tagStsd then stsdSizes b.content mediaType else tableSizes b.kind b.content
    else []

def stblSizes (mediaType : String) (stbl : Bytes) : List Nat :=
  (met plainSkip stbl).flatMap (stblBoxSizes mediaType)

/-- The content of a box of the kind that is read, and what is in it. -/
def nestedSizes (kind : Bytes) (inside : Bytes → List Nat) (b : BoxAt) : List Nat :=
  if b.kind = kind then (b.size-8)::if b.Ends then inside b.content else [] else []

/-- Only the first `stbl` is looked at. -/
def minfSizes (mediaType : String) (minf : Bytes) : List Nat :=
  ((met plainSkip minf).find? (fun b => b.kind == tagStbl)).elim []
    (nestedSizes tagStbl (stblSizes mediaType))

/-- A box with a header of its own is read from `least` bytes on. -/
def headerSizes (kind : Bytes) (least : Nat) (b : BoxAt) : List Nat :=
  if b.kind = kind ∧ least ≤ b.size-8 then [b.size-8] else []

def mdiaBoxSizes (mediaType : String) (b : BoxAt) : List Nat :=
  headerSizes tagMdhd 20 b++headerSizes tagHdlr 12 b++
    nestedSizes tagMinf (minfSizes mediaType) b

def mdiaSizes (mdia : Bytes) : List Nat :=
  sizesOf nextHandler mdiaBoxSizes "" (met plainSkip mdia)

def trakSizes (trak : Bytes) : List Nat :=
  (met trakSkip trak).flatMap (fun b => headerSizes tagTkhd 12 b++nestedSizes tagMdia mdiaSizes b)

def moovSizes (moov : Bytes) : List Nat :=
  (met plainSkip moov).flatMap (nestedSizes tagTrak trakSizes)

/-- What a box of the file says, from its header on. -/
def boxSizes (rest : Bytes) : List Nat :=
  match parseSize rest with
  | .error _ => []
  | .ok (size,header) =>
    (size-header)::
      if size ≤ rest.length ∧ (rest.drop 4).take 4 = tagMoov then
        moovSizes ((rest.drop header).take (size-header))
      else []

/-- All the sizes that a file declares where the parser goes by them. -/
def declaredSizes (data : Bytes) : List Nat := (headersFrom data.length data).flatMap boxSizes

end Declared

section Traces

/-- What the loops of the parser allocate on their way, each in the state that it is in. -/
def stblAllocations (mediaType : String) (data : Bytes) : List Nat :=
  allocationsFrom (stblStep mediaType) (fun _ => stblBoxSizes mediaType) data.length data
    ⟨none,.default⟩

def minfAllocations (mediaType : String) (pending : Option SampleTable) (data : Bytes) : List Nat :=
  allocationsFrom (minfStep mediaType pending)
    (fun _ => nestedSizes tagStbl (stblAllocations mediaType)) data.length data none

def mdiaAllocations (pending : Option SampleTable) (data : Bytes) : List Nat :=
  allocationsFrom mdiaStep (fun s b => headerSizes tagMdhd 20 b++headerSizes tagHdlr 12 b++
    nestedSizes tagMinf (minfAllocations s.mediaType s.pending) b) data.length data (.default pending)

def trakAllocations (data : Bytes) : List Nat :=
  allocationsFrom trakStep (fun s b => headerSizes tagTkhd 12 b++
    nestedSizes tagMdia (mdiaAllocations s.mdia.pending) b) data.length data ⟨0,.default none⟩

def moovAllocations (m : MoovState) (data : Bytes) : List Nat :=
  allocationsFrom moovStep (fun _ => nestedSizes tagTrak trakAllocations) data.length data m

namespace ParserState

/-- `parse_box` allocates the content before it reads it, and a `moov` is then parsed. -/
def allocationsFrom : Nat → Nat → Bytes → ParserState → List Nat
  | _,_,[],_ => []
  | 0,_,_,_ => []
  | n+1,start,data,s =>
    if data.length < 8 then []
    else
      match parseSize data with
      | .error _ => []
      | .ok (size,header) =>
        if size < header then []
        else
          (size-header)::
            match parseBox start data with
            | .error _ => []
            | .ok (b,rest) =>
              (if b.header.boxType = tagMoov then
                moovAllocations ⟨s.tracks,s.pendingSampleTable⟩ b.content else [])++
                match s.addBox b with
                | .error _ => []
                | .ok s => allocationsFrom n (start+b.header.size) rest s

def allocations (s : ParserState) (data : Bytes) : List Nat :=
  allocationsFrom data.length 0 data s.cleared

end ParserState

end Traces

section Nesting

variable {data : Bytes} {mediaType : String} {pending : Option SampleTable}

theorem nestedSizes_congr {kind : Bytes} {inside inside' : Bytes → List Nat} {b : BoxAt}
    (h : b.kind = kind → b.Ends → inside b.content = inside' b.content) :
    nestedSizes kind inside b = nestedSizes kind inside' b := by
  unfold nestedSizes
  by_cases hkind : b.kind = kind
  · by_cases hends : b.Ends
    · rw [if_pos hkind,if_pos hkind,if_pos hends,if_pos hends,h hkind hends]
    · rw [if_pos hkind,if_pos hkind,if_neg hends,if_neg hends]
  · rw [if_neg hkind,if_neg hkind]

theorem stblAllocations_eq (hok : ∃ r, parseStblBox data mediaType pending = .ok r) :
    stblAllocations mediaType data = stblSizes mediaType data := by
  obtain ⟨r,hr⟩ := hok
  obtain ⟨s,hs,_⟩ := bind_eq_ok.mp hr
  unfold stblAllocations stblSizes met
  rw [← sizesOf_const (fun _ : Unit => stblBoxSizes mediaType) ()]
  exact (stblStep_acts mediaType).allocationsFrom_eq (fun _ => ()) (fun v _ => v)
    (fun _ => stblBoxSizes mediaType) (fun _ _ _ _ => rfl) (fun _ _ _ => rfl) data.length data _
    ⟨s,hs⟩

theorem minfAllocations_eq (hok : ∃ r, parseMinfBox data mediaType pending = .ok r) :
    minfAllocations mediaType pending data = minfSizes mediaType data := by
  obtain ⟨r,hr⟩ := hok
  obtain ⟨found,hfound,_⟩ := bind_eq_ok.mp hr
  clear hr
  unfold minfAllocations minfSizes met
  unfold children at hfound
  generalize data.length = n at hfound ⊢
  induction n generalizing data with
  | zero => rfl
  | succ n ih =>
    rw [allocationsFrom,metFrom]
    rw [childrenFrom] at hfound
    dsimp only at hfound ⊢
    by_cases hheader : data.length < 8 ∨ beNat (data.take 4) < 8
    · rw [if_pos hheader,if_pos hheader]
      rfl
    rw [if_neg hheader] at hfound
    rw [if_neg hheader,if_neg hheader]
    have hlength : (data.drop 8).length = data.length-8 := List.length_drop
    have hcontent := BoxAt.content_mk ((data.drop 4).take 4) (beNat (data.take 4)) data
    by_cases hstbl : (data.drop 4).take 4 = tagStbl
    · rw [List.find?_cons_of_pos (by simpa using hstbl),Option.elim_some]
      by_cases hall : beNat (data.take 4) ≤ data.length
      · rw [hstbl,minfStep_stbl _ _ _ (by omega)] at hfound
        rw [hstbl] at hcontent
        rw [hstbl,minfStep_stbl _ _ _ (by omega)]
        cases hparse : parseStblBox ((data.drop 8).take (beNat (data.take 4)-8)) mediaType
            pending with
        | error e =>
          rw [hparse] at hfound
          cases hfound
        | ok r =>
          have hinside := stblAllocations_eq ⟨r,hparse⟩
          have hnested : nestedSizes tagStbl (stblAllocations mediaType)
              ⟨tagStbl,beNat (data.take 4),data⟩ = nestedSizes tagStbl (stblSizes mediaType)
              ⟨tagStbl,beNat (data.take 4),data⟩ :=
            nestedSizes_congr (fun _ _ => by rw [hcontent]; exact hinside)
          rw [hnested]
          exact (congrArg _ (allocationsFrom_nil _ n _)).trans (List.append_nil _)
      · have hcut : ¬ BoxAt.Ends ⟨(data.drop 4).take 4,beNat (data.take 4),data⟩ := hall
        rw [minfStep_cut _ _ _ (by omega),nestedSizes_congr (fun _ hends => absurd hends hcut)]
        exact (congrArg _ (allocationsFrom_nil _ n _)).trans (List.append_nil _)
    · have hnothing : ∀ inside, nestedSizes tagStbl inside
          ⟨(data.drop 4).take 4,beNat (data.take 4),data⟩ = [] := fun _ => if_neg hstbl
      rw [List.find?_cons_of_neg (by simpa using hstbl),hnothing,List.nil_append]
      rw [minfStep_other _ _ _ hstbl] at hfound ⊢
      dsimp only
      by_cases hall : beNat (data.take 4) ≤ data.length
      · rw [if_pos hall]
        exact ih hfound
      · rw [if_neg hall,List.drop_eq_nil_iff.mpr (by omega)]
        exact allocationsFrom_nil _ n _

theorem mdiaAllocations_eq (hok : ∃ r, parseMdiaBox data pending = .ok r) :
    mdiaAllocations pending data = mdiaSizes data := by
  refine mdiaStep_acts.allocationsFrom_eq MdiaState.mediaType nextHandler mdiaBoxSizes
    mdiaAct_mediaType ?_ data.length data _ hok
  intro s b hbox
  unfold mdiaBoxSizes
  congr 1
  apply nestedSizes_congr
  intro hkind hends
  obtain ⟨s',hs'⟩ := hbox hends
  have hmdhd : tagMinf ≠ tagMdhd := by decide
  have hhdlr : tagMinf ≠ tagHdlr := by decide
  unfold mdiaAct at hs'
  rw [hkind,if_neg hmdhd,if_neg hhdlr,if_pos rfl] at hs'
  obtain ⟨r,hr,_⟩ := bind_eq_ok.mp hs'
  exact minfAllocations_eq ⟨r,hr⟩

theorem trakAllocations_eq (hok : ∃ r, parseTrakBox data = .ok r) :
    trakAllocations data = trakSizes data := by
  obtain ⟨r,hr⟩ := hok
  obtain ⟨s,hs,_⟩ := bind_eq_ok.mp hr
  unfold trakAllocations trakSizes met
  rw [← sizesOf_const (fun _ : Unit => fun b => headerSizes tagTkhd 12 b++
    nestedSizes tagMdia mdiaSizes b) ()]
  refine trakStep_acts.allocationsFrom_eq (fun _ => ()) (fun v _ => v) _ (fun _ _ _ _ => rfl) ?_
    data.length data _ ⟨s,hs⟩
  intro s b hbox
  congr 1
  apply nestedSizes_congr
  intro hkind hends
  obtain ⟨s',hs'⟩ := hbox hends
  have htkhd : tagMdia ≠ tagTkhd := by decide
  unfold trakAct at hs'
  rw [hkind,if_neg htkhd,if_pos rfl] at hs'
  obtain ⟨r,hr,_⟩ := bind_eq_ok.mp hs'
  exact mdiaAllocations_eq ⟨r,hr⟩

theorem moovAllocations_eq {m : MoovState} (hok : ∃ r, parseMoovBox m data = .ok r) :
    moovAllocations m data = moovSizes data := by
  unfold moovAllocations moovSizes met
  rw [← sizesOf_const (fun _ : Unit => nestedSizes tagTrak trakSizes) ()]
  refine moovStep_acts.allocationsFrom_eq (fun _ => ()) (fun v _ => v) _ (fun _ _ _ _ => rfl) ?_
    data.length data _ hok
  intro s b hbox
  apply nestedSizes_congr
  intro hkind hends
  obtain ⟨s',hs'⟩ := hbox hends
  unfold moovAct at hs'
  rw [hkind,if_pos rfl] at hs'
  obtain ⟨r,hr,_⟩ := bind_eq_ok.mp hs'
  exact trakAllocations_eq ⟨r,hr⟩

end Nesting

section File

namespace ParserState

theorem addBox_moov {s s' : ParserState} {b : Mp4Box} (hmoov : b.header.boxType = tagMoov)
    (h : s.addBox b = .ok s') :
    ∃ m, parseMoovBox ⟨s.tracks,s.pendingSampleTable⟩ b.content = .ok m := by
  unfold addBox boxTracks at h
  rw [if_pos hmoov] at h
  obtain ⟨m,hm,_⟩ := bind_eq_ok.mp h
  exact ⟨m,hm⟩

/-- A parse that returns has allocated what its file declares. -/
theorem allocationsFrom_eq (n start : Nat) (data : Bytes) (s : ParserState)
    (h : s.parseFrom n start data ≠ .error .panic) :
    allocationsFrom n start data s = (headersFrom n data).flatMap boxSizes := by
  induction n generalizing start data s with
  | zero => cases data <;> rfl
  | succ n ih =>
    by_cases hnil : data = []
    · subst hnil
      simp [allocationsFrom,headersFrom]
    rw [parseFrom] at h
    · rw [allocationsFrom,headersFrom]
      · by_cases h8 : data.length < 8
        · rw [if_pos h8,if_pos h8]
          rfl
        rw [if_neg h8,if_neg h8]
        cases hs : parseSize data with
        | error e => rfl
        | ok r =>
          obtain ⟨size,header⟩ := r
          dsimp only
          rw [parseBox_of_size h8 hs] at h ⊢
          have hbox : boxSizes data = (size-header)::
              if size ≤ data.length ∧ (data.drop 4).take 4 = tagMoov then
                moovSizes ((data.drop header).take (size-header)) else [] := by
            unfold boxSizes
            rw [hs]
          rw [List.flatMap_cons,hbox]
          by_cases hlt : size < header
          · rw [if_pos hlt] at h
            exact absurd rfl h
          rw [if_neg hlt] at h
          rw [if_neg hlt,if_neg hlt]
          by_cases hbig : 2^63 ≤ size-header
          · rw [if_pos hbig] at h
            exact absurd rfl h
          rw [if_neg hbig] at h
          rw [if_neg hbig]
          by_cases hcut : data.length < size
          · have hno : ¬ (header ≤ size ∧ size-header < 2^63 ∧ size ≤ data.length) := by omega
            have hmoov : ¬ (size ≤ data.length ∧ (data.drop 4).take 4 = tagMoov) := by
              rintro ⟨hle,_⟩
              omega
            rw [if_pos hcut,if_neg hno,if_neg hmoov]
            rfl
          have hyes : header ≤ size ∧ size-header < 2^63 ∧ size ≤ data.length := by omega
          rw [if_neg hcut] at h
          rw [if_neg hcut,if_pos hyes,List.cons_append]
          dsimp only at h ⊢
          obtain ⟨hadd,hrest⟩ := bind_returns_iff.mp h
          obtain ⟨s',hs'⟩ := (onlyPanics_addBox s _).returns_iff.mp hadd
          rw [hs']
          congr 1
          dsimp only
          rw [ih _ _ _ (hrest s' hs')]
          congr 1
          by_cases hmoov : (data.drop 4).take 4 = tagMoov
          · have hinside := moovAllocations_eq (addBox_moov hmoov hs')
            rw [if_pos hmoov,if_pos ⟨hyes.2.2,hmoov⟩]
            exact hinside
          · rw [if_neg hmoov,if_neg (fun hboth => hmoov hboth.2)]
      · exact hnil
    · exact hnil

theorem allocations_eq {s : ParserState} {data : Bytes} (h : s.parse data ≠ .error .panic) :
    s.allocations data = declaredSizes data :=
  allocationsFrom_eq data.length 0 data s.cleared h

end ParserState

/-- The sizes of the boxes and the `avcC` boxes of the file are safe, and the allocator serves the
sizes that it declares. -/
structure SafeFile (serves : List Nat → Prop) (data : Bytes) : Prop where
  boxes : SafeBoxes data
  sizes : serves (declaredSizes data)

/-- `parse` on a parser in any state, with an allocator that serves some sequences of requests and
aborts in others: it returns, its requests are served, every loop ends, and no reader indexes a
byte that is not there. -/
structure ParseIsTotal (serves : List Nat → Prop) (s : ParserState) (data : Bytes) : Prop where
  returns : s.parse data ≠ .error .panic
  allocations : serves (s.allocations data)
  loops : LoopsEnd
  readers : Indexed.Agree

/-- This is so exactly if the file is safe. -/
theorem parseIsTotal_iff (serves : List Nat → Prop) (s : ParserState) (data : Bytes) :
    ParseIsTotal serves s data ↔ SafeFile serves data := by
  constructor
  · intro h
    refine ⟨(s.parse_returns_iff data).mp h.returns,?_⟩
    rw [← ParserState.allocations_eq h.returns]
    exact h.allocations
  · intro h
    have hreturns := (s.parse_returns_iff data).mpr h.boxes
    refine ⟨hreturns,?_,loopsEnd,Indexed.agree⟩
    rw [ParserState.allocations_eq hreturns]
    exact h.sizes

/-- A file whose sample entry has an `avcC` box of 11 bytes. -/
def shortAvcFile : Bytes :=
  encodeAll [⟨tagMoov,(RegularMp4.trakBox 1 1000 tagVide
    [⟨tagStsd,RegularMp4.numbers [1,19]++[0x61,0x76,0x63,0x31]++
      encode ⟨tagAvcC,[1,0x42,0xe0]⟩⟩]).encode⟩]

/-- A file of 16 bytes that says it is larger than any memory. -/
def hugeBoxFile : Bytes := toBe 4 1++tagMdat++toBe 8 (2^62)

/-- A file whose table says that it has `2^32-1` samples. -/
def hugeTableFile : Bytes :=
  encodeAll [⟨tagMoov,(RegularMp4.trakBox 1 1000 tagVide
    [⟨tagStsz,RegularMp4.numbers [0,2^32-1]⟩]).encode⟩]

/-- A mebibyte for each request. -/
def Mebibytes (sizes : List Nat) : Prop := ∀ n ∈ sizes, n ≤ 2^20

/-- A box of size 0, an extended size of 15, one near `2^64`, and the short `avcC` box; and two
files for which a mebibyte is not enough. -/
theorem parse_panics :
    ParserState.new.parse (List.replicate 8 0) = .error .panic ∧
    ParserState.new.parse (toBe 4 1++tagMoov++toBe 8 15) = .error .panic ∧
    ParserState.new.parse (toBe 4 1++tagMoov++toBe 8 (2^64-1)) = .error .panic ∧
    ParserState.new.parse shortAvcFile = .error .panic ∧
    2^62-16 ∈ ParserState.new.allocations hugeBoxFile ∧
    4*(2^32-1) ∈ ParserState.new.allocations hugeTableFile ∧
    ∀ data ∈ [shortAvcFile,hugeBoxFile,hugeTableFile], ¬ ParseIsTotal Mebibytes .new data := by
  have hshort : ParserState.new.parse shortAvcFile = .error .panic := by decide +kernel
  have hbox : 2^62-16 ∈ ParserState.new.allocations hugeBoxFile := by decide +kernel
  have htable : 4*(2^32-1) ∈ ParserState.new.allocations hugeTableFile := by decide +kernel
  refine ⟨by decide +kernel,by decide +kernel,by decide +kernel,hshort,hbox,htable,?_⟩
  intro data hdata h
  simp only [List.mem_cons,List.not_mem_nil,or_false] at hdata
  rcases hdata with rfl | rfl | rfl
  · exact h.returns hshort
  · exact absurd (h.allocations _ hbox) (by decide)
  · exact absurd (h.allocations _ htable) (by decide)

end File

end OpenBroadcast.Media
