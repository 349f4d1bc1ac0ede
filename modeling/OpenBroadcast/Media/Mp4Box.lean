import OpenBroadcast.Framework.Boxes

namespace OpenBroadcast.Media

/-- How a function fails: an `io::Error` with its message, or a panic. Arithmetic that
overflows panics. -/
inductive Mp4Error where
  | io (message : String)
  | panic
  deriving DecidableEq, Repr

/-- Code that goes through has gone through its first part. -/
theorem bind_eq_ok {α β : Type} {x : Except Mp4Error α} {f : α → Except Mp4Error β} {b : β} :
    x >>= f = .ok b ↔ ∃ a, x = .ok a ∧ f a = .ok b := by
  cases x with
  | error e => simp [bind,Except.bind]
  | ok a => simp [bind,Except.bind]

theorem exists_ok {α : Type} {x : Except Mp4Error α} (h : x.toBool = true) : ∃ a, x = .ok a := by
  cases x with
  | error e => cases h
  | ok a => exact ⟨a,rfl⟩

/-- What is computed of a result is computed of one. -/
theorem exists_ok_map {α β : Type} {x : Except Mp4Error α} {f : α → β} {b : β}
    (h : x.toOption.map f = some b) : ∃ a, x = .ok a ∧ f a = b := by
  cases x with
  | error e => cases h
  | ok a => exact ⟨a,rfl,Option.some.inj h⟩

def checkedU64 (n : Nat) : Except Mp4Error Nat := if n < 2^64 then .ok n else .error .panic

/-- `8 + len as u32`. -/
def boxSize32 (len : Nat) : Except Mp4Error Nat :=
  if 8+len%2^32 < 2^32 then .ok (8+len%2^32) else .error .panic

def tagFtyp : Bytes := [0x66,0x74,0x79,0x70]
def tagMoov : Bytes := [0x6d,0x6f,0x6f,0x76]
def tagMoof : Bytes := [0x6d,0x6f,0x6f,0x66]
def tagMdat : Bytes := [0x6d,0x64,0x61,0x74]
def tagMfhd : Bytes := [0x6d,0x66,0x68,0x64]
def tagTraf : Bytes := [0x74,0x72,0x61,0x66]
def tagTfhd : Bytes := [0x74,0x66,0x68,0x64]
def tagTfdt : Bytes := [0x74,0x66,0x64,0x74]
def tagTrun : Bytes := [0x74,0x72,0x75,0x6e]
def tagTrak : Bytes := [0x74,0x72,0x61,0x6b]
def tagMdia : Bytes := [0x6d,0x64,0x69,0x61]
def tagHdlr : Bytes := [0x68,0x64,0x6c,0x72]
def tagVide : Bytes := [0x76,0x69,0x64,0x65]

structure BoxHeader where
  boxType : Bytes
  size : Nat
  contentStart : Nat
  deriving DecidableEq, Repr

/-- A box as `parse_box` leaves it, with its raw content. -/
structure Mp4Box where
  header : BoxHeader
  content : Bytes
  deriving DecidableEq, Repr

def eof : Mp4Error := .io "failed to fill whole buffer"

/-- The size in the header of a box and the length of this header. -/
def parseSize (data : Bytes) : Except Mp4Error (Nat × Nat) :=
  let boxSize := beNat (data.take 4)
  if boxSize = 1 then
    if data.length < 16 then .error eof else .ok (beNat ((data.drop 8).take 8),16)
  else .ok (boxSize,8)

/-- The box at the start of `data`, which is what the cursor at position `start` still has
to read. -/
def parseBox (start : Nat) (data : Bytes) : Except Mp4Error (Mp4Box × Bytes) :=
  if data.length < 8 then .error eof
  else do
    let (actualSize,headerSize) ← parseSize data
    if actualSize < headerSize then .error .panic
    -- A vector of `isize::MAX` bytes or more cannot be allocated.
    else if 2^63 ≤ actualSize-headerSize then .error .panic
    else if data.length < actualSize then .error eof
    else
      .ok (⟨⟨(data.drop 4).take 4,actualSize,start+headerSize⟩,
        (data.drop headerSize).take (actualSize-headerSize)⟩,data.drop actualSize)

/-- The loop over the top-level boxes ends at the first one that cannot be read. -/
def parseBoxesFrom : Nat → Nat → Bytes → Except Mp4Error (List Mp4Box)
  | _,_,[] => .ok []
  | 0,_,_ => .ok []
  | n+1,start,data =>
    match parseBox start data with
    | .ok (b,rest) => do
      let bs ← parseBoxesFrom n (start+b.header.size) rest
      return b::bs
    | .error (.io _) => .ok []
    | .error .panic => .error .panic

def parseBoxes (data : Bytes) : Except Mp4Error (List Mp4Box) :=
  parseBoxesFrom data.length 0 data

structure Mp4Track where
  mediaType : String
  timescale : Nat
  duration : Nat
  codec : String
  deriving DecidableEq, Repr

structure Mp4Parser where
  boxes : List Mp4Box
  tracks : List Mp4Track
  deriving DecidableEq, Repr

def maxBoxSize : Nat := 100000000

/-- A box that is too large is written as nothing. -/
def serializeBox (b : Mp4Box) : Bytes :=
  if b.header.boxType.length ≠ 4 then []
  else if maxBoxSize < b.content.length then []
  else if maxBoxSize < 8+b.content.length then []
  else toBe 4 (8+b.content.length)++b.header.boxType++b.content

namespace Mp4Box

/-- Where the header starts, and how long it is. -/
def start (b : Mp4Box) : Nat := b.header.contentStart+b.content.length-b.header.size

def headerSize (b : Mp4Box) : Nat := b.header.size-b.content.length

/-- What `parse_box` makes of a box that starts at `start`. -/
structure ParsedAt (b : Mp4Box) (start : Nat) : Prop where
  header : b.headerSize = 8 ∨ b.headerSize = 16
  size : b.header.size = b.headerSize+b.content.length
  contentStart : b.header.contentStart = start+b.headerSize

theorem ParsedAt.start_eq {b : Mp4Box} {s : Nat} (h : b.ParsedAt s) : b.start = s := by
  unfold start
  rw [h.contentStart,h.size]
  omega

end Mp4Box

theorem parseSize_header {data : Bytes} {size header : Nat}
    (h : parseSize data = .ok (size,header)) : header = 8 ∨ header = 16 := by
  simp only [parseSize] at h
  split_ifs at h
  · cases h
    exact Or.inr rfl
  · cases h
    exact Or.inl rfl

theorem parseBox_ok {start : Nat} {data rest : Bytes} {b : Mp4Box}
    (h : parseBox start data = .ok (b,rest)) :
    ∃ size header, (header = 8 ∨ header = 16) ∧ header ≤ size ∧ size ≤ data.length ∧
      b = ⟨⟨(data.drop 4).take 4,size,start+header⟩,(data.drop header).take (size-header)⟩ ∧
      rest = data.drop size := by
  unfold parseBox at h
  split_ifs at h
  cases hs : parseSize data with
  | error e => simp [hs,bind,Except.bind] at h
  | ok sizes =>
    obtain ⟨size,header⟩ := sizes
    simp only [hs,bind,Except.bind] at h
    split_ifs at h with hlt hbig hlen
    cases h
    exact ⟨size,header,parseSize_header hs,by omega,by omega,rfl,rfl⟩

theorem parseBox_rest_lt {start : Nat} {data rest : Bytes} {b : Mp4Box}
    (h : parseBox start data = .ok (b,rest)) : rest.length < data.length := by
  obtain ⟨size,header,hheader,hle,hlen,_,hrest⟩ := parseBox_ok h
  rw [hrest,List.length_drop]
  omega

theorem parseBox_parsedAt {start : Nat} {data rest : Bytes} {b : Mp4Box}
    (h : parseBox start data = .ok (b,rest)) : b.ParsedAt start := by
  obtain ⟨size,header,hheader,hle,hlen,rfl,_⟩ := parseBox_ok h
  have hlength : ((data.drop header).take (size-header)).length = size-header := by
    rw [List.length_take,List.length_drop]
    omega
  have heq : Mp4Box.headerSize ⟨⟨(data.drop 4).take 4,size,start+header⟩,
      (data.drop header).take (size-header)⟩ = header := by
    unfold Mp4Box.headerSize
    dsimp only
    rw [hlength]
    omega
  constructor
  · rw [heq]
    exact hheader
  · rw [heq]
    dsimp only
    rw [hlength]
    omega
  · rw [heq]

/-- As many rounds as there are bytes are enough for the loop to end by itself. -/
theorem parseBoxesFrom_enough {n m start : Nat} {data : Bytes} (hn : data.length ≤ n)
    (hm : data.length ≤ m) : parseBoxesFrom n start data = parseBoxesFrom m start data := by
  induction n generalizing m start data with
  | zero =>
    have hnil : data = [] := List.length_eq_zero_iff.mp (by omega)
    subst hnil
    cases m <;> rfl
  | succ n ih =>
    cases data with
    | nil => cases m <;> rfl
    | cons x data =>
      cases m with
      | zero => simp at hm
      | succ m =>
        rw [parseBoxesFrom,parseBoxesFrom]
        · cases hb : parseBox start (x::data) with
          | error e => cases e <;> rfl
          | ok r =>
            obtain ⟨b,rest⟩ := r
            have hrest := parseBox_rest_lt hb
            have htail : parseBoxesFrom n (start+b.header.size) rest =
                parseBoxesFrom m (start+b.header.size) rest := ih (by omega) (by omega)
            dsimp only
            rw [htail]
        · simp
        · simp

/-- The first box of the list was read at the start of the data, the others after it. -/
theorem parseBoxesFrom_cons {n start : Nat} {data : Bytes} {b : Mp4Box} {bs : List Mp4Box}
    (h : parseBoxesFrom n start data = .ok (b::bs)) :
    ∃ m rest, parseBox start data = .ok (b,rest) ∧
      parseBoxesFrom m (start+b.header.size) rest = .ok bs := by
  cases n with
  | zero => cases data <;> simp [parseBoxesFrom] at h
  | succ n =>
    cases data with
    | nil => simp [parseBoxesFrom] at h
    | cons x data =>
      rw [parseBoxesFrom] at h
      · split at h
        · next c rest hc =>
          cases hbs : parseBoxesFrom n (start+c.header.size) rest with
          | error e => simp [hbs,bind,Except.bind] at h
          | ok cs =>
            simp only [hbs,bind,Except.bind,pure,Except.pure,Except.ok.injEq] at h
            cases h
            exact ⟨n,rest,hc,hbs⟩
        · simp at h
        · cases h
      · simp

/-- Boxes that follow each other in the list follow each other in the file. -/
theorem parseBoxesFrom_parsedAt {n start : Nat} {data : Bytes} {pre post : List Mp4Box}
    {a b : Mp4Box} (h : parseBoxesFrom n start data = .ok (pre++a::b::post)) :
    ∃ s, a.ParsedAt s ∧ b.ParsedAt (s+a.header.size) := by
  induction pre generalizing n start data with
  | nil =>
    obtain ⟨m,rest,ha,htail⟩ := parseBoxesFrom_cons h
    obtain ⟨_,_,hb,_⟩ := parseBoxesFrom_cons htail
    exact ⟨start,parseBox_parsedAt ha,parseBox_parsedAt hb⟩
  | cons c pre ih =>
    obtain ⟨m,rest,_,htail⟩ := parseBoxesFrom_cons h
    exact ih htail

end OpenBroadcast.Media
