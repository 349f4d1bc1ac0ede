import OpenBroadcast.Framework.Boxes

namespace OpenBroadcast

/-- The last `w` bytes of a number, the least significant one first. -/
def toLe (w n : Nat) : Bytes := (toBe w n).reverse

def leNat (b : Bytes) : Nat := beNat b.reverse

@[simp] theorem length_toLe (w n : Nat) : (toLe w n).length = w := by
  rw [toLe,List.length_reverse,length_toBe]

theorem leNat_toLe (w n : Nat) : leNat (toLe w n) = n%256^w := by
  rw [leNat,toLe,List.reverse_reverse,beNat_toBe]

inductive DecodeError where
  | unexpectedEof
  | invalidBoolEncoding (b : UInt8)
  deriving DecidableEq, Repr

/-- A binary format: values are written, and read back from the front of some bytes. -/
structure Codec (α : Type) where
  encode : α → Bytes
  decode : Bytes → Except DecodeError (α × Bytes)
  decode_encode : ∀ a rest, decode (encode a++rest) = .ok (a,rest)

/-- A list whose length is a number of 64 bits. -/
abbrev Sized (α : Type) := { l : List α // l.length < 2^64 }

namespace Codec

variable {α β : Type}

def byte : Codec UInt8 where
  encode a := [a]
  decode
    | [] => .error .unexpectedEof
    | a::rest => .ok (a,rest)
  decode_encode _ _ := rfl

def bool : Codec Bool where
  encode a := [if a then 1 else 0]
  decode
    | [] => .error .unexpectedEof
    | b::rest =>
      if b = 0 then .ok (false,rest)
      else if b = 1 then .ok (true,rest)
      else .error (.invalidBoolEncoding b)
  decode_encode a rest := by cases a <;> rfl

/-- A number of eight bytes, the least significant one first. -/
def word : Codec UInt64 where
  encode a := toLe 8 a.toNat
  decode data :=
    if data.length < 8 then .error .unexpectedEof
    else .ok (UInt64.ofNat (leNat (data.take 8)),data.drop 8)
  decode_encode a rest := by
    have hlength : (toLe 8 a.toNat).length = 8 := length_toLe 8 _
    have hlong : ¬ (toLe 8 a.toNat++rest).length < 8 := by
      rw [List.length_append,hlength]
      omega
    have hvalue : leNat (toLe 8 a.toNat) = a.toNat := by
      rw [leNat_toLe]
      exact Nat.mod_eq_of_lt a.toNat_lt
    rw [if_neg hlong,List.take_left' hlength,List.drop_left' hlength,hvalue,UInt64.ofNat_toNat]

def pair (c : Codec α) (d : Codec β) : Codec (α × β) where
  encode a := c.encode a.1++d.encode a.2
  decode data := do
    let (a,rest) ← c.decode data
    let (b,rest) ← d.decode rest
    return ((a,b),rest)
  decode_encode a rest := by
    rw [List.append_assoc,c.decode_encode]
    simp only [bind,Except.bind,d.decode_encode]
    rfl

/-- The same bytes, read as values of another type. -/
def via (c : Codec α) (f : α → β) (g : β → α) (h : ∀ b, f (g b) = b) : Codec β where
  encode b := c.encode (g b)
  decode data := do
    let (a,rest) ← c.decode data
    return (f a,rest)
  decode_encode b rest := by
    rw [c.decode_encode]
    simp only [bind,Except.bind,h]
    rfl

/-- So many values, one after the other. -/
def decodeMany (c : Codec α) : Nat → Bytes → Except DecodeError (List α × Bytes)
  | 0,data => .ok ([],data)
  | n+1,data => do
    let (a,rest) ← c.decode data
    let (as,rest) ← c.decodeMany n rest
    return (a::as,rest)

theorem decodeMany_flatMap (c : Codec α) (as : List α) (rest : Bytes) :
    c.decodeMany as.length (as.flatMap c.encode++rest) = .ok (as,rest) := by
  induction as with
  | nil => rfl
  | cons a as ih =>
    rw [List.length_cons,List.flatMap_cons,List.append_assoc,decodeMany,c.decode_encode]
    simp only [bind,Except.bind,ih]
    rfl

/-- A list, preceded by its length. -/
def seq (c : Codec α) : Codec (Sized α) where
  encode as := word.encode (UInt64.ofNat as.val.length)++as.val.flatMap c.encode
  decode data := do
    let (n,rest) ← word.decode data
    let (as,rest) ← c.decodeMany n.toNat rest
    if h : as.length < 2^64 then return (⟨as,h⟩,rest) else .error .unexpectedEof
  decode_encode as rest := by
    have hlength : (UInt64.ofNat as.val.length).toNat = as.val.length := by
      rw [UInt64.toNat_ofNat']
      exact Nat.mod_eq_of_lt as.property
    rw [List.append_assoc,word.decode_encode]
    simp only [bind,Except.bind]
    rw [hlength,decodeMany_flatMap]
    exact dif_pos as.property

end Codec

end OpenBroadcast
