import Mathlib.Data.List.Induction
import Mathlib.Algebra.Order.Group.Nat
import Mathlib.Tactic.Ring

namespace OpenBroadcast

abbrev Bytes := List UInt8

/-- The number that bytes stand for, the most significant one first. -/
def beNat (b : Bytes) : Nat := b.foldl (fun n x => 256*n+x.toNat) 0

/-- The last `w` bytes of a number, the most significant one first. -/
def toBe : Nat → Nat → Bytes
  | 0,_ => []
  | w+1,n => toBe w (n/256)++[UInt8.ofNat n]

section BigEndian

theorem beNat_append_singleton (b : Bytes) (x : UInt8) :
    beNat (b++[x]) = 256*beNat b+x.toNat := by
  simp [beNat]

theorem beNat_lt (b : Bytes) : beNat b < 256^b.length := by
  induction b using List.reverseRecOn with
  | nil => simp [beNat]
  | append_singleton b x ih =>
    rw [beNat_append_singleton,List.length_append,List.length_singleton,pow_succ]
    have hx : x.toNat < 256 := x.toNat_lt
    omega

@[simp] theorem length_toBe (w n : Nat) : (toBe w n).length = w := by
  induction w generalizing n with
  | zero => rfl
  | succ w ih => rw [toBe,List.length_append,ih,List.length_singleton]

theorem beNat_toBe (w n : Nat) : beNat (toBe w n) = n%256^w := by
  induction w generalizing n with
  | zero => simp [toBe,beNat,Nat.mod_one]
  | succ w ih =>
    rw [toBe,beNat_append_singleton,ih,pow_succ,Nat.mul_comm (256^w),Nat.mod_mul]
    simp only [UInt8.toNat_ofNat']
    omega

theorem toBe_beNat (b : Bytes) : toBe b.length (beNat b) = b := by
  induction b using List.reverseRecOn with
  | nil => rfl
  | append_singleton b x ih =>
    have hx : x.toNat < 256 := x.toNat_lt
    rw [beNat_append_singleton,List.length_append,List.length_singleton,toBe]
    have hdiv : (256*beNat b+x.toNat)/256 = beNat b := by omega
    have hmod : UInt8.ofNat (256*beNat b+x.toNat) = x := by
      apply UInt8.toNat_inj.mp
      rw [UInt8.toNat_ofNat']
      omega
    rw [hdiv,hmod,ih]

/-- The upper and the lower digits. -/
theorem toBe_add (v w n : Nat) : toBe (v+w) n = toBe v (n/256^w)++toBe w n := by
  induction w generalizing n with
  | zero => simp [toBe]
  | succ w ih =>
    have hdiv : n/256/256^w = n/256^(w+1) := by rw [Nat.div_div_eq_div_mul,pow_succ']
    rw [← Nat.add_assoc,toBe,toBe,ih,hdiv,List.append_assoc]

end BigEndian

/-- A box: a code of four bytes and a body. In bytes, it is preceded by its whole size. -/
structure RawBox where
  kind : Bytes
  body : Bytes
  deriving DecidableEq, Repr

namespace RawBox

def size (b : RawBox) : Nat := 8+b.body.length

/-- The box can be written with a size of four bytes. -/
structure Fits (b : RawBox) : Prop where
  kind : b.kind.length = 4
  size : b.size < 2^32

def encode (b : RawBox) : Bytes := toBe 4 b.size++b.kind++b.body

def encodeAll (bs : List RawBox) : Bytes := bs.flatMap encode

@[simp] theorem encodeAll_nil : encodeAll [] = [] := rfl

@[simp] theorem encodeAll_cons (b : RawBox) (bs : List RawBox) :
    encodeAll (b::bs) = b.encode++encodeAll bs := rfl

@[simp] theorem encodeAll_append (bs cs : List RawBox) :
    encodeAll (bs++cs) = encodeAll bs++encodeAll cs :=
  List.flatMap_append

theorem Fits.length_encode {b : RawBox} (h : b.Fits) : b.encode.length = b.size := by
  rw [encode,List.length_append,List.length_append,length_toBe,h.kind,RawBox.size]

theorem eight_le_size (b : RawBox) : 8 ≤ b.size := Nat.le_add_right 8 _

/-- The size, the code and what follows the header, as they are read back. -/
theorem Fits.read_size {b : RawBox} (h : b.Fits) (rest : Bytes) :
    beNat ((b.encode++rest).take 4) = b.size := by
  have hlen : (toBe 4 b.size).length = 4 := length_toBe 4 _
  rw [encode,List.append_assoc,List.append_assoc,List.take_left' hlen,beNat_toBe]
  exact Nat.mod_eq_of_lt h.size

theorem Fits.read_kind {b : RawBox} (h : b.Fits) (rest : Bytes) :
    ((b.encode++rest).drop 4).take 4 = b.kind := by
  have hlen : (toBe 4 b.size).length = 4 := length_toBe 4 _
  rw [encode,List.append_assoc,List.append_assoc,List.drop_left' hlen,List.take_left' h.kind]

theorem Fits.drop_header {b : RawBox} (h : b.Fits) (rest : Bytes) :
    (b.encode++rest).drop 8 = b.body++rest := by
  have hlen : (toBe 4 b.size++b.kind).length = 8 := by
    rw [List.length_append,length_toBe,h.kind]
  rw [encode,List.append_assoc,List.drop_left' hlen]

theorem Fits.take_size {b : RawBox} (h : b.Fits) (rest : Bytes) :
    (b.encode++rest).take b.size = b.encode :=
  List.take_left' h.length_encode

theorem Fits.drop_size {b : RawBox} (h : b.Fits) (rest : Bytes) :
    (b.encode++rest).drop b.size = rest :=
  List.drop_left' h.length_encode

end RawBox

open RawBox

/-- The box at the start of the data, and the data after it. -/
def readBox (data : Bytes) : Option (RawBox × Bytes) :=
  let size := beNat (data.take 4)
  if 8 ≤ size ∧ size ≤ data.length then
    some (⟨(data.drop 4).take 4,(data.drop 8).take (size-8)⟩,data.drop size)
  else none

def readBoxesFrom : Nat → Bytes → Option (List RawBox)
  | _,[] => some []
  | 0,_ => none
  | n+1,data => do
    let (b,rest) ← readBox data
    let bs ← readBoxesFrom n rest
    return b::bs

/-- The boxes that the data consists of, if it consists of boxes and nothing else. -/
def readBoxes (data : Bytes) : Option (List RawBox) := readBoxesFrom data.length data

theorem readBox_encode {b : RawBox} (h : b.Fits) (rest : Bytes) :
    readBox (b.encode++rest) = some (b,rest) := by
  have hle : b.size ≤ (b.encode++rest).length := by
    rw [List.length_append,h.length_encode]
    omega
  have hbody : (b.body++rest).take (b.size-8) = b.body := by
    rw [size,Nat.add_sub_cancel_left,List.take_left]
  simp only [readBox]
  rw [h.read_size,if_pos ⟨b.eight_le_size,hle⟩,h.read_kind,h.drop_header,h.drop_size,hbody]

/-- What is read is what the data starts with. -/
theorem readBox_exact {data rest : Bytes} {b : RawBox} (h : readBox data = some (b,rest)) :
    data = b.encode++rest ∧ b.Fits := by
  simp only [readBox] at h
  split_ifs at h with hsize
  obtain ⟨h8,hle⟩ := hsize
  obtain ⟨hb,hrest⟩ := Prod.mk.inj (Option.some.inj h)
  have hlt : beNat (data.take 4) < 256^4 := by
    have := beNat_lt (data.take 4)
    rwa [List.length_take,Nat.min_eq_left (by omega)] at this
  have hbsize : b.size = beNat (data.take 4) := by
    rw [← hb,size]
    simp only [List.length_take,List.length_drop]
    omega
  refine ⟨?_,?_,by omega⟩
  · have hdigits : toBe 4 b.size = data.take 4 := by
      have := toBe_beNat (data.take 4)
      rwa [List.length_take,Nat.min_eq_left (by omega),← hbsize] at this
    rw [encode,hdigits,← hb,← hrest]
    dsimp only
    have hdrop : data.drop (beNat (data.take 4)) =
        (data.drop 8).drop (beNat (data.take 4)-8) := by
      rw [List.drop_drop]
      congr 1
      omega
    rw [hdrop,List.append_assoc,List.take_append_drop,List.append_assoc]
    have h48 : data.drop 8 = (data.drop 4).drop 4 := by rw [List.drop_drop]
    rw [h48,List.take_append_drop,List.take_append_drop]
  · rw [← hb]
    simp only [List.length_take,List.length_drop]
    omega

theorem readBoxesFrom_encodeAll {bs : List RawBox} (h : ∀ b ∈ bs, b.Fits) (n : Nat)
    (hn : (encodeAll bs).length ≤ n) : readBoxesFrom n (encodeAll bs) = some bs := by
  induction bs generalizing n with
  | nil => cases n <;> rfl
  | cons b bs ih =>
    have hb : b.Fits := h b (by simp)
    have h8 := b.eight_le_size
    rw [encodeAll_cons,List.length_append,hb.length_encode] at hn
    cases n with
    | zero => omega
    | succ n =>
      have hne : b.encode++encodeAll bs ≠ [] := by
        intro hnil
        have := congrArg List.length hnil
        rw [List.length_append,hb.length_encode,List.length_nil] at this
        omega
      rw [encodeAll_cons,readBoxesFrom,readBox_encode hb]
      · simp [ih (fun c hc => h c (by simp [hc])) n (by omega)]
      · exact hne

theorem readBoxes_encodeAll {bs : List RawBox} (h : ∀ b ∈ bs, b.Fits) :
    readBoxes (encodeAll bs) = some bs :=
  readBoxesFrom_encodeAll h _ le_rfl

theorem readBoxesFrom_exact {n : Nat} {data : Bytes} {bs : List RawBox}
    (h : readBoxesFrom n data = some bs) : data = encodeAll bs ∧ ∀ b ∈ bs, b.Fits := by
  induction n generalizing data bs with
  | zero =>
    cases data with
    | nil =>
      cases h
      exact ⟨rfl,by simp⟩
    | cons => cases h
  | succ n ih =>
    cases data with
    | nil =>
      cases h
      exact ⟨rfl,by simp⟩
    | cons x data =>
      simp only [readBoxesFrom,Option.bind_eq_bind,Option.bind_eq_some_iff] at h
      obtain ⟨⟨b,rest⟩,hb,cs,hcs,heq⟩ := h
      cases heq
      obtain ⟨hdata,hfits⟩ := readBox_exact hb
      obtain ⟨hrest,hall⟩ := ih hcs
      dsimp only at hrest
      exact ⟨by rw [hdata,hrest,encodeAll_cons],by simpa [hfits] using hall⟩

theorem readBoxes_exact {data : Bytes} {bs : List RawBox} (h : readBoxes data = some bs) :
    data = encodeAll bs ∧ ∀ b ∈ bs, b.Fits :=
  readBoxesFrom_exact h

end OpenBroadcast
