import OpenBroadcast.Framework.Boxes

namespace OpenBroadcast

/-- Values that are all written with so many bytes. -/
structure FixedWidth (α : Type) where
  width : Nat
  encode : α → Bytes
  decode : Bytes → α
  pos : 0 < width
  length_encode : ∀ a, (encode a).length = width
  decode_encode : ∀ a, decode (encode a) = a

namespace FixedWidth

variable {α β : Type}

def u32 : FixedWidth UInt32 where
  width := 4
  encode a := toBe 4 a.toNat
  decode b := .ofNat (beNat b)
  pos := by decide
  length_encode _ := length_toBe 4 _
  decode_encode a := by
    have hfits : a.toNat%256^4 = a.toNat := Nat.mod_eq_of_lt a.toNat_lt
    rw [beNat_toBe,hfits,UInt32.ofNat_toNat]

def u64 : FixedWidth UInt64 where
  width := 8
  encode a := toBe 8 a.toNat
  decode b := .ofNat (beNat b)
  pos := by decide
  length_encode _ := length_toBe 8 _
  decode_encode a := by
    have hfits : a.toNat%256^8 = a.toNat := Nat.mod_eq_of_lt a.toNat_lt
    rw [beNat_toBe,hfits,UInt64.ofNat_toNat]

/-- A number in two's complement. -/
def i32 : FixedWidth Int32 where
  width := 4
  encode a := u32.encode a.toUInt32
  decode b := (u32.decode b).toInt32
  pos := by decide
  length_encode a := u32.length_encode a.toUInt32
  decode_encode a := by
    rw [u32.decode_encode]
    exact a.toInt32_toUInt32

def pair (f : FixedWidth α) (g : FixedWidth β) : FixedWidth (α × β) where
  width := f.width+g.width
  encode a := f.encode a.1++g.encode a.2
  decode b := (f.decode (b.take f.width),g.decode (b.drop f.width))
  pos := Nat.add_pos_left f.pos g.width
  length_encode a := by
    rw [List.length_append,f.length_encode,g.length_encode]
  decode_encode a := by
    rw [List.take_left' (f.length_encode a.1),List.drop_left' (f.length_encode a.1),
      f.decode_encode,g.decode_encode]

/-- The values that are all there, one after the other. -/
def complete (f : FixedWidth α) (data : Bytes) : List α :=
  (List.range (data.length/f.width)).map (fun i => f.decode ((data.drop (f.width*i)).take f.width))

variable (f : FixedWidth α)

theorem complete_of_lt {data : Bytes} (h : data.length < f.width) : f.complete data = [] := by
  unfold complete
  rw [Nat.div_eq_of_lt h]
  rfl

theorem complete_of_le {data : Bytes} (h : f.width ≤ data.length) :
    f.complete data = f.decode (data.take f.width)::f.complete (data.drop f.width) := by
  have hcount : data.length/f.width = (data.drop f.width).length/f.width+1 := by
    rw [List.length_drop]
    exact Nat.div_eq_sub_div f.pos h
  unfold complete
  rw [hcount,List.range_succ_eq_map,List.map_cons,List.map_map]
  congr 1
  apply List.map_congr_left
  intro i _
  simp only [Function.comp_apply,List.drop_drop,Nat.mul_succ,Nat.add_comm]

/-- What has been written is there. -/
theorem complete_flatMap (as : List α) : f.complete (as.flatMap f.encode) = as := by
  induction as with
  | nil =>
    apply f.complete_of_lt
    exact f.pos
  | cons a as ih =>
    have hle : f.width ≤ ((a::as).flatMap f.encode).length := by
      rw [List.flatMap_cons,List.length_append,f.length_encode]
      exact Nat.le_add_right _ _
    rw [f.complete_of_le hle,List.flatMap_cons,List.take_left' (f.length_encode a),
      List.drop_left' (f.length_encode a),f.decode_encode,ih]

end FixedWidth

end OpenBroadcast
