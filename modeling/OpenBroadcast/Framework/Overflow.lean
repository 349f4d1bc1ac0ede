import Mathlib.Algebra.Ring.Nat

namespace OpenBroadcast

/-- What a build does when a result does not fit into its type. -/
inductive Overflow where
  | panics
  | wraps
  deriving DecidableEq, Repr

namespace Overflow

variable (o : Overflow) (a b : UInt64) (m n : Nat)

/-- `a + b` of two `u64`, or a panic. -/
def addU64 : Option UInt64 :=
  if a.toNat+b.toNat < 2^64 then some (a+b)
  else match o with
    | .panics => none
    | .wraps => some (a+b)

/-- `m - n` of two `usize`, or a panic. -/
def subUsize : Option Nat :=
  if n ≤ m then some (m-n)
  else match o with
    | .panics => none
    | .wraps => some (m+2^64-n)

theorem addU64_of_lt (h : a.toNat+b.toNat < 2^64) : o.addU64 a b = some (a+b) := by
  rw [addU64.eq_def,if_pos h]

theorem toNat_add_of_lt {a b : UInt64} (h : a.toNat+b.toNat < 2^64) :
    (a+b).toNat = a.toNat+b.toNat := by
  rw [UInt64.toNat_add]
  omega

theorem addU64_wraps : addU64 .wraps a b = some (a+b) := by
  unfold addU64
  split_ifs <;> rfl

theorem addU64_panics_of_ge (h : 2^64 ≤ a.toNat+b.toNat) : addU64 .panics a b = none := by
  have hover : ¬ a.toNat+b.toNat < 2^64 := by omega
  rw [addU64.eq_def,if_neg hover]

/-- A sum that wraps is less than either of its terms. -/
theorem toNat_add_of_ge {a b : UInt64} (h : 2^64 ≤ a.toNat+b.toNat) :
    (a+b).toNat+2^64 = a.toNat+b.toNat := by
  have ha := a.toNat_lt
  have hb := b.toNat_lt
  rw [UInt64.toNat_add]
  omega

theorem subUsize_of_le {m n : Nat} (h : n ≤ m) : o.subUsize m n = some (m-n) := by
  rw [subUsize.eq_def,if_pos h]

section Usize

/-- `a + n` of two `usize` of `w` bits, or a panic. -/
def addUsize {w : Nat} (o : Overflow) (a : BitVec w) (n : Nat) : Option (BitVec w) :=
  if a.toNat+n < 2^w then some (a+.ofNat w n)
  else match o with
    | .panics => none
    | .wraps => some (a+.ofNat w n)

variable {o : Overflow} {w n : Nat} {a b : BitVec w}

theorem addUsize_eq_some (h : o.addUsize a n = some b) :
    b = a+.ofNat w n ∧ (o = .panics → a.toNat+n < 2^w) := by
  unfold addUsize at h
  split_ifs at h with hfits
  · cases h
    exact ⟨rfl,fun _ => hfits⟩
  · cases o with
    | panics => cases h
    | wraps =>
      cases h
      exact ⟨rfl,fun hpanics => Overflow.noConfusion hpanics⟩

theorem addUsize_eq_none (h : o.addUsize a n = none) : o = .panics ∧ 2^w ≤ a.toNat+n := by
  unfold addUsize at h
  split_ifs at h with hfits
  cases o with
  | panics => exact ⟨rfl,by omega⟩
  | wraps => cases h

theorem toNat_add_usize (h : a.toNat+n < 2^w) : (a+.ofNat w n).toNat = a.toNat+n := by
  rw [BitVec.toNat_add,BitVec.toNat_ofNat,Nat.add_mod_mod]
  exact Nat.mod_eq_of_lt h

end Usize

end Overflow

end OpenBroadcast
