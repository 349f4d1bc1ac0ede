import Mathlib.Data.Nat.Basic
import Mathlib.Data.Int.Basic

namespace OpenBroadcast

open Float.Model (UnpackedFloat)

/-- The place of a float on the number line: its class from minus to plus infinity, and
within a class of finite values the signed exponent and the signed mantissa. -/
private def place : UnpackedFloat → Int × Int × Int
  | .infinity .negative => (-2,0,0)
  | .finite .negative m e _ => (-1,-e,-(m : Int))
  | .notANumber => (0,0,0)
  | .zero _ => (0,0,0)
  | .finite .positive m e _ => (1,e,(m : Int))
  | .infinity .positive => (2,0,0)

private def placeLt (a b : Int × Int × Int) : Prop :=
  a.1 < b.1 ∨ (a.1 = b.1 ∧ (a.2.1 < b.2.1 ∨ (a.2.1 = b.2.1 ∧ a.2.2 < b.2.2)))

private theorem compare_lt_iff_of_numbers {a b : UnpackedFloat} (ha : a ≠ .notANumber)
    (hb : b ≠ .notANumber) (h : a.compare b = some .lt ↔ placeLt (place a) (place b)) :
    a.compare b = some .lt ↔
      a ≠ .notANumber ∧ b ≠ .notANumber ∧ placeLt (place a) (place b) := by
  rw [h]
  exact ⟨fun hlt => ⟨ha,hb,hlt⟩,fun hlt => hlt.2.2⟩

private theorem not_lt_notANumber (a : UnpackedFloat) : a.compare .notANumber ≠ some .lt := by
  cases a with
  | notANumber => nofun
  | infinity s => cases s <;> nofun
  | zero s => nofun
  | finite s m e h => cases s <;> nofun

private theorem compare_lt_iff_place (a b : UnpackedFloat) :
    a.compare b = some .lt ↔
      a ≠ .notANumber ∧ b ≠ .notANumber ∧ placeLt (place a) (place b) := by
  have swap (o : Ordering) : o.swap = .lt ↔ o = .gt := by cases o <;> decide
  have right : a.compare .notANumber = some .lt ↔
      a ≠ .notANumber ∧ .notANumber ≠ UnpackedFloat.notANumber ∧
        placeLt (place a) (place .notANumber) :=
    ⟨fun hlt => absurd hlt (not_lt_notANumber a),fun hlt => absurd rfl hlt.2.1⟩
  cases a with
  | notANumber => exact ⟨fun hlt => (by cases b <;> cases hlt),fun hlt => absurd rfl hlt.1⟩
  | infinity s =>
    cases b with
    | notANumber => exact right
    | infinity r | zero r | finite r m e h =>
      refine compare_lt_iff_of_numbers (fun heq => by cases heq) (fun heq => by cases heq) ?_
      cases s <;> cases r <;> dsimp only [UnpackedFloat.compare,place,placeLt] <;> simp [compare]
  | zero s =>
    cases b with
    | notANumber => exact right
    | infinity r | zero r | finite r m e h =>
      refine compare_lt_iff_of_numbers (fun heq => by cases heq) (fun heq => by cases heq) ?_
      cases r <;> dsimp only [UnpackedFloat.compare,place,placeLt] <;> simp
  | finite s m e h =>
    cases b with
    | notANumber => exact right
    | infinity r | zero r =>
      refine compare_lt_iff_of_numbers (fun heq => by cases heq) (fun heq => by cases heq) ?_
      cases s <;> cases r <;> dsimp only [UnpackedFloat.compare,place,placeLt] <;> simp
    | finite r m' e' h' =>
      refine compare_lt_iff_of_numbers (fun heq => by cases heq) (fun heq => by cases heq) ?_
      cases s <;> cases r <;> dsimp only [UnpackedFloat.compare,place,placeLt] <;>
        simp [swap,Ordering.then_eq_lt,Ordering.then_eq_gt,Int.compare_eq_lt,Int.compare_eq_gt,
          Nat.compare_eq_lt,Nat.compare_eq_gt]

private theorem f32_lt_iff (a b : Float32) :
    a < b ↔ a.toModel.unpack.compare b.toModel.unpack = some .lt := by
  change (decide (a.toModel < b.toModel) = true) ↔ _
  rw [decide_eq_true_iff]
  change ((a.toModel.unpack.compare b.toModel.unpack == some .lt) = true) ↔ _
  exact beq_iff_eq

/-- `<` on `f32` is a strict order (partial: NaN is not below or above anything). -/
theorem f32_lt_irrefl (a : Float32) : ¬ a < a := by
  rw [f32_lt_iff,compare_lt_iff_place]
  intro hyp
  obtain ⟨_,_,h⟩ := hyp
  unfold placeLt at h
  omega

theorem f32_lt_trans {a b c : Float32} (hab : a < b) (hbc : b < c) : a < c := by
  rw [f32_lt_iff,compare_lt_iff_place] at hab hbc ⊢
  obtain ⟨ha,_,hab⟩ := hab
  obtain ⟨_,hc,hbc⟩ := hbc
  refine ⟨ha,hc,?_⟩
  unfold placeLt at hab hbc ⊢
  omega

end OpenBroadcast
