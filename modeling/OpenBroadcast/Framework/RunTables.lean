import Mathlib.Algebra.Ring.Nat
import Mathlib.Data.List.GetD
import Mathlib.Data.List.Pairwise

namespace OpenBroadcast

section RunLengths

variable {α : Type}

/-- What a run-length encoded table says: each value as often as its count. -/
def expandRuns (runs : List (Nat × α)) : List α :=
  runs.flatMap (fun run => List.replicate run.1 run.2)

@[simp] theorem expandRuns_nil : expandRuns ([] : List (Nat × α)) = [] := rfl

@[simp] theorem expandRuns_cons (count : Nat) (a : α) (runs : List (Nat × α)) :
    expandRuns ((count,a)::runs) = List.replicate count a++expandRuns runs := rfl

theorem expandRuns_cons_lt {count k : Nat} (h : k < count) (a : α) (runs : List (Nat × α)) :
    (expandRuns ((count,a)::runs))[k]? = some a := by
  rw [expandRuns_cons,List.getElem?_append_left (by simpa using h)]
  simp [h]

theorem expandRuns_cons_ge {count k : Nat} (h : count ≤ k) (a : α) (runs : List (Nat × α)) :
    (expandRuns ((count,a)::runs))[k]? = (expandRuns runs)[k-count]? := by
  rw [expandRuns_cons,List.getElem?_append_right (by simpa using h),List.length_replicate]

end RunLengths

section Steps

variable {α : Type}

/-- What a table of steps says about a place: the value of the last step that starts there or
before. -/
def stepAt (steps : List (Nat × α)) (place : Nat) : Option α :=
  ((steps.filter (fun step => decide (step.1 ≤ place))).getLast?).map Prod.snd

@[simp] theorem stepAt_nil (place : Nat) : stepAt ([] : List (Nat × α)) place = none := rfl

/-- Before its first step a table says nothing. -/
theorem stepAt_eq_none {steps : List (Nat × α)} {place : Nat} (h : ∀ step ∈ steps, place < step.1) :
    stepAt steps place = none := by
  have hnone : steps.filter (fun step => decide (step.1 ≤ place)) = [] := by
    rw [List.filter_eq_nil_iff]
    intro step hstep
    have := h step hstep
    simp only [decide_eq_true_eq]
    omega
  simp [stepAt,hnone]

/-- The first step counts until the second one starts. -/
theorem stepAt_cons {start place : Nat} (a : α) {steps : List (Nat × α)} (h : start ≤ place) :
    stepAt ((start,a)::steps) place = some ((stepAt steps place).getD a) := by
  unfold stepAt
  rw [List.filter_cons_of_pos (by simpa using h),List.getLast?_cons]
  cases (steps.filter (fun step => decide (step.1 ≤ place))).getLast? <;> rfl

/-- The starts of the steps grow. -/
def StepsIncrease (steps : List (Nat × α)) : Prop := steps.Pairwise (fun a b => a.1 < b.1)

instance (steps : List (Nat × α)) : Decidable (StepsIncrease steps) :=
  inferInstanceAs (Decidable (steps.Pairwise (fun a b => a.1 < b.1)))

/-- The starts of the steps do not go back. -/
def StepsOrdered (steps : List (Nat × α)) : Prop := steps.Pairwise (fun a b => a.1 ≤ b.1)

theorem StepsIncrease.ordered {steps : List (Nat × α)} (h : StepsIncrease steps) :
    StepsOrdered steps := h.imp Nat.le_of_lt

theorem StepsOrdered.stepAt_of_lt {start place : Nat} {a : α} {steps : List (Nat × α)}
    (h : StepsOrdered ((start,a)::steps)) (hplace : place < start) :
    stepAt ((start,a)::steps) place = none := by
  apply stepAt_eq_none
  intro step hstep
  rcases List.mem_cons.mp hstep with rfl | hstep
  · exact hplace
  · have hlater := (List.pairwise_cons.mp h).1 step hstep
    dsimp only at hlater
    omega

end Steps

end OpenBroadcast
