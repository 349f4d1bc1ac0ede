import Mathlib.Algebra.BigOperators.Fin
import Mathlib.Data.Nat.ModEq

namespace OpenBroadcast

variable {M : Type} [AddCommMonoid M] {n turns : Nat} {log : List (Nat × M)} {slots : List M}

/-- A ring of `n` sums. Each turn clears the next place of the ring, and what is logged after so
many turns is added at the place that was cleared last. -/
structure Rotating (n turns : Nat) (log : List (Nat × M)) (slots : List M) : Prop where
  length : slots.length = n
  past : ∀ e ∈ log, e.1 ≤ turns
  slot : ∀ i < n, slots[i]? =
    some ((log.filter (fun e => e.1%n = i ∧ turns < e.1+n)).map Prod.snd).sum

namespace Rotating

theorem start (n : Nat) : Rotating n 0 [] (List.replicate n (0 : M)) := by
  refine ⟨List.length_replicate,List.forall_mem_nil _,?_⟩
  intro i hi
  rw [List.getElem?_replicate,if_pos hi]
  rfl

theorem turn (h : Rotating n turns log slots) (hn : 0 < n) :
    Rotating n (turns+1) log (slots.set ((turns+1)%n) 0) := by
  have hplace : (turns+1)%n < n := Nat.mod_lt _ hn
  refine ⟨by rw [List.length_set,h.length],fun e he => (h.past e he).trans (Nat.le_succ _),?_⟩
  intro i hi
  by_cases hcleared : (turns+1)%n = i
  · have hnone : log.filter (fun e => e.1%n = i ∧ turns+1 < e.1+n) = [] := by
      rw [List.filter_eq_nil_iff]
      intro e he hlive
      simp only [decide_eq_true_eq] at hlive
      have hpast := h.past e he
      -- The numbers of turns differ by less than a round, and not at all modulo a round.
      have hmod : e.1 ≡ turns+1 [MOD n] := hlive.1.trans hcleared.symm
      have hdvd := (Nat.modEq_iff_dvd' (by omega)).mp hmod
      exact Nat.not_dvd_of_pos_of_lt (by omega) (by omega) hdvd
    rw [hcleared,List.getElem?_set_self (by rw [h.length]; exact hi),hnone]
    rfl
  · have hsame : log.filter (fun e => e.1%n = i ∧ turns+1 < e.1+n) =
        log.filter (fun e => e.1%n = i ∧ turns < e.1+n) := by
      apply List.filter_congr
      intro e he
      have hiff : (e.1%n = i ∧ turns+1 < e.1+n) ↔ e.1%n = i ∧ turns < e.1+n := by
        constructor
        · exact fun hlive => ⟨hlive.1,by omega⟩
        · rintro ⟨hmod,hlive⟩
          refine ⟨hmod,?_⟩
          by_contra hlast
          have hround : turns+1 = e.1+n := by omega
          rw [hround,Nat.add_mod_right] at hcleared
          exact hcleared hmod
      simp only [hiff]
    rw [List.getElem?_set_ne hcleared,h.slot i hi,hsame]

theorem add (h : Rotating n turns log slots) (value : M) :
    Rotating n turns (log++[(turns,value)]) (slots.modify (turns%n) (·+value)) := by
  refine ⟨by rw [List.length_modify,h.length],?_,?_⟩
  · intro e he
    rcases List.mem_append.mp he with he | he
    · exact h.past e he
    · rw [List.mem_singleton.mp he]
  · intro i hi
    rw [List.getElem?_modify,h.slot i hi,List.filter_append,List.map_append,List.sum_append]
    by_cases hplace : turns%n = i
    · have hlive : turns < turns+n := by omega
      simp [hplace,hlive]
    · simp [hplace]

/-- All sums together are what has been logged less than a round ago. -/
theorem sum_eq (h : Rotating n turns log slots) (hn : 0 < n) :
    slots.sum = ((log.filter (fun e => turns < e.1+n)).map Prod.snd).sum := by
  have hslots : slots.sum = ∑ i ∈ Finset.range n,
      ((log.filter (fun e => e.1%n = i ∧ turns < e.1+n)).map Prod.snd).sum := by
    obtain rfl := h.length
    rw [Finset.sum_range,← Fin.sum_univ_getElem]
    apply Finset.sum_congr rfl
    intro i _
    have hslot := h.slot i i.isLt
    rw [List.getElem?_eq_getElem i.isLt] at hslot
    exact Option.some.inj hslot
  rw [hslots]
  clear hslots h
  induction log with
  | nil => simp
  | cons e log ih =>
    by_cases hlive : turns < e.1+n
    · have hplace : e.1%n < n := Nat.mod_lt _ hn
      have hcons (i : Nat) :
          (((e::log).filter (fun e => e.1%n = i ∧ turns < e.1+n)).map Prod.snd).sum =
            (if i = e.1%n then e.2 else 0)+
              ((log.filter (fun e => e.1%n = i ∧ turns < e.1+n)).map Prod.snd).sum := by
        by_cases hi : i = e.1%n
        · simp [hi,hlive]
        · have hne : ¬ e.1%n = i := fun heq => hi heq.symm
          simp [hi,hne]
      simp only [hcons,Finset.sum_add_distrib,Finset.sum_ite_eq',Finset.mem_range,hplace,if_true,ih]
      simp [hlive]
    · simpa [hlive] using ih

end Rotating

end OpenBroadcast
