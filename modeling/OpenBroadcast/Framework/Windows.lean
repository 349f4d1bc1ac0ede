import Mathlib.Algebra.Order.Monoid.Unbundled.Basic
import Mathlib.Data.List.Count

namespace OpenBroadcast

variable {α : Type} [LinearOrder α] [Add α] {length : α} {limit : Nat} {log : List (α × α)}

/-- Events at their times, each with the start of the window that it counts in: it lies in this
window, windows do not overlap, and none has more events than the limit. -/
structure Windowed (length : α) (limit : Nat) (log : List (α × α)) : Prop where
  within : ∀ e ∈ log, e.2 ≤ e.1 ∧ e.1 < e.2+length
  apart : ∀ e ∈ log, ∀ e' ∈ log, e.2 < e'.2 → e.2+length ≤ e'.2
  bounded : ∀ start, log.countP (fun e => e.2 = start) ≤ limit

namespace Windowed

theorem nil (length : α) (limit : Nat) : Windowed length limit ([] : List (α × α)) :=
  ⟨List.forall_mem_nil _,List.forall_mem_nil _,fun _ => Nat.zero_le _⟩

/-- Events of one window are within its limit. -/
theorem countP_le_of_same (h : Windowed length limit log) (p : α × α → Bool)
    (hsame : ∀ e ∈ log, ∀ e' ∈ log, p e → p e' → e.2 = e'.2) : log.countP p ≤ limit := by
  by_cases hany : ∃ e ∈ log, p e
  · obtain ⟨e,he,hp⟩ := hany
    have hmono : log.countP p ≤ log.countP (fun e' => e'.2 = e.2) := by
      apply List.countP_mono_left
      intro e' he' hp'
      simpa using hsame e' he' e he hp' hp
    exact hmono.trans (h.bounded e.2)
  · have hnone : log.countP p = 0 := by
      rw [List.countP_eq_zero]
      exact fun e he hp => hany ⟨e,he,hp⟩
    omega

/-- From the start of a window to its end there are only its own events. -/
theorem count_window (h : Windowed length limit log) {start : α} (hstart : ∃ e ∈ log, e.2 = start) :
    log.countP (fun e => start ≤ e.1 ∧ e.1 < start+length) ≤ limit := by
  obtain ⟨first,hfirst,rfl⟩ := hstart
  have hown : ∀ e ∈ log, first.2 ≤ e.1 → e.1 < first.2+length → e.2 = first.2 := by
    intro e he hle hlt
    rcases lt_trichotomy e.2 first.2 with hbefore | heq | hafter
    · have hend := h.apart e he first hfirst hbefore
      exact absurd ((h.within e he).2.trans_le hend) (not_lt_of_ge hle)
    · exact heq
    · have hend := h.apart first hfirst e he hafter
      exact absurd (hlt.trans_le (hend.trans (h.within e he).1)) (lt_irrefl _)
  apply h.countP_le_of_same
  intro e he e' he' hp hp'
  simp only [decide_eq_true_eq] at hp hp'
  rw [hown e he hp.1 hp.2,hown e' he' hp'.1 hp'.2]

/-- An interval of the length of a window meets two windows at most: one that has started before
it, and one that starts in it. -/
theorem count_interval [AddRightMono α] (h : Windowed length limit log) (t : α) :
    log.countP (fun e => t ≤ e.1 ∧ e.1 < t+length) ≤ limit+limit := by
  rw [List.countP_eq_countP_filter_add log _ (fun e => decide (e.2 < t)),List.countP_filter,
    List.countP_filter]
  apply Nat.add_le_add
  · apply h.countP_le_of_same
    intro e he e' he' hp hp'
    simp only [Bool.and_eq_true,decide_eq_true_eq] at hp hp'
    rcases lt_trichotomy e.2 e'.2 with hlt | heq | hgt
    · have hend := h.apart e he e' he' hlt
      have hover := ((h.within e he).2.trans_le hend).trans hp'.2
      exact absurd hover (not_lt_of_ge hp.1.1)
    · exact heq
    · have hend := h.apart e' he' e he hgt
      have hover := ((h.within e' he').2.trans_le hend).trans hp.2
      exact absurd hover (not_lt_of_ge hp'.1.1)
  · apply h.countP_le_of_same
    intro e he e' he' hp hp'
    simp only [Bool.and_eq_true,Bool.not_eq_true',decide_eq_true_eq,decide_eq_false_iff_not,
      not_lt] at hp hp'
    rcases lt_trichotomy e.2 e'.2 with hlt | heq | hgt
    · have hend := (add_le_add_left hp.2 length).trans (h.apart e he e' he' hlt)
      have hlate := hend.trans (h.within e' he').1
      exact absurd hp'.1.2 (not_lt_of_ge hlate)
    · exact heq
    · have hend := (add_le_add_left hp'.2 length).trans (h.apart e' he' e he hgt)
      have hlate := hend.trans (h.within e he).1
      exact absurd hp.1.2 (not_lt_of_ge hlate)

/-- An event that starts a window, after all windows so far are over. -/
theorem open_window (h : Windowed length limit log) {now : α} (hnow : now < now+length)
    (hlimit : 1 ≤ limit) (hover : ∀ e ∈ log, e.2+length ≤ now) :
    Windowed length limit (log++[(now,now)]) := by
  have hearlier : ∀ e ∈ log, e.2 < now := by
    intro e he
    have hin := h.within e he
    exact (hin.1.trans_lt hin.2).trans_le (hover e he)
  constructor
  · intro e he
    rcases List.mem_append.mp he with he | he
    · exact h.within e he
    · rw [List.mem_singleton.mp he]
      exact ⟨le_rfl,hnow⟩
  · intro e he e' he' hlt
    rcases List.mem_append.mp he with he | he
    · rcases List.mem_append.mp he' with he' | he'
      · exact h.apart e he e' he' hlt
      · rw [List.mem_singleton.mp he']
        exact hover e he
    · rw [List.mem_singleton.mp he] at hlt
      rcases List.mem_append.mp he' with he' | he'
      · exact absurd (hlt.trans (hearlier e' he')) (lt_irrefl _)
      · rw [List.mem_singleton.mp he'] at hlt
        exact absurd hlt (lt_irrefl _)
  · intro start
    rw [List.countP_append]
    by_cases hstart : now = start
    · subst hstart
      have hnone : log.countP (fun e => e.2 = now) = 0 := by
        rw [List.countP_eq_zero]
        intro e he
        simpa using (hearlier e he).ne
      rw [hnone]
      simpa using hlimit
    · have hold := h.bounded start
      simpa [hstart] using hold

/-- One more event of a window that is not full. -/
theorem fill_window (h : Windowed length limit log) {now start : α} (hle : start ≤ now)
    (hlt : now < start+length) (hstart : ∃ e ∈ log, e.2 = start)
    (hroom : log.countP (fun e => e.2 = start) < limit) :
    Windowed length limit (log++[(now,start)]) := by
  obtain ⟨first,hfirst,hsame⟩ := hstart
  constructor
  · intro e he
    rcases List.mem_append.mp he with he | he
    · exact h.within e he
    · rw [List.mem_singleton.mp he]
      exact ⟨hle,hlt⟩
  · have hold : ∀ e ∈ log++[(now,start)], ∃ e' ∈ log, e'.2 = e.2 := by
      intro e he
      rcases List.mem_append.mp he with he | he
      · exact ⟨e,he,rfl⟩
      · exact ⟨first,hfirst,by rw [hsame,List.mem_singleton.mp he]⟩
    intro e he e' he' hbefore
    obtain ⟨x,hx,hxe⟩ := hold e he
    obtain ⟨x',hx',hxe'⟩ := hold e' he'
    rw [← hxe,← hxe'] at hbefore ⊢
    exact h.apart x hx x' hx' hbefore
  · intro other
    rw [List.countP_append]
    by_cases hother : start = other
    · subst hother
      simpa using Nat.succ_le_of_lt hroom
    · have hold := h.bounded other
      simpa [hother] using hold

end Windowed

end OpenBroadcast
