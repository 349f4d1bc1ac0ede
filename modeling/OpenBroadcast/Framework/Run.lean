import Mathlib.Data.List.Basic

namespace OpenBroadcast

variable {S E : Type}

/-- Every step of the run of `step` over a list of events meets `ok` in the state in which
it is taken. -/
def Along (step : S → E → S) (ok : S → E → Prop) : S → List E → Prop
  | _,[] => True
  | s,e::es => ok s e ∧ Along step ok (step s e) es

instance decidableAlong {step : S → E → S} {ok : S → E → Prop} [∀ s e, Decidable (ok s e)] :
    (s : S) → (es : List E) → Decidable (Along step ok s es)
  | _,[] => .isTrue trivial
  | s,e::es =>
    have := @decidableAlong step ok _ (step s e) es
    inferInstanceAs (Decidable (ok s e ∧ Along step ok (step s e) es))

/-- The invariant rule: what holds at the start and is kept by every step that meets `ok`
holds at the end of every run whose steps all meet `ok`. -/
theorem Along.invariant {step : S → E → S} {ok : S → E → Prop} {s : S} {es : List E}
    (Inv : S → Prop) (h : Along step ok s es) (h0 : Inv s)
    (hstep : ∀ s e, Inv s → ok s e → Inv (step s e)) : Inv (es.foldl step s) := by
  induction es generalizing s with
  | nil => exact h0
  | cons e es ih => exact ih h.2 (hstep s e h0 h.1)

theorem Along.of_prefix {step : S → E → S} {ok : S → E → Prop} {s : S} {pre es : List E}
    (h : Along step ok s es) (hpre : pre <+: es) : Along step ok s pre := by
  induction pre generalizing s es with
  | nil => trivial
  | cons e pre ih =>
    obtain ⟨rest,rfl⟩ := hpre
    exact ⟨h.1,ih h.2 (List.prefix_append pre rest)⟩

theorem Along.last {step : S → E → S} {ok : S → E → Prop} {s : S} {es : List E} {e : E}
    (h : Along step ok s (es++[e])) : ok (es.foldl step s) e := by
  induction es generalizing s with
  | nil => exact h.1
  | cons e' es ih => exact ih h.2

theorem Along.and {step : S → E → S} {ok ok' : S → E → Prop} {s : S} {es : List E}
    (h : Along step ok s es) (h' : Along step ok' s es) :
    Along step (fun s e => ok s e ∧ ok' s e) s es := by
  induction es generalizing s with
  | nil => trivial
  | cons e es ih => exact ⟨⟨h.1,h'.1⟩,ih h.2 h'.2⟩

/-- Where the condition of a step says exactly that the step keeps `P`, the condition on a run
says exactly that `P` holds all along. -/
theorem along_iff_prefixes {step : S → E → S} {ok : S → E → Prop} {s : S} {es : List E}
    (P : S → Prop) (h0 : P s) (hstep : ∀ s e, P s → (ok s e ↔ P (step s e))) :
    Along step ok s es ↔ ∀ pre, pre <+: es → P (pre.foldl step s) := by
  induction es generalizing s with
  | nil =>
    constructor
    · intro _ pre hpre
      rw [List.prefix_nil.mp hpre]
      exact h0
    · exact fun _ => trivial
  | cons e es ih =>
    constructor
    · intro h pre hpre
      cases pre with
      | nil => exact h0
      | cons x pre =>
        obtain ⟨heq,htail⟩ := List.cons_prefix_cons.mp hpre
        subst heq
        exact (ih ((hstep s x h0).mp h.1)).mp h.2 pre htail
    · intro h
      have hfirst : P (step s e) := h [e] (by simp)
      refine ⟨(hstep s e h0).mpr hfirst,(ih hfirst).mpr ?_⟩
      exact fun pre hpre => h (e::pre) (List.cons_prefix_cons.mpr ⟨rfl,hpre⟩)

/-- What follows from the invariant and `ok` holds of every step of a run. -/
theorem Along.imp {step : S → E → S} {ok Q : S → E → Prop} {s : S} {es : List E} (Inv : S → Prop)
    (h : Along step ok s es) (h0 : Inv s) (hstep : ∀ s e, Inv s → ok s e → Inv (step s e))
    (hQ : ∀ s e, Inv s → ok s e → Q s e) : Along step Q s es := by
  induction es generalizing s with
  | nil => trivial
  | cons e es ih => exact ⟨hQ s e h0 h.1,ih h.2 (hstep s e h0 h.1)⟩

/-- What a step that loses it never brings back holds at the end of a run exactly if every step
keeps it. -/
theorem along_iff_last {step : S → E → S} {ok : S → E → Prop} {s : S} {es : List E}
    (P : S → Prop) (h0 : P s) (hstep : ∀ s e, P s → (ok s e ↔ P (step s e)))
    (hback : ∀ s e, P (step s e) → P s) : Along step ok s es ↔ P (es.foldl step s) := by
  induction es generalizing s with
  | nil => exact ⟨fun _ => h0,fun _ => trivial⟩
  | cons e es ih =>
    have hfirst : P (es.foldl step (step s e)) → P (step s e) := by
      clear ih
      generalize step s e = t
      induction es generalizing t with
      | nil => exact id
      | cons e' es ih => exact fun h => hback t e' (ih (step t e') h)
    constructor
    · intro h
      have hs := (hstep s e h0).mp h.1
      exact (ih hs).mp h.2
    · intro h
      have hs := hfirst h
      exact ⟨(hstep s e h0).mpr hs,(ih hs).mpr h⟩

theorem along_congr {step : S → E → S} {ok ok' : S → E → Prop} (h : ∀ s e, ok s e ↔ ok' s e)
    (s : S) (es : List E) : Along step ok s es ↔ Along step ok' s es := by
  induction es generalizing s with
  | nil => exact Iff.rfl
  | cons e es ih => exact and_congr (h s e) (ih (step s e))

/-- Two conditions that agree wherever the invariant holds agree along runs that keep it. -/
theorem along_congr_of_invariant {step : S → E → S} {ok P Q : S → E → Prop} {s : S} {es : List E}
    (Inv : S → Prop) (h : Along step ok s es) (h0 : Inv s)
    (hstep : ∀ s e, Inv s → ok s e → Inv (step s e))
    (hiff : ∀ s e, Inv s → ok s e → (P s e ↔ Q s e)) :
    Along step P s es ↔ Along step Q s es := by
  induction es generalizing s with
  | nil => exact Iff.rfl
  | cons e es ih => exact and_congr (hiff s e h0 h.1) (ih h.2 (hstep s e h0 h.1))

theorem along_of_forall (step : S → E → S) {ok : E → Prop} {es : List E} (s : S)
    (h : ∀ e ∈ es, ok e) : Along step (fun _ e => ok e) s es := by
  induction es generalizing s with
  | nil => trivial
  | cons e es ih =>
    exact ⟨h e List.mem_cons_self,ih _ (fun e he => h e (List.mem_cons_of_mem _ he))⟩

theorem along_true (step : S → E → S) (s : S) (es : List E) :
    Along step (fun _ _ => True) s es :=
  along_of_forall step s (fun _ _ => trivial)

/-- A bound that every step can raise by `k`. -/
theorem foldl_raises {step : S → E → S} {P : S → Nat → Prop} {k : Nat}
    (hstep : ∀ s e d, P s d → P (step s e) (d+k)) {s : S} {d : Nat} (h : P s d) (es : List E) :
    P (es.foldl step s) (d+k*es.length) := by
  induction es generalizing s d with
  | nil => simpa using h
  | cons e es ih =>
    have rest := ih (hstep s e d h)
    have total : d+k+k*es.length = d+k*(e::es).length := by
      rw [List.length_cons,Nat.mul_succ]
      omega
    rwa [total] at rest

end OpenBroadcast
