import Mathlib.Data.List.Induction
import OpenBroadcast.Framework.Run

namespace OpenBroadcast

variable {S E : Type}

/-- Some step of a run has met `starts`, and no later one has met `ends`. -/
def Since (step : S → E → S) (starts ends : S → E → Prop) (s : S) (es : List E) : Prop :=
  ∃ pre e post, es = pre++e::post ∧ starts (pre.foldl step s) e ∧
    Along step (fun s e => ¬ ends s e) ((pre++[e]).foldl step s) post

theorem along_append {step : S → E → S} {ok : S → E → Prop} (s : S) (es es' : List E) :
    Along step ok s (es++es') ↔ Along step ok s es ∧ Along step ok (es.foldl step s) es' := by
  induction es generalizing s with
  | nil => exact ⟨fun h => ⟨trivial,h⟩,fun h => h.2⟩
  | cons e es ih =>
    show ok s e ∧ Along step ok (step s e) (es++es') ↔ _
    rw [ih]
    exact and_assoc.symm

/-- A condition on the events alone, where the state stands for something that no step changes. -/
theorem along_iff_forall {step : S → E → S} {ok : S → E → Prop} {ok' : E → Prop} {s : S}
    (Inv : S → Prop) (h : Inv s) (hstep : ∀ s e, Inv s → Inv (step s e))
    (hok : ∀ s e, Inv s → (ok s e ↔ ok' e)) (es : List E) :
    Along step ok s es ↔ ∀ e ∈ es, ok' e := by
  induction es generalizing s with
  | nil => simp [Along]
  | cons e es ih => simp [Along,hok s e h,ih (hstep s e h)]

theorem since_nil (step : S → E → S) (starts ends : S → E → Prop) (s : S) :
    ¬ Since step starts ends s [] := by
  rintro ⟨pre,e,post,h,_⟩
  simp at h

theorem since_snoc {step : S → E → S} {starts ends : S → E → Prop} (s : S) (es : List E) (e : E) :
    Since step starts ends s (es++[e]) ↔
      starts (es.foldl step s) e ∨
        Since step starts ends s es ∧ ¬ ends (es.foldl step s) e := by
  constructor
  · rintro ⟨pre,x,post,hes,hstarts,hkept⟩
    rcases List.eq_nil_or_concat post with rfl | ⟨post,last,rfl⟩
    · obtain ⟨rfl,hlast⟩ := List.append_inj' hes rfl
      obtain rfl : e = x := by simpa using hlast
      exact .inl hstarts
    · rw [List.concat_eq_append,← List.cons_append,← List.append_assoc] at hes
      obtain ⟨rfl,hlast⟩ := List.append_inj' hes rfl
      obtain rfl : e = last := by simpa using hlast
      rw [List.concat_eq_append,along_append] at hkept
      have hstate : post.foldl step ((pre++[x]).foldl step s) = (pre++x::post).foldl step s := by
        simp
      rw [hstate] at hkept
      exact .inr ⟨⟨pre,x,post,rfl,hstarts,hkept.1⟩,hkept.2.1⟩
  · rintro (hstarts | ⟨⟨pre,x,post,rfl,hstarts,hkept⟩,hends⟩)
    · exact ⟨es,e,[],rfl,hstarts,trivial⟩
    · refine ⟨pre,x,post++[e],by simp,hstarts,?_⟩
      rw [along_append]
      have hstate : post.foldl step ((pre++[x]).foldl step s) = (pre++x::post).foldl step s := by
        simp
      rw [hstate]
      exact ⟨hkept,hends,trivial⟩

/-- Where every step of the run that meets `ends'` meets `ends`, more of the past counts. -/
theorem Since.weaken {step : S → E → S} {starts ends ends' : S → E → Prop} {s : S} {es : List E}
    (h : Since step starts ends s es) (hrun : Along step (fun s e => ends' s e → ends s e) s es) :
    Since step starts ends' s es := by
  obtain ⟨pre,e,post,rfl,hstarts,hkept⟩ := h
  have hpost : Along step (fun s e => ends' s e → ends s e) ((pre++[e]).foldl step s) post := by
    rw [List.append_cons] at hrun
    exact ((along_append s (pre++[e]) post).mp hrun).2
  refine ⟨pre,e,post,rfl,hstarts,?_⟩
  exact (hkept.and hpost).imp (fun _ => True) trivial (fun _ _ _ _ => trivial)
    (fun s e _ hboth hends => hboth.1 (hboth.2 hends))

/-- What one kind of step brings about and another one undoes holds at the end of a run exactly if
it has been brought about and not been undone since, or was so from the start. -/
theorem holds_iff_since {step : S → E → S} {starts ends : S → E → Prop} {P : S → Prop}
    (hstep : ∀ s e, P (step s e) ↔ starts s e ∨ P s ∧ ¬ ends s e) (s : S) (es : List E) :
    P (es.foldl step s) ↔
      Since step starts ends s es ∨ P s ∧ Along step (fun s e => ¬ ends s e) s es := by
  induction es using List.reverseRecOn with
  | nil =>
    constructor
    · exact fun h => .inr ⟨h,trivial⟩
    · rintro (h | h)
      · exact absurd h (since_nil step starts ends s)
      · exact h.1
  | append_singleton es e ih =>
    rw [List.foldl_append,List.foldl_cons,List.foldl_nil,hstep,ih,since_snoc,along_append]
    constructor
    · rintro (h | ⟨h | ⟨h,hkept⟩,hends⟩)
      · exact .inl (.inl h)
      · exact .inl (.inr ⟨h,hends⟩)
      · exact .inr ⟨h,hkept,hends,trivial⟩
    · rintro ((h | ⟨h,hends⟩) | ⟨h,hkept,hends,_⟩)
      · exact .inl h
      · exact .inr ⟨.inl h,hends⟩
      · exact .inr ⟨.inr ⟨h,hkept⟩,hends⟩

/-- The same where it does not hold at the start. -/
theorem holds_iff_since_of_not {step : S → E → S} {starts ends : S → E → Prop} {P : S → Prop}
    (hstep : ∀ s e, P (step s e) ↔ starts s e ∨ P s ∧ ¬ ends s e) {s : S} (h : ¬ P s)
    (es : List E) : P (es.foldl step s) ↔ Since step starts ends s es := by
  rw [holds_iff_since hstep]
  exact ⟨fun hor => hor.resolve_right (fun hand => h hand.1),.inl⟩

/-- A list that some steps begin anew, some drop, and the others add to: at the end of a run that
starts without it, it is what the last beginning gave and all that has been added since. -/
theorem gathered_iff {A : Type} {step : S → E → S} {value : S → Option (List A)}
    {enter : S → E → Option (List A)} {leave : S → E → Prop} {add : E → List A}
    (hstep : ∀ s e l, value (step s e) = some l ↔ enter s e = some l ∨
      (enter s e = none ∧ ¬ leave s e) ∧ ∃ l₀, value s = some l₀ ∧ l = l₀++add e)
    {s : S} (h : value s = none) (es : List E) (l : List A) :
    value (es.foldl step s) = some l ↔ ∃ pre e post base, es = pre++e::post ∧
      enter (pre.foldl step s) e = some base ∧
      Along step (fun s e => enter s e = none ∧ ¬ leave s e) ((pre++[e]).foldl step s) post ∧
      l = base++post.flatMap add := by
  induction es using List.reverseRecOn generalizing l with
  | nil => simp [h]
  | append_singleton es e ih =>
    rw [List.foldl_append,List.foldl_cons,List.foldl_nil,hstep]
    constructor
    · rintro (hbegins | ⟨hkept,l₀,hl₀,rfl⟩)
      · exact ⟨es,e,[],l,rfl,hbegins,trivial,by simp⟩
      · obtain ⟨pre,x,post,base,rfl,hbegins,hlater,rfl⟩ := (ih l₀).mp hl₀
        refine ⟨pre,x,post++[e],base,by simp,hbegins,?_,by simp⟩
        rw [along_append]
        have hstate : post.foldl step ((pre++[x]).foldl step s) = (pre++x::post).foldl step s := by
          simp
        rw [hstate]
        exact ⟨hlater,hkept,trivial⟩
    · rintro ⟨pre,x,post,base,hes,hbegins,hlater,rfl⟩
      rcases List.eq_nil_or_concat post with rfl | ⟨post,last,rfl⟩
      · obtain ⟨rfl,hlast⟩ := List.append_inj' hes rfl
        obtain rfl : e = x := by simpa using hlast
        exact .inl (by simpa using hbegins)
      · rw [List.concat_eq_append,← List.cons_append,← List.append_assoc] at hes
        obtain ⟨rfl,hlast⟩ := List.append_inj' hes rfl
        obtain rfl : e = last := by simpa using hlast
        rw [List.concat_eq_append,along_append] at hlater
        have hstate : post.foldl step ((pre++[x]).foldl step s) = (pre++x::post).foldl step s := by
          simp
        rw [hstate] at hlater
        refine .inr ⟨hlater.2.1,base++post.flatMap add,?_,by simp⟩
        exact (ih _).mpr ⟨pre,x,post,base,rfl,hbegins,hlater.1,rfl⟩

end OpenBroadcast
