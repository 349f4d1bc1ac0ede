import Mathlib.Data.List.Basic

namespace OpenBroadcast

/-! Loops over a list that can only fail in one way. -/

section FoldErrors

variable {σ τ α ε : Type} {act : σ → α → Except ε σ} {e : ε}

/-- A step fails with one error only. -/
def FailsOnlyWith (act : σ → α → Except ε σ) (e : ε) : Prop :=
  ∀ s a e', act s a = .error e' → e' = e

/-- If what makes a step fail is seen in a part of the state that the steps change in a known
way, the loop fails exactly if some step does when its turn comes. -/
theorem foldlM_fails_iff {view : σ → τ} {next : τ → α → τ} {Bad : τ → α → Prop}
    (honly : FailsOnlyWith act e) (hbad : ∀ s a, act s a = .error e ↔ Bad (view s) a)
    (hview : ∀ s a s', act s a = .ok s' → view s' = next (view s) a) (l : List α) (s : σ) :
    l.foldlM act s = .error e ↔
      ∃ pre a post, l = pre++a::post ∧ Bad (pre.foldl next (view s)) a := by
  induction l generalizing s with
  | nil =>
    constructor
    · intro h
      cases h
    · intro h
      obtain ⟨pre,a,post,hl,_⟩ := h
      simp at hl
  | cons a l ih =>
    rw [List.foldlM_cons]
    cases hact : act s a with
    | error e' =>
      have he := honly s a e' hact
      subst he
      constructor
      · intro _
        exact ⟨[],a,l,rfl,(hbad s a).mp hact⟩
      · intro _
        rfl
    | ok s' =>
      have hgood : ¬ Bad (view s) a := by
        rw [← hbad,hact]
        simp
      have hnext := hview s a s' hact
      show l.foldlM act s' = .error e ↔ _
      rw [ih s',hnext]
      constructor
      · intro h
        obtain ⟨pre,b,post,hl,hb⟩ := h
        exact ⟨a::pre,b,post,by rw [hl,List.cons_append],hb⟩
      · intro h
        obtain ⟨pre,b,post,hl,hb⟩ := h
        cases pre with
        | nil =>
          obtain ⟨rfl,rfl⟩ := List.cons.inj hl
          exact absurd hb hgood
        | cons c pre =>
          obtain ⟨rfl,rfl⟩ := List.cons.inj hl
          exact ⟨pre,b,post,rfl,hb⟩

/-- Where the state plays no part, it is enough to look at the elements. -/
theorem foldlM_fails_iff_mem {Bad : α → Prop} (honly : FailsOnlyWith act e)
    (hbad : ∀ s a, act s a = .error e ↔ Bad a) (l : List α) (s : σ) :
    l.foldlM act s = .error e ↔ ∃ a ∈ l, Bad a := by
  have hfails : l.foldlM act s = .error e ↔ ∃ pre a post, l = pre++a::post ∧ Bad a :=
    @foldlM_fails_iff _ Unit _ _ act e (fun _ => ()) (fun _ _ => ()) (fun _ a => Bad a)
      honly hbad (fun _ _ _ _ => rfl) l s
  rw [hfails]
  constructor
  · intro h
    obtain ⟨pre,a,post,rfl,ha⟩ := h
    exact ⟨a,by simp,ha⟩
  · intro h
    obtain ⟨a,ha,hb⟩ := h
    obtain ⟨pre,post,rfl⟩ := List.append_of_mem ha
    exact ⟨pre,a,post,rfl,hb⟩

/-- A part of the state that the steps change in a known way, after the whole loop. -/
theorem foldlM_view (view : σ → τ) (next : τ → α → τ)
    (hview : ∀ s a s', act s a = .ok s' → view s' = next (view s) a) {l : List α} {s s' : σ}
    (h : l.foldlM act s = .ok s') : view s' = l.foldl next (view s) := by
  induction l generalizing s with
  | nil =>
    cases h
    rfl
  | cons a l ih =>
    rw [List.foldlM_cons] at h
    cases hact : act s a with
    | error e =>
      rw [hact] at h
      cases h
    | ok s₁ =>
      rw [hact] at h
      rw [List.foldl_cons,← hview s a s₁ hact]
      exact ih h

/-- Elements that change nothing can be left out. -/
theorem foldl_of_filter {next : τ → α → τ} {p : α → Bool}
    (hother : ∀ t a, p a = false → next t a = t) (l : List α) (t : τ) :
    l.foldl next t = (l.filter p).foldl next t := by
  induction l generalizing t with
  | nil => rfl
  | cons a l ih =>
    cases hp : p a with
    | false => rw [List.foldl_cons,hother t a hp,List.filter_cons_of_neg (by simp [hp]),ih]
    | true => rw [List.foldl_cons,List.filter_cons_of_pos hp,List.foldl_cons,ih]

section Until

variable {Stop Good : α → Prop} {β : Type}

/-- Up to the first element where a loop stops, and there, all is well. -/
def GoodUntil (Stop Good : α → Prop) (l : List α) : Prop :=
  ∀ pre a post, l = pre++a::post → (∀ b ∈ pre, ¬ Stop b) → Good a

theorem goodUntil_nil : GoodUntil Stop Good [] := by
  intro pre a post h
  simp at h

theorem goodUntil_cons {a : α} {l : List α} :
    GoodUntil Stop Good (a::l) ↔ Good a ∧ (¬ Stop a → GoodUntil Stop Good l) := by
  constructor
  · intro h
    refine ⟨h [] a l rfl (by simp),?_⟩
    intro hstop pre b post hl hpre
    exact h (a::pre) b post (by rw [hl]; rfl) (List.forall_mem_cons.mpr ⟨hstop,hpre⟩)
  · intro h pre b post hl hpre
    cases pre with
    | nil =>
      obtain ⟨rfl,_⟩ := List.cons.inj hl
      exact h.1
    | cons c pre =>
      obtain ⟨rfl,htail⟩ := List.cons.inj hl
      obtain ⟨hstop,hpre⟩ := List.forall_mem_cons.mp hpre
      exact h.2 hstop pre b post htail hpre

theorem goodUntil_iff_forall {l : List α} (h : ∀ a ∈ l, ¬ Stop a) :
    GoodUntil Stop Good l ↔ ∀ a ∈ l, Good a := by
  induction l with
  | nil => exact iff_of_true goodUntil_nil (by simp)
  | cons a l ih =>
    obtain ⟨ha,hl⟩ := List.forall_mem_cons.mp h
    rw [goodUntil_cons,List.forall_mem_cons,ih hl]
    exact ⟨fun h => ⟨h.1,h.2 ha⟩,fun h => ⟨h.1,fun _ => h.2⟩⟩

/-- A loop whose steps fail at what is not good, or stop with another error, fails exactly if it
meets something that is not good before it stops. -/
theorem foldlM_goodUntil_iff {l : List α} (hreturns : ∀ a ∈ l, ∀ s, act s a ≠ .error e ↔ Good a)
    (hok : ∀ a ∈ l, ∀ s, (∃ s', act s a = .ok s') ↔ Good a ∧ ¬ Stop a) (s : σ) :
    l.foldlM act s ≠ .error e ↔ GoodUntil Stop Good l := by
  induction l generalizing s with
  | nil => exact iff_of_true (by simp [pure,Except.pure]) goodUntil_nil
  | cons a l ih =>
    obtain ⟨hreturn,hreturns⟩ := List.forall_mem_cons.mp hreturns
    obtain ⟨hgo,hok⟩ := List.forall_mem_cons.mp hok
    rw [List.foldlM_cons,goodUntil_cons,← hreturn s]
    cases hact : act s a with
    | error e' =>
      have hstops : Good a → ¬ ¬ Stop a := by
        intro hgood hstop
        obtain ⟨s',hs'⟩ := (hgo s).mpr ⟨hgood,hstop⟩
        rw [hact] at hs'
        cases hs'
      constructor
      · intro h
        have hgood : Good a := (hreturn s).mp (by rw [hact]; exact h)
        exact ⟨h,fun hstop => absurd hstop (hstops hgood)⟩
      · intro h
        exact h.1
    | ok s' =>
      have hstop : ¬ Stop a := ((hgo s).mp ⟨s',hact⟩).2
      have hnext := ih hreturns hok s'
      constructor
      · intro h
        exact ⟨by simp,fun _ => hnext.mp h⟩
      · intro h
        exact hnext.mpr (h.2 hstop)

theorem foldlM_ok_iff {l : List α} (hok : ∀ a ∈ l, ∀ s, (∃ s', act s a = .ok s') ↔ Good a) (s : σ) :
    (∃ s', l.foldlM act s = .ok s') ↔ ∀ a ∈ l, Good a := by
  induction l generalizing s with
  | nil => simp [pure,Except.pure]
  | cons a l ih =>
    obtain ⟨hgo,hok⟩ := List.forall_mem_cons.mp hok
    rw [List.foldlM_cons,List.forall_mem_cons,← hgo s]
    cases hact : act s a with
    | error e' => simp [bind,Except.bind]
    | ok s' =>
      have hnext := ih hok s'
      simpa [bind,Except.bind] using hnext

theorem mapM_goodUntil_iff {f : α → Except ε β} {l : List α}
    (hreturns : ∀ a ∈ l, f a ≠ .error e ↔ Good a)
    (hok : ∀ a ∈ l, (∃ b, f a = .ok b) ↔ Good a ∧ ¬ Stop a) :
    l.mapM f ≠ .error e ↔ GoodUntil Stop Good l := by
  induction l with
  | nil => exact iff_of_true (by simp [pure,Except.pure]) goodUntil_nil
  | cons a l ih =>
    obtain ⟨hreturn,hreturns⟩ := List.forall_mem_cons.mp hreturns
    obtain ⟨hgo,hok⟩ := List.forall_mem_cons.mp hok
    rw [List.mapM_cons,goodUntil_cons,← hreturn,← ih hreturns hok]
    cases hf : f a with
    | error e' =>
      have hstops : Good a → ¬ ¬ Stop a := by
        intro hgood hstop
        obtain ⟨b,hb⟩ := hgo.mpr ⟨hgood,hstop⟩
        rw [hf] at hb
        cases hb
      simp only [bind,Except.bind,ne_eq,Except.error.injEq]
      constructor
      · intro h
        have hgood : Good a := hreturn.mp (by simpa [hf] using h)
        exact ⟨h,fun hstop => absurd hstop (hstops hgood)⟩
      · intro h
        exact h.1
    | ok b =>
      have hstop : ¬ Stop a := (hgo.mp ⟨b,hf⟩).2
      cases hl : l.mapM f with
      | error e' => simp [bind,Except.bind,hstop]
      | ok bs => simp [bind,Except.bind,pure,Except.pure]

end Until

/-- A loop that puts what each element gives behind what there is, and stops at an element that
gives nothing. -/
theorem foldlM_append_iff {β : Type} {act : List β → α → Except ε (List β)} {Good : α → Prop}
    {gives : α → List β} {l : List α}
    (hact : ∀ a ∈ l, ∀ acc out, act acc a = .ok out ↔ Good a ∧ out = acc++gives a)
    (acc out : List β) :
    l.foldlM act acc = .ok out ↔ (∀ a ∈ l, Good a) ∧ out = acc++l.flatMap gives := by
  induction l generalizing acc with
  | nil => simp [pure,Except.pure,eq_comm]
  | cons a l ih =>
    obtain ⟨hfirst,hrest⟩ := List.forall_mem_cons.mp hact
    rw [List.foldlM_cons,List.forall_mem_cons,List.flatMap_cons,← List.append_assoc]
    cases ha : act acc a with
    | error e =>
      have hbad : ¬ Good a := by
        intro hgood
        have hok := (hfirst acc _).mpr ⟨hgood,rfl⟩
        rw [ha] at hok
        cases hok
      simp [bind,Except.bind,hbad]
    | ok next =>
      obtain ⟨hgood,hnext⟩ := (hfirst acc next).mp ha
      have rest := ih hrest next
      rw [hnext] at rest
      simpa [bind,Except.bind,hgood,hnext] using rest

end FoldErrors

end OpenBroadcast
