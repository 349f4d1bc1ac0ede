import Mathlib.Data.Finset.Insert
import Mathlib.Data.Finset.Erase
import Mathlib.Logic.Function.Basic

namespace OpenBroadcast

variable {α : Type}

/-- The two records of a forest agree: `par` sends `a` to `b` exactly when `b` counts `a`
among its children, but for the children `cs` of a node `gone` that has been taken out. -/
def MatchedBut (par : α → Option α) (kids : α → Finset α) (gone : α) (cs : List α) : Prop :=
  ∀ a b, par a = some b ↔ a ∈ kids b ∨ (b = gone ∧ a ∈ cs)

def Matched (par : α → Option α) (kids : α → Finset α) : Prop :=
  ∀ a b, par a = some b ↔ a ∈ kids b

variable {par : α → Option α} {kids : α → Finset α} {gone : α} {cs : List α}

theorem matchedBut_nil : MatchedBut par kids gone [] ↔ Matched par kids := by
  simp [MatchedBut,Matched]

variable [DecidableEq α]

/-- Give a node without a parent the parent `b`, on both sides. -/
theorem MatchedBut.link (h : MatchedBut par kids gone cs) {a b : α} (ha : par a = none) :
    MatchedBut (Function.update par a (some b))
      (Function.update kids b (insert a (kids b))) gone cs := by
  intro x y
  have hx := h a y
  rw [ha] at hx
  by_cases hxa : x = a
  · subst hxa
    by_cases hyb : y = b
    · subst hyb; simp
    · have hyb' : b ≠ y := fun h => hyb h.symm
      simpa [hyb,hyb'] using hx
  · rw [Function.update_of_ne hxa,h x y]
    by_cases hyb : y = b
    · subst hyb; simp [hxa]
    · simp [hyb]

theorem Matched.link (h : Matched par kids) {a b : α} (ha : par a = none) :
    Matched (Function.update par a (some b)) (Function.update kids b (insert a (kids b))) := by
  have h' : MatchedBut par kids b [] := matchedBut_nil.mpr h
  exact matchedBut_nil.mp (h'.link ha)

/-- Clear the pointer of the first of the children that are left behind. -/
theorem MatchedBut.clear {c : α} (h : MatchedBut par kids gone (c::cs)) (hc : c ∉ cs)
    (hg : kids gone = ∅) : MatchedBut (Function.update par c none) kids gone cs := by
  intro x y
  by_cases hx : x = c
  · subst hx
    have hp : par x = some gone := (h x gone).mpr (Or.inr ⟨rfl,by simp⟩)
    have hy : x ∉ kids y := by
      intro hm
      have hgy : gone = y := Option.some.inj (hp.symm.trans ((h x y).mpr (Or.inl hm)))
      rw [← hgy,hg] at hm
      exact absurd hm (Finset.notMem_empty x)
    simp [hy,hc]
  · rw [Function.update_of_ne hx,h x y]
    simp [hx]

/-- Take `p` out, on its own side and in the set of its parent; its children stay behind. -/
theorem Matched.detach (h : Matched par kids) {p : α} (hp : par p ≠ some p) (cs : List α)
    (hcs : ∀ c, c ∈ cs ↔ c ∈ kids p) :
    MatchedBut (Function.update par p none)
      (Function.update (match par p with
        | some q => Function.update kids q ((kids q).erase p)
        | none => kids) p ∅) p cs := by
  have self : p ∉ kids p := fun hm => hp ((h p p).mpr hm)
  intro x y
  by_cases hx : x = p
  · subst hx
    have hy : x ∉ (Function.update (match par x with
        | some q => Function.update kids q ((kids q).erase x)
        | none => kids) x ∅) y := by
      by_cases hyx : y = x
      · subst hyx; simp
      · rw [Function.update_of_ne hyx]
        cases hr : par x with
        | none => simpa [hr] using h x y
        | some q =>
          by_cases hyq : y = q
          · subst hyq; simp
          · simp only [Function.update_of_ne hyq]
            intro hm
            exact hyq (Option.some.inj (hr.symm.trans ((h x y).mpr hm))).symm
    simp [hy,hcs,self]
  · rw [Function.update_of_ne hx,h x y]
    by_cases hyp : y = p
    · subst hyp; simp [hcs]
    · rw [Function.update_of_ne hyp]
      cases hr : par p with
      | none => simp [hyp]
      | some q =>
        by_cases hyq : y = q
        · subst hyq; simp [hyp,hx]
        · simp [hyp,hyq]

/-- Move `c` from the parent `o` to the parent `b`, which may be `o` again. -/
theorem Matched.move (h : Matched par kids) {c o b : α} (hc : par c = some o) :
    Matched (Function.update par c (some b))
      (Function.update (Function.update kids o ((kids o).erase c)) b
        (insert c (Function.update kids o ((kids o).erase c) b))) := by
  have cleared : Matched (Function.update par c none)
      (Function.update kids o ((kids o).erase c)) := by
    intro x y
    by_cases hx : x = c
    · subst hx
      by_cases hy : y = o
      · subst hy; simp
      · have hm : x ∉ kids y := fun hm =>
          hy (Option.some.inj (hc.symm.trans ((h x y).mpr hm))).symm
        simp [hy,hm]
    · rw [Function.update_of_ne hx,h x y]
      by_cases hy : y = o
      · subst hy; simp [hx]
      · simp [hy]
  simpa using cleared.link (Function.update_self c none par) (b := b)

/-- The two ends of every link know each other and are different. -/
def Mutual (adj : α → Finset α) : Prop := ∀ a b, b ∈ adj a → a ∈ adj b ∧ a ≠ b

/-- Record a link between two different nodes at both ends. -/
theorem Mutual.link {adj : α → Finset α} (h : Mutual adj) {a b : α} (hab : a ≠ b) :
    Mutual (Function.update (Function.update adj a (insert b (adj a))) b
      (insert a (adj b))) := by
  have mem : ∀ x y, y ∈ Function.update (Function.update adj a (insert b (adj a))) b
      (insert a (adj b)) x ↔ y ∈ adj x ∨ (x = a ∧ y = b) ∨ (x = b ∧ y = a) := by
    intro x y
    by_cases hxb : x = b
    · subst hxb
      simp [Ne.symm hab,or_comm]
    · by_cases hxa : x = a
      · subst hxa
        simp [hab,or_comm]
      · simp [hxa,hxb]
  intro x y hxy
  rw [mem] at hxy ⊢
  rcases hxy with hxy | ⟨rfl,rfl⟩ | ⟨rfl,rfl⟩
  · exact ⟨Or.inl (h x y hxy).1,(h x y hxy).2⟩
  · exact ⟨Or.inr (Or.inr ⟨rfl,rfl⟩),hab⟩
  · exact ⟨Or.inr (Or.inl ⟨rfl,rfl⟩),Ne.symm hab⟩

omit [DecidableEq α] in
/-- Take a node out and its name out of every other set. -/
theorem Mutual.remove {adj adj' : α → Finset α} (h : Mutual adj) (p : α)
    (hadj : ∀ x y, y ∈ adj' x ↔ x ≠ p ∧ y ≠ p ∧ y ∈ adj x) : Mutual adj' := by
  intro x y hxy
  obtain ⟨hx,hy,hxy⟩ := (hadj x y).mp hxy
  exact ⟨(hadj y x).mpr ⟨hy,hx,(h x y hxy).1⟩,(h x y hxy).2⟩

end OpenBroadcast
