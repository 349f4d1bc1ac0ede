import Mathlib.Logic.Relation
import Mathlib.Data.Finset.Card
import Mathlib.Logic.Function.Basic

namespace OpenBroadcast

open Relation

variable {α : Type}

/-- One step along a parent pointer. -/
def Up (par : α → Option α) (a b : α) : Prop := par a = some b

/-- No node is its own proper ancestor. -/
def Acyclic (par : α → Option α) : Prop := ∀ a, ¬ TransGen (Up par) a a

theorem Acyclic.mono {par par' : α → Option α} (h : Acyclic par)
    (hle : ∀ a b, Up par' a b → Up par a b) : Acyclic par' :=
  fun a ha => h a (TransGen.mono hle _ _ ha)

/-- Clearing a pointer keeps the forest acyclic. -/
theorem Acyclic.clear [DecidableEq α] {par : α → Option α} (h : Acyclic par) (p : α) :
    Acyclic (Function.update par p none) := by
  apply h.mono
  intro a b hab
  by_cases ha : a = p
  · subst a
    simp [Up] at hab
  · simpa [Up,ha] using hab

-- A path of the redirected forest leaves `p` at most once, into the part above `q`.
private theorem redirect_path [DecidableEq α] {par : α → Option α} {p q a b : α}
    (hq : ¬ ReflTransGen (Up par) q p)
    (h : TransGen (Up (Function.update par p (some q))) a b) :
    TransGen (Up par) a b ∨
      (ReflTransGen (Up par) a p ∧ ReflTransGen (Up par) q b) := by
  induction h with
  | @single b hab =>
    by_cases ha : a = p
    · subst a
      have hb : q = b := by simpa [Up] using hab
      subst hb
      exact Or.inr ⟨.refl,.refl⟩
    · exact Or.inl (.single (by simpa [Up,ha] using hab))
  | @tail c d _ hcd ih =>
    by_cases hc : c = p
    · subst c
      have hd : q = d := by simpa [Up] using hcd
      subst hd
      rcases ih with ih | ⟨_,ih⟩
      · exact Or.inr ⟨ih.to_reflTransGen,.refl⟩
      · exact absurd ih hq
    · have step : Up par c d := by simpa [Up,hc] using hcd
      rcases ih with ih | ⟨hp,ih⟩
      · exact Or.inl (ih.tail step)
      · exact Or.inr ⟨hp,ih.tail step⟩

/-- Redirecting `p` to a node that does not lie at or below it keeps the forest acyclic. -/
theorem Acyclic.redirect [DecidableEq α] {par : α → Option α} {p q : α} (h : Acyclic par)
    (hq : ¬ ReflTransGen (Up par) q p) : Acyclic (Function.update par p (some q)) := by
  intro a ha
  rcases redirect_path hq ha with hc | ⟨hp,hc⟩
  · exact h a hc
  · exact hq (hc.trans hp)

/-- Redirecting `p` leaves every chain alone that does not pass through `p`. -/
theorem chain_redirect [DecidableEq α] {par : α → Option α} {p a b : α} (r : Option α)
    (h : ReflTransGen (Up par) a b) (ha : ¬ ReflTransGen (Up par) a p) :
    ReflTransGen (Up (Function.update par p r)) a b := by
  induction h with
  | refl => exact .refl
  | @tail c d hac hcd ih =>
    have hc : c ≠ p := fun hc => ha (hc ▸ hac)
    exact ih.tail (by simpa [Up,hc] using hcd)

/-- Redirecting `p` leaves every chain alone up to the point where it meets `p`. -/
theorem chain_to_redirect [DecidableEq α] {par : α → Option α} {p a : α} (r : Option α)
    (h : ReflTransGen (Up par) a p) : ReflTransGen (Up (Function.update par p r)) a p := by
  induction h using ReflTransGen.head_induction_on with
  | refl => exact .refl
  | @head b c hbc _ ih =>
    by_cases hb : b = p
    · subst hb
      exact .refl
    · exact .head (by simpa [Up,hb] using hbc) ih

/-- A node whose chain ends lies on no cycle. -/
theorem no_cycle_of_ends {par : α → Option α} {a s : α} (h : ReflTransGen (Up par) a s)
    (hs : par s = none) : ¬ TransGen (Up par) a a := by
  induction h using ReflTransGen.head_induction_on with
  | refl =>
    intro hc
    obtain ⟨c,hsc,_⟩ := TransGen.head'_iff.mp hc
    simp [Up,hs] at hsc
  | @head b c hbc _ ih =>
    intro hb
    obtain ⟨d,hbd,hdb⟩ := TransGen.head'_iff.mp hb
    have hcd : c = d := Option.some.inj (hbc.symm.trans hbd)
    subst hcd
    exact ih (TransGen.tail' hdb hbc)

/-- After `p` is redirected to `q`, its chain ends in `s` exactly when the chain of `q` did,
without passing through `p`. -/
theorem redirect_ends_iff [DecidableEq α] {par : α → Option α} {p q s : α} (hps : p ≠ s)
    (hs : par s = none) :
    ReflTransGen (Up (Function.update par p (some q))) p s ↔
      ReflTransGen (Up par) q s ∧ ¬ ReflTransGen (Up par) q p := by
  have first : Up (Function.update par p (some q)) p q := by simp [Up]
  have hs' : Function.update par p (some q) s = none := by
    rw [Function.update_of_ne (Ne.symm hps)]
    exact hs
  constructor
  · intro h
    have acyclic := no_cycle_of_ends h hs'
    have hq : ¬ ReflTransGen (Up (Function.update par p (some q))) q p :=
      fun hqp => acyclic (TransGen.head' first hqp)
    have hqs : ReflTransGen (Up (Function.update par p (some q))) q s := by
      rcases ReflTransGen.cases_head h with hps' | ⟨c,hpc,hcs⟩
      · exact absurd hps' hps
      · have hc : q = c := Option.some.inj (first.symm.trans hpc)
        exact hc ▸ hcs
    refine ⟨?_,fun hqp => hq (chain_to_redirect (some q) hqp)⟩
    simpa using chain_redirect (par p) hqs hq
  · intro hyp
    obtain ⟨hqs,hqp⟩ := hyp
    exact .head first (chain_redirect (some q) hqs hqp)

/-- The loop that pushes a node, then its parent, until a node has no parent or is not
in the map; `get` is the map of parent fields and the fuel bounds the iterations. -/
def climb (get : α → Option (Option α)) : Nat → α → List α → Option (List α)
  | 0,_,_ => none
  | n+1,cur,path =>
    match get cur with
    | none => some path
    | some none => some (path++[cur])
    | some (some q) => climb get n q (path++[cur])

/-- The parent pointers of a map of parent fields. -/
def parents (get : α → Option (Option α)) (a : α) : Option α := (get a).join

theorem up_parents {get : α → Option (Option α)} {a b : α} :
    Up (parents get) a b ↔ get a = some (some b) := by
  unfold Up parents
  cases get a <;> simp

variable {get : α → Option (Option α)}

private theorem climb_total (s : Finset α) (hs : ∀ a, (get a).isSome → a ∈ s)
    (hac : Acyclic (parents get)) (n : Nat) (cur : α) (path : List α)
    (hn : path.Nodup) (hp : ∀ x ∈ path, x ∈ s ∧ TransGen (Up (parents get)) x cur)
    (hfuel : s.card < path.length+n) :
    ∃ res, climb get n cur path = some res ∧ res.Nodup := by
  induction n generalizing cur path with
  | zero =>
    have hle : path.length ≤ s.card := by
      classical
      rw [← List.toFinset_card_of_nodup hn]
      exact Finset.card_le_card (fun x hx => (hp x (by simpa using hx)).1)
    omega
  | succ n ih =>
    have fresh : cur ∉ path := fun h => hac cur (hp cur h).2
    have hn' : (path++[cur]).Nodup := by
      rw [List.nodup_append]
      exact ⟨hn,by simp,fun a ha b hb => by
        intro heq
        subst heq
        exact fresh (by simpa using (List.mem_singleton.mp hb) ▸ ha)⟩
    cases hg : get cur with
    | none => exact ⟨path,by simp [climb,hg],hn⟩
    | some r =>
      cases r with
      | none => exact ⟨path++[cur],by simp [climb,hg],hn'⟩
      | some q =>
        have step : Up (parents get) cur q := up_parents.mpr hg
        have hp' : ∀ x ∈ path++[cur], x ∈ s ∧ TransGen (Up (parents get)) x q := by
          intro x hx
          rcases List.mem_append.mp hx with hx | hx
          · exact ⟨(hp x hx).1,(hp x hx).2.tail step⟩
          · have hx : x = cur := by simpa using hx
            subst hx
            exact ⟨hs x (by simp [hg]),.single step⟩
        have hf : s.card < (path++[cur]).length+n := by
          rw [List.length_append,List.length_singleton]
          omega
        obtain ⟨res,hr,hres⟩ := ih q (path++[cur]) hn' hp' hf
        exact ⟨res,by simp only [climb,hg]; exact hr,hres⟩

/-- Over an acyclic map the loop ends after at most one pass over the keys, and what it
pushed is duplicate-free. -/
theorem climb_terminates (s : Finset α) (hs : ∀ a, (get a).isSome → a ∈ s)
    (hac : Acyclic (parents get)) (a : α) :
    ∃ res, climb get (s.card+1) a [] = some res ∧ res.Nodup :=
  climb_total s hs hac (s.card+1) a [] (by simp) (by simp) (by simp)

/-- On a cycle the loop never ends. -/
theorem climb_diverges {a : α} (h : TransGen (Up (parents get)) a a) (n : Nat)
    (path : List α) : climb get n a path = none := by
  induction n generalizing a path with
  | zero => rfl
  | succ n ih =>
    obtain ⟨q,haq,hqa⟩ := TransGen.head'_iff.mp h
    have hg := up_parents.mp haq
    simp only [climb,hg]
    exact ih (TransGen.tail' hqa haq) _

/-- A chain that ends in a parentless node is followed to its end. -/
theorem climb_reaches {a s : α} (h : ReflTransGen (Up (parents get)) a s)
    (hs : get s = some none) (path : List α) :
    ∃ n res, climb get n a path = some res ∧ res.getLast? = some s := by
  induction h using ReflTransGen.head_induction_on generalizing path with
  | refl => exact ⟨1,path++[s],by simp [climb,hs],by simp⟩
  | @head b c hbc _ ih =>
    obtain ⟨n,res,hr,hl⟩ := ih (path++[b])
    exact ⟨n+1,res,by simp only [climb,up_parents.mp hbc]; exact hr,hl⟩

/-- The last node pushed is an ancestor of the first. -/
theorem climb_last {n : Nat} {a : α} {path res : List α}
    (h : climb get n a path = some res) :
    (get a = none ∧ res = path) ∨
      ∃ r, res.getLast? = some r ∧ ReflTransGen (Up (parents get)) a r := by
  induction n generalizing a path with
  | zero => cases h
  | succ n ih =>
    cases hg : get a with
    | none =>
      simp only [climb,hg,Option.some.injEq] at h
      exact Or.inl ⟨rfl,h.symm⟩
    | some r =>
      cases r with
      | none =>
        simp only [climb,hg,Option.some.injEq] at h
        subst h
        exact Or.inr ⟨a,by simp,.refl⟩
      | some q =>
        simp only [climb,hg] at h
        have step : Up (parents get) a q := up_parents.mpr hg
        rcases ih h with ⟨_,rfl⟩ | ⟨r,hl,hr⟩
        · exact Or.inr ⟨a,by simp,.refl⟩
        · exact Or.inr ⟨r,hl,.head step hr⟩

end OpenBroadcast
