import Mathlib.Algebra.BigOperators.Group.Finset.Basic
import OpenBroadcast.Framework.MapSizes

namespace OpenBroadcast.HashMap

variable {α β M : Type} [DecidableEq α] [AddCommMonoid M]

/-- `g(m.entry(a).or_insert_with(new))`. -/
def upsert (m : HashMap α β) (a : α) (new : β) (g : β → β) : HashMap α β :=
  m.insert a (g ((m.lookup a).getD new))

/-- What `f` reads off the values, all together. -/
def total (f : β → M) (m : HashMap α β) : M := ∑ a ∈ m.keys, ((m.lookup a).map f).getD 0

@[simp] theorem total_empty (f : β → M) : total f (∅ : HashMap α β) = 0 := by
  simp [total]

@[simp] theorem keys_upsert (m : HashMap α β) (a : α) (new : β) (g : β → β) :
    (m.upsert a new g).keys = insert a m.keys :=
  keys_insert m a _

@[simp] theorem lookup_upsert_self (m : HashMap α β) (a : α) (new : β) (g : β → β) :
    (m.upsert a new g).lookup a = some (g ((m.lookup a).getD new)) :=
  Finmap.lookup_insert m

theorem lookup_upsert_ne (m : HashMap α β) {a x : α} (new : β) (g : β → β) (h : x ≠ a) :
    (m.upsert a new g).lookup x = m.lookup x :=
  Finmap.lookup_insert_of_ne m h

/-- The total over the keys with one of them apart. -/
theorem total_eq_add (f : β → M) (m : HashMap α β) (a : α) :
    total f m = ((m.lookup a).map f).getD 0+∑ x ∈ m.keys.erase a, ((m.lookup x).map f).getD 0 := by
  by_cases ha : a ∈ m.keys
  · exact (Finset.add_sum_erase m.keys (fun x => ((m.lookup x).map f).getD 0) ha).symm
  · have hnone : m.lookup a = none := Finmap.lookup_eq_none.mpr (mt Finmap.mem_keys.mpr ha)
    simp [total,hnone,Finset.erase_eq_of_notMem ha]

/-- An entry that is new with nothing on it, or is there, gets `d` more. -/
theorem total_upsert {f : β → M} {g : β → β} {d : M} {new : β} (m : HashMap α β) (a : α)
    (hg : ∀ b, f (g b) = f b+d) (hnew : f new = 0) :
    total f (m.upsert a new g) = total f m+d := by
  have hothers : ∑ x ∈ (m.upsert a new g).keys.erase a, (((m.upsert a new g).lookup x).map f).getD 0 =
      ∑ x ∈ m.keys.erase a, ((m.lookup x).map f).getD 0 := by
    rw [keys_upsert,Finset.erase_insert_eq_erase]
    apply Finset.sum_congr rfl
    intro x hx
    rw [lookup_upsert_ne m new g (Finset.ne_of_mem_erase hx)]
  have hself : (((m.upsert a new g).lookup a).map f).getD 0 = ((m.lookup a).map f).getD 0+d := by
    rw [lookup_upsert_self]
    cases m.lookup a <;> simp [hg,hnew]
  rw [total_eq_add f (m.upsert a new g) a,total_eq_add f m a,hothers,hself]
  exact add_right_comm _ _ _

/-- A map that is built up from entries of another. -/
theorem lookup_foldl_insert {γ : Type} (f : β → γ) (m : HashMap α β) {l : List (α × β)}
    (hl : ∀ e ∈ l, m.lookup e.1 = some e.2) (acc : HashMap α γ) (x : α) :
    (l.foldl (fun acc e => acc.insert e.1 (f e.2)) acc).lookup x =
      if x ∈ l.map Prod.fst then (m.lookup x).map f else acc.lookup x := by
  induction l generalizing acc with
  | nil => simp
  | cons e l ih =>
    have he := hl e List.mem_cons_self
    rw [List.foldl_cons,ih (fun y hy => hl y (List.mem_cons_of_mem _ hy))]
    by_cases hx : x = e.1
    · subst hx
      simp [he]
    · rw [Finmap.lookup_insert_of_ne _ hx]
      simp only [List.map_cons,List.mem_cons,hx,false_or]

/-- An entry of which `f` reads nothing else than before. -/
theorem total_same {f : β → M} {g : β → β} {new : β} (m : HashMap α β) (a : α)
    (hg : ∀ b, f (g b) = f b) (hnew : f new = 0) : total f m = total f (m.upsert a new g) := by
  rw [total_upsert m a (fun b => (hg b).trans (add_zero (f b)).symm) hnew,add_zero]

end OpenBroadcast.HashMap
