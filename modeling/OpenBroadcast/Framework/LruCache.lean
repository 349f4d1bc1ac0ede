import Mathlib.Data.List.Nodup

namespace OpenBroadcast

/-- A cache that drops its least recently used entry when it is full: the operations of the crate
`lru` that are used, and the entries in the order in which it goes through them. -/
class Lru (α β : Type) where
  Cache : Type
  new : (cap : Nat) → 0 < cap → Cache
  cap : Cache → Nat
  iter : Cache → List (α × β)
  contains : Cache → α → Bool
  pop : Cache → α → Cache
  put : Cache → α → β → Cache

/-- What the crate says of them. The most recent entry comes first, and a look leaves the order as it
is. -/
class LawfulLru (α β : Type) [DecidableEq α] [Lru α β] : Prop where
  cap_new : ∀ (cap : Nat) (positive : 0 < cap), Lru.cap (Lru.new cap positive : Lru.Cache α β) = cap
  iter_new : ∀ (cap : Nat) (positive : 0 < cap),
    Lru.iter (Lru.new cap positive : Lru.Cache α β) = []
  positive : ∀ c : Lru.Cache α β, 0 < Lru.cap c
  nodup : ∀ c : Lru.Cache α β, ((Lru.iter c).map Prod.fst).Nodup
  contains_iff : ∀ (c : Lru.Cache α β) (a : α), Lru.contains c a = true ↔ ∃ b, (a,b) ∈ Lru.iter c
  cap_pop : ∀ (c : Lru.Cache α β) (a : α), Lru.cap (Lru.pop c a) = Lru.cap c
  iter_pop : ∀ (c : Lru.Cache α β) (a : α),
    Lru.iter (Lru.pop c a) = (Lru.iter c).filter (fun e => e.1 ≠ a)
  cap_put : ∀ (c : Lru.Cache α β) (a : α) (b : β), Lru.cap (Lru.put c a b) = Lru.cap c
  iter_put : ∀ (c : Lru.Cache α β) (a : α) (b : β), Lru.iter (Lru.put c a b) =
    (a,b)::((Lru.iter c).filter (fun e => e.1 ≠ a)).take (Lru.cap c-1)

/-- A filter that keeps everything before what it keeps leaves the places as they are. -/
theorem getElem?_filter_of_initial {α : Type} {q : α → Bool} {l : List α}
    (h : l.Pairwise (fun a b => q b = true → q a = true)) (k : Nat) (x : α) :
    (l.filter q)[k]? = some x ↔ l[k]? = some x ∧ q x = true := by
  induction l generalizing k with
  | nil => simp
  | cons a l ih =>
    obtain ⟨ha,hl⟩ := List.pairwise_cons.mp h
    by_cases hqa : q a = true
    · rw [List.filter_cons_of_pos hqa]
      cases k with
      | zero =>
        simp only [List.getElem?_cons_zero,Option.some.injEq,iff_self_and]
        rintro rfl
        exact hqa
      | succ k => simpa using ih hl k
    · have hnone : l.filter q = [] := by
        apply List.filter_eq_nil_iff.mpr
        exact fun b hb hqb => hqa (ha b hb hqb)
      rw [List.filter_cons_of_neg hqa,hnone]
      simp only [List.getElem?_nil,reduceCtorEq,false_iff,not_and]
      intro hx hqx
      cases k with
      | zero =>
        rw [List.getElem?_cons_zero,Option.some.injEq] at hx
        exact hqa (hx ▸ hqx)
      | succ k =>
        rw [List.getElem?_cons_succ] at hx
        exact hqa (ha x (List.mem_of_getElem? hx) hqx)

namespace Lru

variable {α β : Type} [Lru α β]

/-- `for a in as { cache.pop(a); }`. -/
def popAll (c : Cache α β) (as : List α) : Cache α β := as.foldl pop c

variable [DecidableEq α] [LawfulLru α β]

theorem cap_popAll (c : Cache α β) (as : List α) : cap (popAll c as) = cap c := by
  induction as generalizing c with
  | nil => rfl
  | cons a as ih => exact (ih (pop c a)).trans (LawfulLru.cap_pop c a)

theorem filter_of_absent {c : Cache α β} {a : α} (h : contains c a = false) :
    (iter c).filter (fun e => e.1 ≠ a) = iter c := by
  apply List.filter_eq_self.mpr
  rintro ⟨x,b⟩ he
  have hne : x ≠ a := by
    rintro rfl
    rw [(LawfulLru.contains_iff c x).mpr ⟨b,he⟩] at h
    cases h
  simpa using hne

/-- A new entry goes to the front; if the cache was full, the last one goes. -/
theorem iter_put_of_absent {c : Cache α β} {a : α} (h : contains c a = false) (b : β) :
    iter (put c a b) = (a,b)::(iter c).take (cap c-1) := by
  rw [LawfulLru.iter_put,filter_of_absent h]

/-- What stands where after a new entry: itself in front, the others one place on while there is
room. -/
theorem getElem?_put_of_absent {c : Cache α β} {a : α} (h : contains c a = false) (b : β)
    (k : Nat) (x : α × β) :
    (iter (put c a b))[k]? = some x ↔
      (k = 0 ∧ x = (a,b)) ∨ ∃ j, k = j+1 ∧ k < cap c ∧ (iter c)[j]? = some x := by
  have hpositive := LawfulLru.positive c
  rw [iter_put_of_absent h]
  cases k with
  | zero => simp [eq_comm]
  | succ k =>
    rw [List.getElem?_cons_succ,List.getElem?_take]
    constructor
    · intro hentry
      split_ifs at hentry with hk
      exact .inr ⟨k,rfl,by omega,hentry⟩
    · rintro (⟨hzero,_⟩ | ⟨j,hj,hk,hentry⟩)
      · omega
      · obtain rfl : k = j := by omega
        rw [if_pos (by omega)]
        exact hentry

theorem iter_popAll (c : Cache α β) (as : List α) :
    iter (popAll c as) = (iter c).filter (fun e => e.1 ∉ as) := by
  induction as generalizing c with
  | nil => simp [popAll]
  | cons a as ih =>
    have hrest := ih (pop c a)
    change iter (popAll (pop c a) as) = _
    rw [hrest,LawfulLru.iter_pop,List.filter_filter]
    apply List.filter_congr
    intro e _
    by_cases hea : e.1 = a <;> by_cases hmem : e.1 ∈ as <;> simp [hea,hmem]

/-- Popping the keys of some entries leaves the other entries. -/
theorem iter_popAll_filter (c : Cache α β) (p : α × β → Bool) :
    iter (popAll c (((iter c).filter p).map Prod.fst)) = (iter c).filter (fun e => !p e) := by
  rw [iter_popAll]
  apply List.filter_congr
  intro e he
  have hkey : e.1 ∈ ((iter c).filter p).map Prod.fst ↔ p e = true := by
    constructor
    · intro hmem
      obtain ⟨x,hx,hxe⟩ := List.mem_map.mp hmem
      obtain ⟨hx,hpx⟩ := List.mem_filter.mp hx
      have hsame : x = e := List.inj_on_of_nodup_map (LawfulLru.nodup c) hx he hxe
      rwa [← hsame]
    · intro hpe
      exact List.mem_map_of_mem (List.mem_filter.mpr ⟨he,hpe⟩)
  cases hpe : p e <;> simp [hkey,hpe]

end Lru

/-- A cache as a list of its entries, the most recent first. -/
structure LruCache (α β : Type) where
  cap : Nat
  entries : List (α × β)
  positive : 0 < cap
  nodup : (entries.map Prod.fst).Nodup
  bounded : entries.length ≤ cap

namespace LruCache

variable {α β : Type} [DecidableEq α]

def new (cap : Nat) (positive : 0 < cap) : LruCache α β := ⟨cap,[],positive,by simp,by simp⟩

def contains (c : LruCache α β) (a : α) : Bool := a ∈ c.entries.map Prod.fst

def pop (c : LruCache α β) (a : α) : LruCache α β where
  cap := c.cap
  entries := c.entries.filter (fun e => e.1 ≠ a)
  positive := c.positive
  nodup := c.nodup.sublist (List.filter_sublist.map Prod.fst)
  bounded := Nat.le_trans (List.length_filter_le _ _) c.bounded

def put (c : LruCache α β) (a : α) (b : β) : LruCache α β where
  cap := c.cap
  entries := (a,b)::(c.pop a).entries.take (c.cap-1)
  positive := c.positive
  nodup := by
    have hrest := (c.pop a).nodup.sublist ((List.take_sublist (c.cap-1) _).map Prod.fst)
    refine List.nodup_cons.mpr ⟨?_,hrest⟩
    intro ha
    obtain ⟨e,he,hea⟩ := List.mem_map.mp ha
    have hne := (List.mem_filter.mp (List.mem_of_mem_take he)).2
    simp [hea] at hne
  bounded := by
    have hpositive := c.positive
    simp only [List.length_cons,List.length_take]
    omega

instance : Lru α β where
  Cache := LruCache α β
  new := new
  cap := cap
  iter := entries
  contains := contains
  pop := pop
  put := put

instance : LawfulLru α β where
  cap_new _ _ := rfl
  iter_new _ _ := rfl
  positive := positive
  nodup := nodup
  contains_iff c a := by
    show decide (a ∈ c.entries.map Prod.fst) = true ↔ ∃ b, (a,b) ∈ c.entries
    simp
  cap_pop _ _ := rfl
  iter_pop _ _ := rfl
  cap_put _ _ _ := rfl
  iter_put _ _ _ := rfl

end LruCache

end OpenBroadcast
