import Mathlib.Data.List.DropRight
import Mathlib.Data.List.Nodup

namespace OpenBroadcast

/-- A map that is iterated in the order in which its keys came. -/
structure InsertionMap (α β : Type) where
  entries : List (α × β)
  nodup : (entries.map Prod.fst).Nodup

namespace InsertionMap

variable {α β : Type} [DecidableEq α]

def empty : InsertionMap α β := ⟨[],List.nodup_nil⟩

def get (m : InsertionMap α β) (a : α) : Option β := m.entries.lookup a

omit [DecidableEq α] in
theorem nodup_append_fresh {l : List (α × β)} (hl : (l.map Prod.fst).Nodup) {a : α} (b : β)
    (ha : a ∉ l.map Prod.fst) : ((l++[(a,b)]).map Prod.fst).Nodup := by
  rw [List.map_append,List.nodup_append]
  refine ⟨hl,List.nodup_singleton a,?_⟩
  intro x hx y hy
  have hya : y = a := by simpa using hy
  rw [hya]
  rintro rfl
  exact ha hx

theorem map_replace_keys (l : List (α × β)) (a : α) (b : β) :
    (l.map (fun e => if e.1 = a then (a,b) else e)).map Prod.fst = l.map Prod.fst := by
  rw [List.map_map]
  apply List.map_congr_left
  intro e _
  by_cases he : e.1 = a <;> simp [he]

/-- A key that is there keeps its place. -/
def set (m : InsertionMap α β) (a : α) (b : β) : InsertionMap α β :=
  if h : a ∈ m.entries.map Prod.fst then
    ⟨m.entries.map (fun e => if e.1 = a then (a,b) else e),
      (map_replace_keys m.entries a b).symm ▸ m.nodup⟩
  else ⟨m.entries++[(a,b)],nodup_append_fresh m.nodup b h⟩

def delete (m : InsertionMap α β) (a : α) : InsertionMap α β where
  entries := m.entries.filter (fun e => e.1 ≠ a)
  nodup := m.nodup.sublist (List.filter_sublist.map Prod.fst)

theorem mem_entries_iff (m : InsertionMap α β) (a : α) (b : β) :
    (a,b) ∈ m.entries ↔ m.get a = some b := by
  obtain ⟨l,hl⟩ := m
  unfold get
  dsimp only
  induction l with
  | nil => simp
  | cons e l ih =>
    obtain ⟨x,y⟩ := e
    have hparts := List.nodup_cons.mp hl
    have ih := ih hparts.2
    by_cases hx : a = x
    · subst hx
      have hfresh : (a,b) ∉ l :=
        fun hmem => hparts.1 (List.mem_map.mpr ⟨(a,b),hmem,rfl⟩)
      simp [hfresh,eq_comm]
    · have hbeq : (a == x) = false := by simp [hx]
      rw [List.lookup_cons,hbeq]
      simp [hx,ih]

theorem get_set (m : InsertionMap α β) (a : α) (b : β) (x : α) :
    (m.set a b).get x = if x = a then some b else m.get x := by
  apply Option.ext
  intro y
  rw [← mem_entries_iff]
  unfold set
  split_ifs with hmem hx hx
  · subst hx
    obtain ⟨e,he,hea⟩ := List.mem_map.mp hmem
    constructor
    · intro hy
      obtain ⟨e',_,heq⟩ := List.mem_map.mp hy
      by_cases hx : e'.1 = x
      · rw [if_pos hx] at heq
        cases heq
        rfl
      · rw [if_neg hx] at heq
        exact absurd (congrArg Prod.fst heq) hx
    · intro hy
      cases hy
      exact List.mem_map.mpr ⟨e,he,by simp [hea]⟩
  · rw [← mem_entries_iff]
    constructor
    · intro hy
      obtain ⟨e',he',heq⟩ := List.mem_map.mp hy
      by_cases hxa : e'.1 = a
      · rw [if_pos hxa] at heq
        exact absurd (congrArg Prod.fst heq).symm hx
      · rw [if_neg hxa] at heq
        exact heq ▸ he'
    · intro hy
      exact List.mem_map.mpr ⟨(x,y),hy,by simp [hx]⟩
  · subst hx
    have hfresh : (x,y) ∉ m.entries := fun h => hmem (List.mem_map_of_mem (f := Prod.fst) h)
    simp [hfresh,eq_comm]
  · rw [← mem_entries_iff]
    simp [hx]

@[simp] theorem get_set_self (m : InsertionMap α β) (a : α) (b : β) :
    (m.set a b).get a = some b := by
  simp [get_set]

section Keys

variable {P : α → Prop} {m : InsertionMap α β}

/-- What holds of all keys and of the one that is set holds of all keys afterwards. -/
theorem forall_keys_set (h : ∀ e ∈ m.entries, P e.1) {a : α} (ha : P a) (b : β) :
    ∀ e ∈ (m.set a b).entries, P e.1 := by
  intro e he
  unfold set at he
  split_ifs at he with hmem
  · obtain ⟨e',he',heq⟩ := List.mem_map.mp he
    by_cases hkey : e'.1 = a
    · rw [if_pos hkey] at heq
      exact heq ▸ ha
    · rw [if_neg hkey] at heq
      exact heq ▸ h e' he'
  · rcases List.mem_append.mp he with he | he
    · exact h e he
    · rw [List.mem_singleton.mp he]
      exact ha

theorem forall_keys_delete (h : ∀ e ∈ m.entries, P e.1) (a : α) :
    ∀ e ∈ (m.delete a).entries, P e.1 :=
  fun e he => h e (List.mem_of_mem_filter he)

end Keys

end InsertionMap

section Rtake

variable {α : Type} {limit : Nat} {l : List α} {a : α}

theorem rtake_rtake (n m : Nat) : (l.rtake n).rtake m = l.rtake (min m n) := by
  simp [List.rtake_eq_reverse_take_reverse,List.take_take]

/-- The last elements of a list of last elements to which one is added. -/
theorem rtake_snoc (n m : Nat) : (l.rtake n++[a]).rtake m = (l++[a]).rtake (min (n+1) m) := by
  rw [← List.rtake_concat_succ,rtake_rtake,Nat.min_comm]

theorem rtake_snoc_rtake : (l.rtake limit++[a]).rtake limit = (l++[a]).rtake limit := by
  have hmin : min (limit+1) limit = limit := by omega
  rw [rtake_snoc,hmin]

theorem rtake_subset : l.rtake limit ⊆ l := List.drop_subset _ _

theorem rtake_append (l m : List α) (n : Nat) :
    (l++m).rtake n = l.rtake (n-m.length)++m.rtake n := by
  have hl : l.length+m.length-n-l.length = m.length-n := by omega
  have hm : l.length-(n-m.length) = l.length+m.length-n ∨
      (l.length ≤ l.length-(n-m.length) ∧ l.length ≤ l.length+m.length-n) := by omega
  simp only [List.rtake,List.length_append,List.drop_append,hl]
  rcases hm with hm | ⟨hall,hall'⟩
  · rw [hm]
  · rw [List.drop_of_length_le hall,List.drop_of_length_le hall']

theorem getLast?_rtake (l : List α) (n : Nat) :
    (l.rtake n).getLast? = if 0 < n then l.getLast? else none := by
  cases n with
  | zero => simp
  | succ n =>
    induction l using List.reverseRecOn with
    | nil => simp
    | append_singleton l a _ => simp [List.rtake_concat_succ]

/-- The last element with a property, and what comes after it. -/
theorem split_at_last {p : α → Bool} (h : (l.filter p).getLast? = some a) :
    p a ∧ ∃ before, l = before++a::l.rtakeWhile (fun x => !p x) := by
  induction l using List.reverseRecOn with
  | nil => simp at h
  | append_singleton l b ih =>
    by_cases hb : p b
    · have last : b = a := by simpa [List.filter_append,hb] using h
      subst last
      exact ⟨hb,l,by simp [hb]⟩
    · have last : (l.filter p).getLast? = some a := by simpa [List.filter_append,hb] using h
      obtain ⟨ha,before,hl⟩ := ih last
      refine ⟨ha,before,?_⟩
      rw [List.rtakeWhile_concat_pos _ _ _ (by simpa using hb)]
      conv_lhs => rw [hl]
      simp

end Rtake

end OpenBroadcast
