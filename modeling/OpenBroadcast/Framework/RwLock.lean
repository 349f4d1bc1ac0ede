import Mathlib.Logic.Relation
import Mathlib.Logic.Function.Basic
import Mathlib.Data.List.Infix
import OpenBroadcast.Framework.Run

namespace OpenBroadcast

open Relation

inductive LockMode where
  | read
  | write
  deriving DecidableEq, Repr

/-- Two guards of one lock exclude each other unless both are for reading. -/
def LockMode.conflicts : LockMode → LockMode → Bool
  | .read,.read => false
  | _,_ => true

/-- A task waits until it is given the lock, or drops the guard. -/
inductive LockOp (L : Type) where
  | acquire (l : L) (m : LockMode)
  | release (l : L) (m : LockMode)
  deriving DecidableEq, Repr

section Programs

variable {L : Type} [DecidableEq L]

/-- The mode in which a task with these operations left holds `l`: that of its next
operation on `l`, if it is a release. -/
def owned (l : L) : List (LockOp L) → Option LockMode
  | [] => none
  | .acquire l' _::r => if l' = l then none else owned l r
  | .release l' m::r => if l' = l then some m else owned l r

/-- Every guard is dropped again. -/
def Bracketed : List (LockOp L) → Prop
  | [] => True
  | .acquire l m::r => owned l r = some m ∧ Bracketed r
  | .release _ _::r => Bracketed r

instance decidableBracketed : (p : List (LockOp L)) → Decidable (Bracketed p)
  | [] => isTrue trivial
  | .acquire _ _::r => @instDecidableAnd _ _ inferInstance (decidableBracketed r)
  | .release _ _::r => decidableBracketed r

/-- The task holds `l` and is to acquire `l'` next. -/
def nested (l l' : L) : List (LockOp L) → Bool
  | .acquire k m::r => k = l' && (owned l (.acquire k m::r)).isSome
  | _ => false

theorem Bracketed.owned_of_suffix {p r : List (LockOp L)} {l : L} {m : LockMode}
    (h : Bracketed p) (hs : .acquire l m::r <:+ p) : owned l r = some m := by
  induction p with
  | nil => simp at hs
  | cons op p ih =>
    rcases List.suffix_cons_iff.mp hs with heq | hr
    · cases heq
      exact h.1
    · cases op with
      | acquire => exact ih h.2 hr
      | release => exact ih h hr

end Programs

/-- The tasks `T` of a program with locks `L`: the calls `C` that a task may make, and the
lock operations of each. -/
structure LockSystem (T L C : Type) [DecidableEq L] where
  prog : C → List (LockOp L)
  allowed : T → C → Bool
  bracketed : ∀ c, Bracketed (prog c)

/-- The operations that each task has left in its call, and for each lock the guards and the
requests in the order in which they came in. -/
structure LockState (T L : Type) where
  rest : T → List (LockOp L)
  holders : L → List (T × LockMode)
  queue : L → List (T × LockMode)

inductive LockEvent (T L C : Type) where
  | start (t : T) (c : C)
  | request (t : T)
  | grant (l : L)
  | release (t : T)

namespace LockSystem

variable {T L C : Type} [DecidableEq T] [DecidableEq L]

def init : LockState T L := ⟨fun _ => [],fun _ => [],fun _ => []⟩

/-- Requests are served in order: the first one is granted as soon as no guard excludes it,
and no later one before it. -/
def step (sys : LockSystem T L C) (s : LockState T L) : LockEvent T L C → LockState T L
  | .start t c =>
    if (s.rest t).isEmpty && sys.allowed t c then
      { s with rest := Function.update s.rest t (sys.prog c) }
    else s
  | .request t =>
    match s.rest t with
    | .acquire l m::_ =>
      if t ∈ (s.queue l).map Prod.fst then s
      else { s with queue := Function.update s.queue l (s.queue l++[(t,m)]) }
    | _ => s
  | .grant l =>
    match s.queue l with
    | (t,m)::q =>
      if (s.holders l).all (fun h => !m.conflicts h.2) then
        { rest := Function.update s.rest t (s.rest t).tail
          holders := Function.update s.holders l ((t,m)::s.holders l)
          queue := Function.update s.queue l q }
      else s
    | [] => s
  | .release t =>
    match s.rest t with
    | .release l _::r =>
      { s with
        rest := Function.update s.rest t r
        holders := Function.update s.holders l ((s.holders l).filter (fun h => h.1 ≠ t)) }
    | _ => s

def run (sys : LockSystem T L C) (es : List (LockEvent T L C)) : LockState T L :=
  es.foldl sys.step init

end LockSystem

namespace LockState

variable {T L : Type} [DecidableEq T]

def Queued (s : LockState T L) (t : T) (l : L) : Prop := ∃ m, (t,m) ∈ s.queue l

def position (s : LockState T L) (l : L) (t : T) : Nat := ((s.queue l).map Prod.fst).idxOf t

/-- `t` waits for `u`: its request is kept back by a guard of `u`, or comes after the
request of `u` for the same lock. -/
def Blocks (s : LockState T L) (t u : T) : Prop :=
  ∃ l m, (t,m) ∈ s.queue l ∧
    ((∃ m', (u,m') ∈ s.holders l ∧ m.conflicts m') ∨ s.position l u < s.position l t)

omit [DecidableEq T] in
/-- `t` waits for a lock that `u` holds. -/
def AwaitsHolder (s : LockState T L) (t u : T) : Prop :=
  ∃ l, s.Queued t l ∧ ∃ m, (u,m) ∈ s.holders l

end LockState

namespace LockSystem

open LockState

variable {T L C : Type} [DecidableEq T] [DecidableEq L]

/-- What holds in every state: a task is somewhere in one of its calls, a queued task is
about to acquire the lock it is queued for and queued once, and a task with a guard is
going to drop it. -/
structure Inv (sys : LockSystem T L C) (s : LockState T L) : Prop where
  suffix : ∀ t, s.rest t = [] ∨ ∃ c, sys.allowed t c ∧ s.rest t <:+ sys.prog c
  queued : ∀ l t m, (t,m) ∈ s.queue l → ∃ r, s.rest t = .acquire l m::r
  nodup : ∀ l, ((s.queue l).map Prod.fst).Nodup
  held : ∀ l t m, (t,m) ∈ s.holders l → owned l (s.rest t) = some m

variable {sys : LockSystem T L C} {s : LockState T L}

omit [DecidableEq T] in
theorem Inv.not_queued {op : LockOp L} {r : List (LockOp L)} {t : T} (h : sys.Inv s)
    (ht : s.rest t = op::r) (hop : ∀ l m, op ≠ .acquire l m) (l : L) (m : LockMode) :
    (t,m) ∉ s.queue l := by
  intro hm
  obtain ⟨r',hr⟩ := h.queued l t m hm
  rw [ht] at hr
  cases hr
  exact hop l m rfl

omit [DecidableEq T] in
theorem Inv.queued_unique {t : T} {l l' : L} (h : sys.Inv s) (hl : s.Queued t l)
    (hl' : s.Queued t l') : l = l' := by
  obtain ⟨m,hm⟩ := hl
  obtain ⟨m',hm'⟩ := hl'
  obtain ⟨r,hr⟩ := h.queued l t m hm
  obtain ⟨r',hr'⟩ := h.queued l' t m' hm'
  rw [hr] at hr'
  cases hr'
  rfl

/-- A task that is queued after a step was at the same point of its call before it. -/
theorem queued_rest (h : sys.Inv s) (e : LockEvent T L C) {t : T} {l : L}
    (ht : (sys.step s e).Queued t l) : (sys.step s e).rest t = s.rest t := by
  obtain ⟨m,hm⟩ := ht
  cases e with
  | start u c =>
    simp only [step] at hm ⊢
    split_ifs at hm ⊢ with hc
    · by_cases htu : t = u
      · subst htu
        obtain ⟨r,hr⟩ := h.queued l t m hm
        simp [hr] at hc
      · exact Function.update_of_ne htu _ _
    · rfl
  | request u =>
    simp only [step]
    split
    · split_ifs <;> rfl
    · rfl
  | grant l' =>
    simp only [step] at hm ⊢
    cases hq : s.queue l' with
    | nil => rfl
    | cons head q =>
      obtain ⟨u,m'⟩ := head
      simp only [hq] at hm ⊢
      split_ifs at hm ⊢
      · by_cases htu : t = u
        · subst htu
          have hnodup := h.nodup l'
          rw [hq,List.map_cons,List.nodup_cons] at hnodup
          have first : s.Queued t l' := ⟨m',by rw [hq]; simp⟩
          by_cases hl : l = l'
          · subst hl
            dsimp only at hm
            rw [Function.update_self] at hm
            exact absurd (List.mem_map_of_mem hm) hnodup.1
          · dsimp only at hm
            rw [Function.update_of_ne hl] at hm
            exact absurd (h.queued_unique ⟨m,hm⟩ first) hl
        · exact Function.update_of_ne htu _ _
      · rfl
  | release u =>
    simp only [step] at hm ⊢
    cases hu : s.rest u with
    | nil => rfl
    | cons op r =>
      cases op with
      | acquire => rfl
      | release l' m' =>
        by_cases htu : t = u
        · subst htu
          simp only [hu] at hm
          exact absurd hm (h.not_queued hu (by simp) l m)
        · exact Function.update_of_ne htu _ _

theorem start_inv (h : sys.Inv s) (t : T) (c : C) : sys.Inv (sys.step s (.start t c)) := by
  simp only [step]
  split_ifs with hc
  · obtain ⟨hempty,hallowed⟩ := Bool.and_eq_true_iff.mp hc
    have hempty : s.rest t = [] := List.isEmpty_iff.mp hempty
    constructor
    · intro u
      by_cases hu : u = t
      · subst hu
        exact Or.inr ⟨c,hallowed,by simp⟩
      · simpa [hu] using h.suffix u
    · intro l u m hm
      obtain ⟨r,hr⟩ := h.queued l u m hm
      have hu : u ≠ t := by
        intro heq
        subst heq
        rw [hempty] at hr
        cases hr
      exact ⟨r,by simpa [hu] using hr⟩
    · exact h.nodup
    · intro l u m hm
      have howned := h.held l u m hm
      have hu : u ≠ t := by
        intro heq
        subst heq
        simp [hempty,owned] at howned
      simpa [hu] using howned
  · exact h

theorem request_inv (h : sys.Inv s) (t : T) : sys.Inv (sys.step s (.request t)) := by
  simp only [step]
  split
  · next l m r hrest =>
    split_ifs with hin
    · exact h
    · refine ⟨h.suffix,?_,?_,h.held⟩
      · intro l' u m' hm
        by_cases hl : l' = l
        · subst hl
          simp only [Function.update_self,List.mem_append,List.mem_singleton] at hm
          rcases hm with hm | hm
          · exact h.queued l' u m' hm
          · cases hm
            exact ⟨r,hrest⟩
        · simp only [Function.update_of_ne hl] at hm
          exact h.queued l' u m' hm
      · intro l'
        by_cases hl : l' = l
        · subst hl
          simp only [Function.update_self,List.map_append,List.map_cons,List.map_nil]
          rw [List.nodup_append]
          exact ⟨h.nodup l',by simp,fun a ha b hb hab => hin (by simp_all)⟩
        · simp only [Function.update_of_ne hl]
          exact h.nodup l'
  · exact h

omit [DecidableEq T] in
/-- Taking the first operation off leaves a task in its call. -/
theorem Inv.suffix_tail (h : sys.Inv s) {t : T} {op : LockOp L} {r : List (LockOp L)}
    (ht : s.rest t = op::r) : ∃ c, sys.allowed t c ∧ op::r <:+ sys.prog c := by
  rcases h.suffix t with he | hc
  · rw [ht] at he
    cases he
  · rwa [ht] at hc

theorem grant_inv (h : sys.Inv s) (l : L) : sys.Inv (sys.step s (.grant l)) := by
  simp only [step]
  cases hq : s.queue l with
  | nil => exact h
  | cons head q =>
    obtain ⟨t,m⟩ := head
    dsimp only
    split_ifs
    · have first : (t,m) ∈ s.queue l := by
        rw [hq]
        simp
      obtain ⟨r,hr⟩ := h.queued l t m first
      obtain ⟨c,hallowed,hsuffix⟩ := h.suffix_tail hr
      have hnodup := h.nodup l
      rw [hq,List.map_cons,List.nodup_cons] at hnodup
      have others : ∀ l' u m', (u,m') ∈ Function.update s.queue l q l' →
          (u,m') ∈ s.queue l' ∧ u ≠ t := by
        intro l' u m' hm
        by_cases hl : l' = l
        · subst hl
          rw [Function.update_self] at hm
          refine ⟨by rw [hq]; simp [hm],?_⟩
          intro heq
          subst heq
          exact hnodup.1 (List.mem_map.mpr ⟨(u,m'),hm,rfl⟩)
        · rw [Function.update_of_ne hl] at hm
          refine ⟨hm,?_⟩
          intro heq
          subst heq
          exact hl (h.queued_unique ⟨m',hm⟩ ⟨m,first⟩)
      constructor
      · intro u
        by_cases hu : u = t
        · subst hu
          simp only [Function.update_self,hr,List.tail_cons]
          exact Or.inr ⟨c,hallowed,(List.suffix_cons _ r).trans hsuffix⟩
        · simpa [hu] using h.suffix u
      · intro l' u m' hm
        obtain ⟨hm,hu⟩ := others l' u m' hm
        obtain ⟨r',hr'⟩ := h.queued l' u m' hm
        exact ⟨r',by simpa [hu] using hr'⟩
      · intro l'
        by_cases hl : l' = l
        · subst hl
          simpa using hnodup.2
        · simpa [hl] using h.nodup l'
      · intro l' u m' hm
        have cases' : (u = t ∧ l' = l ∧ m' = m) ∨ (u,m') ∈ s.holders l' := by
          by_cases hl : l' = l
          · subst hl
            simp only [Function.update_self,List.mem_cons,Prod.mk.injEq] at hm
            rcases hm with ⟨hu,hm⟩ | hm
            · exact Or.inl ⟨hu,rfl,hm⟩
            · exact Or.inr hm
          · simp only [Function.update_of_ne hl] at hm
            exact Or.inr hm
        rcases cases' with ⟨rfl,rfl,rfl⟩ | hm
        · simp only [Function.update_self,hr,List.tail_cons]
          exact (sys.bracketed c).owned_of_suffix hsuffix
        · have howned := h.held l' u m' hm
          by_cases hu : u = t
          · subst hu
            rw [hr] at howned
            simp only [Function.update_self,hr,List.tail_cons]
            simp only [owned] at howned
            split_ifs at howned
            exact howned
          · simpa [hu] using howned
    · exact h

theorem release_inv (h : sys.Inv s) (t : T) : sys.Inv (sys.step s (.release t)) := by
  simp only [step]
  split
  · next l m r hr =>
    obtain ⟨c,hallowed,hsuffix⟩ := h.suffix_tail hr
    constructor
    · intro u
      by_cases hu : u = t
      · subst hu
        simp only [Function.update_self]
        exact Or.inr ⟨c,hallowed,(List.suffix_cons _ r).trans hsuffix⟩
      · simpa [hu] using h.suffix u
    · intro l' u m' hm
      have hu : u ≠ t := by
        intro heq
        subst heq
        exact h.not_queued hr (by simp) l' m' hm
      obtain ⟨r',hr'⟩ := h.queued l' u m' hm
      exact ⟨r',by simpa [hu] using hr'⟩
    · exact h.nodup
    · intro l' u m' hm
      by_cases hl : l' = l
      · subst hl
        simp only [Function.update_self,List.mem_filter,decide_eq_true_eq] at hm
        simpa [hm.2] using h.held l' u m' hm.1
      · simp only [Function.update_of_ne hl] at hm
        have howned := h.held l' u m' hm
        by_cases hu : u = t
        · subst hu
          rw [hr] at howned
          simpa [owned,Ne.symm hl] using howned
        · simpa [hu] using howned
  · exact h

theorem step_inv (h : sys.Inv s) (e : LockEvent T L C) : sys.Inv (sys.step s e) := by
  cases e with
  | start t c => exact start_inv h t c
  | request t => exact request_inv h t
  | grant l => exact grant_inv h l
  | release t => exact release_inv h t

omit [DecidableEq T] in
theorem init_inv : sys.Inv init :=
  ⟨fun _ => Or.inl rfl,by simp [init],by simp [init],by simp [init]⟩

omit [DecidableEq L] in
/-- No cycle of waiting: it is enough that along every edge between queued tasks a key of
the task grows, or stays while the second task comes first in the same queue. -/
theorem acyclic_of_key (E : T → T → Prop) (key : T → Nat) (hq : ∀ t u, E t u → ∃ l, s.Queued t l)
    (hE : ∀ t u l', E t u → s.Queued u l' → ∃ l, s.Queued t l ∧
      (key t < key u ∨ (key t = key u ∧ l' = l ∧ s.position l u < s.position l t))) (t : T) :
    ¬ TransGen E t t := by
  have path : ∀ a b l', TransGen E a b → s.Queued b l' → ∃ l, s.Queued a l ∧
      (key a < key b ∨ (key a = key b ∧ l' = l ∧ s.position l b < s.position l a)) := by
    intro a b l' h hb
    induction h using TransGen.head_induction_on with
    | single hab => exact hE _ b l' hab hb
    | @head a c hac _ ih =>
      obtain ⟨k,hc,hcb⟩ := ih
      obtain ⟨l,ha,hac⟩ := hE a c k hac hc
      refine ⟨l,ha,?_⟩
      rcases hac with hac | ⟨hac,rfl,hpos⟩
      · rcases hcb with hcb | ⟨hcb,_,_⟩ <;> left <;> omega
      · rcases hcb with hcb | ⟨hcb,rfl,hpos'⟩
        · left; omega
        · right
          exact ⟨hac.trans hcb,rfl,hpos'.trans hpos⟩
  intro h
  obtain ⟨c,htc,_⟩ := TransGen.head'_iff.mp h
  obtain ⟨l',hl'⟩ := hq t c htc
  obtain ⟨l,_,hlt | ⟨_,_,hlt⟩⟩ := path t t l' h hl'
  · exact lt_irrefl _ hlt
  · exact lt_irrefl _ hlt

omit [DecidableEq L] in
theorem queued_of_position_lt {t u : T} {l : L} (h : s.position l u < s.position l t) :
    s.Queued u l := by
  have hlt : s.position l u < ((s.queue l).map Prod.fst).length :=
    lt_of_lt_of_le h List.idxOf_le_length
  obtain ⟨e,he,rfl⟩ := List.mem_map.mp (List.idxOf_lt_length_iff.mp hlt)
  exact ⟨e.2,he⟩

omit [DecidableEq T] in
/-- A queued task that holds another lock is at a nested acquisition. -/
theorem Inv.nested_of_held {t : T} {l l' : L} {m : LockMode} (h : sys.Inv s)
    (hq : s.Queued t l') (hm : (t,m) ∈ s.holders l) : nested l l' (s.rest t) := by
  obtain ⟨m',hq⟩ := hq
  obtain ⟨r,hr⟩ := h.queued l' t m' hq
  have howned := h.held l t m hm
  rw [hr] at howned ⊢
  simp only [nested,decide_true,howned,Option.isSome_some,Bool.and_self]

omit [DecidableEq L] in
/-- The two kinds of edges of the wait graph. -/
theorem edge_cases {t u : T} (h : s.AwaitsHolder t u ∨ s.Blocks t u) :
    ∃ l, s.Queued t l ∧
      ((∃ m, (u,m) ∈ s.holders l) ∨ s.position l u < s.position l t) := by
  rcases h with ⟨l,hq,hu⟩ | ⟨l,m,hm,⟨m',hu,_⟩ | hpos⟩
  · exact ⟨l,hq,Or.inl hu⟩
  · exact ⟨l,⟨m,hm⟩,Or.inl ⟨m',hu⟩⟩
  · exact ⟨l,⟨m,hm⟩,Or.inr hpos⟩

/-- Lock order: if every queued task waits for a lock that ranks above all it holds, then
there is no cycle of waiting. -/
theorem acyclic_of_rank (h : sys.Inv s) (rank : L → Nat)
    (hrank : ∀ u l l', s.Queued u l' → nested l l' (s.rest u) → rank l < rank l') (t : T) :
    ¬ TransGen (fun t u => s.AwaitsHolder t u ∨ s.Blocks t u) t t := by
  have key_eq : ∀ t l, s.Queued t l → (match s.rest t with
      | .acquire l _::_ => rank l
      | _ => 0) = rank l := by
    intro t l hyp
    obtain ⟨m,hm⟩ := hyp
    obtain ⟨r,hr⟩ := h.queued l t m hm
    rw [hr]
  apply acyclic_of_key _ (fun t => match s.rest t with
    | .acquire l _::_ => rank l
    | _ => 0)
  · intro t u he
    obtain ⟨l,hq,_⟩ := edge_cases he
    exact ⟨l,hq⟩
  · intro t u l' he hu
    obtain ⟨l,hq,⟨m,hm⟩ | hpos⟩ := edge_cases he
    · refine ⟨l,hq,Or.inl ?_⟩
      rw [key_eq t l hq,key_eq u l' hu]
      exact hrank u l l' hu (h.nested_of_held hu hm)
    · have hl : l' = l := h.queued_unique hu (queued_of_position_lt hpos)
      subst hl
      refine ⟨l',hq,Or.inr ⟨?_,rfl,hpos⟩⟩
      rw [key_eq t l' hq,key_eq u l' hu]

/-- `x` and `y` are the only locks that a call of the system ever nests. -/
def NestsOnly (sys : LockSystem T L C) (x y : L) : Prop :=
  ∀ c, ∀ p ∈ (sys.prog c).tails, ∀ l l', nested l l' p → (l = x ∧ l' = y) ∨ (l = y ∧ l' = x)

omit [DecidableEq T] in
/-- One task is between `x` and `y`, another one between `y` and `x`. -/
def Overlap (x y : L) (s : LockState T L) : Prop :=
  ∃ a b, nested x y (s.rest a) ∧ nested y x (s.rest b)

/-- The same with both tasks queued: they wait for each other. -/
def Inverted (x y : L) (s : LockState T L) : Prop :=
  ∃ a b, s.Queued a y ∧ nested x y (s.rest a) ∧ s.Queued b x ∧ nested y x (s.rest b)

omit [DecidableEq T] in
theorem Inv.nests {x y : L} (h : sys.Inv s) (hn : sys.NestsOnly x y) {t : T} {l l' : L}
    (ht : nested l l' (s.rest t)) : (l = x ∧ l' = y) ∨ (l = y ∧ l' = x) := by
  rcases h.suffix t with he | ⟨c,_,hs⟩
  · rw [he] at ht
    cases ht
  · exact hn c _ (List.mem_tails _ _ |>.mpr hs) l l' ht

theorem acyclic_of_not_inverted {x y : L} (h : sys.Inv s) (hxy : x ≠ y)
    (hn : sys.NestsOnly x y) (hs : ¬ Inverted x y s) (t : T) :
    ¬ TransGen (fun t u => s.AwaitsHolder t u ∨ s.Blocks t u) t t := by
  by_cases ha : ∃ a, s.Queued a y ∧ nested x y (s.rest a)
  · obtain ⟨a,hqa,ha⟩ := ha
    apply acyclic_of_rank h (fun l => if l = y then 1 else 0)
    intro u l l' hq hu
    rcases h.nests hn hu with ⟨rfl,rfl⟩ | ⟨rfl,rfl⟩
    · simp [hxy]
    · exact absurd ⟨a,u,hqa,ha,hq,hu⟩ hs
  · apply acyclic_of_rank h (fun l => if l = x then 1 else 0)
    intro u l l' hq hu
    rcases h.nests hn hu with ⟨rfl,rfl⟩ | ⟨rfl,rfl⟩
    · exact absurd ⟨u,hq,hu⟩ ha
    · simp [Ne.symm hxy]

/-- Two locks that are nested both ways: a run in which no task is ever between `x` and `y`
while another is between `y` and `x` never comes to a cycle of waiting. -/
theorem inversion_acyclic (sys : LockSystem T L C) {x y : L} (hxy : x ≠ y)
    (hn : sys.NestsOnly x y) (es : List (LockEvent T L C))
    (ok : Along sys.step (fun s _ => ¬ Overlap x y s) init es) (t : T) :
    ¬ TransGen (fun t u => (sys.run es).AwaitsHolder t u ∨ (sys.run es).Blocks t u) t t := by
  have final : sys.Inv (sys.run es) ∧ ¬ Inverted x y (sys.run es) := by
    apply ok.invariant (fun s => sys.Inv s ∧ ¬ Inverted x y s)
    · refine ⟨init_inv,?_⟩
      intro hyp
      obtain ⟨a,_,⟨m,hm⟩,_⟩ := hyp
      simp [init] at hm
    · intro s e hyp hok
      obtain ⟨h,_⟩ := hyp
      refine ⟨step_inv h e,?_⟩
      intro hyp
      obtain ⟨a,b,hqa,ha,hqb,hb⟩ := hyp
      rw [queued_rest h e hqa] at ha
      rw [queued_rest h e hqb] at hb
      exact hok ⟨a,b,ha,hb⟩
  exact acyclic_of_not_inverted final.1 hxy hn final.2 t

/-- Everything a step can do to a queue: nothing, a request comes in at the end, or the
first request is granted. -/
theorem queue_cases (sys : LockSystem T L C) (s : LockState T L) (e : LockEvent T L C) (l : L) :
    (sys.step s e).queue l = s.queue l ∨
    (∃ t m, t ∉ (s.queue l).map Prod.fst ∧ (sys.step s e).queue l = s.queue l++[(t,m)]) ∨
    ∃ head, s.queue l = head::(sys.step s e).queue l := by
  cases e with
  | start t c =>
    simp only [step]
    split_ifs <;> exact Or.inl rfl
  | request t =>
    simp only [step]
    split
    · next l' m r _ =>
      split_ifs with hin
      · exact Or.inl rfl
      · by_cases hl : l = l'
        · subst hl
          exact Or.inr (Or.inl ⟨t,m,hin,by simp⟩)
        · exact Or.inl (by simp [hl])
    · exact Or.inl rfl
  | grant l' =>
    simp only [step]
    cases hq : s.queue l' with
    | nil => exact Or.inl rfl
    | cons head q =>
      dsimp only
      split_ifs
      · by_cases hl : l = l'
        · subst hl
          exact Or.inr (Or.inr ⟨head,by simp [hq]⟩)
        · exact Or.inl (by simp [hl])
      · exact Or.inl rfl
  | release t =>
    simp only [step]
    split <;> exact Or.inl rfl

/-- If `b` does not come before `c` in a queue after a step, then it did not before the step,
and `c` was already there. -/
theorem position_before (h : sys.Inv s) (e : LockEvent T L C) {b c : T} {l : L} {m : LockMode}
    (hbc : b ≠ c) (hb : (sys.step s e).Queued b l) (hc : (c,m) ∈ (sys.step s e).queue l)
    (hpos : ¬ (sys.step s e).position l b < (sys.step s e).position l c) :
    (c,m) ∈ s.queue l ∧ ¬ s.position l b < s.position l c := by
  obtain ⟨k,hb⟩ := hb
  unfold position at hpos ⊢
  rcases queue_cases sys s e l with hq | ⟨t,m',ht,hq⟩ | ⟨head,hq⟩
  · rw [hq] at hc hpos
    exact ⟨hc,hpos⟩
  · rw [hq] at hb hc hpos
    rw [List.map_append,List.map_singleton] at hpos
    rcases List.mem_append.mp hc with hc | hc
    · refine ⟨hc,?_⟩
      have hcm : c ∈ (s.queue l).map Prod.fst := List.mem_map.mpr ⟨(c,m),hc,rfl⟩
      rw [List.idxOf_append_of_mem hcm] at hpos
      by_cases hbm : b ∈ (s.queue l).map Prod.fst
      · rwa [List.idxOf_append_of_mem hbm] at hpos
      · rw [List.idxOf_eq_length hbm]
        exact not_lt.mpr List.idxOf_le_length
    · -- A request that has just come in is behind every other one.
      have hc : c = t := (Prod.mk.inj (List.mem_singleton.mp hc)).1
      subst hc
      have hbm : b ∈ (s.queue l).map Prod.fst := by
        rcases List.mem_append.mp hb with hb | hb
        · exact List.mem_map.mpr ⟨(b,k),hb,rfl⟩
        · exact absurd (Prod.mk.inj (List.mem_singleton.mp hb)).1 hbc
      rw [List.idxOf_append_of_mem hbm,List.idxOf_append_of_notMem ht] at hpos
      exact absurd (Nat.lt_add_right _ (List.idxOf_lt_length_iff.mpr hbm)) hpos
  · have hnodup := h.nodup l
    rw [hq,List.map_cons,List.nodup_cons] at hnodup
    have hne : ∀ x n, (x,n) ∈ (sys.step s e).queue l → head.1 ≠ x := by
      intro x n hx heq
      subst heq
      exact hnodup.1 (List.mem_map.mpr ⟨(head.1,n),hx,rfl⟩)
    rw [hq,List.map_cons,List.idxOf_cons_ne _ (hne b k hb),List.idxOf_cons_ne _ (hne c m hc)]
    exact ⟨List.mem_cons_of_mem _ hc,fun hlt => hpos (Nat.lt_of_succ_lt_succ hlt)⟩

end LockSystem

end OpenBroadcast
