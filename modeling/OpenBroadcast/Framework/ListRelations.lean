import Mathlib.Data.List.Chain
import Mathlib.Data.List.Forall2

namespace OpenBroadcast

section Relations

variable {α β γ : Type}

theorem forall₂_append {R : α → β → Prop} {l l' : List α} {m : List β}
    (h : List.Forall₂ R (l++l') m) :
    ∃ x y, m = x++y ∧ List.Forall₂ R l x ∧ List.Forall₂ R l' y := by
  induction l generalizing m with
  | nil => exact ⟨[],m,rfl,.nil,h⟩
  | cons a l ih =>
    cases h with
    | @cons _ b _ bs hab htail =>
      obtain ⟨x,y,rfl,hx,hy⟩ := ih htail
      exact ⟨b::x,y,rfl,.cons hab hx,hy⟩

theorem forall₂_mem_right {R : α → β → Prop} {l : List α} {m : List β}
    (h : List.Forall₂ R l m) {b : β} (hb : b ∈ m) : ∃ a ∈ l, R a b := by
  induction h with
  | nil => cases hb
  | @cons a b' l m hab _ ih =>
    rcases List.mem_cons.mp hb with rfl | hb
    · exact ⟨a,List.mem_cons_self,hab⟩
    · obtain ⟨c,hc,hcb⟩ := ih hb
      exact ⟨c,List.mem_cons_of_mem _ hc,hcb⟩

theorem forall₂_mem_left {R : α → β → Prop} {l : List α} {m : List β}
    (h : List.Forall₂ R l m) {a : α} (ha : a ∈ l) : ∃ b ∈ m, R a b :=
  forall₂_mem_right h.flip ha

theorem forall₂_trans {R : α → β → Prop} {S : β → γ → Prop} {T : α → γ → Prop}
    (hT : ∀ a b c, R a b → S b c → T a c) {l : List α} {m : List β} {n : List γ}
    (h : List.Forall₂ R l m) (h' : List.Forall₂ S m n) : List.Forall₂ T l n := by
  induction h generalizing n with
  | nil =>
    cases h'
    exact .nil
  | cons hab _ ih =>
    cases h' with
    | cons hbc htail => exact .cons (hT _ _ _ hab hbc) (ih htail)

theorem zipWith_eq_map {f : α → β → γ} {g : α → γ} {l : List α} {m : List β}
    (h : List.Forall₂ (fun a b => f a b = g a) l m) : List.zipWith f l m = l.map g := by
  induction h with
  | nil => rfl
  | cons hab _ ih => rw [List.zipWith_cons_cons,List.map_cons,hab,ih]

theorem isChain_congr {R : α → β → Prop} {C : α → α → Prop} {D : β → β → Prop}
    (hR : ∀ a b x y, R a x → R b y → (C a b ↔ D x y)) {l : List α} {m : List β}
    (h : List.Forall₂ R l m) : l.IsChain C ↔ m.IsChain D := by
  induction h with
  | nil => simp
  | cons hax htail ih =>
    cases htail with
    | nil => simp
    | cons hby _ => rw [List.isChain_cons_cons,List.isChain_cons_cons,ih,hR _ _ _ _ hax hby]

end Relations

section MapM

variable {α β ε : Type}

theorem mapM_cons_eq_some {f : α → Option β} {a : α} {l : List α} {m : List β} :
    (a::l).mapM f = some m ↔ ∃ b bs, f a = some b ∧ l.mapM f = some bs ∧ m = b::bs := by
  rw [List.mapM_cons]
  simp only [Option.bind_eq_bind,Option.bind_eq_some_iff]
  constructor
  · intro h
    obtain ⟨b,hb,bs,hbs,heq⟩ := h
    exact ⟨b,bs,hb,hbs,(Option.some.inj heq).symm⟩
  · intro h
    obtain ⟨b,bs,hb,hbs,rfl⟩ := h
    exact ⟨b,hb,bs,hbs,rfl⟩

/-- A list goes through exactly if all of its elements do. -/
theorem mapM_eq_some_iff {f : α → Option β} {l : List α} {m : List β} :
    l.mapM f = some m ↔ List.Forall₂ (fun a b => f a = some b) l m := by
  induction l generalizing m with
  | nil =>
    rw [List.forall₂_nil_left_iff]
    exact ⟨fun h => (Option.some.inj h).symm,fun h => congrArg some h.symm⟩
  | cons a l ih =>
    rw [mapM_cons_eq_some,List.forall₂_cons_left_iff]
    simp only [ih]

theorem mapM_eq_ok_iff {f : α → Except ε β} {l : List α} {m : List β} :
    l.mapM f = .ok m ↔ List.Forall₂ (fun a b => f a = .ok b) l m := by
  induction l generalizing m with
  | nil =>
    rw [List.forall₂_nil_left_iff]
    exact ⟨fun h => (Except.ok.inj h).symm,fun h => congrArg Except.ok h.symm⟩
  | cons a l ih =>
    rw [List.mapM_cons,List.forall₂_cons_left_iff]
    constructor
    · intro h
      cases ha : f a with
      | error e =>
        rw [ha] at h
        cases h
      | ok b =>
        cases hl : l.mapM f with
        | error e =>
          rw [ha,hl] at h
          cases h
        | ok bs =>
          rw [ha,hl] at h
          exact ⟨b,bs,rfl,ih.mp hl,(Except.ok.inj h).symm⟩
    · intro h
      obtain ⟨b,bs,hb,hbs,rfl⟩ := h
      rw [hb,ih.mpr hbs]
      rfl

theorem mapM_eq_some_map {f : α → Option β} {g : α → β} {l : List α}
    (h : ∀ a ∈ l, f a = some (g a)) : l.mapM f = some (l.map g) :=
  mapM_eq_some_iff.mpr (List.forall₂_map_right_iff.mpr (List.forall₂_same.mpr h))

end MapM

section Chunks

variable {α : Type} {n : Nat}

theorem flatten_toChunks_go (xs : List α) (acc₁ : Array α) (acc₂ : Array (List α)) :
    (List.toChunks.go n xs acc₁ acc₂).flatten = acc₂.toList.flatten++acc₁.toList++xs := by
  induction xs generalizing acc₁ acc₂ with
  | nil => simp [List.toChunks.go]
  | cons x xs ih =>
    unfold List.toChunks.go
    split_ifs
    · rw [ih]
      simp
    · rw [ih]
      simp

/-- The pieces of a list make up the list. -/
theorem flatten_toChunks (n : Nat) (xs : List α) : (xs.toChunks n).flatten = xs := by
  cases xs with
  | nil => simp [List.toChunks]
  | cons x xs =>
    cases n with
    | zero => simp [List.toChunks]
    | succ n =>
      show (List.toChunks.go (n+1) xs #[x] #[]).flatten = x::xs
      rw [flatten_toChunks_go]
      simp

theorem length_le_of_mem_toChunks_go {xs : List α} {acc₁ : Array α} {acc₂ : Array (List α)}
    (h₁ : acc₁.size ≤ n) (h₂ : ∀ chunk ∈ acc₂, chunk.length ≤ n) (hn : 0 < n) :
    ∀ chunk ∈ List.toChunks.go n xs acc₁ acc₂, chunk.length ≤ n := by
  induction xs generalizing acc₁ acc₂ with
  | nil =>
    intro chunk hchunk
    rw [List.toChunks.go,Array.toList_push,List.mem_append,List.mem_singleton] at hchunk
    rcases hchunk with hchunk | rfl
    · exact h₂ chunk (by simpa using hchunk)
    · simpa using h₁
  | cons x xs ih =>
    unfold List.toChunks.go
    split_ifs with hfull
    · apply ih
      · simpa using Nat.succ_le_of_lt hn
      · intro chunk hchunk
        rw [Array.mem_push] at hchunk
        rcases hchunk with hchunk | rfl
        · exact h₂ chunk hchunk
        · simpa using h₁
    · apply ih _ h₂
      have hne : acc₁.size ≠ n := by simpa using hfull
      rw [Array.size_push]
      omega

/-- No piece is longer than it may be. -/
theorem length_le_of_mem_toChunks (hn : 0 < n) {xs chunk : List α} (h : chunk ∈ xs.toChunks n) :
    chunk.length ≤ n := by
  cases xs with
  | nil => simp [List.toChunks] at h
  | cons x xs =>
    obtain ⟨n,rfl⟩ := Nat.exists_eq_succ_of_ne_zero hn.ne'
    have hgo : chunk ∈ List.toChunks.go (n+1) xs #[x] #[] := h
    exact length_le_of_mem_toChunks_go (by simp) (by simp) hn chunk hgo

end Chunks

section Permutations

variable {α β : Type}

/-- Where at most one element has a part, the order of the elements does not matter. -/
theorem flatMap_eq_of_perm {f : α → List β} {l l' : List α} (h : l.Perm l')
    (hsolo : l.countP (fun a => !(f a).isEmpty) ≤ 1) : l.flatMap f = l'.flatMap f := by
  have hparts (m : List α) : m.flatMap f = (m.filter (fun a => !(f a).isEmpty)).flatMap f := by
    induction m with
    | nil => rfl
    | cons a m ih =>
      rw [List.flatMap_cons,ih]
      cases ha : f a with
      | nil => simp [ha]
      | cons x xs => simp [ha]
  have hfilter := h.filter (fun a => !(f a).isEmpty)
  rw [List.countP_eq_length_filter] at hsolo
  rw [hparts l,hparts l']
  generalize l.filter (fun a => !(f a).isEmpty) = p at hfilter hsolo ⊢
  cases p with
  | nil => rw [List.nil_perm.mp hfilter]
  | cons a p =>
    have hnil : p = [] := by
      rw [List.length_cons] at hsolo
      exact List.length_eq_zero_iff.mp (by omega)
    rw [hnil] at hfilter
    rw [hnil,List.singleton_perm.mp hfilter]

end Permutations

end OpenBroadcast
