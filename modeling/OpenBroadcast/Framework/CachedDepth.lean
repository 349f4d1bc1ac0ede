import OpenBroadcast.Framework.ParentChain

namespace OpenBroadcast

variable {α : Type} [DecidableEq α]

/-- The nodes of a forest, each with its parent and the depth that is kept for it. -/
abbrev Seats (α : Type) := α → Option (Option α × Nat)

namespace Seats

omit [DecidableEq α] in
/-- A root has depth 0 and every other node is one below its parent, but for the loose ones. -/
structure Placed (f : Seats α) (loose : α → Prop) : Prop where
  link : ∀ c p d, f c = some (some p,d) → loose c ∨ ∃ r e, f p = some (r,e) ∧ d = e+1
  root : ∀ c d, f c = some (none,d) → loose c ∨ d = 0

/-- What a node is given is one below its parent, or 0 for a root. -/
def Fits (f : Seats α) (p : α) (parent : Option α) (depth : Nat) : Prop :=
  match parent with
  | some q => q ≠ p ∧ ∃ r e, f q = some (r,e) ∧ depth = e+1
  | none => depth = 0

variable {f : Seats α} {loose loose' : α → Prop} {p : α} {parent : Option α} {depth : Nat}

/-- A node takes a seat that fits, and its children are one below it. -/
theorem Placed.seat (h : Placed f loose) (hloose : ∀ c, loose c → c = p ∨ loose' c)
    (hfits : Fits f p parent depth)
    (hchildren : ∀ c d, c ≠ p → f c = some (some p,d) → d = depth+1) :
    Placed (Function.update f p (some (parent,depth))) loose' := by
  constructor
  · intro c q d hc
    by_cases hcp : c = p
    · subst hcp
      right
      have hseat : parent = some q ∧ depth = d := by simpa using hc
      obtain ⟨rfl,rfl⟩ := hseat
      obtain ⟨hne,r,e,hq,hd⟩ := hfits
      exact ⟨r,e,by simp [hne,hq],hd⟩
    · have hold : f c = some (some q,d) := by simpa [hcp] using hc
      rcases h.link c q d hold with hl | ⟨r,e,hq,hd⟩
      · exact .inl ((hloose c hl).resolve_left hcp)
      · right
        by_cases hqp : q = p
        · subst hqp
          exact ⟨parent,depth,by simp,hchildren c d hcp hold⟩
        · exact ⟨r,e,by simp [hqp,hq],hd⟩
  · intro c d hc
    by_cases hcp : c = p
    · subst hcp
      have hseat : parent = none ∧ depth = d := by simpa using hc
      obtain ⟨rfl,rfl⟩ := hseat
      exact .inr hfits
    · have hold : f c = some (none,d) := by simpa [hcp] using hc
      rcases h.root c d hold with hl | hd
      · exact .inl ((hloose c hl).resolve_left hcp)
      · exact .inr hd

/-- A node goes, and its children are loose. -/
theorem Placed.remove (h : Placed f loose) (hloose : ∀ c, loose c → c = p ∨ loose' c)
    (hchildren : ∀ c d, c ≠ p → f c = some (some p,d) → loose' c) :
    Placed (Function.update f p none) loose' := by
  constructor
  · intro c q d hc
    have hcp : c ≠ p := fun hcp => by simp [hcp] at hc
    have hold : f c = some (some q,d) := by simpa [hcp] using hc
    by_cases hqp : q = p
    · subst hqp
      exact .inl (hchildren c d hcp hold)
    · rcases h.link c q d hold with hl | ⟨r,e,hq,hd⟩
      · exact .inl ((hloose c hl).resolve_left hcp)
      · exact .inr ⟨r,e,by simp [hqp,hq],hd⟩
  · intro c d hc
    have hcp : c ≠ p := fun hcp => by simp [hcp] at hc
    have hold : f c = some (none,d) := by simpa [hcp] using hc
    rcases h.root c d hold with hl | hd
    · exact .inl ((hloose c hl).resolve_left hcp)
    · exact .inr hd

omit [DecidableEq α] in
/-- A node that is not there is not loose. -/
theorem Placed.absent (h : Placed f loose) (hp : f p = none)
    (hloose : ∀ c, loose c → c = p ∨ loose' c) : Placed f loose' := by
  have hstays : ∀ c s, f c = some s → loose c → loose' c := by
    intro c s hc hl
    rcases hloose c hl with rfl | hl'
    · simp [hp] at hc
    · exact hl'
  constructor
  · intro c q d hc
    exact (h.link c q d hc).imp_left (hstays c _ hc)
  · intro c d hc
    exact (h.root c d hc).imp_left (hstays c _ hc)

omit [DecidableEq α] in
/-- The loop upwards pushes one node more than the depth says. -/
theorem Placed.climb (h : Placed f (fun _ => False)) {d : Nat} {r : Option α} {p : α}
    (hp : f p = some (r,d)) (path : List α) :
    ∃ l, OpenBroadcast.climb (fun a => (f a).map Prod.fst) (d+1) p path = some (path++l) ∧
      l.length = d+1 := by
  induction d generalizing p r path with
  | zero =>
    cases r with
    | none => exact ⟨[p],by simp [OpenBroadcast.climb,hp],rfl⟩
    | some q =>
      obtain ⟨_,e,_,hd⟩ := (h.link p q 0 hp).resolve_left id
      omega
  | succ d ih =>
    cases r with
    | none =>
      have hd := (h.root p (d+1) hp).resolve_left id
      omega
    | some q =>
      obtain ⟨r,e,hq,hd⟩ := (h.link p q (d+1) hp).resolve_left id
      have he : e = d := by omega
      subst he
      obtain ⟨l,hl,hlength⟩ := ih hq (path++[p])
      refine ⟨p::l,?_,by simp [hlength]⟩
      rw [OpenBroadcast.climb]
      simpa [hp] using hl

end Seats

end OpenBroadcast
