import Mathlib.Data.List.Basic
import Mathlib.Data.List.Induction
import Mathlib.Data.List.Nodup
import Mathlib.Logic.Function.Basic

namespace OpenBroadcast

variable {κ ν : Type} [DecidableEq κ] [DecidableEq ν]

/-- A filter that remembers, for each key, the value that came last, and what it has let pass. -/
structure LastSeen (κ ν : Type) where
  last : κ → Option ν
  passed : List (κ × ν)

namespace LastSeen

def empty : LastSeen κ ν := ⟨fun _ => none,[]⟩

/-- A value passes unless it is the last one of its key. -/
def push (s : LastSeen κ ν) (x : κ × ν) : LastSeen κ ν where
  last := Function.update s.last x.1 (some x.2)
  passed := if s.last x.1 = some x.2 then s.passed else s.passed++[x]

def filter (l : List (κ × ν)) : LastSeen κ ν := l.foldl push empty

@[simp] theorem filter_nil : filter ([] : List (κ × ν)) = empty := rfl

@[simp] theorem filter_snoc (l : List (κ × ν)) (x : κ × ν) :
    filter (l++[x]) = (filter l).push x := by
  simp [filter]

/-- Between two equal values of a key, no other value of this key comes. -/
def NoReturn (l : List (κ × ν)) : Prop :=
  ∀ pre x mid post, l = pre++x::(mid++x::post) → ∀ y ∈ mid, y.1 = x.1 → y = x

/-- The last value of a key is that of the last element with this key. -/
theorem last_eq_some_iff (l : List (κ × ν)) (k : κ) (v : ν) :
    (filter l).last k = some v ↔
      ∃ pre post, l = pre++(k,v)::post ∧ ∀ y ∈ post, y.1 ≠ k := by
  induction l using List.reverseRecOn with
  | nil => simp [empty]
  | append_singleton l x ih =>
    rw [filter_snoc]
    by_cases hk : k = x.1
    · subst hk
      constructor
      · intro h
        have hv : x.2 = v := by simpa [push] using h
        exact ⟨l,[],by simp [← hv],by simp⟩
      · rintro ⟨pre,post,heq,hpost⟩
        cases post using List.reverseRecOn with
        | nil =>
          have hx : [x] = [(x.1,v)] := (List.append_inj' heq (by simp)).2
          have hv : x.2 = v := congrArg Prod.snd (List.singleton_inj.mp hx)
          simp [push,hv]
        | append_singleton post y =>
          have hsplit : l++[x] = (pre++(x.1,v)::post)++[y] := by simpa using heq
          have hlast : x = y :=
            List.singleton_inj.mp (List.append_inj' hsplit (by simp)).2
          exact absurd rfl (hpost x (by simp [hlast]))
    · have hsame : ((filter l).push x).last k = (filter l).last k := by
        simp [push,hk]
      rw [hsame,ih]
      constructor
      · rintro ⟨pre,post,rfl,hpost⟩
        refine ⟨pre,post++[x],by simp,?_⟩
        intro y hy
        rcases List.mem_append.mp hy with hy | hy
        · exact hpost y hy
        · rw [List.mem_singleton.mp hy]
          exact fun h => hk h.symm
      · rintro ⟨pre,post,heq,hpost⟩
        cases post using List.reverseRecOn with
        | nil =>
          have hx : [x] = [(k,v)] := (List.append_inj' heq (by simp)).2
          exact absurd (congrArg Prod.fst (List.singleton_inj.mp hx)).symm hk
        | append_singleton post y =>
          have hsplit : l++[x] = (pre++(k,v)::post)++[y] := by simpa using heq
          obtain ⟨hl,_⟩ := List.append_inj' hsplit (by simp)
          exact ⟨pre,post,hl,fun z hz => hpost z (by simp [hz])⟩

theorem mem_passed (l : List (κ × ν)) (x : κ × ν) : x ∈ (filter l).passed ↔ x ∈ l := by
  induction l using List.reverseRecOn with
  | nil => simp [empty]
  | append_singleton l y ih =>
    rw [filter_snoc]
    by_cases hlast : (filter l).last y.1 = some y.2
    · have hy : y ∈ l := by
        obtain ⟨pre,post,hl,_⟩ := (last_eq_some_iff l y.1 y.2).mp hlast
        simp [hl]
      have hsame : ((filter l).push y).passed = (filter l).passed := by
        simp [push,hlast]
      rw [hsame,ih]
      constructor
      · intro hx
        simp [hx]
      · intro hx
        rcases List.mem_append.mp hx with hx | hx
        · exact hx
        · rwa [List.mem_singleton.mp hx]
    · simp [push,hlast,ih]

omit [DecidableEq ν] in
theorem exists_last_key (l : List (κ × ν)) (k : κ) (h : ∃ y ∈ l, y.1 = k) :
    ∃ pre z post, l = pre++z::post ∧ z.1 = k ∧ ∀ w ∈ post, w.1 ≠ k := by
  induction l with
  | nil => simp at h
  | cons x l ih =>
    by_cases hl : ∃ y ∈ l, y.1 = k
    · obtain ⟨pre,z,post,rfl,hz,hpost⟩ := ih hl
      exact ⟨x::pre,z,post,by simp,hz,hpost⟩
    · have hx : x.1 = k := by
        obtain ⟨y,hy,hk⟩ := h
        rcases List.mem_cons.mp hy with rfl | hy
        · exact hk
        · exact absurd ⟨y,hy,hk⟩ hl
      exact ⟨[],x,l,by simp,hx,fun w hw hk => hl ⟨w,hw,hk⟩⟩

/-- One more element is no return exactly if it is the last value of its key or new. -/
theorem noReturn_snoc (l : List (κ × ν)) (x : κ × ν) :
    NoReturn (l++[x]) ↔ NoReturn l ∧ ((filter l).last x.1 = some x.2 ∨ x ∉ l) := by
  constructor
  · intro h
    constructor
    · intro pre z mid post hl
      exact h pre z mid (post++[x]) (by simp [hl])
    · by_cases hx : x ∈ l
      · left
        obtain ⟨pre,z,post,hl,hz,hpost⟩ := exists_last_key l x.1 ⟨x,hx,rfl⟩
        have hzx : z = x := by
          rw [hl] at hx
          rcases List.mem_append.mp hx with hx | hx
          · -- `x` came before the last value `z` of its key, and comes back now.
            obtain ⟨a,b,rfl⟩ := List.append_of_mem hx
            exact h a x (b++z::post) [] (by simp [hl]) z (by simp) hz
          · rcases List.mem_cons.mp hx with hx | hx
            · exact hx.symm
            · exact absurd rfl (hpost x hx)
        rw [last_eq_some_iff]
        exact ⟨pre,post,by simp [hl,hzx],hpost⟩
      · exact .inr hx
  · rintro ⟨h,hx⟩ pre z mid post heq y hy hkey
    cases post using List.reverseRecOn with
    | nil =>
      have hsplit : l++[x] = (pre++z::mid)++[z] := by simpa using heq
      obtain ⟨hl,hxz⟩ := List.append_inj' hsplit (by simp)
      have hz : x = z := List.singleton_inj.mp hxz
      subst hz
      rcases hx with hx | hx
      · obtain ⟨a,w,b,hmid,hw,hb⟩ := exists_last_key mid x.1 ⟨y,hy,hkey⟩
        have hlast : (filter l).last x.1 = some w.2 :=
          (last_eq_some_iff l x.1 w.2).mpr ⟨pre++x::a,b,by simp [hl,hmid,← hw],hb⟩
        have hwx : w = x := Prod.ext hw (by simpa [hx] using hlast.symm)
        rw [hmid,hwx] at hy
        rcases List.mem_append.mp hy with hy | hy
        · exact h pre x a b (by simp [hl,hmid,hwx]) y hy hkey
        · rcases List.mem_cons.mp hy with hy | hy
          · exact hy
          · exact absurd hkey (hb y hy)
      · exact absurd (by simp [hl]) hx
    | append_singleton post w =>
      have hsplit : l++[x] = (pre++z::(mid++z::post))++[w] := by simpa using heq
      obtain ⟨hl,_⟩ := List.append_inj' hsplit (by simp)
      exact h pre z mid post hl y hy hkey

/-- What passes is without repetition exactly if no value of a key comes back after another. -/
theorem nodup_passed_iff (l : List (κ × ν)) : (filter l).passed.Nodup ↔ NoReturn l := by
  induction l using List.reverseRecOn with
  | nil => simp [empty,NoReturn]
  | append_singleton l x ih =>
    rw [noReturn_snoc,filter_snoc,← ih]
    by_cases hlast : (filter l).last x.1 = some x.2
    · simp [push,hlast]
    · have hnew : x ∈ (filter l).passed ↔ x ∈ l := mem_passed l x
      have hpush : ((filter l).push x).passed = (filter l).passed++[x] := by
        simp [push,hlast]
      rw [hpush,List.nodup_append]
      constructor
      · rintro ⟨hl,_,hdisj⟩
        exact ⟨hl,.inr fun hx => hdisj x (hnew.mpr hx) x (by simp) rfl⟩
      · rintro ⟨hl,hx⟩
        have hx : x ∉ l := hx.resolve_left hlast
        refine ⟨hl,by simp,?_⟩
        intro a ha b hb hab
        rw [List.mem_singleton.mp hb] at hab
        exact hx (hnew.mp (hab ▸ ha))

/-- Every element passes, one after the other. -/
def PassesAll (s : LastSeen κ ν) : List (κ × ν) → Prop
  | [] => True
  | x::l => s.last x.1 ≠ some x.2 ∧ PassesAll (s.push x) l

theorem passesAll_of_nodup (l : List (κ × ν)) (s : LastSeen κ ν) (hl : l.Nodup)
    (h : ∀ x ∈ l, s.last x.1 ≠ some x.2) : s.PassesAll l := by
  induction l generalizing s with
  | nil => trivial
  | cons x l ih =>
    obtain ⟨hx,hl⟩ := List.nodup_cons.mp hl
    refine ⟨h x (by simp),ih _ hl ?_⟩
    intro y hy
    by_cases hk : y.1 = x.1
    · have hlast : (s.push x).last y.1 = some x.2 := by simp [push,hk]
      rw [hlast]
      intro hv
      have hyx : y = x := Prod.ext hk (Option.some.inj hv).symm
      exact hx (hyx ▸ hy)
    · have hlast : (s.push x).last y.1 = s.last y.1 := by simp [push,hk]
      rw [hlast]
      exact h y (by simp [hy])

end LastSeen

end OpenBroadcast
