import Mathlib.Data.Finmap
import Mathlib.Data.Finset.Lattice.Fold
import Mathlib.Data.Finset.Dedup
import Mathlib.Data.List.Sort
import Mathlib.Order.Lattice.Nat

namespace OpenBroadcast

/-- A hash map is its contents; the order it is iterated in is a `HashOrder`. -/
abbrev HashMap (α β : Type) := Finmap (fun _ : α => β)

namespace HashMap

variable {α β : Type} [DecidableEq α]

/-- `if let Some(b) = m.get_mut(a) { *b = f(b) }`. -/
def modify (m : HashMap α β) (a : α) (f : β → β) : HashMap α β :=
  match m.lookup a with
  | some b => m.insert a (f b)
  | none => m

theorem lookup_modify (m : HashMap α β) (a x : α) (f : β → β) :
    (modify m a f).lookup x = if x = a then (m.lookup a).map f else m.lookup x := by
  unfold modify
  cases h : m.lookup a with
  | none =>
    by_cases hx : x = a
    · subst x; simp [h]
    · simp [hx]
  | some b =>
    by_cases hx : x = a
    · subst x; simp
    · simp [hx]

@[simp] theorem lookup_modify_self (m : HashMap α β) (a : α) (f : β → β) :
    (modify m a f).lookup a = (m.lookup a).map f := by
  simp [lookup_modify]

@[simp] theorem lookup_modify_ne (m : HashMap α β) {a x : α} (f : β → β) (h : x ≠ a) :
    (modify m a f).lookup x = m.lookup x := by
  simp [lookup_modify,h]

@[simp] theorem mem_modify (m : HashMap α β) (a x : α) (f : β → β) :
    x ∈ modify m a f ↔ x ∈ m := by
  rw [← Finmap.lookup_isSome,← Finmap.lookup_isSome,lookup_modify]
  by_cases hx : x = a
  · subst x; simp
  · simp [hx]

/-- `m.retain(f)`. -/
def retain (m : HashMap α β) (f : α → β → Bool) : HashMap α β where
  entries := m.entries.filter (fun e => f e.1 e.2)
  nodupKeys := Multiset.nodup_keys.mp
    (Multiset.nodup_of_le (Multiset.map_le_map (Multiset.filter_le _ _))
      (Multiset.nodup_keys.mpr m.nodupKeys))

theorem lookup_retain (m : HashMap α β) (f : α → β → Bool) (a : α) :
    (retain m f).lookup a = (m.lookup a).filter (f a) := by
  apply Option.ext
  intro b
  rw [Finmap.lookup_eq_some_iff,Option.filter_eq_some_iff,Finmap.lookup_eq_some_iff]
  exact Multiset.mem_filter

/-- `for (a, b) in m.iter_mut() { *b = f(b) }`. -/
def mapValues (m : HashMap α β) (f : β → β) : HashMap α β where
  entries := m.entries.map (fun e => ⟨e.1,f e.2⟩)
  nodupKeys := by
    rw [← Multiset.nodup_keys,Multiset.keys,Multiset.map_map]
    exact Multiset.nodup_keys.mpr m.nodupKeys

/-- `for (a, b) in m.iter_mut() { *b = f(a, b) }`. -/
def mapEntries (m : HashMap α β) (f : α → β → β) : HashMap α β where
  entries := m.entries.map (fun e => ⟨e.1,f e.1 e.2⟩)
  nodupKeys := by
    rw [← Multiset.nodup_keys,Multiset.keys,Multiset.map_map]
    exact Multiset.nodup_keys.mpr m.nodupKeys

theorem lookup_mapEntries (m : HashMap α β) (f : α → β → β) (a : α) :
    (mapEntries m f).lookup a = (m.lookup a).map (f a) := by
  apply Option.ext
  intro b
  rw [Finmap.lookup_eq_some_iff,Option.map_eq_some_iff]
  constructor
  · intro h
    obtain ⟨⟨a',b'⟩,he,heq⟩ := Multiset.mem_map.mp h
    cases heq
    exact ⟨b',Finmap.lookup_eq_some_iff.mpr he,rfl⟩
  · intro hyp
    obtain ⟨b',hb,rfl⟩ := hyp
    exact Multiset.mem_map.mpr ⟨⟨a,b'⟩,Finmap.lookup_eq_some_iff.mp hb,rfl⟩

theorem lookup_mapValues (m : HashMap α β) (f : β → β) (a : α) :
    (mapValues m f).lookup a = (m.lookup a).map f :=
  lookup_mapEntries m (fun _ => f) a

end HashMap

/-- The order in which the tables `ι` are iterated: every set of keys is listed
once each, in an arbitrary order that may differ from table to table. -/
structure HashOrder (ι α : Type) where
  order : ι → Finset α → List α
  nodup : ∀ i s, (order i s).Nodup
  mem_order : ∀ i s a, a ∈ order i s ↔ a ∈ s

namespace HashOrder

variable {ι α β : Type} [DecidableEq α]

/-- The entries of a map in iteration order. -/
def iter (H : HashOrder ι α) (i : ι) (m : HashMap α β) : List (α × β) :=
  (H.order i m.keys).filterMap (fun a => (m.lookup a).map (fun b => (a,b)))

@[simp] theorem mem_iter (H : HashOrder ι α) (i : ι) (m : HashMap α β) (e : α × β) :
    e ∈ H.iter i m ↔ m.lookup e.1 = some e.2 := by
  obtain ⟨a,b⟩ := e
  simp only [iter,List.mem_filterMap,H.mem_order,Finmap.mem_keys,Option.map_eq_some_iff,
    Prod.mk.injEq]
  constructor
  · intro hyp
    obtain ⟨x,_,y,hy,rfl,rfl⟩ := hyp
    exact hy
  · intro h
    exact ⟨a,Finmap.mem_of_lookup_eq_some h,b,h,rfl,rfl⟩

@[simp] theorem iter_keys (H : HashOrder ι α) (i : ι) (m : HashMap α β) :
    (H.iter i m).map Prod.fst = H.order i m.keys := by
  rw [iter,List.map_filterMap]
  have found : ∀ a ∈ H.order i m.keys,
      ((m.lookup a).map (fun b => (a,b))).map Prod.fst = some a := by
    intro a ha
    obtain ⟨b,hb⟩ := Finmap.mem_iff.mp (Finmap.mem_keys.mp ((H.mem_order i _ a).mp ha))
    simp [hb]
  rw [List.filterMap_congr found,List.filterMap_some]

theorem length_order (H : HashOrder ι α) (i : ι) (s : Finset α) :
    (H.order i s).length = s.card := by
  have same : (H.order i s).toFinset = s := by
    ext a
    rw [List.mem_toFinset,H.mem_order]
  rw [← List.toFinset_card_of_nodup (H.nodup i s),same]

/-- The order that lists `a` first wherever `a` occurs and is `H` otherwise. -/
def promote (H : HashOrder ι α) (a : α) : HashOrder ι α where
  order i s := if a ∈ s then a :: (H.order i s).erase a else H.order i s
  nodup i s := by
    split_ifs with h
    · exact List.nodup_cons.mpr
        ⟨(H.nodup i s).not_mem_erase,(H.nodup i s).erase a⟩
    · exact H.nodup i s
  mem_order i s x := by
    split_ifs with h
    · by_cases hx : x = a
      · subst x; simp [h]
      · simp [hx,List.mem_erase_of_ne hx,H.mem_order]
    · exact H.mem_order i s x

theorem promote_iter (H : HashOrder ι α) (i : ι) (m : HashMap α β) (a : α) (b : β)
    (h : m.lookup a = some b) :
    ∃ rest, (H.promote a).iter i m = (a,b) :: rest := by
  have hm : a ∈ m.keys := Finmap.mem_keys.mpr (Finmap.mem_of_lookup_eq_some h)
  refine ⟨((H.order i m.keys).erase a).filterMap
    (fun x => (m.lookup x).map (fun y => (x,y))),?_⟩
  simp only [iter,promote,hm,if_true,List.filterMap_cons,h,Option.map_some]

/-- Some order exists for every key type. -/
noncomputable instance : Nonempty (HashOrder ι α) :=
  ⟨⟨fun _ s => s.toList,fun _ s => s.nodup_toList,fun _ _ _ => Finset.mem_toList⟩⟩

/-- Numeric keys in increasing order. -/
def ascending : HashOrder ι Nat where
  order _ s := (List.range (s.sup id+1)).filter (fun a => decide (a ∈ s))
  nodup _ s := List.nodup_range.filter _
  mem_order _ s a := by
    simp only [List.mem_filter,List.mem_range,decide_eq_true_eq,and_iff_right_iff_imp]
    intro h
    exact Nat.lt_succ_of_le (Finset.le_sup (f := id) h)

/-- The keys in increasing order, by a sort that can be evaluated. -/
def sorted {α : Type} [LinearOrder α] : HashOrder ι α where
  order _ s := Quot.liftOn s.val (List.insertionSort (· ≤ ·)) (fun l l' h => by
    apply List.Perm.eq_of_pairwise' (r := (· ≤ ·)) (List.pairwise_insertionSort _ l)
      (List.pairwise_insertionSort _ l')
    exact (List.perm_insertionSort _ l).trans (h.trans (List.perm_insertionSort _ l').symm))
  nodup _ s := by
    obtain ⟨⟨l⟩,hs⟩ := s
    exact (List.perm_insertionSort _ l).nodup_iff.mpr hs
  mem_order _ s a := by
    obtain ⟨⟨l⟩,hs⟩ := s
    exact (List.perm_insertionSort _ l).mem_iff

end HashOrder

theorem mem_modify {α : Type} {l : List α} {k : Nat} {f : α → α} {x : α}
    (h : x ∈ l.modify k f) : x ∈ l ∨ ∃ y, l[k]? = some y ∧ f y = x := by
  obtain ⟨i,hi⟩ := List.mem_iff_getElem?.mp h
  rw [List.getElem?_modify] at hi
  obtain ⟨y,hy,hfy⟩ := Option.map_eq_some_iff.mp hi
  by_cases hk : k = i
  · subst hk
    rw [if_pos rfl] at hfy
    exact Or.inr ⟨y,hy,hfy⟩
  · rw [if_neg hk] at hfy
    subst hfy
    exact Or.inl (List.mem_of_getElem? hy)

theorem forall_mem_set {α : Type} {l : List α} {P : α → Prop} {k : Nat} {a : α}
    (h : ∀ x ∈ l, P x) (ha : P a) : ∀ x ∈ l.set k a, P x := by
  intro x hx
  rcases List.mem_or_eq_of_mem_set hx with hold | rfl
  · exact h x hold
  · exact ha

section Scan

variable {α κ : Type}

/-- The running-best loop: an entry replaces the best one so far when its key beats it. -/
def scanFrom (better : κ → κ → Bool) (key : α → κ) (best : Option α × κ) :
    List α → Option α × κ
  | [] => best
  | a::l => scanFrom better key (if better (key a) best.2 then (some a,key a) else best) l

/-- The loop started with no entry and the sentinel key `init`. -/
def scan (better : κ → κ → Bool) (key : α → κ) (init : κ) (l : List α) : Option α × κ :=
  scanFrom better key (none,init) l

variable (better : κ → κ → Bool) (key : α → κ)

private theorem scanFrom_cases (best : Option α × κ) (l : List α) :
    scanFrom better key best l = best ∨
    ∃ a ∈ l, scanFrom better key best l = (some a,key a) := by
  induction l generalizing best with
  | nil => exact Or.inl rfl
  | cons a l ih =>
    rw [scanFrom]
    rcases ih (if better (key a) best.2 then (some a,key a) else best) with h | ⟨b,hb,h⟩
    · rw [h]
      split_ifs
      · exact Or.inr ⟨a,by simp,rfl⟩
      · exact Or.inl rfl
    · exact Or.inr ⟨b,by simp [hb],h⟩

private theorem scanFrom_beats (htr : ∀ a b c, better a b → better b c → better a c)
    (best : Option α × κ) (l : List α) :
    scanFrom better key best l = best ∨ better (scanFrom better key best l).2 best.2 := by
  induction l generalizing best with
  | nil => exact Or.inl rfl
  | cons a l ih =>
    rw [scanFrom]
    by_cases hb : better (key a) best.2
    · rw [if_pos hb]
      rcases ih (some a,key a) with h | h
      · exact Or.inr (by rw [h]; exact hb)
      · exact Or.inr (htr _ _ _ h hb)
    · rw [if_neg hb]
      exact ih best

private theorem scanFrom_none (init : κ) (l : List α)
    (h : (scanFrom better key (none,init) l).1 = none) :
    ∀ a ∈ l, ¬ better (key a) init := by
  induction l with
  | nil => simp
  | cons a l ih =>
    rw [scanFrom] at h
    by_cases hb : better (key a) init
    · rw [if_pos hb] at h
      rcases scanFrom_cases better key (some a,key a) l with hc | ⟨b,_,hc⟩ <;>
        simp [hc] at h
    · rw [if_neg hb] at h
      intro x hx
      rcases List.mem_cons.mp hx with rfl | hx
      · exact hb
      · exact ih h x hx

-- Whatever beats the final key already beat every earlier one.
private theorem scanFrom_max (hirr : ∀ a, ¬ better a a)
    (htr : ∀ a b c, better a b → better b c → better a c)
    (best : Option α × κ) (l : List α) :
    (∀ k, better k (scanFrom better key best l).2 → better k best.2) ∧
    ∀ a ∈ l, ¬ better (key a) (scanFrom better key best l).2 := by
  induction l generalizing best with
  | nil => exact ⟨fun _ h => h,by simp⟩
  | cons a l ih =>
    rw [scanFrom]
    by_cases hb : better (key a) best.2
    · rw [if_pos hb]
      obtain ⟨mono,max⟩ := ih (some a,key a)
      refine ⟨fun k hk => htr _ _ _ (mono k hk) hb,?_⟩
      intro x hx
      rcases List.mem_cons.mp hx with rfl | hx
      · exact fun h => hirr _ (mono _ h)
      · exact max x hx
    · rw [if_neg hb]
      obtain ⟨mono,max⟩ := ih best
      refine ⟨mono,?_⟩
      intro x hx
      rcases List.mem_cons.mp hx with rfl | hx
      · exact fun h => hb (mono _ h)
      · exact max x hx

/-- What the loop returns came from the list, carries its own key and beats the sentinel. -/
theorem scan_some (htr : ∀ a b c, better a b → better b c → better a c) (init : κ)
    (l : List α) (a : α) (h : (scan better key init l).1 = some a) :
    a ∈ l ∧ (scan better key init l).2 = key a ∧ better (key a) init := by
  unfold scan at h ⊢
  rcases scanFrom_cases better key (none,init) l with hc | ⟨b,hb,hc⟩
  · rw [hc] at h
    cases h
  · have beats := scanFrom_beats better key htr (none,init) l
    rw [hc] at h beats ⊢
    cases h
    exact ⟨hb,rfl,beats.resolve_left (by simp)⟩

theorem scan_mem (init : κ) (l : List α) (a : α) (h : (scan better key init l).1 = some a) :
    a ∈ l := by
  unfold scan at h
  rcases scanFrom_cases better key (none,init) l with hc | ⟨b,hb,hc⟩
  · rw [hc] at h
    cases h
  · rw [hc] at h
    cases h
    exact hb

/-- No listed entry beats the result. -/
theorem scan_max (hirr : ∀ a, ¬ better a a)
    (htr : ∀ a b c, better a b → better b c → better a c) (init : κ) (l : List α) :
    ∀ a ∈ l, ¬ better (key a) (scan better key init l).2 :=
  (scanFrom_max better key hirr htr (none,init) l).2

/-- If the loop finds nothing then nothing listed beats the sentinel. -/
theorem scan_none (init : κ) (l : List α) (h : (scan better key init l).1 = none) :
    ∀ a ∈ l, ¬ better (key a) init :=
  scanFrom_none better key init l h

/-- An unbeaten entry that is met first is the one returned. -/
theorem scan_first {init : κ} {l : List α} {a : α} (ha : better (key a) init)
    (hmax : ∀ x ∈ l, ¬ better (key x) (key a)) :
    scan better key init (a::l) = (some a,key a) := by
  unfold scan
  rw [scanFrom,if_pos ha]
  induction l with
  | nil => rfl
  | cons x l ih =>
    rw [scanFrom,if_neg (hmax x (by simp))]
    exact ih (fun y hy => hmax y (by simp [hy]))

end Scan

end OpenBroadcast
