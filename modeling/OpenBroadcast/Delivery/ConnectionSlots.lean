import Mathlib.Order.Interval.Finset.Nat
import OpenBroadcast.Framework.MapSizes
import OpenBroadcast.Framework.Run

namespace OpenBroadcast.Delivery

/-- Where a call or a guard is in memory: at any address but null. -/
abbrev Address := {a : UInt64 // a ≠ 0}

/-- What has added to the counter: a call of `try_acquire_ws_slot` that has read `prev` there and
goes on, or a `WsConnectionGuard`. -/
inductive SlotHolder where
  | acquiring (prev : UInt64)
  | guard
  deriving DecidableEq, Repr

/-- The atomic steps of the calls and of the drops of guards. -/
inductive SlotEvent where
  | fetchAdd (a : Address)
  | proceed (a : Address)
  | drop (a : Address)
  deriving DecidableEq, Repr

/-- The counter of a server, which wraps as a `usize` does, and what has added to it. -/
structure WsSlots where
  maxWsConnections : UInt64
  wsConnectionCount : UInt64
  holders : HashMap Address SlotHolder

namespace WsSlots

def new (maxWsConnections : UInt64) : WsSlots := ⟨maxWsConnections,0,∅⟩

/-- The call gets a slot by what it has read. -/
def admits (s : WsSlots) (prev : UInt64) : Bool :=
  decide (s.maxWsConnections = 0) || decide (prev < s.maxWsConnections)

def fetchSub (s : WsSlots) (a : Address) : WsSlots :=
  { s with
    wsConnectionCount := s.wsConnectionCount-1
    holders := s.holders.erase a }

/-- A call starts where nothing else is. -/
def step (s : WsSlots) : SlotEvent → WsSlots
  | .fetchAdd a =>
    match s.holders.lookup a with
    | some _ => s
    | none =>
      { s with
        wsConnectionCount := s.wsConnectionCount+1
        holders := s.holders.insert a (.acquiring s.wsConnectionCount) }
  | .proceed a =>
    match s.holders.lookup a with
    | some (.acquiring prev) =>
      if s.admits prev then { s with holders := s.holders.insert a .guard } else s.fetchSub a
    | _ => s
  | .drop a =>
    match s.holders.lookup a with
    | some .guard => s.fetchSub a
    | _ => s

/-- The step is a `fetch_sub`. -/
def Subtracts (s : WsSlots) : SlotEvent → Prop
  | .fetchAdd _ => False
  | .proceed a => ∃ prev, s.holders.lookup a = some (.acquiring prev) ∧ s.admits prev = false
  | .drop a => s.holders.lookup a = some .guard

def guards (s : WsSlots) : Finset Address :=
  s.holders.keys.filter (fun a => s.holders.lookup a = some .guard)

def AcquireInProgress (s : WsSlots) : Prop := ∃ a prev, s.holders.lookup a = some (.acquiring prev)

section Holders

variable {s : WsSlots} {a : Address}

/-- There are fewer addresses than the counter can count. -/
theorem card_lt (addresses : Finset Address) : addresses.card < 2^64 := by
  have hinj : ∀ x ∈ addresses, ∀ y ∈ addresses, x.1.toNat = y.1.toNat → x = y :=
    fun x _ y _ h => Subtype.ext (UInt64.toNat_inj.mp h)
  have hrange : ∀ x ∈ addresses, x.1.toNat ∈ Finset.Ico 1 (2^64) := by
    intro x _
    have hlt := x.1.toNat_lt
    have hne : x.1.toNat ≠ 0 := fun h => x.2 (UInt64.toNat_inj.mp h)
    rw [Finset.mem_Ico]
    omega
  have hcard := Finset.card_le_card_of_injOn (fun x : Address => x.1.toNat) hrange hinj
  rw [Nat.card_Ico] at hcard
  omega

/-- The holder has a slot, or is sure to get one. -/
def wins (s : WsSlots) : SlotHolder → Bool
  | .acquiring prev => s.admits prev
  | .guard => true

def winners (s : WsSlots) : Finset Address :=
  s.holders.keys.filter (fun a => (s.holders.lookup a).any s.wins = true)

theorem mem_winners : a ∈ s.winners ↔ ∃ holder, s.holders.lookup a = some holder ∧
    s.wins holder = true := by
  rw [winners,Finset.mem_filter,Finmap.mem_keys,← Finmap.lookup_isSome]
  cases s.holders.lookup a with
  | none => simp
  | some holder => simp

theorem mem_guards : a ∈ s.guards ↔ s.holders.lookup a = some .guard := by
  rw [guards,Finset.mem_filter,Finmap.mem_keys,← Finmap.lookup_isSome]
  constructor
  · exact fun h => h.2
  · intro h
    exact ⟨by rw [h]; rfl,h⟩

theorem guards_subset_winners (s : WsSlots) : s.guards ⊆ s.winners := by
  intro a ha
  exact mem_winners.mpr ⟨.guard,mem_guards.mp ha,rfl⟩

theorem winners_subset_keys (s : WsSlots) : s.winners ⊆ s.holders.keys :=
  Finset.filter_subset _ _

end Holders

/-- The counter counts its holders, and no more of them get a slot than there are slots. -/
structure Consistent (s : WsSlots) : Prop where
  limited : s.maxWsConnections ≠ 0
  exact : s.wsConnectionCount.toNat = s.holders.keys.card
  bounded : s.winners.card ≤ s.maxWsConnections.toNat

section Steps

variable {s : WsSlots} {a : Address}

theorem consistent_new {max : UInt64} (hmax : 0 < max) : (new max).Consistent := by
  refine ⟨?_,rfl,Nat.zero_le _⟩
  intro hzero
  have hpos : (0 : UInt64).toNat < max.toNat := UInt64.lt_iff_toNat_lt.mp hmax
  have hmax' : max = 0 := hzero
  rw [hmax'] at hpos
  exact absurd hpos (lt_irrefl _)

theorem Consistent.admits_iff (h : s.Consistent) (prev : UInt64) :
    s.admits prev = true ↔ prev.toNat < s.maxWsConnections.toNat := by
  rw [← UInt64.lt_iff_toNat_lt]
  simp [admits,h.limited]

theorem Consistent.fetchAdd (h : s.Consistent) (hfree : s.holders.lookup a = none) :
    Consistent { s with
      wsConnectionCount := s.wsConnectionCount+1
      holders := s.holders.insert a (.acquiring s.wsConnectionCount) } := by
  have hnew : a ∉ s.holders := by rw [← Finmap.lookup_isSome,hfree]; simp
  have hcard := HashMap.card_insert_of_notMem hnew (.acquiring s.wsConnectionCount)
  have hroom := card_lt (s.holders.insert a (.acquiring s.wsConnectionCount)).keys
  have hexact := h.exact
  refine ⟨h.limited,?_,?_⟩
  · show (s.wsConnectionCount+1).toNat = _
    rw [hcard,UInt64.toNat_add,UInt64.toNat_one]
    omega
  · by_cases hwins : s.admits s.wsConnectionCount = true
    · have hsub := Finset.card_le_card (winners_subset_keys
        { s with
          wsConnectionCount := s.wsConnectionCount+1
          holders := s.holders.insert a (.acquiring s.wsConnectionCount) })
      have hlt := (h.admits_iff _).mp hwins
      show _ ≤ s.maxWsConnections.toNat
      dsimp only at hsub
      omega
    · refine (Finset.card_le_card ?_).trans h.bounded
      intro x hx
      obtain ⟨holder,hholder,hwin⟩ := mem_winners.mp hx
      by_cases hxa : x = a
      · subst hxa
        rw [Finmap.lookup_insert] at hholder
        cases hholder
        exact absurd hwin hwins
      · rw [Finmap.lookup_insert_of_ne _ hxa] at hholder
        exact mem_winners.mpr ⟨holder,hholder,hwin⟩

/-- A slot that is won becomes a guard. -/
theorem Consistent.toGuard (h : s.Consistent) {prev : UInt64}
    (hholder : s.holders.lookup a = some (.acquiring prev)) (hwins : s.admits prev = true) :
    Consistent { s with holders := s.holders.insert a .guard } := by
  have hmem : a ∈ s.holders := Finmap.mem_of_lookup_eq_some hholder
  refine ⟨h.limited,?_,?_⟩
  · show s.wsConnectionCount.toNat = _
    rw [HashMap.card_insert_of_mem hmem]
    exact h.exact
  · refine (Finset.card_le_card ?_).trans h.bounded
    intro x hx
    obtain ⟨holder,hfound,hwin⟩ := mem_winners.mp hx
    by_cases hxa : x = a
    · subst hxa
      exact mem_winners.mpr ⟨_,hholder,hwins⟩
    · rw [Finmap.lookup_insert_of_ne _ hxa] at hfound
      exact mem_winners.mpr ⟨holder,hfound,hwin⟩

theorem Consistent.pos_of_mem (h : s.Consistent) (hmem : a ∈ s.holders) :
    0 < s.wsConnectionCount.toNat := by
  rw [h.exact]
  exact Finset.card_pos.mpr ⟨a,Finmap.mem_keys.mpr hmem⟩

theorem Consistent.fetchSub (h : s.Consistent) (hmem : a ∈ s.holders) :
    (s.fetchSub a).Consistent := by
  have hcard := HashMap.card_erase_of_mem hmem
  have hpos := h.pos_of_mem hmem
  have hexact := h.exact
  have hlt := s.wsConnectionCount.toNat_lt
  refine ⟨h.limited,?_,?_⟩
  · show (s.wsConnectionCount-1).toNat = (s.holders.erase a).keys.card
    rw [UInt64.toNat_sub,UInt64.toNat_one]
    omega
  · refine (Finset.card_le_card ?_).trans h.bounded
    intro x hx
    obtain ⟨holder,hfound,hwin⟩ := mem_winners.mp hx
    by_cases hxa : x = a
    · subst hxa
      have hnone : (s.fetchSub x).holders.lookup x = none := Finmap.lookup_erase x s.holders
      rw [hnone] at hfound
      cases hfound
    · have hsame : (s.fetchSub a).holders.lookup x = s.holders.lookup x :=
        Finmap.lookup_erase_ne hxa
      rw [hsame] at hfound
      exact mem_winners.mpr ⟨holder,hfound,hwin⟩

theorem step_maxWsConnections (s : WsSlots) (e : SlotEvent) :
    (s.step e).maxWsConnections = s.maxWsConnections := by
  cases e with
  | fetchAdd a =>
    simp only [step]
    split <;> rfl
  | proceed a =>
    simp only [step]
    split
    · split_ifs <;> rfl
    · rfl
  | drop a =>
    simp only [step]
    split <;> rfl

theorem step_consistent (h : s.Consistent) (e : SlotEvent) : (s.step e).Consistent := by
  cases e with
  | fetchAdd a =>
    cases hfound : s.holders.lookup a with
    | some holder => simpa [step,hfound] using h
    | none => simpa [step,hfound] using h.fetchAdd hfound
  | proceed a =>
    cases hfound : s.holders.lookup a with
    | none => simpa [step,hfound] using h
    | some holder =>
      cases holder with
      | guard => simpa [step,hfound] using h
      | acquiring prev =>
        cases hwins : s.admits prev with
        | true => simpa [step,hfound,hwins] using h.toGuard hfound hwins
        | false =>
          simpa [step,hfound,hwins] using h.fetchSub (Finmap.mem_of_lookup_eq_some hfound)
  | drop a =>
    cases hfound : s.holders.lookup a with
    | none => simpa [step,hfound] using h
    | some holder =>
      cases holder with
      | acquiring prev => simpa [step,hfound] using h
      | guard => simpa [step,hfound] using h.fetchSub (Finmap.mem_of_lookup_eq_some hfound)

theorem Consistent.pos_of_subtracts (h : s.Consistent) {e : SlotEvent} (hsub : s.Subtracts e) :
    0 < s.wsConnectionCount.toNat := by
  cases e with
  | fetchAdd a => exact hsub.elim
  | proceed a =>
    obtain ⟨prev,hfound,_⟩ := hsub
    exact h.pos_of_mem (Finmap.mem_of_lookup_eq_some hfound)
  | drop a => exact h.pos_of_mem (Finmap.mem_of_lookup_eq_some hsub)

/-- Without a call under way the holders are the guards. -/
theorem Consistent.count_guards (h : s.Consistent) (hidle : ¬ s.AcquireInProgress) :
    s.wsConnectionCount.toNat = s.guards.card := by
  rw [h.exact]
  congr 1
  ext a
  rw [mem_guards,Finmap.mem_keys,← Finmap.lookup_isSome]
  cases hfound : s.holders.lookup a with
  | none => simp
  | some holder =>
    cases holder with
    | acquiring prev => exact absurd ⟨a,prev,hfound⟩ hidle
    | guard => simp

end Steps

/-- However the calls and drops interleave, there are never more guards than slots, nothing is
subtracted from a counter of zero, and what is counted between calls are the guards. -/
theorem ws_slots_bounded (maxWsConnections : UInt64) (hmax : 0 < maxWsConnections)
    (es : List SlotEvent) :
    let s := es.foldl step (new maxWsConnections)
    s.guards.card ≤ maxWsConnections.toNat ∧
    (∀ e, s.Subtracts e → 0 < s.wsConnectionCount.toNat) ∧
    (¬ s.AcquireInProgress → s.wsConnectionCount.toNat = s.guards.card) := by
  intro s
  have hs : s.Consistent :=
    (along_true step _ es).invariant Consistent (consistent_new hmax)
      (fun _ e h _ => step_consistent h e)
  have hconfig : s.maxWsConnections = maxWsConnections :=
    (along_true step _ es).invariant (fun s => s.maxWsConnections = maxWsConnections) rfl
      (fun s e h _ => (step_maxWsConnections s e).trans h)
  refine ⟨?_,fun e he => hs.pos_of_subtracts he,hs.count_guards⟩
  rw [← hconfig]
  exact (Finset.card_le_card s.guards_subset_winners).trans hs.bounded

/-- Three calls for two slots add before any of them goes on; the last one rolls back. -/
theorem ws_slots_bounded_three_calls :
    let es : List SlotEvent := [.fetchAdd ⟨1,by decide⟩,.fetchAdd ⟨2,by decide⟩,
      .fetchAdd ⟨3,by decide⟩,.proceed ⟨3,by decide⟩,.proceed ⟨1,by decide⟩,.proceed ⟨2,by decide⟩]
    let s := es.foldl step (new 2)
    s.guards.card ≤ 2 ∧ (∀ e, s.Subtracts e → 0 < s.wsConnectionCount.toNat) ∧
    (¬ s.AcquireInProgress → s.wsConnectionCount.toNat = s.guards.card) :=
  ws_slots_bounded 2 (by decide) _

end WsSlots

end OpenBroadcast.Delivery
