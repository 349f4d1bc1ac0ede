import OpenBroadcast.Media.Fragments

namespace OpenBroadcast.Media

/-- The data behind the work on the box that they start with. -/
def searchedBox (n : Nat) (data : Bytes) : Bytes :=
  let kind := (data.drop 4).take 4
  if kind = tagTfhd then fixSingleTfhdFlags data (beNat (data.take 4))
  else if kind = tagTraf ∨ kind = tagMfhd then data.take 8++fixTfhdFlagsFrom n (data.drop 8)
  else data

/-- The search goes on at a box that is all there. -/
def SearchStops (data : Bytes) : Prop :=
  data.length < 8 ∨ beNat (data.take 4) < 8 ∨ data.length < beNat (data.take 4)

/-- The search starts over behind the header of the box. -/
def StartsOver (data : Bytes) : Prop :=
  (data.drop 4).take 4 = tagTraf ∨ (data.drop 4).take 4 = tagMfhd

instance (data : Bytes) : Decidable (SearchStops data) := inferInstanceAs (Decidable (_ ∨ _))

instance (data : Bytes) : Decidable (StartsOver data) := inferInstanceAs (Decidable (_ ∨ _))

section Limits

/-- The search with a stack for `depth` calls more and for `rounds` rounds: the data and the rounds
that are left, or nothing if either does not suffice. -/
def fixTfhdFlagsWithin : Nat → Nat → Nat → Bytes → Option (Bytes × Nat)
  | 0,_,rounds,data => some (data,rounds)
  | n+1,depth,rounds,data =>
    let boxSize := beNat (data.take 4)
    if SearchStops data then some (data,rounds)
    else if rounds = 0 then none
    else
      let kind := (data.drop 4).take 4
      let searched :=
        if kind = tagTfhd then some (fixSingleTfhdFlags data boxSize,rounds-1)
        else if kind = tagTraf ∨ kind = tagMfhd then
          if depth = 0 then none
          else (fixTfhdFlagsWithin n (depth-1) (rounds-1) (data.drop 8)).map
            (fun r => (data.take 8++r.1,r.2))
        else some (data,rounds-1)
      searched.bind (fun r => (fixTfhdFlagsWithin n depth r.2 (r.1.drop boxSize)).map
        (fun rest => (r.1.take boxSize++rest.1,rest.2)))

/-- The boxes that the search meets, each as often as it meets it. -/
def searchRoundsFrom : Nat → Bytes → Nat
  | 0,_ => 0
  | n+1,data =>
    if SearchStops data then 0
    else 1+(if StartsOver data then searchRoundsFrom n (data.drop 8) else 0)+
      searchRoundsFrom n ((searchedBox n data).drop (beNat (data.take 4)))

/-- How deep the calls are nested. -/
def searchDepthFrom : Nat → Bytes → Nat
  | 0,_ => 0
  | n+1,data =>
    if SearchStops data then 0
    else max (if StartsOver data then searchDepthFrom n (data.drop 8)+1 else 0)
      (searchDepthFrom n ((searchedBox n data).drop (beNat (data.take 4))))

def searchRounds (data : Bytes) : Nat := searchRoundsFrom data.length data

def searchDepth (data : Bytes) : Nat := searchDepthFrom data.length data

theorem fixTfhdFlagsFrom_succ (n : Nat) (data : Bytes) : fixTfhdFlagsFrom (n+1) data =
    if SearchStops data then data
    else (searchedBox n data).take (beNat (data.take 4))++
      fixTfhdFlagsFrom n ((searchedBox n data).drop (beNat (data.take 4))) := rfl

theorem StartsOver.not_tfhd {data : Bytes} (h : StartsOver data) :
    (data.drop 4).take 4 ≠ tagTfhd := by
  rcases h with h | h <;> rw [h] <;> decide

theorem searchedBox_startsOver {n : Nat} {data : Bytes} (h : StartsOver data) :
    searchedBox n data = data.take 8++fixTfhdFlagsFrom n (data.drop 8) := by
  unfold searchedBox
  dsimp only
  rw [if_neg h.not_tfhd]
  exact if_pos h

theorem length_searchedBox (n : Nat) (data : Bytes) :
    (searchedBox n data).length = data.length := by
  unfold searchedBox
  dsimp only
  split_ifs
  · exact length_fixSingleTfhdFlags data _
  · rw [List.length_append,length_fixTfhdFlagsFrom,← List.length_append,List.take_append_drop]
  · rfl

/-- Within its limits the search is the one without. -/
theorem fixTfhdFlagsWithin_eq (n depth rounds : Nat) (data : Bytes) :
    fixTfhdFlagsWithin n depth rounds data =
      if searchDepthFrom n data ≤ depth ∧ searchRoundsFrom n data ≤ rounds then
        some (fixTfhdFlagsFrom n data,rounds-searchRoundsFrom n data)
      else none := by
  induction n generalizing depth rounds data with
  | zero => simp [fixTfhdFlagsWithin,searchDepthFrom,searchRoundsFrom,fixTfhdFlagsFrom]
  | succ n ih =>
    rw [fixTfhdFlagsWithin,fixTfhdFlagsFrom_succ,searchDepthFrom,searchRoundsFrom]
    dsimp only
    by_cases hstop : SearchStops data
    · simp [hstop]
    simp only [if_neg hstop]
    by_cases hnone : rounds = 0
    · rw [if_pos hnone,if_neg (by omega)]
    rw [if_neg hnone]
    by_cases hover : StartsOver data
    · -- the limits of the inner search are those that the box leaves
      have hkinds : (data.drop 4).take 4 = tagTraf ∨ (data.drop 4).take 4 = tagMfhd := hover
      rw [if_neg hover.not_tfhd,if_pos hover,if_pos hover,if_pos hkinds,
        searchedBox_startsOver hover]
      by_cases hdeep : depth = 0
      · rw [if_pos hdeep,if_neg (by omega)]
        rfl
      rw [if_neg hdeep,ih]
      by_cases hinner : searchDepthFrom n (data.drop 8) ≤ depth-1 ∧
          searchRoundsFrom n (data.drop 8) ≤ rounds-1
      · rw [if_pos hinner]
        simp only [Option.map_some,Option.bind_some,ih]
        split_ifs with hrest hall hall
        · simp only [Option.map_some,Option.some.injEq,Prod.mk.injEq,true_and]
          omega
        · omega
        · omega
        · rfl
      · rw [if_neg hinner,if_neg (by omega)]
        rfl
    · have hbox : (if (data.drop 4).take 4 = tagTfhd then
            some (fixSingleTfhdFlags data (beNat (data.take 4)),rounds-1)
          else if (data.drop 4).take 4 = tagTraf ∨ (data.drop 4).take 4 = tagMfhd then
            if depth = 0 then none
            else (fixTfhdFlagsWithin n (depth-1) (rounds-1) (data.drop 8)).map
              (fun r => (data.take 8++r.1,r.2))
          else some (data,rounds-1)) = some (searchedBox n data,rounds-1) := by
        unfold searchedBox
        dsimp only
        by_cases htfhd : (data.drop 4).take 4 = tagTfhd
        · rw [if_pos htfhd,if_pos htfhd]
        · have hkinds : ¬ ((data.drop 4).take 4 = tagTraf ∨ (data.drop 4).take 4 = tagMfhd) := hover
          rw [if_neg htfhd,if_neg htfhd,if_neg hkinds,if_neg hkinds]
      rw [hbox,if_neg hover,if_neg hover]
      simp only [Option.bind_some,ih]
      split_ifs with hrest hall hall
      · simp only [Option.map_some,Option.some.injEq,Prod.mk.injEq,true_and]
        omega
      · omega
      · omega
      · rfl

theorem fixTfhdFlagsWithin_isSome_iff (depth rounds : Nat) (data : Bytes) :
    (fixTfhdFlagsWithin data.length depth rounds data).isSome ↔
      searchDepth data ≤ depth ∧ searchRounds data ≤ rounds := by
  rw [fixTfhdFlagsWithin_eq]
  unfold searchDepth searchRounds
  split_ifs with h <;> simp [h]

end Limits

section Growth

/-- A call is made behind a header, so the data bound how deep they are nested. -/
theorem searchDepthFrom_le (n : Nat) (data : Bytes) : searchDepthFrom n data ≤ data.length/8 := by
  induction n generalizing data with
  | zero => exact Nat.zero_le _
  | succ n ih =>
    rw [searchDepthFrom]
    split_ifs with hstop hover
    · exact Nat.zero_le _
    · have hinner := ih (data.drop 8)
      have hrest := ih ((searchedBox n data).drop (beNat (data.take 4)))
      rw [List.length_drop] at hinner hrest
      rw [length_searchedBox] at hrest
      unfold SearchStops at hstop
      omega
    · have hrest := ih ((searchedBox n data).drop (beNat (data.take 4)))
      rw [List.length_drop,length_searchedBox] at hrest
      omega

/-- The rounds can double with each header. -/
theorem searchRoundsFrom_lt (n : Nat) (data : Bytes) :
    searchRoundsFrom n data < 2^(data.length/8) := by
  induction n generalizing data with
  | zero => exact Nat.two_pow_pos _
  | succ n ih =>
    rw [searchRoundsFrom]
    by_cases hstop : SearchStops data
    · rw [if_pos hstop]
      exact Nat.two_pow_pos _
    have hlength : 8 ≤ data.length ∧ 8 ≤ beNat (data.take 4) := by
      unfold SearchStops at hstop
      omega
    have hhalf : ∀ rest : Bytes, rest.length ≤ data.length-8 →
        searchRoundsFrom n rest < 2^(data.length/8-1) := by
      intro rest hrest
      exact lt_of_lt_of_le (ih rest) (Nat.pow_le_pow_right (by omega) (by omega))
    have hinner := hhalf (data.drop 8) (by rw [List.length_drop])
    have hbehind := hhalf ((searchedBox n data).drop (beNat (data.take 4)))
      (by rw [List.length_drop,length_searchedBox]; omega)
    have hdouble : 2^(data.length/8) = 2^(data.length/8-1)+2^(data.length/8-1) := by
      rw [← Nat.two_mul,← Nat.pow_succ']
      congr 1
      omega
    rw [if_neg hstop]
    split_ifs <;> omega

/-- `k` boxes `traf` that are empty. -/
def emptyTrafs (k : Nat) : Bytes := (List.replicate k (toBe 4 8++tagTraf)).flatten

theorem emptyTrafs_succ (k : Nat) : emptyTrafs (k+1) = toBe 4 8++tagTraf++emptyTrafs k := by
  unfold emptyTrafs
  rw [List.replicate_succ,List.flatten_cons]

theorem length_emptyTrafs (k : Nat) : (emptyTrafs k).length = 8*k := by
  induction k with
  | zero => rfl
  | succ k ih =>
    rw [emptyTrafs_succ,List.length_append,ih]
    simp [tagTraf]
    omega

section Header

variable (k : Nat)

theorem emptyTrafs_size : beNat ((emptyTrafs (k+1)).take 4) = 8 := by
  rw [emptyTrafs_succ,List.append_assoc,List.take_left' (length_toBe 4 _)]
  rfl

theorem emptyTrafs_startsOver : StartsOver (emptyTrafs (k+1)) := by
  unfold StartsOver
  rw [emptyTrafs_succ,List.append_assoc,List.drop_left' (length_toBe 4 _)]
  exact Or.inl rfl

theorem emptyTrafs_drop : (emptyTrafs (k+1)).drop 8 = emptyTrafs k := by
  rw [emptyTrafs_succ]
  exact List.drop_left' rfl

theorem emptyTrafs_goes_on : ¬ SearchStops (emptyTrafs (k+1)) := by
  unfold SearchStops
  rw [emptyTrafs_size,length_emptyTrafs]
  omega

end Header

/-- There is nothing to change in boxes that are empty. -/
theorem fixTfhdFlagsFrom_emptyTrafs (n k : Nat) :
    fixTfhdFlagsFrom n (emptyTrafs k) = emptyTrafs k := by
  induction n generalizing k with
  | zero => rfl
  | succ n ih =>
    cases k with
    | zero => rfl
    | succ k =>
      have hbox : searchedBox n (emptyTrafs (k+1)) = emptyTrafs (k+1) := by
        rw [searchedBox_startsOver (emptyTrafs_startsOver k),emptyTrafs_drop,ih,
          ← emptyTrafs_drop k,List.take_append_drop]
      rw [fixTfhdFlagsFrom_succ,if_neg (emptyTrafs_goes_on k),hbox,emptyTrafs_size,
        emptyTrafs_drop,ih,← emptyTrafs_drop k,List.take_append_drop]

theorem drop_searchedBox_emptyTrafs (n k : Nat) :
    (searchedBox n (emptyTrafs (k+1))).drop 8 = emptyTrafs k := by
  rw [searchedBox_startsOver (emptyTrafs_startsOver k),emptyTrafs_drop,fixTfhdFlagsFrom_emptyTrafs]
  exact List.drop_left' (by rw [List.length_take,length_emptyTrafs]; omega)

theorem searchRoundsFrom_emptyTrafs {n k : Nat} (h : k ≤ n) :
    searchRoundsFrom n (emptyTrafs k)+1 = 2^k := by
  induction n generalizing k with
  | zero =>
    obtain rfl : k = 0 := by omega
    rfl
  | succ n ih =>
    cases k with
    | zero => rfl
    | succ k =>
      have hrest : searchRoundsFrom n (emptyTrafs k)+1 = 2^k := ih (by omega)
      rw [searchRoundsFrom,if_neg (emptyTrafs_goes_on k),if_pos (emptyTrafs_startsOver k),
        emptyTrafs_size,emptyTrafs_drop,drop_searchedBox_emptyTrafs,Nat.pow_succ]
      omega

theorem searchDepthFrom_emptyTrafs {n k : Nat} (h : k ≤ n) :
    searchDepthFrom n (emptyTrafs k) = k := by
  induction n generalizing k with
  | zero =>
    obtain rfl : k = 0 := by omega
    rfl
  | succ n ih =>
    cases k with
    | zero => rfl
    | succ k =>
      have hrest : searchDepthFrom n (emptyTrafs k) = k := ih (by omega)
      rw [searchDepthFrom,if_neg (emptyTrafs_goes_on k),if_pos (emptyTrafs_startsOver k),
        emptyTrafs_size,emptyTrafs_drop,drop_searchedBox_emptyTrafs,hrest]
      omega

/-- So the rounds do double, and there is a call for each box. -/
theorem search_emptyTrafs (k : Nat) :
    searchRounds (emptyTrafs k)+1 = 2^k ∧ searchDepth (emptyTrafs k) = k := by
  have hfuel : k ≤ (emptyTrafs k).length := by
    rw [length_emptyTrafs]
    omega
  exact ⟨searchRoundsFrom_emptyTrafs hfuel,searchDepthFrom_emptyTrafs hfuel⟩

end Growth

end OpenBroadcast.Media
