import OpenBroadcast.Framework.RotatingBuckets

namespace OpenBroadcast.PubSub

def timeWindowSeconds : Nat := 60

/-- Times are in nanoseconds. -/
def second : Nat := 10^9

/-- `now.duration_since(last).as_secs()`. -/
def wholeSeconds (last now : Nat) : Nat := (now-last)/second

/-- The calls that record a message. -/
inductive SeriesCall where
  | messageReceived (size : Nat)
  | messageSent (size : Nat)

def SeriesCall.size : SeriesCall → Nat
  | .messageReceived size => size
  | .messageSent size => size

/-- Two series of buckets, rotated together. -/
structure TimeSeriesData where
  bucketSize : Nat
  numBuckets : Nat
  currentBucket : Nat
  lastUpdate : Nat
  messageCounts : List Nat
  byteCounts : List Nat

namespace TimeSeriesData

def new (now : Nat) : TimeSeriesData where
  bucketSize := 1
  numBuckets := timeWindowSeconds
  currentBucket := 0
  lastUpdate := now
  messageCounts := .replicate timeWindowSeconds 0
  byteCounts := .replicate timeWindowSeconds 0

/-- One round of the loop of `rotate_if_needed`. -/
def rotateBucket (t : TimeSeriesData) : TimeSeriesData :=
  let bucket := (t.currentBucket+1)%t.numBuckets
  { t with
    currentBucket := bucket
    messageCounts := t.messageCounts.set bucket 0
    byteCounts := t.byteCounts.set bucket 0 }

def rotateIfNeeded (t : TimeSeriesData) (now : Nat) : TimeSeriesData :=
  let elapsed := wholeSeconds t.lastUpdate now
  if t.bucketSize ≤ elapsed then
    { rotateBucket^[min (elapsed/t.bucketSize) t.numBuckets] t with lastUpdate := now }
  else t

def addMessageReceived (t : TimeSeriesData) (now size : Nat) : TimeSeriesData :=
  let t := t.rotateIfNeeded now
  { t with
    messageCounts := t.messageCounts.modify t.currentBucket (·+1)
    byteCounts := t.byteCounts.modify t.currentBucket (·+size) }

def addMessageSent (t : TimeSeriesData) (now size : Nat) : TimeSeriesData :=
  t.addMessageReceived now size

/-- The sums of `calculate_rates`: the messages and their bytes, not yet divided by the window. -/
def rateTotals (t : TimeSeriesData) : Nat × Nat :=
  ((t.messageCounts.take t.numBuckets).sum,(t.byteCounts.take t.numBuckets).sum)

def step (t : TimeSeriesData) (call : Nat × SeriesCall) : TimeSeriesData :=
  match call.2 with
  | .messageReceived size => t.addMessageReceived call.1 size
  | .messageSent size => t.addMessageSent call.1 size

section Updates

variable {last now : Nat} {calls : List (Nat × SeriesCall)}

/-- A call is an update if whole seconds have passed since the last one. -/
def updated (last now : Nat) : Nat := if 1 ≤ wholeSeconds last now then now else last

def updatedAt (last : Nat) (calls : List (Nat × SeriesCall)) : Nat :=
  (calls.map Prod.fst).foldl updated last

/-- The whole seconds from one update to the next one, all together. What an update has in
fractions of a second over them is lost. -/
def moved : Nat → List (Nat × SeriesCall) → Nat
  | _,[] => 0
  | last,call::calls => wholeSeconds last call.1+moved (updated last call.1) calls

/-- The buckets that are rotated. -/
def rotated : Nat → List (Nat × SeriesCall) → Nat
  | _,[] => 0
  | last,call::calls =>
    min (wholeSeconds last call.1) timeWindowSeconds+rotated (updated last call.1) calls

/-- The messages that are counted: those after which not all buckets are rotated. -/
def counted : Nat → List (Nat × SeriesCall) → List (Nat × SeriesCall)
  | _,[] => []
  | last,call::calls =>
    if rotated (updated last call.1) calls < timeWindowSeconds then call::calls
    else counted (updated last call.1) calls

theorem rotated_lt_iff (last : Nat) (calls : List (Nat × SeriesCall)) :
    rotated last calls < timeWindowSeconds ↔ moved last calls < timeWindowSeconds := by
  have hle : rotated last calls ≤ moved last calls ∧
      (rotated last calls = moved last calls ∨ timeWindowSeconds ≤ rotated last calls) := by
    induction calls generalizing last with
    | nil => exact ⟨le_rfl,.inl rfl⟩
    | cons call calls ih =>
      have hrest := ih (updated last call.1)
      simp only [rotated,moved]
      omega
  omega

/-- Each call with the number of buckets rotated up to it. -/
def stamped : Nat → Nat → List (Nat × SeriesCall) → List (Nat × (Nat × SeriesCall))
  | _,_,[] => []
  | last,turns,call::calls =>
    let turns := turns+min (wholeSeconds last call.1) timeWindowSeconds
    (turns,call)::stamped (updated last call.1) turns calls

theorem map_stamped (last turns : Nat) (calls : List (Nat × SeriesCall)) :
    (stamped last turns calls).map Prod.snd = calls := by
  induction calls generalizing last turns with
  | nil => rfl
  | cons call calls ih => simp [stamped,ih]

theorem le_of_mem_stamped {last turns : Nat} {e : Nat × (Nat × SeriesCall)}
    (he : e ∈ stamped last turns calls) : turns ≤ e.1 := by
  induction calls generalizing last turns with
  | nil => cases he
  | cons call calls ih =>
    rcases List.mem_cons.mp he with rfl | he
    · exact Nat.le_add_right _ _
    · exact (Nat.le_add_right _ _).trans (ih he)

/-- What was stamped less than a round ago is what is counted. -/
theorem filter_stamped (last turns : Nat) (calls : List (Nat × SeriesCall)) :
    ((stamped last turns calls).filter
      (fun e => turns+rotated last calls < e.1+timeWindowSeconds)).map Prod.snd =
      counted last calls := by
  induction calls generalizing last turns with
  | nil => rfl
  | cons call calls ih =>
    have hturns : turns+rotated last (call::calls) =
        turns+min (wholeSeconds last call.1) timeWindowSeconds+
          rotated (updated last call.1) calls := (Nat.add_assoc _ _ _).symm
    rw [hturns,counted]
    split_ifs with hlive
    · have hall : ∀ e ∈ stamped last turns (call::calls),
          decide (turns+min (wholeSeconds last call.1) timeWindowSeconds+
            rotated (updated last call.1) calls < e.1+timeWindowSeconds) = true := by
        intro e he
        rw [decide_eq_true_eq]
        rcases List.mem_cons.mp he with rfl | he
        · dsimp only
          omega
        · have hle := le_of_mem_stamped he
          omega
      rw [List.filter_eq_self.mpr hall,map_stamped]
    · rw [stamped,List.filter_cons_of_neg (by rw [decide_eq_true_eq]; dsimp only; omega)]
      exact ih _ _

end Updates

section Runs

variable {t : TimeSeriesData} {turns : Nat} {log : List (Nat × (Nat × SeriesCall))}

/-- The buckets hold the logged messages, as many and of the sizes that they are. -/
structure Records (t : TimeSeriesData) (turns : Nat) (log : List (Nat × (Nat × SeriesCall))) :
    Prop where
  bucketSize : t.bucketSize = 1
  numBuckets : t.numBuckets = timeWindowSeconds
  currentBucket : t.currentBucket = turns%timeWindowSeconds
  messages : Rotating timeWindowSeconds turns (log.map (fun e => (e.1,1))) t.messageCounts
  bytes : Rotating timeWindowSeconds turns (log.map (fun e => (e.1,e.2.2.size))) t.byteCounts

theorem records_new (now : Nat) : (new now).Records 0 [] :=
  ⟨rfl,rfl,rfl,.start _,.start _⟩

theorem Records.rotateBucket (h : t.Records turns log) :
    t.rotateBucket.Records (turns+1) log := by
  have hbucket : (t.currentBucket+1)%t.numBuckets = (turns+1)%timeWindowSeconds := by
    rw [h.numBuckets,h.currentBucket,Nat.mod_add_mod]
  unfold TimeSeriesData.rotateBucket
  rw [hbucket]
  exact ⟨h.bucketSize,h.numBuckets,rfl,h.messages.turn (by decide),h.bytes.turn (by decide)⟩

theorem Records.rotateBuckets (h : t.Records turns log) (k : Nat) :
    (TimeSeriesData.rotateBucket^[k] t).Records (turns+k) log := by
  induction k with
  | zero => exact h
  | succ k ih =>
    rw [Function.iterate_succ_apply']
    exact ih.rotateBucket

theorem Records.rotateIfNeeded (h : t.Records turns log) (now : Nat) :
    (t.rotateIfNeeded now).Records
      (turns+min (wholeSeconds t.lastUpdate now) timeWindowSeconds) log ∧
    (t.rotateIfNeeded now).lastUpdate = updated t.lastUpdate now := by
  unfold TimeSeriesData.rotateIfNeeded updated
  dsimp only
  rw [h.bucketSize,h.numBuckets,Nat.div_one]
  by_cases helapsed : 1 ≤ wholeSeconds t.lastUpdate now
  · have hrotated := h.rotateBuckets (min (wholeSeconds t.lastUpdate now) timeWindowSeconds)
    rw [if_pos helapsed]
    exact ⟨⟨hrotated.1,hrotated.2,hrotated.3,hrotated.4,hrotated.5⟩,(if_pos helapsed).symm⟩
  · have hzero : wholeSeconds t.lastUpdate now = 0 := by omega
    rw [if_neg helapsed,hzero]
    exact ⟨h,rfl⟩

theorem Records.step (h : t.Records turns log) (call : Nat × SeriesCall) :
    (t.step call).Records (turns+min (wholeSeconds t.lastUpdate call.1) timeWindowSeconds)
      (log++[(turns+min (wholeSeconds t.lastUpdate call.1) timeWindowSeconds,call)]) ∧
    (t.step call).lastUpdate = updated t.lastUpdate call.1 := by
  have hstep : t.step call = t.addMessageReceived call.1 call.2.size := by
    obtain ⟨now,kind⟩ := call
    cases kind <;> rfl
  obtain ⟨hrotated,hupdate⟩ := h.rotateIfNeeded call.1
  rw [hstep]
  unfold addMessageReceived
  refine ⟨⟨hrotated.bucketSize,hrotated.numBuckets,hrotated.currentBucket,?_,?_⟩,hupdate⟩
  · dsimp only
    rw [List.map_append,hrotated.currentBucket]
    exact hrotated.messages.add 1
  · dsimp only
    rw [List.map_append,hrotated.currentBucket]
    exact hrotated.bytes.add call.2.size

theorem Records.run (h : t.Records turns log) (calls : List (Nat × SeriesCall)) :
    (calls.foldl TimeSeriesData.step t).Records (turns+rotated t.lastUpdate calls)
      (log++stamped t.lastUpdate turns calls) := by
  induction calls generalizing t turns log with
  | nil => simpa [stamped,rotated] using h
  | cons call calls ih =>
    obtain ⟨hstep,hupdate⟩ := h.step call
    have hrest := ih hstep
    rw [hupdate,List.append_assoc,Nat.add_assoc] at hrest
    exact hrest

theorem sum_take {slots : List Nat} (value : Nat × SeriesCall → Nat)
    (h : Rotating timeWindowSeconds turns (log.map (fun e => (e.1,value e.2))) slots) :
    (slots.take timeWindowSeconds).sum =
      (((log.filter (fun e => turns < e.1+timeWindowSeconds)).map Prod.snd).map value).sum := by
  rw [List.take_of_length_le h.length.le,h.sum_eq (by decide),List.filter_map,List.map_map,
    List.map_map]
  rfl

/-- The totals are those of the counted messages. -/
theorem rateTotals_run (start : Nat) (calls : List (Nat × SeriesCall)) :
    (calls.foldl step (new start)).rateTotals =
      ((counted start calls).length,((counted start calls).map (fun c => c.2.size)).sum) := by
  have h := (records_new start).run calls
  rw [List.nil_append,Nat.zero_add] at h
  have hcounted := filter_stamped start 0 calls
  rw [Nat.zero_add] at hcounted
  have hmessages := sum_take (fun _ => 1) h.messages
  have hbytes := sum_take (fun c => c.2.size) h.bytes
  rw [show (new start).lastUpdate = start from rfl,hcounted] at hmessages hbytes
  unfold rateTotals
  rw [h.numBuckets,hmessages,hbytes]
  simp

end Runs

section Window

variable {start last now : Nat} {call : Nat × SeriesCall}
  {calls before after : List (Nat × SeriesCall)}

/-- Calls in their order, all of them no later than `now`. -/
def Ordered (last : Nat) (calls : List (Nat × SeriesCall)) (now : Nat) : Prop :=
  (last::(calls.map Prod.fst++[now])).Pairwise (· ≤ ·)

theorem le_updated (last now : Nat) (h : last ≤ now) :
    last+wholeSeconds last now*second ≤ updated last now ∧ updated last now ≤ now ∧
      now < updated last now+second := by
  have hdiv := Nat.div_mul_le_self (now-last) second
  have hlt : now-last < (wholeSeconds last now+1)*second :=
    Nat.lt_mul_of_div_lt (Nat.lt_succ_self _) (by decide)
  have hpos : 0 < second := by decide
  unfold updated
  split_ifs with hwhole
  · unfold wholeSeconds at hwhole ⊢
    omega
  · have hzero : wholeSeconds last now = 0 := by omega
    rw [hzero] at hlt ⊢
    omega

theorem Ordered.first_le (h : Ordered last (call::calls) now) : last ≤ call.1 :=
  List.rel_of_pairwise_cons h List.mem_cons_self

theorem Ordered.next (h : Ordered last (call::calls) now) :
    Ordered (updated last call.1) calls now := by
  have hrest : (call.1::(calls.map Prod.fst++[now])).Pairwise (· ≤ ·) := (List.pairwise_cons.mp h).2
  have hle := (le_updated last call.1 h.first_le).2.1
  refine List.pairwise_cons.mpr ⟨?_,(List.pairwise_cons.mp hrest).2⟩
  exact fun time htime => hle.trans ((List.pairwise_cons.mp hrest).1 time htime)

theorem Ordered.moved_le (h : Ordered last calls now) : last+moved last calls*second ≤ now := by
  induction calls generalizing last with
  | nil =>
    have hle : last ≤ now := List.rel_of_pairwise_cons h List.mem_cons_self
    simpa [moved] using hle
  | cons call calls ih =>
    have hrest := ih h.next
    have hfirst := (le_updated last call.1 h.first_le).1
    rw [moved,Nat.add_mul]
    omega

/-- The calls after one of them, from the last update on, which is less than a second before. -/
theorem Ordered.later (h : Ordered last (before++call::after) now) :
    Ordered (updatedAt last (before++[call])) after now ∧
      call.1 < updatedAt last (before++[call])+second := by
  induction before generalizing last with
  | nil => exact ⟨h.next,(le_updated last call.1 h.first_le).2.2⟩
  | cons first before ih => exact ih h.next

theorem Ordered.le_of_mem (h : Ordered last (before++call::after) now) :
    ∀ c ∈ call::after, call.1 ≤ c.1 := by
  have hlater : ((call::after).map Prod.fst).Pairwise (· ≤ ·) := by
    apply List.Pairwise.sublist _ h
    rw [List.map_append]
    exact ((List.sublist_append_right _ _).trans (List.sublist_append_left _ _)).cons last
  intro c hc
  rcases List.mem_cons.mp hc with rfl | hc
  · exact le_rfl
  · rw [List.map_cons] at hlater
    exact List.rel_of_pairwise_cons hlater (List.mem_map_of_mem hc)

/-- From a message on after which not all buckets are rotated, all of them are counted. -/
theorem suffix_counted (hfew : moved (updatedAt last (before++[call])) after < timeWindowSeconds) :
    (call::after) <:+ counted last (before++call::after) := by
  induction before generalizing last with
  | nil =>
    have hlive : rotated (updated last call.1) after < timeWindowSeconds :=
      (rotated_lt_iff _ _).mpr hfew
    rw [List.nil_append,counted,if_pos hlive]
  | cons first before ih =>
    rw [List.cons_append,counted]
    split_ifs
    · exact ⟨first::before,rfl⟩
    · exact ih hfew

theorem counted_eq_cons (h : counted last calls = call::after) :
    ∃ before, calls = before++call::after ∧
      moved (updatedAt last (before++[call])) after < timeWindowSeconds := by
  induction calls generalizing last with
  | nil => cases h
  | cons first calls ih =>
    rw [counted] at h
    split_ifs at h with hlive
    · cases h
      exact ⟨[],rfl,(rotated_lt_iff _ _).mp hlive⟩
    · obtain ⟨before,hcalls,hfew⟩ := ih h
      exact ⟨first::before,by rw [hcalls]; rfl,hfew⟩

theorem counted_suffix (last : Nat) (calls : List (Nat × SeriesCall)) :
    counted last calls <:+ calls := by
  cases hcounted : counted last calls with
  | nil => exact List.nil_suffix
  | cons call after =>
    obtain ⟨before,hcalls,_⟩ := counted_eq_cons hcounted
    exact ⟨before,hcalls.symm⟩

/-- After a message that is not counted all buckets are rotated. -/
theorem le_moved_of_dropped {old : List (Nat × SeriesCall)}
    (hcalls : calls = old++counted last calls)
    (hcall : call ∈ old) : ∃ before after, calls = before++call::after ∧
      timeWindowSeconds ≤ moved (updatedAt last (before++[call])) after := by
  obtain ⟨before,between,rfl⟩ := List.append_of_mem hcall
  have hsplit : calls = before++call::(between++counted last calls) := by
    rw [List.append_assoc,List.cons_append] at hcalls
    exact hcalls
  refine ⟨before,between++counted last calls,hsplit,?_⟩
  by_contra hfew
  have hsuffix := suffix_counted (Nat.lt_of_not_le hfew)
  rw [← hsplit] at hsuffix
  have hlength := hsuffix.length_le
  rw [List.length_cons,List.length_append] at hlength
  omega

/-- The totals are those of the last messages. -/
def TotalsOf (t : TimeSeriesData) (calls old kept : List (Nat × SeriesCall)) : Prop :=
  calls = old++kept ∧ t.rateTotals = (kept.length,(kept.map (fun c => c.2.size)).sum)

/-- All messages of the last seconds of the window are counted. -/
def CountsRecent (t : TimeSeriesData) (calls : List (Nat × SeriesCall)) (now : Nat) : Prop :=
  ∃ old kept, t.TotalsOf calls old kept ∧ ∀ c ∈ old, c.1+(timeWindowSeconds-1)*second < now

/-- And no message is counted that is older than the window. -/
def Accurate (t : TimeSeriesData) (calls : List (Nat × SeriesCall)) (now : Nat) : Prop :=
  ∃ old kept, t.TotalsOf calls old kept ∧
    (∀ c ∈ old, c.1+(timeWindowSeconds-1)*second < now) ∧
    ∀ c ∈ kept, now ≤ c.1+(timeWindowSeconds+1)*second

/-- After a message that is older than the window the updates have moved on by the window, in whole
seconds from one update to the next one. -/
def NothingStale (start : Nat) (calls : List (Nat × SeriesCall)) (now : Nat) : Prop :=
  ∀ before call after, calls = before++call::after →
    call.1+(timeWindowSeconds+1)*second < now →
    timeWindowSeconds ≤ moved (updatedAt start (before++[call])) after

theorem exists_totalsOf (start : Nat) (calls : List (Nat × SeriesCall)) :
    ∃ old, (calls.foldl step (new start)).TotalsOf calls old (counted start calls) := by
  obtain ⟨old,hold⟩ := counted_suffix start calls
  exact ⟨old,hold.symm,rateTotals_run start calls⟩

theorem Ordered.old_of_dropped (h : Ordered start calls now) {old : List (Nat × SeriesCall)}
    (hcalls : calls = old++counted start calls) :
    ∀ c ∈ old, c.1+(timeWindowSeconds-1)*second < now := by
  intro c hc
  obtain ⟨before,after,hsplit,hmoved⟩ := le_moved_of_dropped hcalls hc
  rw [hsplit] at h
  obtain ⟨hafter,hupdate⟩ := h.later
  have hle := hafter.moved_le
  have hwindow : timeWindowSeconds*second ≤ moved (updatedAt start (before++[c])) after*second :=
    Nat.mul_le_mul_right second hmoved
  have hless : (timeWindowSeconds-1)*second+second = timeWindowSeconds*second := by decide
  omega

/-- Whatever the calls, the messages of the last 59 seconds are counted; and exactly if the updates
have moved on far enough after each old message, none that is older than 61 seconds is. -/
theorem rate_window_accurate_iff (start now : Nat) (calls : List (Nat × SeriesCall))
    (hordered : Ordered start calls now) :
    (calls.foldl step (new start)).CountsRecent calls now ∧
    ((calls.foldl step (new start)).Accurate calls now ↔ NothingStale start calls now) := by
  obtain ⟨old,htotals⟩ := exists_totalsOf start calls
  have hold := hordered.old_of_dropped htotals.1
  refine ⟨⟨old,_,htotals,hold⟩,?_,?_⟩
  · rintro ⟨old',kept,⟨hcalls,hkept⟩,_,hrecent⟩ before call after hsplit hstale
    have hsame : kept = counted start calls := by
      have hlength : kept.length = (counted start calls).length :=
        congrArg Prod.fst (hkept.symm.trans htotals.2)
      exact (List.append_inj' (hcalls.symm.trans htotals.1) hlength).2
    by_contra hfew
    have hsuffix := suffix_counted (Nat.lt_of_not_le hfew)
    rw [← hsplit,← hsame] at hsuffix
    have hle := hrecent call (hsuffix.subset List.mem_cons_self)
    omega
  · intro hstale
    refine ⟨old,_,htotals,hold,?_⟩
    cases hcounted : counted start calls with
    | nil => exact List.forall_mem_nil _
    | cons call after =>
      obtain ⟨before,hsplit,hfew⟩ := counted_eq_cons hcounted
      have hfirst : now ≤ call.1+(timeWindowSeconds+1)*second := by
        by_contra hlate
        have hmoved := hstale before call after hsplit (Nat.lt_of_not_le hlate)
        omega
      rw [hsplit] at hordered
      intro c hc
      have hle := hordered.le_of_mem c hc
      omega

/-- Two messages more than a minute apart, each of them an update. -/
def minuteApart : List (Nat × SeriesCall) :=
  [(second,.messageReceived 5),(62*second,.messageSent 7)]

theorem rate_window_accurate_minuteApart :
    (minuteApart.foldl step (new 0)).CountsRecent minuteApart (63*second) ∧
    ((minuteApart.foldl step (new 0)).Accurate minuteApart (63*second) ↔
      NothingStale 0 minuteApart (63*second)) :=
  rate_window_accurate_iff 0 (63*second) minuteApart (by unfold Ordered; decide)

/-- Where nothing is recorded any more, the last message is counted for ever. -/
theorem last_message_counted :
    ([(second,.messageReceived 5)].foldl step (new 0)).rateTotals = (1,5) ∧
    ¬ ([(second,.messageReceived 5)].foldl step (new 0)).Accurate [(second,.messageReceived 5)]
      (3600*second) := by
  have htotals : ([(second,.messageReceived 5)].foldl step (new 0)).rateTotals = (1,5) := by decide
  refine ⟨htotals,?_⟩
  rintro ⟨old,kept,⟨hcalls,hkept⟩,_,hrecent⟩
  have hlength : kept.length = 1 := congrArg Prod.fst (hkept.symm.trans htotals)
  have hsame : [(second,.messageReceived 5)] = kept :=
    (List.append_inj' (List.nil_append _ |>.trans hcalls) hlength.symm).2
  have hle := hrecent (second,.messageReceived 5) (by rw [← hsame]; exact List.mem_cons_self)
  revert hle
  decide

end Window

end TimeSeriesData

end OpenBroadcast.PubSub
