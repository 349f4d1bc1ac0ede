import Mathlib.Algebra.Order.Monoid.Defs
import Mathlib.Algebra.Order.Ring.Nat
import OpenBroadcast.Framework.Collections
import OpenBroadcast.Framework.Windows

namespace OpenBroadcast.Delivery

/-- The bucket of an address: how many requests its window has had, and when the window has
started. Times are in nanoseconds. -/
abbrev Bucket := UInt32 × Nat

structure RateLimiterState (IpAddr : Type) where
  buckets : HashMap IpAddr Bucket
  maxRequests : UInt32
  window : Nat

/-- What is done under the lock of the buckets. -/
inductive RateOp (IpAddr : Type) where
  | check (ip : IpAddr)
  | cleanup
  deriving DecidableEq, Repr

structure Verdict (IpAddr : Type) where
  time : Nat
  ip : IpAddr
  allowed : Bool
  deriving DecidableEq, Repr

namespace RateLimiterState

variable {IpAddr : Type} [DecidableEq IpAddr]

omit [DecidableEq IpAddr] in
def new (maxRequests : UInt32) (windowSecs : Nat) : RateLimiterState IpAddr :=
  ⟨∅,maxRequests,windowSecs*10^9⟩

def setBucket (rl : RateLimiterState IpAddr) (ip : IpAddr) (entry : Bucket) :
    RateLimiterState IpAddr :=
  { rl with buckets := rl.buckets.insert ip entry }

/-- The entry of a new address counts nothing yet. `duration_since` is zero for a later instant. -/
def checkRateLimit (rl : RateLimiterState IpAddr) (ip : IpAddr) (now : Nat) :
    Bool × RateLimiterState IpAddr :=
  let entry := (rl.buckets.lookup ip).getD (0,now)
  if rl.window ≤ now-entry.2 then (true,rl.setBucket ip (1,now))
  else if rl.maxRequests ≤ entry.1 then (false,rl.setBucket ip entry)
  else (true,rl.setBucket ip (entry.1+1,entry.2))

omit [DecidableEq IpAddr] in
def trackedCount (rl : RateLimiterState IpAddr) : Nat := rl.buckets.keys.card

def cleanupExpired (rl : RateLimiterState IpAddr) (now : Nat) : RateLimiterState IpAddr :=
  { rl with buckets := rl.buckets.retain (fun _ entry => decide (now-entry.2 < rl.window)) }

def step (rl : RateLimiterState IpAddr) : Nat × RateOp IpAddr → RateLimiterState IpAddr
  | (now,.check ip) => (rl.checkRateLimit ip now).2
  | (now,.cleanup) => rl.cleanupExpired now

/-- What the callers are answered. -/
def verdicts (rl : RateLimiterState IpAddr) : List (Nat × RateOp IpAddr) → List (Verdict IpAddr)
  | [] => []
  | (now,.check ip)::ops =>
    ⟨now,ip,(rl.checkRateLimit ip now).1⟩::(rl.checkRateLimit ip now).2.verdicts ops
  | (now,.cleanup)::ops => (rl.cleanupExpired now).verdicts ops

end RateLimiterState

namespace RateOp

variable {IpAddr : Type} [DecidableEq IpAddr]

omit [DecidableEq IpAddr] in
def isCheck : RateOp IpAddr → Bool
  | .check _ => true
  | .cleanup => false

def concerns (ip : IpAddr) : RateOp IpAddr → Bool
  | .check ip' => decide (ip' = ip)
  | .cleanup => false

end RateOp

/-- How many requests of an address are allowed from one time on and before another one. -/
def allowedIn {IpAddr : Type} [DecidableEq IpAddr] (ip : IpAddr) (start stop : Nat)
    (vs : List (Verdict IpAddr)) : Nat :=
  vs.countP (fun v => decide (v.ip = ip) && v.allowed && decide (start ≤ v.time ∧ v.time < stop))

section Buckets

variable {window now : Nat} {maxRequests : UInt32} {b b' b'' : Option Bucket}

/-- What a request makes of the bucket of its address. -/
def allow (window : Nat) (maxRequests : UInt32) (b : Option Bucket) (now : Nat) : Bool × Bucket :=
  let entry := b.getD (0,now)
  if window ≤ now-entry.2 then (true,(1,now))
  else if maxRequests ≤ entry.1 then (false,entry)
  else (true,(entry.1+1,entry.2))

/-- The next request starts a window: there is no bucket, or its window is over. -/
def Restarts (window now : Nat) (b : Option Bucket) : Prop :=
  ∀ entry, b = some entry → window ≤ now-entry.2

theorem Restarts.later {time : Nat} (h : Restarts window now b) (htime : now ≤ time) :
    Restarts window time b := by
  intro entry hentry
  have hover := h entry hentry
  omega

theorem admit_restarts (hmax : 1 ≤ maxRequests) (h : Restarts window now b) :
    allow window maxRequests b now = (true,(1,now)) := by
  unfold allow
  cases b with
  | none =>
    have hroom : ¬ maxRequests ≤ 0 := by
      rw [UInt32.le_iff_toNat_le] at hmax ⊢
      simp only [UInt32.toNat_one,UInt32.toNat_zero] at hmax ⊢
      omega
    simp [hroom]
  | some entry => simp [h entry rfl]

/-- Two buckets that no request can tell apart from a time on. -/
def Alike (window now : Nat) (b b' : Option Bucket) : Prop :=
  b = b' ∨ (Restarts window now b ∧ Restarts window now b')

theorem Alike.later {time : Nat} (h : Alike window now b b') (htime : now ≤ time) :
    Alike window time b b' := by
  rcases h with rfl | ⟨h,h'⟩
  · exact .inl rfl
  · exact .inr ⟨h.later htime,h'.later htime⟩

theorem Alike.symm (h : Alike window now b b') : Alike window now b' b := by
  rcases h with rfl | ⟨h,h'⟩
  · exact .inl rfl
  · exact .inr ⟨h',h⟩

theorem Alike.trans (h : Alike window now b b') (h' : Alike window now b' b'') :
    Alike window now b b'' := by
  rcases h with rfl | ⟨h,hmid⟩
  · exact h'
  · rcases h' with rfl | ⟨_,h'⟩
    · exact .inr ⟨h,hmid⟩
    · exact .inr ⟨h,h'⟩

theorem admit_alike (hmax : 1 ≤ maxRequests) (h : Alike window now b b') :
    allow window maxRequests b now = allow window maxRequests b' now := by
  rcases h with rfl | ⟨h,h'⟩
  · rfl
  · rw [admit_restarts hmax h,admit_restarts hmax h']

/-- An eviction cannot be told. -/
theorem alike_evict : Alike window now b (b.filter (fun entry => decide (now-entry.2 < window))) := by
  cases b with
  | none => exact .inl rfl
  | some entry =>
    by_cases hlive : now-entry.2 < window
    · exact .inl (by simp [Option.filter,hlive])
    · refine .inr ⟨?_,by simp [Restarts,Option.filter,hlive]⟩
      intro entry' hentry
      cases hentry
      omega

end Buckets

namespace RateLimiterState

variable {IpAddr : Type} [DecidableEq IpAddr] {rl rl' : RateLimiterState IpAddr} {now : Nat}
  {ip ip' : IpAddr}

theorem checkRateLimit_eq (rl : RateLimiterState IpAddr) (ip : IpAddr) (now : Nat) :
    rl.checkRateLimit ip now =
      ((allow rl.window rl.maxRequests (rl.buckets.lookup ip) now).1,
        rl.setBucket ip (allow rl.window rl.maxRequests (rl.buckets.lookup ip) now).2) := by
  unfold checkRateLimit allow
  dsimp only
  split_ifs <;> rfl

theorem lookup_check : (rl.checkRateLimit ip now).2.buckets.lookup ip' =
    if ip' = ip then some (allow rl.window rl.maxRequests (rl.buckets.lookup ip) now).2
    else rl.buckets.lookup ip' := by
  rw [checkRateLimit_eq]
  split_ifs with hip
  · subst hip
    exact Finmap.lookup_insert _
  · exact Finmap.lookup_insert_of_ne _ hip

theorem lookup_cleanup : (rl.cleanupExpired now).buckets.lookup ip =
    (rl.buckets.lookup ip).filter (fun entry => decide (now-entry.2 < rl.window)) :=
  HashMap.lookup_retain _ _ _

@[simp] theorem check_window : (rl.checkRateLimit ip now).2.window = rl.window := by
  rw [checkRateLimit_eq]
  rfl

@[simp] theorem check_maxRequests :
    (rl.checkRateLimit ip now).2.maxRequests = rl.maxRequests := by
  rw [checkRateLimit_eq]
  rfl

/-- Two limiters that no request of the addresses `S` can tell apart. -/
structure Indistinct (S : IpAddr → Bool) (now : Nat) (rl rl' : RateLimiterState IpAddr) : Prop where
  window : rl'.window = rl.window
  maxRequests : rl'.maxRequests = rl.maxRequests
  alike : ∀ ip, S ip = true → Alike rl.window now (rl.buckets.lookup ip) (rl'.buckets.lookup ip)

namespace Indistinct

variable {S : IpAddr → Bool}

theorem later {time : Nat} (h : Indistinct S now rl rl') (htime : now ≤ time) :
    Indistinct S time rl rl' :=
  ⟨h.window,h.maxRequests,fun ip hip => (h.alike ip hip).later htime⟩

theorem cleanup_left (h : Indistinct S now rl rl') : Indistinct S now (rl.cleanupExpired now) rl' := by
  refine ⟨h.window,h.maxRequests,?_⟩
  intro ip hip
  rw [lookup_cleanup]
  exact alike_evict.symm.trans (h.alike ip hip)

theorem cleanup_both (h : Indistinct S now rl rl') :
    Indistinct S now (rl.cleanupExpired now) (rl'.cleanupExpired now) := by
  refine ⟨h.window,h.maxRequests,?_⟩
  intro ip hip
  rw [lookup_cleanup,lookup_cleanup,h.window]
  exact alike_evict.symm.trans ((h.alike ip hip).trans alike_evict)

/-- A request of another address. -/
theorem check_left (h : Indistinct S now rl rl') (hother : S ip = false) :
    Indistinct S now (rl.checkRateLimit ip now).2 rl' := by
  refine ⟨by simp [h.window],by simp [h.maxRequests],?_⟩
  intro ip' hip
  have hne : ip' ≠ ip := by
    rintro rfl
    rw [hip] at hother
    cases hother
  rw [lookup_check,if_neg hne,check_window]
  exact h.alike ip' hip

theorem verdict (h : Indistinct S now rl rl') (hmax : 1 ≤ rl.maxRequests) (hip : S ip = true) :
    allow rl'.window rl'.maxRequests (rl'.buckets.lookup ip) now =
      allow rl.window rl.maxRequests (rl.buckets.lookup ip) now := by
  rw [h.window,h.maxRequests]
  exact (admit_alike hmax (h.alike ip hip)).symm

theorem check_both (h : Indistinct S now rl rl') (hmax : 1 ≤ rl.maxRequests) (ip : IpAddr) :
    Indistinct S now (rl.checkRateLimit ip now).2 (rl'.checkRateLimit ip now).2 := by
  refine ⟨by simp [h.window],by simp [h.maxRequests],?_⟩
  intro ip' hip
  rw [lookup_check,lookup_check,check_window]
  by_cases hsame : ip' = ip
  · subst hsame
    rw [if_pos rfl,if_pos rfl,h.verdict hmax hip]
    exact .inl rfl
  · rw [if_neg hsame,if_neg hsame]
    exact h.alike ip' hip

end Indistinct

/-- Cleanups may be left out, and so may the requests of other addresses. -/
theorem verdicts_filter (S : IpAddr → Bool) (keep : RateOp IpAddr → Bool)
    (hkeep : ∀ ip, S ip = true → keep (.check ip) = true) (ops : List (Nat × RateOp IpAddr))
    (hops : (ops.map Prod.fst).Pairwise (· ≤ ·)) (hnow : ∀ op ∈ ops, now ≤ op.1)
    (h : Indistinct S now rl rl') (hmax : 1 ≤ rl.maxRequests) :
    (rl.verdicts ops).filter (fun v => S v.ip) =
      (rl'.verdicts (ops.filter (fun op => keep op.2))).filter (fun v => S v.ip) := by
  induction ops generalizing rl rl' now with
  | nil => rfl
  | cons op ops ih =>
    obtain ⟨time,op⟩ := op
    rw [List.map_cons,List.pairwise_cons] at hops
    have hlater : ∀ op ∈ ops, time ≤ op.1 :=
      fun op hop => hops.1 op.1 (List.mem_map_of_mem hop)
    replace h := h.later (hnow (time,op) List.mem_cons_self)
    cases op with
    | check ip =>
      by_cases hip : S ip = true
      · rw [List.filter_cons_of_pos (by exact hkeep ip hip)]
        have hrest := ih hops.2 hlater (h.check_both hmax ip) (by simpa using hmax)
        have hverdict := congrArg Prod.fst (h.verdict hmax hip)
        simp only [verdicts,List.filter_cons,hip,if_true,hrest]
        rw [checkRateLimit_eq rl,checkRateLimit_eq rl']
        simp only [hverdict]
      · have hother : S ip = false := by simpa using hip
        by_cases hkept : keep (.check ip) = true
        · have hrest := ih hops.2 hlater (h.check_both hmax ip) (by simpa using hmax)
          simpa [verdicts,hother,hkept] using hrest
        · have hrest := ih hops.2 hlater (h.check_left hother) (by simpa using hmax)
          simpa [verdicts,hother,hkept] using hrest
    | cleanup =>
      by_cases hkept : keep (.cleanup : RateOp IpAddr) = true
      · have hrest := ih hops.2 hlater h.cleanup_both hmax
        simpa [verdicts,hkept] using hrest
      · have hrest := ih hops.2 hlater h.cleanup_left hmax
        simpa [verdicts,hkept] using hrest

end RateLimiterState

section Windows

variable {window now : Nat} {maxRequests : UInt32} {b : Option Bucket} {log : List (Nat × Nat)}

/-- The bucket of an address beside the requests that have been allowed so far, each with the start
of the bucket that it has counted in. -/
structure Accounted (window : Nat) (maxRequests : UInt32) (now : Nat) (log : List (Nat × Nat))
    (b : Option Bucket) : Prop where
  windowed : Windowed window maxRequests.toNat log
  started : ∀ entry, b = some entry → entry.2 ≤ now ∧ ∃ e ∈ log, e.2 = entry.2
  counted : ∀ entry, b = some entry → log.countP (fun e => e.2 = entry.2) = entry.1.toNat
  past : ∀ e ∈ log, (∃ entry, b = some entry ∧ e.2 = entry.2) ∨
    e.2+window ≤ (b.map Prod.snd).getD now

namespace Accounted

theorem nil (window : Nat) (maxRequests : UInt32) (now : Nat) :
    Accounted window maxRequests now [] none where
  windowed := .nil window maxRequests.toNat
  started := by simp
  counted := by simp
  past := by simp

theorem later {time : Nat} (h : Accounted window maxRequests now log b) (htime : now ≤ time) :
    Accounted window maxRequests time log b := by
  refine ⟨h.windowed,?_,h.counted,?_⟩
  · intro entry hentry
    obtain ⟨hle,hfirst⟩ := h.started entry hentry
    exact ⟨hle.trans htime,hfirst⟩
  · intro e he
    rcases h.past e he with hown | hover
    · exact .inl hown
    · right
      cases b with
      | none => exact hover.trans htime
      | some entry => exact hover

theorem older_than_window (h : Accounted window maxRequests now log b)
    (hrestarts : Restarts window now b) {e : Nat × Nat} (he : e ∈ log) : e.2+window ≤ now := by
  have hpast := h.past e he
  cases b with
  | none => simpa using hpast
  | some entry =>
    have hover := hrestarts entry rfl
    have hle := (h.started entry rfl).1
    have hbefore : e.2 = entry.2 ∨ e.2+window ≤ entry.2 := by simpa using hpast
    omega

theorem evict (h : Accounted window maxRequests now log b) :
    Accounted window maxRequests now log
      (b.filter (fun entry => decide (now-entry.2 < window))) := by
  cases b with
  | none => exact h
  | some entry =>
    by_cases hlive : now-entry.2 < window
    · simpa [Option.filter,hlive] using h
    · have hrestarts : Restarts window now (some entry) := by
        intro entry' hentry
        cases hentry
        omega
      have hnone : (some entry).filter (fun entry => decide (now-entry.2 < window)) = none := by
        simp [Option.filter,hlive]
      rw [hnone]
      refine ⟨h.windowed,by simp,by simp,?_⟩
      intro e he
      exact .inr (h.older_than_window hrestarts he)

theorem restart (h : Accounted window maxRequests now log b) (hwindow : 0 < window)
    (hmax : 1 ≤ maxRequests) (hrestarts : Restarts window now b) :
    Accounted window maxRequests now (log++[(now,now)]) (some (1,now)) := by
  have hlimit : 1 ≤ maxRequests.toNat := by
    simpa [UInt32.le_iff_toNat_le] using hmax
  have hnone : log.countP (fun e => e.2 = now) = 0 := by
    rw [List.countP_eq_zero]
    intro e he hnow
    have hover := h.older_than_window hrestarts he
    simp only [decide_eq_true_eq] at hnow
    omega
  constructor
  · exact h.windowed.open_window (by omega) hlimit (fun e he => h.older_than_window hrestarts he)
  · intro entry hentry
    cases hentry
    exact ⟨le_rfl,(now,now),by simp,rfl⟩
  · intro entry hentry
    cases hentry
    simp [List.countP_append,hnone]
  · intro e he
    rcases List.mem_append.mp he with he | he
    · exact .inr (h.older_than_window hrestarts he)
    · exact .inl ⟨(1,now),rfl,by rw [List.mem_singleton.mp he]⟩

theorem count {entry : Bucket} (h : Accounted window maxRequests now log (some entry))
    (hlive : now-entry.2 < window) (hroom : entry.1 < maxRequests) :
    Accounted window maxRequests now (log++[(now,entry.2)]) (some (entry.1+1,entry.2)) := by
  obtain ⟨hle,hfirst⟩ := h.started entry rfl
  have hcounted := h.counted entry rfl
  have hlt : entry.1.toNat < maxRequests.toNat := UInt32.lt_iff_toNat_lt.mp hroom
  have hnext : (entry.1+1).toNat = entry.1.toNat+1 := by
    have := maxRequests.toNat_lt
    rw [UInt32.toNat_add,UInt32.toNat_one]
    omega
  constructor
  · exact h.windowed.fill_window hle (by omega) hfirst (by omega)
  · intro entry' hentry
    cases hentry
    obtain ⟨e,he,hsame⟩ := hfirst
    exact ⟨hle,e,List.mem_append_left _ he,hsame⟩
  · intro entry' hentry
    cases hentry
    simp [List.countP_append,hcounted,hnext]
  · intro e he
    rcases List.mem_append.mp he with he | he
    · simpa using h.past e he
    · exact .inl ⟨_,rfl,by rw [List.mem_singleton.mp he]⟩

/-- A request keeps the account, which records it if it is allowed. -/
theorem allow (h : Accounted window maxRequests now log b) (hwindow : 0 < window)
    (hmax : 1 ≤ maxRequests) :
    Accounted window maxRequests now
      (log++if (allow window maxRequests b now).1 then
        [(now,(Delivery.allow window maxRequests b now).2.2)] else [])
      (some (Delivery.allow window maxRequests b now).2) := by
  by_cases hrestarts : Restarts window now b
  · rw [admit_restarts hmax hrestarts]
    exact h.restart hwindow hmax hrestarts
  · cases b with
    | none => exact absurd (fun entry hentry => by cases hentry) hrestarts
    | some entry =>
      have hlive : ¬ window ≤ now-entry.2 := by
        intro hover
        apply hrestarts
        intro entry' hentry
        cases hentry
        exact hover
      by_cases hfull : maxRequests ≤ entry.1
      · simpa [Delivery.allow,hlive,hfull] using h
      · have hroom : entry.1 < maxRequests := UInt32.not_le.mp hfull
        simpa [Delivery.allow,hlive,hfull] using h.count (by omega) hroom

end Accounted

end Windows

namespace RateLimiterState

variable {IpAddr : Type} [DecidableEq IpAddr] {rl : RateLimiterState IpAddr} {now : Nat}
  {ip : IpAddr} {log : List (Nat × Nat)} {ops : List (Nat × RateOp IpAddr)}

/-- The requests of an address that are allowed, each with the start of its bucket. -/
def admitted (rl : RateLimiterState IpAddr) (ip : IpAddr) :
    List (Nat × RateOp IpAddr) → List (Nat × Nat)
  | [] => []
  | (now,.check ip')::ops =>
    let r := allow rl.window rl.maxRequests (rl.buckets.lookup ip') now
    (if ip' = ip ∧ r.1 then [(now,r.2.2)] else [])++(rl.checkRateLimit ip' now).2.admitted ip ops
  | (now,.cleanup)::ops => (rl.cleanupExpired now).admitted ip ops

theorem allowedIn_verdicts (rl : RateLimiterState IpAddr) (ip : IpAddr) (start stop : Nat)
    (ops : List (Nat × RateOp IpAddr)) : allowedIn ip start stop (rl.verdicts ops) =
      (rl.admitted ip ops).countP (fun e => start ≤ e.1 ∧ e.1 < stop) := by
  induction ops generalizing rl with
  | nil => rfl
  | cons op ops ih =>
    obtain ⟨time,op⟩ := op
    cases op with
    | cleanup => exact ih (rl.cleanupExpired time)
    | check ip' =>
      have hrest := ih (rl.checkRateLimit ip' time).2
      have hverdict := congrArg Prod.fst (checkRateLimit_eq rl ip' time)
      unfold allowedIn at hrest ⊢
      simp only [verdicts,admitted,List.countP_cons,List.countP_append,hrest,hverdict]
      by_cases hown : ip' = ip ∧ (allow rl.window rl.maxRequests (rl.buckets.lookup ip') time).1
      · rw [if_pos hown]
        simp [hown.1,hown.2,Nat.add_comm]
      · rw [if_neg hown]
        have hnot : ¬ ((decide (ip' = ip) &&
            (allow rl.window rl.maxRequests (rl.buckets.lookup ip') time).1 &&
              decide (start ≤ time ∧ time < stop)) = true) := by
          intro hyp
          simp only [Bool.and_eq_true,decide_eq_true_eq] at hyp
          exact hown hyp.1
        rw [if_neg hnot]
        simp

theorem admitted_append (rl : RateLimiterState IpAddr) (ip : IpAddr)
    (pre rest : List (Nat × RateOp IpAddr)) :
    rl.admitted ip (pre++rest) = rl.admitted ip pre++(pre.foldl step rl).admitted ip rest := by
  induction pre generalizing rl with
  | nil => rfl
  | cons op pre ih =>
    obtain ⟨time,op⟩ := op
    cases op with
    | check ip' =>
      have hrest := ih (rl.checkRateLimit ip' time).2
      simp only [List.cons_append,admitted,List.foldl_cons,step,hrest,List.append_assoc]
    | cleanup => exact ih (rl.cleanupExpired time)

/-- All requests of an address that are allowed are accounted for. -/
theorem accounted_run (hwindow : 0 < rl.window) (hmax : 1 ≤ rl.maxRequests)
    (h : Accounted rl.window rl.maxRequests now log (rl.buckets.lookup ip))
    (hops : (ops.map Prod.fst).Pairwise (· ≤ ·)) (hnow : ∀ op ∈ ops, now ≤ op.1) :
    ∃ time, Accounted rl.window rl.maxRequests time (log++rl.admitted ip ops)
      ((ops.foldl step rl).buckets.lookup ip) := by
  induction ops generalizing rl now log with
  | nil => exact ⟨now,by simpa [admitted] using h⟩
  | cons op ops ih =>
    obtain ⟨time,op⟩ := op
    rw [List.map_cons,List.pairwise_cons] at hops
    have hlater : ∀ op ∈ ops, time ≤ op.1 :=
      fun op hop => hops.1 op.1 (List.mem_map_of_mem hop)
    replace h := h.later (hnow (time,op) List.mem_cons_self)
    cases op with
    | check ip' =>
      have hkept : Accounted rl.window rl.maxRequests time
          (log++if ip' = ip ∧ (allow rl.window rl.maxRequests (rl.buckets.lookup ip') time).1 then
            [(time,(allow rl.window rl.maxRequests (rl.buckets.lookup ip') time).2.2)] else [])
          ((rl.checkRateLimit ip' time).2.buckets.lookup ip) := by
        rw [lookup_check]
        by_cases hip : ip' = ip
        · subst hip
          simpa using h.allow hwindow hmax
        · have hne : ip ≠ ip' := fun heq => hip heq.symm
          simpa [hip,hne] using h
      have hwindow' : 0 < (rl.checkRateLimit ip' time).2.window := by simpa using hwindow
      obtain ⟨last,hlast⟩ := ih hwindow' (by simpa using hmax) (by simpa using hkept) hops.2 hlater
      refine ⟨last,?_⟩
      simpa [admitted,step,List.append_assoc] using hlast
    | cleanup =>
      have hkept := h.evict
      have hlookup : (rl.cleanupExpired time).buckets.lookup ip = _ := lookup_cleanup
      have hwindow' : 0 < (rl.cleanupExpired time).window := hwindow
      rw [← hlookup] at hkept
      exact ih hwindow' hmax hkept hops.2 hlater

/-- Only requests are answered. -/
theorem verdicts_mem {v : Verdict IpAddr} (hv : v ∈ rl.verdicts ops) :
    ∃ time, (time,.check v.ip) ∈ ops := by
  induction ops generalizing rl with
  | nil => cases hv
  | cons op ops ih =>
    obtain ⟨time,op⟩ := op
    cases op with
    | check ip' =>
      rcases List.mem_cons.mp hv with rfl | hv
      · exact ⟨time,List.mem_cons_self⟩
      · obtain ⟨time',hmem⟩ := ih hv
        exact ⟨time',List.mem_cons_of_mem _ hmem⟩
    | cleanup =>
      have hlater : v ∈ (rl.cleanupExpired time).verdicts ops := hv
      obtain ⟨time',hmem⟩ := ih hlater
      exact ⟨time',List.mem_cons_of_mem _ hmem⟩

/-- The bucket of an address has started at a time, at some point of a run. -/
def Started (rl : RateLimiterState IpAddr) (ops : List (Nat × RateOp IpAddr)) (ip : IpAddr)
    (start : Nat) : Prop :=
  ∃ pre, pre <+: ops ∧ ∃ count, (pre.foldl step rl).buckets.lookup ip = some (count,start)

theorem countP_empty_interval (log : List (Nat × Nat)) (start : Nat) :
    log.countP (fun e => start ≤ e.1 ∧ e.1 < start+0) = 0 := by
  rw [List.countP_eq_zero]
  intro e _ hin
  simp only [decide_eq_true_eq] at hin
  omega

/-- Evictions go unnoticed, addresses do not touch each other, and what an address is allowed is
bounded, in each of its windows and in any interval of this length. -/
theorem rate_limit_per_address (maxRequests : UInt32) (windowSecs : Nat)
    (ops : List (Nat × RateOp IpAddr)) (hmax : 1 ≤ maxRequests)
    (hops : (ops.map Prod.fst).Pairwise (· ≤ ·)) :
    let rl : RateLimiterState IpAddr := new maxRequests windowSecs
    rl.verdicts ops = rl.verdicts (ops.filter (fun op => op.2.isCheck)) ∧
    ∀ ip, (rl.verdicts ops).filter (fun v => decide (v.ip = ip)) =
        rl.verdicts (ops.filter (fun op => op.2.concerns ip)) ∧
      (∀ start, rl.Started ops ip start →
        allowedIn ip start (start+rl.window) (rl.verdicts ops) ≤ maxRequests.toNat) ∧
      ∀ start, allowedIn ip start (start+rl.window) (rl.verdicts ops) ≤ 2*maxRequests.toNat := by
  intro rl
  have hself : ∀ S : IpAddr → Bool, Indistinct S 0 rl rl := fun S => ⟨rfl,rfl,fun _ _ => .inl rfl⟩
  have hnow : ∀ op ∈ ops, 0 ≤ op.1 := fun _ _ => Nat.zero_le _
  refine ⟨?_,fun ip => ⟨?_,?_⟩⟩
  · have hall := verdicts_filter (fun _ => true) RateOp.isCheck (fun _ _ => rfl) ops hops hnow
      (hself _) hmax
    simpa using hall
  · have hone := verdicts_filter (fun ip' => decide (ip' = ip)) (RateOp.concerns ip)
      (fun ip' hip => hip) ops hops hnow (hself _) hmax
    rw [hone,List.filter_eq_self]
    intro v hv
    obtain ⟨time,hop⟩ := verdicts_mem hv
    exact (List.mem_filter.mp hop).2
  · simp only [allowedIn_verdicts]
    rcases Nat.eq_zero_or_pos rl.window with hzero | hwindow
    · rw [hzero]
      refine ⟨fun start _ => ?_,fun start => ?_⟩
      · rw [countP_empty_interval]
        exact Nat.zero_le _
      · rw [countP_empty_interval]
        exact Nat.zero_le _
    · have hstart : Accounted rl.window rl.maxRequests 0 [] (rl.buckets.lookup ip) :=
        .nil rl.window rl.maxRequests 0
      obtain ⟨last,hlast⟩ := accounted_run hwindow hmax hstart hops hnow
      rw [List.nil_append] at hlast
      refine ⟨?_,fun start => ?_⟩
      · rintro start ⟨pre,⟨rest,rfl⟩,count,hbucket⟩
        have hpre : (pre.map Prod.fst).Pairwise (· ≤ ·) := by
          rw [List.map_append,List.pairwise_append] at hops
          exact hops.1
        obtain ⟨time,htime⟩ := accounted_run hwindow hmax hstart hpre (fun _ _ => Nat.zero_le _)
        obtain ⟨_,e,he,hsame⟩ := htime.started _ hbucket
        apply hlast.windowed.count_window
        rw [admitted_append]
        exact ⟨e,List.mem_append_left _ he,hsame⟩
      · have hlimit : rl.maxRequests = maxRequests := rfl
        have hinterval := hlast.windowed.count_interval start
        rw [hlimit] at hinterval
        omega

/-- Three requests in a window of a second that allows two, and a cleanup before the last one. -/
theorem rate_limit_per_address_example :
    let rl : RateLimiterState Nat := new 2 1
    let ops : List (Nat × RateOp Nat) := [(0,.check 7),(1,.check 7),(2,.check 8),(3,.check 7),
      (10^9,.cleanup),(10^9,.check 7)]
    rl.verdicts ops = rl.verdicts (ops.filter (fun op => op.2.isCheck)) ∧
    ∀ ip, (rl.verdicts ops).filter (fun v => decide (v.ip = ip)) =
        rl.verdicts (ops.filter (fun op => op.2.concerns ip)) ∧
      (∀ start, rl.Started ops ip start →
        allowedIn ip start (start+rl.window) (rl.verdicts ops) ≤ 2) ∧
      ∀ start, allowedIn ip start (start+rl.window) (rl.verdicts ops) ≤ 4 :=
  rate_limit_per_address 2 1 _ (by decide) (by decide)

end RateLimiterState

end OpenBroadcast.Delivery
