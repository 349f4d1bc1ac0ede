import OpenBroadcast.Delivery.RateLimiter
import OpenBroadcast.Framework.MapSizes
import OpenBroadcast.Framework.Overflow
import OpenBroadcast.Framework.Run

namespace OpenBroadcast.Delivery

/-- Where the cleanup task stands: before a tick, after its first count, after the eviction, or dead
of a panic. -/
inductive CleanupStage where
  | waiting
  | counted (before : Nat)
  | cleaned (before : Nat)
  | panicked
  deriving DecidableEq, Repr

inductive CleanupEvent (IpAddr : Type) where
  | check (ip : IpAddr)
  | task
  deriving DecidableEq, Repr

/-- The rate limiter and its cleanup task. Recorded besides: the clients that have got a bucket
since the first count, the buckets evicted since, and what has been reported. -/
structure RateCleanup (IpAddr : Type) where
  limiter : RateLimiterState IpAddr
  stage : CleanupStage
  created : Nat
  evicted : Nat
  reported : List Nat

namespace RateLimiterState

variable {IpAddr : Type} [DecidableEq IpAddr] {rl : RateLimiterState IpAddr} {now : Nat}
  {ip : IpAddr}

/-- The buckets whose window is over. -/
def expired (rl : RateLimiterState IpAddr) (now : Nat) : Finset IpAddr :=
  rl.buckets.keys.filter
    (fun ip => ¬ (rl.buckets.lookup ip).any (fun entry => decide (now-entry.2 < rl.window)) = true)

theorem trackedCount_cleanup (rl : RateLimiterState IpAddr) (now : Nat) :
    (rl.cleanupExpired now).trackedCount+(rl.expired now).card = rl.trackedCount :=
  HashMap.card_retain rl.buckets _

theorem trackedCount_check (rl : RateLimiterState IpAddr) (ip : IpAddr) (now : Nat) :
    (rl.checkRateLimit ip now).2.trackedCount =
      rl.trackedCount+(if ip ∈ rl.buckets then 0 else 1) := by
  rw [checkRateLimit_eq]
  show (rl.buckets.insert ip _).keys.card = _
  split_ifs with hmem
  · exact HashMap.card_insert_of_mem hmem _
  · exact HashMap.card_insert_of_notMem hmem _

end RateLimiterState

namespace RateCleanup

variable {IpAddr : Type} [DecidableEq IpAddr]

omit [DecidableEq IpAddr] in
def start (rl : RateLimiterState IpAddr) : RateCleanup IpAddr := ⟨rl,.waiting,0,0,[]⟩

/-- A request takes the lock once, and so does each of the three steps of the task. -/
def step (o : Overflow) (s : RateCleanup IpAddr) : Nat × CleanupEvent IpAddr → RateCleanup IpAddr
  | (now,.check ip) =>
    { s with
      limiter := (s.limiter.checkRateLimit ip now).2
      created := s.created+(if ip ∈ s.limiter.buckets then 0 else 1) }
  | (now,.task) =>
    match s.stage with
    | .waiting =>
      { s with stage := .counted s.limiter.trackedCount, created := 0, evicted := 0 }
    | .counted before =>
      { s with
        limiter := s.limiter.cleanupExpired now
        stage := .cleaned before
        evicted := (s.limiter.expired now).card }
    | .cleaned before =>
      match o.subUsize before s.limiter.trackedCount with
      | some removed => { s with stage := .waiting, reported := s.reported++[removed] }
      | none => { s with stage := .panicked }
    | .panicked => s

/-- The second count, where the task comes to it, is not more than the first one, the task goes on,
and what it reports is no more than it has evicted. -/
def Sound (o : Overflow) (s : RateCleanup IpAddr) (e : Nat × CleanupEvent IpAddr) : Prop :=
  ∀ before, s.stage = .cleaned before → e.2 = .task →
    s.limiter.trackedCount ≤ before ∧ (s.step o e).stage = .waiting ∧
      ∃ removed, (s.step o e).reported = s.reported++[removed] ∧ removed ≤ s.evicted

/-- No more clients have got a bucket between the two counts than buckets were evicted. -/
def Outweighs (s : RateCleanup IpAddr) (e : Nat × CleanupEvent IpAddr) : Prop :=
  ∀ before, s.stage = .cleaned before → e.2 = .task → s.created ≤ s.evicted

/-- What the counts of a round have to do with the clients that come and go meanwhile. -/
def Balanced (s : RateCleanup IpAddr) : Prop :=
  (∀ before, s.stage = .counted before → s.limiter.trackedCount = before+s.created) ∧
    ∀ before, s.stage = .cleaned before → s.limiter.trackedCount+s.evicted = before+s.created

variable {o : Overflow} {s : RateCleanup IpAddr}

theorem step_balanced (h : s.Balanced) (e : Nat × CleanupEvent IpAddr) :
    (s.step o e).Balanced := by
  obtain ⟨now,e⟩ := e
  obtain ⟨hcounted,hcleaned⟩ := h
  cases e with
  | check ip =>
    have htracked := s.limiter.trackedCount_check ip now
    constructor
    · intro before hstage
      have hold := hcounted before hstage
      simp only [step] at htracked ⊢
      omega
    · intro before hstage
      have hold := hcleaned before hstage
      simp only [step] at htracked ⊢
      omega
  | task =>
    cases hstage : s.stage with
    | waiting =>
      constructor
      · intro before hnext
        simp only [step,hstage,CleanupStage.counted.injEq] at hnext ⊢
        omega
      · intro before hnext
        simp [step,hstage] at hnext
    | counted first =>
      have hold := hcounted first hstage
      have hevicted := s.limiter.trackedCount_cleanup now
      constructor
      · intro before hnext
        simp [step,hstage] at hnext
      · intro before hnext
        simp only [step,hstage,CleanupStage.cleaned.injEq] at hnext ⊢
        omega
    | cleaned first =>
      cases hsub : o.subUsize first s.limiter.trackedCount with
      | some removed =>
        constructor
        · intro before hnext
          simp [step,hstage,hsub] at hnext
        · intro before hnext
          simp [step,hstage,hsub] at hnext
      | none =>
        constructor
        · intro before hnext
          simp [step,hstage,hsub] at hnext
        · intro before hnext
          simp [step,hstage,hsub] at hnext
    | panicked =>
      constructor
      · intro before hnext
        simp [step,hstage] at hnext
      · intro before hnext
        simp [step,hstage] at hnext

theorem sound_iff (h : s.Balanced) (e : Nat × CleanupEvent IpAddr) :
    s.Sound o e ↔ s.Outweighs e := by
  obtain ⟨now,e⟩ := e
  constructor
  · intro hsound before hstage htask
    have hle := (hsound before hstage htask).1
    have hbalance := h.2 before hstage
    omega
  · intro hroom before hstage htask
    have hfew := hroom before hstage htask
    have hbalance := h.2 before hstage
    have hle : s.limiter.trackedCount ≤ before := by omega
    have hsub := o.subUsize_of_le hle
    have htask' : e = .task := htask
    subst htask'
    refine ⟨hle,by simp [step,hstage,hsub],before-s.limiter.trackedCount,?_,by omega⟩
    simp [step,hstage,hsub]

/-- The accounting of all rounds is right exactly if in each of them evictions outweigh the clients
that come between the two counts. -/
theorem cleanup_sound_iff (o : Overflow) (rl : RateLimiterState IpAddr)
    (es : List (Nat × CleanupEvent IpAddr)) :
    Along (step o) (Sound o) (start rl) es ↔ Along (step o) Outweighs (start rl) es := by
  apply along_congr_of_invariant Balanced (along_true _ _ es)
  · constructor
    · intro before hstage
      cases hstage
    · intro before hstage
      cases hstage
  · exact fun s e h _ => step_balanced h e
  · exact fun s e h _ => sound_iff h e

/-- A client comes for the first time after the first count, and nothing is evicted. -/
def newClientMeanwhile : List (Nat × CleanupEvent Nat) :=
  [(0,.task),(1,.check 7),(2,.task),(3,.task)]

/-- The task panics, or reports more evictions than there can be clients. -/
theorem new_client_underflows :
    let s := start (RateLimiterState.new 60 60 : RateLimiterState Nat)
    ¬ Along (step .panics) (Sound .panics) s newClientMeanwhile ∧
    ¬ Along (step .wraps) (Sound .wraps) s newClientMeanwhile ∧
    (newClientMeanwhile.foldl (step .panics) s).stage = .panicked ∧
    (newClientMeanwhile.foldl (step .wraps) s).reported = [2^64-1] := by
  intro s
  let last := [(0,.task),(1,.check 7),(2,.task)].foldl (step .wraps) s
  have hstage : last.stage = .cleaned 0 := rfl
  have htracked : last.limiter.trackedCount = 1 := rfl
  have hreported : last.reported = [] := rfl
  refine ⟨?_,?_,rfl,?_⟩
  · rw [cleanup_sound_iff]
    intro h
    exact absurd (h.2.2.2.1 0 rfl rfl) (by decide)
  · rw [cleanup_sound_iff]
    intro h
    exact absurd (h.2.2.2.1 0 rfl rfl) (by decide)
  · show (last.step .wraps (3,.task)).reported = [2^64-1]
    simp [step,hstage,htracked,hreported,Overflow.subUsize]

end RateCleanup

end OpenBroadcast.Delivery
