import Mathlib.Data.List.Induction
import OpenBroadcast.Framework.Fifo
import OpenBroadcast.Framework.Since
import OpenBroadcast.Overlay.TopologyManager

namespace OpenBroadcast.Overlay

/-- An `Instant` is a number of nanoseconds; a difference below zero is zero, as
`duration_since` has it. -/
structure ConnectionHealth where
  quality : Float32
  successRate : Float32
  lastSuccess : Nat
  consecutiveFailures : Nat
  history : List (Nat × Float32)
  lastChecked : Nat
  isDegraded : Bool

namespace ConnectionHealth

/-- The clock is read once for a record. -/
def default (now : Nat) : ConnectionHealth := ⟨1.0,1.0,now,0,[],now,false⟩

def addToHistory (h : ConnectionHealth) (now : Nat) (quality : Float32) : ConnectionHealth :=
  let history := h.history++[(now,quality)]
  { h with history := if history.length > 10 then history.tail else history }

/-- A sum of `f32` starts at `-0.0`. -/
def mean (history : List (Nat × Float32)) : Float32 :=
  (history.map Prod.snd).foldl (·+·) (-0.0)/Float32.ofNat history.length

def recalculateQuality (h : ConnectionHealth) : ConnectionHealth :=
  if h.history.isEmpty then { h with quality := h.successRate }
  else { h with quality := mean h.history }

def recordSuccess (h : ConnectionHealth) (now : Nat) : ConnectionHealth :=
  let h := { h with
    lastSuccess := now
    consecutiveFailures := 0
    successRate := h.successRate*0.9+0.1 }
  (h.addToHistory now 1.0).recalculateQuality

def recordFailure (h : ConnectionHealth) (now : Nat) : ConnectionHealth :=
  let h := { h with
    consecutiveFailures := h.consecutiveFailures+1
    successRate := h.successRate*0.9 }
  (h.addToHistory now 0.0).recalculateQuality

def updateDegradedStatus (h : ConnectionHealth) (now : Nat) (qualityThreshold : Float32)
    (maxFailures : Nat) (minSuccessRate : Float32) : ConnectionHealth :=
  { h with
    lastChecked := now
    isDegraded := h.consecutiveFailures > maxFailures || h.quality < qualityThreshold ||
      h.successRate < minSuccessRate }

end ConnectionHealth

/-- The fields of the topology configuration that the health records are kept by. -/
structure HealthConfig where
  minRelayQuality : Float32
  maxConsecutiveFailures : Nat
  minSuccessRate : Float32
  healthRecordExpiry : Nat

def HealthConfig.default : HealthConfig := ⟨0.6,3,0.7,86400000000000⟩

/-- Where a task of `monitor_connection_health` waits: for the next tick, for the lock to check the
first of its peers, or for the lock to remove what had expired when it read the clock. -/
inductive MonitorPhase (PeerId : Type) where
  | ticking
  | checking (peerIds : List PeerId)
  | cleaning (now : Nat)
  | ended

structure Monitor (PeerId : Type) where
  config : HealthConfig
  phase : MonitorPhase PeerId
  aborted : Bool

/-- The peers and trees of a manager with its health records and the tasks that look after them. -/
structure HealthManager (StreamId PeerId : Type) where
  topology : TopologyManager StreamId PeerId
  config : HealthConfig
  connectionHealth : HashMap PeerId ConnectionHealth
  monitors : List (Monitor PeerId)

inductive HealthEvent (StreamId PeerId : Type) where
  | topology (e : ManagerEvent StreamId PeerId)
  | updateConfig (config : HealthConfig)
  | start
  | stop
  | recordConnectionSuccess (p : PeerId) (now : Nat)
  | recordConnectionFailure (p : PeerId) (now : Nat)
  /-- The next step of a task, the clock and the iteration order it may meet. -/
  | monitor (i : Nat) (now : Nat) (order : HashOrder Unit PeerId)
  /-- An aborted task may still take steps before it ends. -/
  | ended (i : Nat)

namespace HealthManager

variable {StreamId PeerId : Type} [DecidableEq StreamId] [DecidableEq PeerId]

def new (config : ManagerConfig) (health : HealthConfig) : HealthManager StreamId PeerId :=
  ⟨.new config,health,∅,[]⟩

def recordConnectionSuccess (m : HealthManager StreamId PeerId) (p : PeerId) (now : Nat) :
    HealthManager StreamId PeerId :=
  let health := (m.connectionHealth.lookup p).getD (.default now)
  let health := health.recordSuccess now
  let health :=
    if health.quality ≥ m.config.minRelayQuality then { health with isDegraded := false }
    else health
  { m with connectionHealth := m.connectionHealth.insert p health }

def recordConnectionFailure (m : HealthManager StreamId PeerId) (p : PeerId) (now : Nat) :
    HealthManager StreamId PeerId :=
  let health := (m.connectionHealth.lookup p).getD (.default now)
  let health := health.recordFailure now
  let health :=
    if health.consecutiveFailures ≥ m.config.maxConsecutiveFailures then
      { health with isDegraded := true }
    else health
  { m with connectionHealth := m.connectionHealth.insert p health }

def cleanupHealthRecords (health : HashMap PeerId ConnectionHealth) (now maxAge : Nat) :
    HashMap PeerId ConnectionHealth :=
  health.retain (fun _ h => !decide (now-h.lastChecked > maxAge))

def setPhase (m : HealthManager StreamId PeerId) (i : Nat) (phase : MonitorPhase PeerId) :
    HealthManager StreamId PeerId :=
  { m with monitors := m.monitors.modify i (fun t => { t with phase := phase }) }

def monitorConnectionHealth (m : HealthManager StreamId PeerId) (i : Nat) (t : Monitor PeerId)
    (now : Nat) (order : HashOrder Unit PeerId) : HealthManager StreamId PeerId :=
  match t.phase with
  | .ticking => m.setPhase i (.checking (order.order () m.topology.peers))
  | .checking (p::peerIds) =>
    let health := (m.connectionHealth.lookup p).getD (.default now)
    let health := health.updateDegradedStatus now t.config.minRelayQuality
      t.config.maxConsecutiveFailures t.config.minSuccessRate
    { m.setPhase i (.checking peerIds) with
      connectionHealth := m.connectionHealth.insert p health }
  | .checking [] => m.setPhase i (.cleaning now)
  | .cleaning now =>
    { m.setPhase i .ticking with
      connectionHealth := cleanupHealthRecords m.connectionHealth now t.config.healthRecordExpiry }
  | .ended => m

def step (debug : StreamId → String) (m : HealthManager StreamId PeerId) :
    HealthEvent StreamId PeerId → HealthManager StreamId PeerId
  | .topology e => { m with topology := m.topology.step debug e }
  | .updateConfig config => { m with config := config }
  | .start => { m with monitors := m.monitors++[⟨m.config,.ticking,false⟩] }
  | .stop => { m with monitors := m.monitors.map (fun t => { t with aborted := true }) }
  | .recordConnectionSuccess p now => m.recordConnectionSuccess p now
  | .recordConnectionFailure p now => m.recordConnectionFailure p now
  | .monitor i now order =>
    match m.monitors[i]? with
    | some t => m.monitorConnectionHealth i t now order
    | none => m
  | .ended i =>
    match m.monitors[i]? with
    | some t => if t.aborted then m.setPhase i .ended else m
    | none => m

def run (debug : StreamId → String) (config : ManagerConfig) (health : HealthConfig)
    (es : List (HealthEvent StreamId PeerId)) : HealthManager StreamId PeerId :=
  es.foldl (step debug) (new config health)

end HealthManager

/-- What can be done to one record, with what it is done by. -/
inductive HealthAct where
  | succeeded (now : Nat) (minRelayQuality : Float32)
  | failed (now : Nat) (maxConsecutiveFailures : Nat)
  | checked (now : Nat) (config : HealthConfig)

namespace HealthAct

def time : HealthAct → Nat
  | succeeded now _ => now
  | failed now _ => now
  | checked now _ => now

/-- The outcome of a connection and when it was recorded. -/
def outcome : HealthAct → Option (Nat × Bool)
  | succeeded now _ => some (now,true)
  | failed now _ => some (now,false)
  | checked _ _ => none

def check : HealthAct → Option Nat
  | checked now _ => some now
  | _ => none

end HealthAct

namespace Outcomes

/-! What a list of outcomes comes to, the oldest first. -/

def measure (x : Nat × Bool) : Nat × Float32 := (x.1,if x.2 then 1.0 else 0.0)

def measures (o : List (Nat × Bool)) : List (Nat × Float32) := (o.drop (o.length-10)).map measure

def quality (o : List (Nat × Bool)) : Float32 :=
  if o = [] then 1.0 else ConnectionHealth.mean (measures o)

def successRate (o : List (Nat × Bool)) : Float32 :=
  o.foldl (fun r x => if x.2 then r*0.9+0.1 else r*0.9) 1.0

def failures (o : List (Nat × Bool)) : Nat := (o.reverse.takeWhile (fun x => !x.2)).length

def successes (o : List (Nat × Bool)) : List Nat := (o.filter Prod.snd).map Prod.fst

end Outcomes

namespace HealthAct

def outcomes (acts : List HealthAct) : List (Nat × Bool) := acts.filterMap outcome

/-- Whether a peer counts as degraded after what was done to its record, the newest first. -/
def degraded : List HealthAct → Bool
  | [] => false
  | a::older =>
    let o := outcomes (a::older).reverse
    match a with
    | succeeded _ minRelayQuality =>
      degraded older && !decide (Outcomes.quality o ≥ minRelayQuality)
    | failed _ maxConsecutiveFailures =>
      degraded older || decide (Outcomes.failures o ≥ maxConsecutiveFailures)
    | checked _ config =>
      Outcomes.failures o > config.maxConsecutiveFailures ||
        Outcomes.quality o < config.minRelayQuality ||
        Outcomes.successRate o < config.minSuccessRate

end HealthAct

namespace ConnectionHealth

/-- The record that was made at a time and to which all this has been done since. -/
def describe (made : Nat) (acts : List HealthAct) : ConnectionHealth :=
  let o := HealthAct.outcomes acts
  { quality := Outcomes.quality o
    successRate := Outcomes.successRate o
    lastSuccess := (Outcomes.successes o).getLastD made
    consecutiveFailures := Outcomes.failures o
    history := Outcomes.measures o
    lastChecked := (acts.filterMap HealthAct.check).getLastD made
    isDegraded := HealthAct.degraded acts.reverse }

def act (h : ConnectionHealth) : HealthAct → ConnectionHealth
  | .succeeded now minRelayQuality =>
    let h := h.recordSuccess now
    if h.quality ≥ minRelayQuality then { h with isDegraded := false } else h
  | .failed now maxConsecutiveFailures =>
    let h := h.recordFailure now
    if h.consecutiveFailures ≥ maxConsecutiveFailures then { h with isDegraded := true } else h
  | .checked now config =>
    h.updateDegradedStatus now config.minRelayQuality config.maxConsecutiveFailures
      config.minSuccessRate

@[simp] theorem act_checked (h : ConnectionHealth) (now : Nat) (config : HealthConfig) :
    (h.act (.checked now config)).lastChecked = now := rfl

@[simp] theorem act_succeeded (h : ConnectionHealth) (now : Nat) (minRelayQuality : Float32) :
    (h.act (.succeeded now minRelayQuality)).lastChecked = h.lastChecked := by
  simp only [act,recordSuccess,addToHistory,recalculateQuality]
  split_ifs <;> rfl

@[simp] theorem act_failed (h : ConnectionHealth) (now maxConsecutiveFailures : Nat) :
    (h.act (.failed now maxConsecutiveFailures)).lastChecked = h.lastChecked := by
  simp only [act,recordFailure,addToHistory,recalculateQuality]
  split_ifs <;> rfl

theorem describe_nil (made : Nat) : describe made [] = default made := rfl

theorem measures_snoc (o : List (Nat × Bool)) (x : Nat × Bool) :
    Outcomes.measures (o++[x]) =
      let history := Outcomes.measures o++[Outcomes.measure x]
      if history.length > 10 then history.tail else history := by
  have last : ∀ o, Outcomes.measures o =
      (o.map Outcomes.measure).drop ((o.map Outcomes.measure).length-10) := by
    simp [Outcomes.measures]
  have window := slide (o.map Outcomes.measure) 10 (Outcomes.measure x)
  rw [last,last,List.map_append]
  exact window.symm

/-- What an outcome makes of a record that is about those before it. -/
theorem recalculated {h : ConnectionHealth} {o : List (Nat × Bool)} (x : Nat × Bool)
    (hhistory : h.history = Outcomes.measures o) :
    (h.addToHistory x.1 (if x.2 then 1.0 else 0.0)).recalculateQuality =
      { h with
        history := Outcomes.measures (o++[x])
        quality := Outcomes.quality (o++[x]) } := by
  have window := measures_snoc o x
  have size : 0 < (Outcomes.measures (o++[x])).length := by
    simp only [Outcomes.measures,List.length_map,List.length_drop,List.length_append,
      List.length_singleton]
    omega
  have nonempty : (Outcomes.measures (o++[x])).isEmpty = false :=
    List.isEmpty_eq_false_iff.2 (List.ne_nil_of_length_pos size)
  have added : h.addToHistory x.1 (if x.2 then 1.0 else 0.0) =
      { h with history := Outcomes.measures (o++[x]) } := by
    rw [window,addToHistory,hhistory]
    rfl
  simp [added,recalculateQuality,nonempty,Outcomes.quality]

theorem recordSuccess_eq {h : ConnectionHealth} {o : List (Nat × Bool)} (now : Nat)
    (hhistory : h.history = Outcomes.measures o) :
    h.recordSuccess now =
      { h with
        quality := Outcomes.quality (o++[(now,true)])
        successRate := h.successRate*0.9+0.1
        lastSuccess := now
        consecutiveFailures := 0
        history := Outcomes.measures (o++[(now,true)]) } :=
  recalculated (now,true) hhistory

theorem recordFailure_eq {h : ConnectionHealth} {o : List (Nat × Bool)} (now : Nat)
    (hhistory : h.history = Outcomes.measures o) :
    h.recordFailure now =
      { h with
        quality := Outcomes.quality (o++[(now,false)])
        successRate := h.successRate*0.9
        consecutiveFailures := h.consecutiveFailures+1
        history := Outcomes.measures (o++[(now,false)]) } :=
  recalculated (now,false) hhistory

theorem describe_snoc (made : Nat) (acts : List HealthAct) (a : HealthAct) :
    describe made (acts++[a]) = (describe made acts).act a := by
  cases a with
  | checked now config =>
    have same : HealthAct.outcomes (acts++[.checked now config]) = HealthAct.outcomes acts := by
      simp [HealthAct.outcomes,HealthAct.outcome]
    simp [describe,act,updateDegradedStatus,same,HealthAct.check,HealthAct.degraded]
  | succeeded now minRelayQuality =>
    have grown : HealthAct.outcomes (acts++[.succeeded now minRelayQuality]) =
        HealthAct.outcomes acts++[(now,true)] := by
      simp [HealthAct.outcomes,HealthAct.outcome]
    have record := recordSuccess_eq (h := describe made acts) now rfl
    simp only [act,record]
    split_ifs with hgood <;>
    simp [describe,grown,Outcomes.successRate,Outcomes.successes,Outcomes.failures,
      HealthAct.check,HealthAct.degraded,hgood]
  | failed now maxConsecutiveFailures =>
    have grown : HealthAct.outcomes (acts++[.failed now maxConsecutiveFailures]) =
        HealthAct.outcomes acts++[(now,false)] := by
      simp [HealthAct.outcomes,HealthAct.outcome]
    have record := recordFailure_eq (h := describe made acts) now rfl
    have longer : Outcomes.failures (HealthAct.outcomes acts++[(now,false)]) =
        (describe made acts).consecutiveFailures+1 := by
      simp [describe,Outcomes.failures]
    simp only [act,record]
    split_ifs with hbad <;>
    rw [← longer] at hbad <;>
    simp [describe,grown,Outcomes.successRate,Outcomes.successes,HealthAct.check,
      HealthAct.degraded,hbad] <;>
    exact longer

/-- A failure marks a peer when as many have come as are allowed, a check only when more have: what
the one marks at the bound the other takes back, unless the quality or the rate is too low. -/
theorem check_unmarks_iff {acts : List HealthAct} (hclear : HealthAct.degraded acts.reverse = false)
    (made now later : Nat) (config : HealthConfig) :
    let marked := describe made (acts++[.failed now config.maxConsecutiveFailures])
    marked.isDegraded = true ∧ (marked.act (.checked later config)).isDegraded = false ↔
      marked.consecutiveFailures = config.maxConsecutiveFailures ∧
        ¬ marked.quality < config.minRelayQuality ∧
        ¬ marked.successRate < config.minSuccessRate := by
  intro marked
  have hmarked : marked.isDegraded =
      decide (marked.consecutiveFailures ≥ config.maxConsecutiveFailures) := by
    simp [marked,describe,HealthAct.degraded,hclear]
  have hchecked : (marked.act (.checked later config)).isDegraded =
      (decide (marked.consecutiveFailures > config.maxConsecutiveFailures) ||
        decide (marked.quality < config.minRelayQuality) ||
        decide (marked.successRate < config.minSuccessRate)) := rfl
  rw [hmarked,hchecked]
  simp only [decide_eq_true_eq,Bool.or_eq_false_iff,decide_eq_false_iff_not,and_assoc]
  constructor
  · rintro ⟨hge,hle,hquality,hrate⟩
    exact ⟨by omega,hquality,hrate⟩
  · rintro ⟨heq,hquality,hrate⟩
    exact ⟨by omega,by omega,hquality,hrate⟩

end ConnectionHealth

namespace HealthManager

variable {StreamId PeerId : Type} [DecidableEq StreamId] [DecidableEq PeerId]

/-- What an event does to the record of a peer. -/
def acts (p : PeerId) (m : HealthManager StreamId PeerId) :
    HealthEvent StreamId PeerId → Option HealthAct
  | .recordConnectionSuccess q now =>
    if p = q then some (.succeeded now m.config.minRelayQuality) else none
  | .recordConnectionFailure q now =>
    if p = q then some (.failed now m.config.maxConsecutiveFailures) else none
  | .monitor i now _ =>
    match m.monitors[i]? with
    | some ⟨config,.checking (q::_),_⟩ => if p = q then some (.checked now config) else none
    | _ => none
  | _ => none

/-- The clock and the greatest age by which an event removes records. -/
def cleanup (m : HealthManager StreamId PeerId) : HealthEvent StreamId PeerId → Option (Nat × Nat)
  | .monitor i _ _ =>
    match m.monitors[i]? with
    | some ⟨config,.cleaning now,_⟩ => some (now,config.healthRecordExpiry)
    | _ => none
  | _ => none

def Expires (m : HealthManager StreamId PeerId) (e : HealthEvent StreamId PeerId) (made : Nat) :
    Prop :=
  ∃ now maxAge, cleanup m e = some (now,maxAge) ∧ maxAge < now-made

theorem lookup_step (debug : StreamId → String) (m : HealthManager StreamId PeerId)
    (e : HealthEvent StreamId PeerId) (p : PeerId) (h : ConnectionHealth) :
    (step debug m e).connectionHealth.lookup p = some h ↔
      (∃ a, acts p m e = some a ∧
        h = ((m.connectionHealth.lookup p).getD (.default a.time)).act a) ∨
      (acts p m e = none ∧ m.connectionHealth.lookup p = some h ∧ ¬ Expires m e h.lastChecked) := by
  cases e with
  | topology e => simp [step,acts,Expires,cleanup]
  | updateConfig config => simp [step,acts,Expires,cleanup]
  | start => simp [step,acts,Expires,cleanup]
  | stop => simp [step,acts,Expires,cleanup]
  | ended i =>
    have frame : (step debug m (.ended i)).connectionHealth = m.connectionHealth := by
      simp only [step]
      split
      · split <;> rfl
      · rfl
    simp [frame,acts,Expires,cleanup]
  | recordConnectionSuccess q now =>
    by_cases hq : p = q
    · subst hq
      simp [step,recordConnectionSuccess,acts,HealthAct.time,ConnectionHealth.act,eq_comm]
    · simp [step,recordConnectionSuccess,acts,Expires,cleanup,hq]
  | recordConnectionFailure q now =>
    by_cases hq : p = q
    · subst hq
      simp [step,recordConnectionFailure,acts,HealthAct.time,ConnectionHealth.act,eq_comm]
    · simp [step,recordConnectionFailure,acts,Expires,cleanup,hq]
  | monitor i now order =>
    cases ht : m.monitors[i]? with
    | none => simp [step,acts,Expires,cleanup,ht]
    | some t =>
      obtain ⟨config,phase,aborted⟩ := t
      cases phase with
      | ticking => simp [step,monitorConnectionHealth,setPhase,acts,Expires,cleanup,ht]
      | ended => simp [step,monitorConnectionHealth,acts,Expires,cleanup,ht]
      | checking peerIds =>
        cases peerIds with
        | nil => simp [step,monitorConnectionHealth,setPhase,acts,Expires,cleanup,ht]
        | cons q peerIds =>
          by_cases hq : p = q
          · subst hq
            simp [step,monitorConnectionHealth,acts,ht,HealthAct.time,ConnectionHealth.act,eq_comm]
          · simp [step,monitorConnectionHealth,setPhase,acts,Expires,cleanup,ht,hq]
      | cleaning cutoff =>
        simp [step,monitorConnectionHealth,acts,Expires,cleanup,ht,cleanupHealthRecords,
          HashMap.lookup_retain,Option.filter_eq_some_iff]

section Records

variable (debug : StreamId → String) (config : ManagerConfig) (health : HealthConfig)
  (p : PeerId)

/-- What is done to the record of a peer over a run. -/
def history (m : HealthManager StreamId PeerId) (es : List (HealthEvent StreamId PeerId)) :
    List HealthAct :=
  collect (step debug) (fun m e => (acts p m e).toList) m es

omit [DecidableEq StreamId] in
theorem mem_connectionHealth {m : HealthManager StreamId PeerId} :
    p ∈ m.connectionHealth ↔ ∃ h, m.connectionHealth.lookup p = some h := by
  rw [← Finmap.lookup_isSome,Option.isSome_iff_exists]

/-- A record begins with the first thing that is done to it. -/
theorem lookup_made {m : HealthManager StreamId PeerId} {e : HealthEvent StreamId PeerId}
    {a : HealthAct} (habsent : p ∉ m.connectionHealth) (ha : acts p m e = some a) :
    (step debug m e).connectionHealth.lookup p =
      some (ConnectionHealth.describe a.time [a]) := by
  have hnone : m.connectionHealth.lookup p = none := Finmap.lookup_eq_none.mpr habsent
  have first := ConnectionHealth.describe_snoc a.time [] a
  rw [ConnectionHealth.describe_nil,List.nil_append] at first
  exact (lookup_step debug m e p _).mpr (.inl ⟨a,ha,by rw [first,hnone,Option.getD_none]⟩)

theorem acts_of_made {m : HealthManager StreamId PeerId} {e : HealthEvent StreamId PeerId}
    (habsent : p ∉ m.connectionHealth) (hmade : p ∈ (step debug m e).connectionHealth) :
    ∃ a, acts p m e = some a := by
  obtain ⟨h,hlookup⟩ := (mem_connectionHealth p).mp hmade
  rcases (lookup_step debug m e p h).mp hlookup with ⟨a,ha,_⟩ | ⟨_,hold,_⟩
  · exact ⟨a,ha⟩
  · exact absurd ((mem_connectionHealth p).mpr ⟨h,hold⟩) habsent

theorem lookup_kept {m : HealthManager StreamId PeerId} {e : HealthEvent StreamId PeerId}
    {made : Nat} {l : List HealthAct}
    (hrecord : m.connectionHealth.lookup p = some (ConnectionHealth.describe made l))
    (hkept : p ∈ (step debug m e).connectionHealth) :
    (step debug m e).connectionHealth.lookup p =
      some (ConnectionHealth.describe made (l++(acts p m e).toList)) := by
  obtain ⟨h,hlookup⟩ := (mem_connectionHealth p).mp hkept
  rcases (lookup_step debug m e p h).mp hlookup with ⟨a,ha,hact⟩ | ⟨ha,hold,_⟩
  · rw [hlookup,hact,hrecord,Option.getD_some,ha,Option.toList_some,
      ConnectionHealth.describe_snoc]
  · rw [hlookup,ha,Option.toList_none,List.append_nil,← hrecord,hold]

theorem lookup_kept_run {m : HealthManager StreamId PeerId} {es : List (HealthEvent StreamId PeerId)}
    {made : Nat} {l : List HealthAct}
    (hrecord : m.connectionHealth.lookup p = some (ConnectionHealth.describe made l))
    (hkept : Along (step debug) (fun m e => p ∈ (step debug m e).connectionHealth) m es) :
    (es.foldl (step debug) m).connectionHealth.lookup p =
      some (ConnectionHealth.describe made (l++history debug p m es)) := by
  induction es generalizing m l with
  | nil => simpa [history] using hrecord
  | cons e es ih =>
    have first := lookup_kept debug p hrecord hkept.1
    have rest := ih first hkept.2
    simpa [history,List.append_assoc] using rest

/-- A record says what has been done to it since it was made, whatever the tasks, the other peers
and the changes of the configuration have done in between. -/
theorem records_run (es : List (HealthEvent StreamId PeerId)) (h : ConnectionHealth) :
    (run debug config health es).connectionHealth.lookup p = some h ↔
      ∃ pre e post a, es = pre++e::post ∧
        p ∉ (run debug config health pre).connectionHealth ∧
        acts p (run debug config health pre) e = some a ∧
        Along (step debug) (fun m e => p ∈ (step debug m e).connectionHealth)
          (run debug config health (pre++[e])) post ∧
        h = ConnectionHealth.describe a.time
          (a::history debug p (run debug config health (pre++[e])) post) := by
  have hstart : p ∉ (new config health : HealthManager StreamId PeerId).connectionHealth :=
    Finmap.notMem_empty
  have hstep (m : HealthManager StreamId PeerId) (e : HealthEvent StreamId PeerId) :
      p ∈ (step debug m e).connectionHealth ↔
        (p ∉ m.connectionHealth ∧ p ∈ (step debug m e).connectionHealth) ∨
          p ∈ m.connectionHealth ∧ ¬ p ∉ (step debug m e).connectionHealth := by
    tauto
  have since := holds_iff_since_of_not
    (P := fun m : HealthManager StreamId PeerId => p ∈ m.connectionHealth) hstep hstart es
  have made {pre : List (HealthEvent StreamId PeerId)} {e : HealthEvent StreamId PeerId}
      {post : List (HealthEvent StreamId PeerId)} {a : HealthAct}
      (habsent : p ∉ (run debug config health pre).connectionHealth)
      (ha : acts p (run debug config health pre) e = some a)
      (hkept : Along (step debug) (fun m e => p ∈ (step debug m e).connectionHealth)
        (run debug config health (pre++[e])) post) :
      (run debug config health (pre++e::post)).connectionHealth.lookup p =
        some (ConnectionHealth.describe a.time
          (a::history debug p (run debug config health (pre++[e])) post)) := by
    have first := lookup_made debug p habsent ha
    have hstate : step debug (run debug config health pre) e =
        run debug config health (pre++[e]) := by
      simp [run]
    rw [hstate] at first
    have rest := lookup_kept_run debug p first hkept
    have hend : post.foldl (step debug) (run debug config health (pre++[e])) =
        run debug config health (pre++e::post) := by
      simp [run]
    rwa [hend] at rest
  constructor
  · intro hlookup
    obtain ⟨pre,e,post,rfl,⟨habsent,hmade⟩,hkept⟩ :=
      since.mp ((mem_connectionHealth p).mpr ⟨h,hlookup⟩)
    obtain ⟨a,ha⟩ := acts_of_made debug p habsent hmade
    have hpost : Along (step debug) (fun m e => p ∈ (step debug m e).connectionHealth)
        (run debug config health (pre++[e])) post :=
      hkept.imp (fun _ => True) trivial (fun _ _ _ _ => trivial) (fun _ _ _ h => not_not.mp h)
    have hdescribed := made habsent ha hpost
    rw [hlookup] at hdescribed
    exact ⟨pre,e,post,a,rfl,habsent,ha,hpost,Option.some.inj hdescribed⟩
  · rintro ⟨pre,e,post,a,rfl,habsent,ha,hkept,rfl⟩
    exact made habsent ha hkept

/-- When an event sets a record's age to zero: it is made or checked. -/
def renewed (m : HealthManager StreamId PeerId) (e : HealthEvent StreamId PeerId) : Option Nat :=
  match acts p m e with
  | some (.checked now _) => some now
  | some a => if p ∈ m.connectionHealth then none else some a.time
  | none => none

omit [DecidableEq StreamId] in
theorem cleanup_of_acts {m : HealthManager StreamId PeerId} {e : HealthEvent StreamId PeerId}
    {a : HealthAct} (h : acts p m e = some a) : cleanup m e = none := by
  cases e with
  | monitor i now order =>
    simp only [acts] at h
    split at h
    · next ht => simp [cleanup,ht]
    · cases h
  | _ => rfl

/-- What has been done to a record says how old it is: only making and checking it count, and
what is recorded of its connections does not. -/
theorem lastChecked_step (m : HealthManager StreamId PeerId) (e : HealthEvent StreamId PeerId)
    (made : Nat) :
    ((step debug m e).connectionHealth.lookup p).map (·.lastChecked) = some made ↔
      renewed p m e = some made ∨
        (m.connectionHealth.lookup p).map (·.lastChecked) = some made ∧
          ¬ (renewed p m e ≠ none ∨ Expires m e made) := by
  cases hacts : acts p m e with
  | none =>
    have hrenewed : renewed p m e = none := by simp [renewed,hacts]
    rw [hrenewed,Option.map_eq_some_iff,Option.map_eq_some_iff]
    constructor
    · rintro ⟨h,hlookup,rfl⟩
      rcases (lookup_step debug m e p h).mp hlookup with ⟨a,ha,_⟩ | ⟨_,hold,hkept⟩
      · rw [hacts] at ha
        cases ha
      · exact .inr ⟨⟨h,hold,rfl⟩,by simpa using hkept⟩
    · rintro (hfirst | ⟨⟨h,hold,rfl⟩,hkept⟩)
      · cases hfirst
      · exact ⟨h,(lookup_step debug m e p h).mpr (.inr ⟨hacts,hold,by simpa using hkept⟩),rfl⟩
  | some a =>
    have hexpires : ¬ Expires m e made := by
      simp [Expires,cleanup_of_acts p hacts]
    have hlookup := (lookup_step debug m e p _).mpr (.inl ⟨a,hacts,rfl⟩)
    rw [hlookup,Option.map_some]
    cases a with
    | checked now config =>
      simp [renewed,hacts]
    | succeeded now minRelayQuality =>
      cases hold : m.connectionHealth.lookup p with
      | none =>
        have hp : p ∉ m.connectionHealth := Finmap.lookup_eq_none.mp hold
        simp [renewed,hacts,hp,HealthAct.time,ConnectionHealth.default]
      | some h =>
        have hp : p ∈ m.connectionHealth := (mem_connectionHealth p).mpr ⟨h,hold⟩
        simp [renewed,hacts,hp,hexpires]
    | failed now maxConsecutiveFailures =>
      cases hold : m.connectionHealth.lookup p with
      | none =>
        have hp : p ∉ m.connectionHealth := Finmap.lookup_eq_none.mp hold
        simp [renewed,hacts,hp,HealthAct.time,ConnectionHealth.default]
      | some h =>
        have hp : p ∈ m.connectionHealth := (mem_connectionHealth p).mpr ⟨h,hold⟩
        simp [renewed,hacts,hp,hexpires]

/-- A peer has a record exactly if it was made or checked and, in the order in which the tasks
came to it, no task has removed it as too old since. -/
theorem lastChecked_run (es : List (HealthEvent StreamId PeerId)) (made : Nat) :
    ((run debug config health es).connectionHealth.lookup p).map (·.lastChecked) = some made ↔
      Since (step debug) (fun m e => renewed p m e = some made)
        (fun m e => renewed p m e ≠ none ∨ Expires m e made) (new config health) es := by
  have hstart : ((new config health : HealthManager StreamId PeerId).connectionHealth.lookup
      p).map (·.lastChecked) ≠ some made := by
    simp [new]
  exact holds_iff_since_of_not
    (P := fun m => (m.connectionHealth.lookup p).map (·.lastChecked) = some made)
    (fun m e => lastChecked_step debug p m e made) hstart es

end Records

end HealthManager

end OpenBroadcast.Overlay
