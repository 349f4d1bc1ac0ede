import Mathlib.Algebra.Order.Group.Int
import Mathlib.Data.List.Induction
import Mathlib.Data.List.Pairwise
import OpenBroadcast.Framework.Fifo

namespace OpenBroadcast.Media

inductive QualityLevel where
  | low
  | medium
  | high
  | highest
  deriving DecidableEq, Repr

namespace QualityLevel

def rank : QualityLevel → Nat
  | low => 0
  | medium => 1
  | high => 2
  | highest => 3

def max (a b : QualityLevel) : QualityLevel := if a.rank ≤ b.rank then b else a

def min (a b : QualityLevel) : QualityLevel := if a.rank ≤ b.rank then a else b

end QualityLevel

/-- Durations are in nanoseconds. -/
structure QualityConfig where
  minQuality : QualityLevel
  maxQuality : QualityLevel
  upSwitchBuffer : Nat
  downSwitchBuffer : Nat
  bandwidthWindowSize : Nat

def QualityConfig.default : QualityConfig := ⟨.low,.highest,10000000000,5000000000,10⟩

/-- An `Instant` is an integer, so that there always is one a minute ago. The bandwidth stands as
the bytes and the time that are divided. -/
structure BandwidthMonitor where
  samples : List (Int × UInt64)
  currentBandwidth : Option (UInt64 × Int)

namespace BandwidthMonitor

def new : BandwidthMonitor := ⟨[],none⟩

def calculateBandwidth : List (Int × UInt64) → Option (UInt64 × Int)
  | [] => none
  | [_] => none
  | first::rest =>
    let times := first::rest
    let minTime := times.foldl (fun t x => Min.min t x.1) first.1
    let maxTime := times.foldl (fun t x => Max.max t x.1) first.1
    if 0 < maxTime-minTime then
      some ((times.map Prod.snd).foldl (·+·) 0,maxTime-minTime)
    else none

def recordDownload (m : BandwidthMonitor) (now : Int) (size : UInt64) : BandwidthMonitor :=
  let windowStart := now-60*10^9
  let samples := (m.samples++[(now,size)]).dropWhile (fun x => x.1 < windowStart)
  ⟨samples,calculateBandwidth samples⟩

def recommendedQuality (_ : BandwidthMonitor) : QualityLevel := .medium

end BandwidthMonitor

structure QualityManager where
  bandwidthMonitor : BandwidthMonitor
  currentQuality : QualityLevel
  targetQuality : QualityLevel
  config : QualityConfig

namespace QualityManager

def new (config : QualityConfig) : QualityManager := ⟨.new,config.minQuality,config.minQuality,config⟩

def updateQuality (m : QualityManager) (bufferLevel : Nat) : Option QualityLevel × QualityManager :=
  let m := { m with targetQuality := m.bandwidthMonitor.recommendedQuality }
  if m.config.upSwitchBuffer < bufferLevel then
    let newQuality := m.currentQuality.max m.targetQuality
    if newQuality ≠ m.currentQuality then
      (some newQuality,{ m with currentQuality := newQuality })
    else (none,m)
  else if bufferLevel < m.config.downSwitchBuffer then
    let newQuality := m.currentQuality.min m.targetQuality
    if newQuality ≠ m.currentQuality then
      (some newQuality,{ m with currentQuality := newQuality })
    else (none,m)
  else (none,m)

def recordDownload (m : QualityManager) (now : Int) (size : UInt64) : QualityManager :=
  { m with bandwidthMonitor := m.bandwidthMonitor.recordDownload now size }

end QualityManager

inductive QualityCall where
  | updateQuality (bufferLevel : Nat)
  | recordDownload (now : Int) (size : UInt64)

namespace QualityManager

def step (m : QualityManager) : QualityCall → QualityManager
  | .updateQuality bufferLevel => (m.updateQuality bufferLevel).2
  | .recordDownload now size => m.recordDownload now size

/-- The level that a call switches to. -/
def switched (m : QualityManager) : QualityCall → List QualityLevel
  | .updateQuality bufferLevel => (m.updateQuality bufferLevel).1.toList
  | .recordDownload _ _ => []

section Switching

/-- A buffer at which the manager leaves the level it starts with for the one that is always
recommended. -/
def Switches (config : QualityConfig) : QualityCall → Prop
  | .updateQuality bufferLevel =>
    (config.upSwitchBuffer < bufferLevel ∧ config.minQuality = .low) ∨
      (bufferLevel ≤ config.upSwitchBuffer ∧ bufferLevel < config.downSwitchBuffer ∧
        (config.minQuality = .high ∨ config.minQuality = .highest))
  | .recordDownload _ _ => False

instance (config : QualityConfig) (c : QualityCall) : Decidable (Switches config c) :=
  match c with
  | .updateQuality _ => inferInstanceAs (Decidable (_ ∨ _))
  | .recordDownload _ _ => isFalse id

/-- From the recommended level nothing leads away. -/
theorem step_of_medium {m : QualityManager} (h : m.currentQuality = .medium) (c : QualityCall) :
    (m.step c).currentQuality = .medium ∧ m.switched c = [] ∧ (m.step c).config = m.config := by
  cases c with
  | recordDownload now size => exact ⟨h,rfl,rfl⟩
  | updateQuality bufferLevel =>
    have hmax : QualityLevel.max .medium .medium = .medium := rfl
    have hmin : QualityLevel.min .medium .medium = .medium := rfl
    simp [step,switched,updateQuality,BandwidthMonitor.recommendedQuality,h,hmax,hmin]

theorem step_of_min {m : QualityManager} (h : m.currentQuality = m.config.minQuality)
    (c : QualityCall) :
    (m.step c).currentQuality = (if Switches m.config c then .medium else m.config.minQuality) ∧
      m.switched c = (if Switches m.config c then [.medium] else []) ∧
      (m.step c).config = m.config := by
  cases c with
  | recordDownload now size => exact ⟨h,rfl,rfl⟩
  | updateQuality bufferLevel =>
    by_cases hup : m.config.upSwitchBuffer < bufferLevel
    · cases hmin : m.config.minQuality <;>
        simp [step,switched,updateQuality,BandwidthMonitor.recommendedQuality,Switches,h,hmin,hup,
          not_le.mpr hup,QualityLevel.max,QualityLevel.rank]
    · by_cases hdown : bufferLevel < m.config.downSwitchBuffer
      · cases hmin : m.config.minQuality <;>
          simp [step,switched,updateQuality,BandwidthMonitor.recommendedQuality,Switches,h,hmin,hup,
            hdown,not_lt.mp hup,QualityLevel.min,QualityLevel.rank]
      · cases hmin : m.config.minQuality <;>
          simp [step,switched,updateQuality,Switches,h,hmin,hup,hdown]

theorem run_of_medium {m : QualityManager} (h : m.currentQuality = .medium)
    (cs : List QualityCall) :
    (cs.foldl step m).currentQuality = .medium ∧ collect step switched m cs = [] := by
  induction cs generalizing m with
  | nil => exact ⟨h,rfl⟩
  | cons c cs ih =>
    obtain ⟨hmedium,hnone,_⟩ := step_of_medium h c
    obtain ⟨hlast,hrest⟩ := ih hmedium
    exact ⟨hlast,by rw [collect_cons,hnone,hrest]; rfl⟩

theorem run_of_min {m : QualityManager} (h : m.currentQuality = m.config.minQuality)
    (cs : List QualityCall) :
    (cs.foldl step m).currentQuality =
        (if ∃ c ∈ cs, Switches m.config c then .medium else m.config.minQuality) ∧
      collect step switched m cs =
        ((cs.filter (fun c => Switches m.config c)).take 1).map (fun _ => .medium) := by
  induction cs generalizing m with
  | nil => simpa using h
  | cons c cs ih =>
    obtain ⟨hquality,hswitched,hconfig⟩ := step_of_min h c
    by_cases hc : Switches m.config c
    · rw [if_pos hc] at hquality hswitched
      obtain ⟨hlast,hnone⟩ := run_of_medium hquality cs
      have hany : ∃ c' ∈ c::cs, Switches m.config c' := ⟨c,List.mem_cons_self,hc⟩
      rw [List.foldl_cons,hlast,if_pos hany,collect_cons,hswitched,hnone,
        List.filter_cons_of_pos (by simpa using hc)]
      exact ⟨rfl,rfl⟩
    · rw [if_neg hc] at hquality hswitched
      obtain ⟨hlast,hrest⟩ := ih (hquality.trans (congrArg QualityConfig.minQuality hconfig.symm))
      rw [hconfig] at hlast hrest
      rw [List.foldl_cons,hlast,collect_cons,hswitched,hrest,
        List.filter_cons_of_neg (by simpa using hc)]
      simp [hc]

/-- Over a whole run the level changes once at most, from the lowest that is allowed to the medium
one, at the first update whose buffer lets it; the highest level that is allowed and all that is
downloaded make no difference. -/
theorem quality_run (config : QualityConfig) (cs : List QualityCall) :
    (cs.foldl step (new config)).currentQuality =
        (if ∃ c ∈ cs, Switches config c then .medium else config.minQuality) ∧
      collect step switched (new config) cs =
        ((cs.filter (fun c => Switches config c)).take 1).map (fun _ => .medium) :=
  run_of_min rfl cs

end Switching

section Window

def downloads : QualityCall → List (Int × UInt64)
  | .updateQuality _ => []
  | .recordDownload now size => [(now,size)]

/-- In order of time, what is too old comes first. -/
theorem dropWhile_old {l : List (Int × UInt64)} (h : l.Pairwise (fun a b => a.1 ≤ b.1))
    (start : Int) : l.dropWhile (fun x => x.1 < start) = l.filter (fun x => start ≤ x.1) := by
  induction l with
  | nil => rfl
  | cons x l ih =>
    obtain ⟨hfirst,hrest⟩ := List.pairwise_cons.mp h
    by_cases hold : x.1 < start
    · rw [List.dropWhile_cons_of_pos (by simpa using hold),
        List.filter_cons_of_neg (by simpa using hold),ih hrest]
    · rw [List.dropWhile_cons_of_neg (by simpa using hold)]
      refine (List.filter_eq_self.mpr ?_).symm
      intro y hy
      rw [decide_eq_true_eq]
      rcases List.mem_cons.mp hy with rfl | hy
      · exact not_lt.mp hold
      · exact (not_lt.mp hold).trans (hfirst y hy)

theorem step_samples (m : QualityManager) (c : QualityCall) :
    (m.step c).bandwidthMonitor.samples =
      match c with
      | .updateQuality _ => m.bandwidthMonitor.samples
      | .recordDownload now size =>
        (m.bandwidthMonitor.samples++[(now,size)]).dropWhile (fun x => x.1 < now-60*10^9) := by
  cases c with
  | recordDownload now size => rfl
  | updateQuality bufferLevel =>
    simp only [step,updateQuality]
    split_ifs <;> rfl

/-- Filtering by a later start makes an earlier one superfluous. -/
theorem filter_later {l : List (Int × UInt64)} {start start' : Int} (h : start ≤ start') :
    (l.filter (fun x => start ≤ x.1)).filter (fun x => start' ≤ x.1) =
      l.filter (fun x => start' ≤ x.1) := by
  rw [List.filter_filter]
  apply List.filter_congr
  intro x _
  have hboth : (decide (start' ≤ x.1) && decide (start ≤ x.1)) = decide (start' ≤ x.1) := by
    rw [← Bool.decide_and]
    exact decide_eq_decide.mpr ⟨And.left,fun hx => ⟨hx,h.trans hx⟩⟩
  exact hboth

theorem samples_filter (config : QualityConfig) (cs : List QualityCall)
    (hclock : (cs.flatMap downloads).Pairwise (fun a b => a.1 ≤ b.1)) :
    ∃ start, (cs.foldl step (new config)).bandwidthMonitor.samples =
        (cs.flatMap downloads).filter (fun x => start ≤ x.1) ∧
      ((cs.flatMap downloads) = [] ∨ ∃ x, (cs.flatMap downloads).getLast? = some x ∧
        start = x.1-60*10^9) := by
  induction cs using List.reverseRecOn with
  | nil => exact ⟨0,rfl,.inl rfl⟩
  | append_singleton cs c ih =>
    rw [List.flatMap_append] at hclock ⊢
    obtain ⟨hbefore,_,hlast⟩ := List.pairwise_append.mp hclock
    obtain ⟨start,hsamples,hstart⟩ := ih hbefore
    rw [List.foldl_append,List.foldl_cons,List.foldl_nil,step_samples]
    cases c with
    | updateQuality bufferLevel => exact ⟨start,by simpa [downloads] using hsamples,
        by simpa [downloads] using hstart⟩
    | recordDownload now size =>
      refine ⟨now-60*10^9,?_,.inr ⟨(now,size),by simp [downloads],rfl⟩⟩
      have hall : [QualityCall.recordDownload now size].flatMap downloads = [(now,size)] := rfl
      rw [hall] at hclock ⊢
      have hsublist : ((cs.flatMap downloads).filter (fun x => start ≤ x.1)++[(now,size)]).Sublist
          (cs.flatMap downloads++[(now,size)]) :=
        List.filter_sublist.append (List.Sublist.refl _)
      show ((cs.foldl step (new config)).bandwidthMonitor.samples++[(now,size)]).dropWhile _ = _
      rw [hsamples,dropWhile_old (hclock.sublist hsublist),List.filter_append,List.filter_append]
      congr 1
      rcases hstart with hnone | ⟨x,hx,rfl⟩
      · rw [hnone]
        rfl
      · apply filter_later
        have hle : x.1 ≤ now :=
          hlast x (List.mem_of_getLast? hx) (now,size) (by simp [hall])
        omega

/-- Where time does not run backwards, the samples after a download are all the downloads of the
last minute. -/
theorem samples_run (config : QualityConfig) (cs : List QualityCall) (now : Int) (size : UInt64)
    (hclock : ((cs++[QualityCall.recordDownload now size]).flatMap downloads).Pairwise
      (fun a b => a.1 ≤ b.1)) :
    ((cs++[QualityCall.recordDownload now size]).foldl step (new config)).bandwidthMonitor.samples =
      ((cs++[QualityCall.recordDownload now size]).flatMap downloads).filter
        (fun x => now-60*10^9 ≤ x.1) := by
  obtain ⟨start,hsamples,hstart⟩ := samples_filter config _ hclock
  rcases hstart with hnone | ⟨x,hx,rfl⟩
  · simp [downloads] at hnone
  · have hlast : x = (now,size) := by simpa [downloads] using hx.symm
    rw [hlast] at hsamples
    exact hsamples

theorem samples_run_minuteLater :
    ([.recordDownload 0 5,.recordDownload (61*10^9) 7].foldl step
      (new .default)).bandwidthMonitor.samples = [(61*10^9,7)] :=
  samples_run .default [.recordDownload 0 5] (61*10^9) 7 (by decide)

end Window

end QualityManager

end OpenBroadcast.Media
