import OpenBroadcast.PubSub.Replay

namespace OpenBroadcast.PubSub

open Media

namespace StreamDataValidator

/-- What a source has used of its limit in the window that is open at a time. -/
def used (v : StreamDataValidator) (sourceId : String) (now : Nat) : Nat :=
  match v.rateTracker.lookup sourceId with
  | some (count,start) => if elapsed start now then 0 else count
  | none => 0

def windowOpen (v : StreamDataValidator) (sourceId : String) (now : Nat) : Bool :=
  match v.rateTracker.lookup sourceId with
  | some (_,start) => !elapsed start now
  | none => true

/-- Every check is one unit, also one that is refused. -/
theorem used_checkRateLimit (v : StreamDataValidator) (sourceId : String) (now later : Nat)
    (h : (v.checkRateLimit sourceId now).2.windowOpen sourceId later) :
    (v.checkRateLimit sourceId now).2.used sourceId later = v.used sourceId now+1 := by
  have hstart : elapsed now now = false := by simp [elapsed]
  cases hentry : v.rateTracker.lookup sourceId with
  | none =>
    have hnew : (v.checkRateLimit sourceId now).2.rateTracker.lookup sourceId = some (1,now) := by
      simp [checkRateLimit,hentry,hstart]
    have hopen : elapsed now later = false := by simpa [windowOpen,hnew] using h
    simp [used,hentry,hnew,hopen]
  | some entry =>
    obtain ⟨count,start⟩ := entry
    cases hreset : elapsed start now with
    | true =>
      have hnew : (v.checkRateLimit sourceId now).2.rateTracker.lookup sourceId =
          some (1,now) := by
        simp [checkRateLimit,hentry,hreset]
      have hopen : elapsed now later = false := by simpa [windowOpen,hnew] using h
      simp [used,hentry,hnew,hreset,hopen]
    | false =>
      have hnew : (v.checkRateLimit sourceId now).2.rateTracker.lookup sourceId =
          some (count+1,start) := by
        simp [checkRateLimit,hentry,hreset]
      have hopen : elapsed start later = false := by simpa [windowOpen,hnew] using h
      simp [used,hentry,hnew,hreset,hopen]

/-- A check in an open window leaves it open. -/
theorem windowOpen_checkRateLimit (v : StreamDataValidator) (sourceId : String) (now : Nat)
    (h : v.windowOpen sourceId now) :
    (v.checkRateLimit sourceId now).2.windowOpen sourceId now := by
  have hstart : elapsed now now = false := by simp [elapsed]
  cases hentry : v.rateTracker.lookup sourceId with
  | none => simp [checkRateLimit,windowOpen,hentry,hstart]
  | some entry =>
    obtain ⟨count,start⟩ := entry
    have hopen : elapsed start now = false := by simpa [windowOpen,hentry] using h
    simp [checkRateLimit,windowOpen,hentry,hopen]

/-- The rates after a call on a data topic are those after its admission. -/
theorem validate_rateTracker (v : StreamDataValidator) (m : Message) (source : Option String)
    (now : Moment) (htopic : isStreamDataTopic m.topic) :
    (v.validate m source now).2.rateTracker = (v.checkSource m source now).2.rateTracker := by
  cases hallow : (v.checkSource m source now).1 with
  | false => simp [validate,htopic,hallow]
  | true =>
    have hvalidate : v.validate m source now =
        (v.checkSource m source now).2.checkSegment m.payload.asBytes := by
      simp [validate,htopic,hallow]
    rw [hvalidate,checkSegment_eq]
    cases readSegment m.payload.asBytes with
    | none => rfl
    | some w => exact (checkSequence_sameRates _ _ _).2

theorem windowOpen_congr {v u : StreamDataValidator} (h : v.rateTracker = u.rateTracker)
    (sourceId : String) (now : Nat) : v.windowOpen sourceId now = u.windowOpen sourceId now := by
  simp [windowOpen,h]

theorem used_congr {v u : StreamDataValidator} (h : v.rateTracker = u.rateTracker)
    (sourceId : String) (now : Nat) : v.used sourceId now = u.used sourceId now := by
  simp [used,h]

/-- A call on a data topic is charged to the source, if there is one. -/
theorem used_validate (v : StreamDataValidator) (m : Message) (source : Option String)
    (now : Moment) (later : Nat) (htopic : isStreamDataTopic m.topic)
    (hsource : sourceId m source ≠ "")
    (h : (v.validate m source now).2.windowOpen (sourceId m source) later) :
    (v.validate m source now).2.used (sourceId m source) later =
      v.used (sourceId m source) now.instant+1 := by
  have hrates : (v.validate m source now).2.rateTracker =
      (v.checkRateLimit (sourceId m source) now.instant).2.rateTracker := by
    rw [validate_rateTracker v m source now htopic]
    simp [checkSource,hsource]
  rw [windowOpen_congr hrates] at h
  rw [used_congr hrates]
  exact used_checkRateLimit v _ _ _ h

/-- What has been accepted is the last of its track. -/
theorem lookup_of_accept {v : StreamDataValidator} {m : Message} {source : Option String}
    {now : Moment} (htopic : isStreamDataTopic m.topic)
    (h : (v.validate m source now).1 = .accept) :
    ∃ w, readSegment m.payload.asBytes = some w ∧
      (v.validate m source now).2.sequenceTracker.lookup (streamKey w.streamId.val w.trackId) =
        some w.sequence := by
  have hallow : (v.checkSource m source now).1 = true := by
    cases hallow : (v.checkSource m source now).1 with
    | true => rfl
    | false => simp [validate,htopic,hallow] at h
  have hvalidate : v.validate m source now =
      (v.checkSource m source now).2.checkSegment m.payload.asBytes := by
    simp [validate,htopic,hallow]
  rw [hvalidate,checkSegment_eq] at h ⊢
  cases hread : readSegment m.payload.asBytes with
  | none => simp [hread] at h
  | some w =>
    refine ⟨w,rfl,?_⟩
    simp only [hread,checkSequence] at h ⊢
    split_ifs at h ⊢ with hlast
    simp

/-- The same message again is refused or ignored. -/
theorem validate_again {v : StreamDataValidator} {m : Message} {source : Option String}
    {now : Moment} (later : Moment) (htopic : isStreamDataTopic m.topic)
    (h : (v.validate m source now).1 = .accept) :
    ((v.validate m source now).2.validate m source later).1 = .reject ∨
      ((v.validate m source now).2.validate m source later).1 = .ignore := by
  obtain ⟨w,hread,hlast⟩ := lookup_of_accept htopic h
  generalize (v.validate m source now).2 = u at hlast ⊢
  cases hallow : (u.checkSource m source later).1 with
  | false => simp [validate,htopic,hallow]
  | true =>
    right
    have hvalidate : u.validate m source later =
        (u.checkSource m source later).2.checkSegment m.payload.asBytes := by
      simp [validate,htopic,hallow]
    rw [hvalidate,checkSegment_eq,hread]
    simp only [checkSequence,checkSource_sequenceTracker]
    rw [if_pos hlast]

/-- While a window is open, only checks use it up. -/
theorem used_later {v : StreamDataValidator} {sourceId : String} {now later : Nat}
    (hle : now ≤ later) (h : v.windowOpen sourceId later) :
    v.used sourceId later = v.used sourceId now := by
  cases hentry : v.rateTracker.lookup sourceId with
  | none => simp [used,hentry]
  | some entry =>
    obtain ⟨count,start⟩ := entry
    have hopen : elapsed start later = false := by simpa [windowOpen,hentry] using h
    have hbefore : elapsed start now = false := by
      have hdiff : (now-start)/10^9 ≤ (later-start)/10^9 := Nat.div_le_div_right (by omega)
      simp only [elapsed,decide_eq_false_iff_not] at hopen ⊢
      omega
    simp [used,hentry,hopen,hbefore]

theorem validate_ne_pending (v : StreamDataValidator) (m : Message) (source : Option String)
    (now : Moment) : (v.validate m source now).1 ≠ .pending := by
  have hsegment : ∀ u : StreamDataValidator, ∀ b, (u.checkSegment b).1 ≠ .pending := by
    intro u b
    rw [checkSegment_eq]
    cases readSegment b with
    | none => simp
    | some w =>
      simp only [checkSequence]
      split_ifs <;> simp
  unfold validate
  dsimp only
  split_ifs
  · simp
  · simp
  · exact hsegment _ _

end StreamDataValidator

namespace Validator

def used (v : Validator) (sourceId : String) (now : Nat) : Nat :=
  match v with
  | basic _ => 0
  | streamData s => s.used sourceId now

def windowOpen (v : Validator) (sourceId : String) (now : Nat) : Bool :=
  match v with
  | basic _ => true
  | streamData s => s.windowOpen sourceId now

/-- Whether the validator looks into the message. -/
def inspects (v : Validator) (m : Message) : Bool :=
  match v with
  | basic _ => false
  | streamData _ => StreamDataValidator.isStreamDataTopic m.topic

theorem validate_ne_pending (v : Validator) (m : Message) (source : Option String) (now : Moment) :
    (v.validate m source now).1 ≠ .pending := by
  cases v with
  | basic b =>
    simp only [validate,BasicValidator.validate]
    split_ifs <;> simp
  | streamData s => exact s.validate_ne_pending m source now

section Again

variable {v : Validator} {m : Message} {source : Option String} {now later : Moment}

/-- What a validator that has accepted a message has charged for it. -/
theorem used_validate (hle : now.instant ≤ later.instant)
    (hopen : (v.validate m source now).2.windowOpen
      (StreamDataValidator.sourceId m source) later.instant) :
    (v.validate m source now).2.used (StreamDataValidator.sourceId m source) later.instant =
      v.used (StreamDataValidator.sourceId m source) now.instant+
        if v.inspects m ∧ StreamDataValidator.sourceId m source ≠ "" then 1 else 0 := by
  cases v with
  | basic b => simp [validate,used,inspects]
  | streamData s =>
    by_cases htopic : StreamDataValidator.isStreamDataTopic m.topic
    · by_cases hsource : StreamDataValidator.sourceId m source = ""
      · have hrates : (s.validate m source now).2.rateTracker = s.rateTracker := by
          rw [s.validate_rateTracker m source now htopic]
          simp [StreamDataValidator.checkSource,hsource]
        simp only [validate,windowOpen] at hopen
        rw [StreamDataValidator.windowOpen_congr hrates] at hopen
        simp only [validate,used,StreamDataValidator.used_congr hrates,hsource,ne_eq,
          not_true_eq_false,and_false,if_false,Nat.add_zero]
        rw [hsource] at hopen
        exact StreamDataValidator.used_later hle hopen
      · simp only [inspects,htopic,hsource,ne_eq,not_false_eq_true,and_self,if_true]
        exact s.used_validate m source now later.instant htopic hsource hopen
    · have hsame : s.validate m source now = (.accept,s) := by
        simp [StreamDataValidator.validate,htopic]
      simp only [validate,hsame,windowOpen] at hopen
      simp [validate,hsame,used,inspects,htopic,StreamDataValidator.used_later hle hopen]

/-- A validator that did not look into the message accepts it again. -/
theorem validate_uninspected (haccept : (v.validate m source now).1 = .accept)
    (hexpired : m.isExpired later = false) (h : v.inspects m = false) :
    (v.validate m source now).2.validate m source later =
      (.accept,(v.validate m source now).2) := by
  cases v with
  | basic b =>
    have hb : b.validate m now = .accept := haccept
    have hlater : b.validate m later = .accept := by
      unfold BasicValidator.validate at hb ⊢
      split_ifs at hb with hsize hold hpublisher
      simp [hsize,hexpired,hpublisher]
    simp [validate,hlater]
  | streamData s =>
    have htopic : StreamDataValidator.isStreamDataTopic m.topic = false := h
    simp [validate,StreamDataValidator.validate,htopic]

/-- One that did refuses or ignores it. -/
theorem validate_inspected (haccept : (v.validate m source now).1 = .accept)
    (h : v.inspects m = true) :
    ((v.validate m source now).2.validate m source later).1 = .reject ∨
      ((v.validate m source now).2.validate m source later).1 = .ignore := by
  cases v with
  | basic b => simp [inspects] at h
  | streamData s => exact s.validate_again later h haccept

theorem windowOpen_validate (hopen : v.windowOpen (StreamDataValidator.sourceId m source)
      now.instant) :
    (v.validate m source now).2.windowOpen (StreamDataValidator.sourceId m source)
      now.instant := by
  cases v with
  | basic b => rfl
  | streamData s =>
    by_cases htopic : StreamDataValidator.isStreamDataTopic m.topic
    · simp only [validate,windowOpen]
      rw [StreamDataValidator.windowOpen_congr (s.validate_rateTracker m source now htopic)]
      unfold StreamDataValidator.checkSource
      split_ifs
      · exact hopen
      · exact s.windowOpen_checkRateLimit _ _ hopen
    · simpa [validate,StreamDataValidator.validate,htopic] using hopen

end Again

end Validator

namespace CompositeValidator

def used (c : CompositeValidator) (sourceId : String) (now : Nat) : Nat :=
  (c.validators.map (·.used sourceId now)).sum

/-- The window of a source that the trackers have at a time is still the one they have counted in. -/
def windowsOpen (c : CompositeValidator) (sourceId : String) (now : Nat) : Bool :=
  c.validators.all (·.windowOpen sourceId now)

/-- How many validators look into the message. -/
def inspections (c : CompositeValidator) (m : Message) : Nat := c.validators.countP (·.inspects m)

section Phases

variable {m : Message} {source : Option String} {now later : Moment}

/-- A message is accepted if all validators accept it. -/
theorem validateFrom_accept {pending : Bool} {vs : List Validator}
    (h : (validateFrom m source now pending vs).1 = .accept) :
    (∀ v ∈ vs, (v.validate m source now).1 = .accept) ∧
      (validateFrom m source now pending vs).2 = vs.map (fun v => (v.validate m source now).2) := by
  induction vs generalizing pending with
  | nil => simp [validateFrom]
  | cons v vs ih =>
    cases hv : (v.validate m source now).1 with
    | reject => simp [validateFrom,hv] at h
    | ignore => simp [validateFrom,hv] at h
    | pending => exact absurd hv (v.validate_ne_pending m source now)
    | accept =>
      have hrest : (validateFrom m source now pending vs).1 = .accept := by
        simpa [validateFrom,hv] using h
      obtain ⟨hall,hnext⟩ := ih hrest
      constructor
      · intro u hu
        rcases List.mem_cons.mp hu with rfl | hu
        · exact hv
        · exact hall u hu
      · simp [validateFrom,hv,hnext]

/-- The first phase charges each validator that looks into the message once. -/
theorem used_first (vs : List Validator) (hle : now.instant ≤ later.instant)
    (hopen : ∀ v ∈ vs, (v.validate m source now).2.windowOpen
      (StreamDataValidator.sourceId m source) later.instant) :
    ((vs.map (fun v => (v.validate m source now).2)).map
        (·.used (StreamDataValidator.sourceId m source) later.instant)).sum =
      (vs.map (·.used (StreamDataValidator.sourceId m source) now.instant)).sum+
        if StreamDataValidator.sourceId m source = "" then 0 else vs.countP (·.inspects m) := by
  induction vs with
  | nil => simp
  | cons v vs ih =>
    have hrest := ih (fun u hu => hopen u (by simp [hu]))
    have hv := v.used_validate hle (hopen v (by simp))
    simp only [List.map_cons,List.sum_cons,List.countP_cons,hv,hrest]
    by_cases hsource : StreamDataValidator.sourceId m source = ""
    · simp [hsource]
    · cases hinspects : v.inspects m <;> simp [hsource] <;> omega

/-- The second phase ends at the first validator that looks into the message, and charges it. -/
theorem second_phase (vs : List Validator) (hle : now.instant ≤ later.instant)
    (haccept : ∀ v ∈ vs, (v.validate m source now).1 = .accept)
    (hopen : ∀ v ∈ vs, (v.validate m source now).2.windowOpen
      (StreamDataValidator.sourceId m source) later.instant)
    (hexpired : m.isExpired later = false) :
    let second := asyncValidateFrom m source later (vs.map (fun v => (v.validate m source now).2))
    (second.1 = .accept ↔ vs.countP (·.inspects m) = 0) ∧
      (second.2.map (·.used (StreamDataValidator.sourceId m source) later.instant)).sum =
        (vs.map (·.used (StreamDataValidator.sourceId m source) now.instant)).sum+
          if StreamDataValidator.sourceId m source = "" ∨ vs.countP (·.inspects m) = 0 then 0
          else vs.countP (·.inspects m)+1 := by
  induction vs with
  | nil => simp [asyncValidateFrom]
  | cons v vs ih =>
    have hv := haccept v (by simp)
    have hopenV := hopen v (by simp)
    have hused := v.used_validate hle hopenV
    have hasync : (v.validate m source now).2.asyncValidate = .accept := by
      cases v <;> rfl
    cases hinspects : v.inspects m with
    | false =>
      have hagain := Validator.validate_uninspected hv hexpired hinspects
      obtain ⟨hresult,hsum⟩ := ih (fun u hu => haccept u (by simp [hu]))
        (fun u hu => hopen u (by simp [hu]))
      have hrun : asyncValidateFrom m source later
          ((v::vs).map (fun v => (v.validate m source now).2)) =
          ((asyncValidateFrom m source later (vs.map (fun v => (v.validate m source now).2))).1,
            (v.validate m source now).2::
              (asyncValidateFrom m source later
                (vs.map (fun v => (v.validate m source now).2))).2) := by
        simp [asyncValidateFrom,hagain,hasync]
      have hcount : (v::vs).countP (·.inspects m) = vs.countP (·.inspects m) := by
        simp [hinspects]
      dsimp only
      rw [hrun,hcount]
      refine ⟨hresult,?_⟩
      simp only [List.map_cons,List.sum_cons,hsum,hused,hinspects]
      simp [Nat.add_assoc]
    | true =>
      have hagain : ((v.validate m source now).2.validate m source later).1 = .reject ∨
          ((v.validate m source now).2.validate m source later).1 = .ignore :=
        Validator.validate_inspected hv hinspects
      have hcharged := used_first vs hle (fun u hu => hopen u (by simp [hu]))
      have hsecond := (v.validate m source now).2.used_validate
        (Nat.le_refl later.instant) (Validator.windowOpen_validate hopenV)
      have hsame : (v.validate m source now).2.inspects m = true := by
        cases v with
        | basic b => simp [Validator.inspects] at hinspects
        | streamData s => exact hinspects
      have hrun : asyncValidateFrom m source later
          ((v::vs).map (fun v => (v.validate m source now).2)) =
          (((v.validate m source now).2.validate m source later).1,
            ((v.validate m source now).2.validate m source later).2::
              vs.map (fun v => (v.validate m source now).2)) := by
        rcases hagain with h | h <;> simp [asyncValidateFrom,h]
      have hcount : (v::vs).countP (·.inspects m) = vs.countP (·.inspects m)+1 := by
        simp [hinspects]
      dsimp only
      rw [hrun,hcount]
      constructor
      · rcases hagain with h | h <;> simp [h]
      · simp only [List.map_cons,List.sum_cons,hcharged,hsecond,hused,hinspects,hsame]
        by_cases hsource : StreamDataValidator.sourceId m source = ""
        · simp [hsource]
        · simp [hsource]
          omega

end Phases

/-- If the first phase accepts a message, the second refuses it wherever a validator looks into it,
and elsewhere nothing is charged: no accepted message is charged one unit and accepted again. -/
theorem phases_never_agree (c : CompositeValidator) (m : Message) (source : Option String)
    (now later : Moment) (hle : now.instant ≤ later.instant)
    (haccept : (c.validate m source now).1 = .accept)
    (hwindow : (c.validate m source now).2.windowsOpen (StreamDataValidator.sourceId m source)
      later.instant)
    (hexpired : m.isExpired later = false) :
    let second := (c.validate m source now).2.asyncValidate m source later
    let units := second.2.used (StreamDataValidator.sourceId m source) later.instant-
      c.used (StreamDataValidator.sourceId m source) now.instant
    ¬ (second.1 = .accept ∧ units = 1) ∧
      (second.1 = .accept ↔ c.inspections m = 0) ∧
      (units = if StreamDataValidator.sourceId m source = "" ∨ c.inspections m = 0 then 0
        else c.inspections m+1) := by
  have hfirst : (validateFrom m source now false c.validators).1 = .accept := haccept
  obtain ⟨hall,hnext⟩ := validateFrom_accept hfirst
  have hopen : ∀ v ∈ c.validators, (v.validate m source now).2.windowOpen
      (StreamDataValidator.sourceId m source) later.instant := by
    intro v hv
    have hlist : (c.validate m source now).2.validators =
        c.validators.map (fun v => (v.validate m source now).2) := hnext
    unfold windowsOpen at hwindow
    rw [hlist,List.all_eq_true] at hwindow
    exact hwindow _ (List.mem_map.mpr ⟨v,hv,rfl⟩)
  obtain ⟨hresult,hsum⟩ := second_phase c.validators hle hall hopen hexpired
  have hsecond : (c.validate m source now).2.asyncValidate m source later =
      ((asyncValidateFrom m source later
          (c.validators.map (fun v => (v.validate m source now).2))).1,
        ⟨(asyncValidateFrom m source later
          (c.validators.map (fun v => (v.validate m source now).2))).2⟩) := by
    unfold asyncValidate validate
    rw [← hnext]
  intro second units
  have hunits : units = if StreamDataValidator.sourceId m source = "" ∨ c.inspections m = 0
      then 0 else c.inspections m+1 := by
    have htotal : second.2.used (StreamDataValidator.sourceId m source) later.instant =
        c.used (StreamDataValidator.sourceId m source) now.instant+
          if StreamDataValidator.sourceId m source = "" ∨ c.inspections m = 0 then 0
          else c.inspections m+1 := by
      simp only [second,hsecond]
      exact hsum
    simp only [units,htotal,Nat.add_sub_cancel_left]
  have hagain : second.1 = .accept ↔ c.inspections m = 0 := by
    simp only [second,hsecond]
    exact hresult
  refine ⟨?_,hagain,hunits⟩
  rintro ⟨hyes,hone⟩
  rw [hagain] at hyes
  simp [hunits,hyes] at hone

/-- The validator that a node starts with. -/
def defaultValidator : CompositeValidator :=
  (new.addValidator (.basic .new)).addValidator (.streamData (.new 100))

theorem phases_never_agree_default :
    let m := (StreamDataValidator.sampleDelivery 0).message
    let first := defaultValidator.validate m none ⟨0,0⟩
    let second := first.2.asyncValidate m none ⟨1000,0⟩
    let units := second.2.used "alice" 1000-defaultValidator.used "alice" 0
    ¬ (second.1 = .accept ∧ units = 1) ∧
      (second.1 = .accept ↔ defaultValidator.inspections m = 0) ∧
      (units = if StreamDataValidator.sourceId m none = "" ∨ defaultValidator.inspections m = 0
        then 0 else defaultValidator.inspections m+1) :=
  phases_never_agree defaultValidator (StreamDataValidator.sampleDelivery 0).message none ⟨0,0⟩
    ⟨1000,0⟩ (by decide) (by decide +kernel) (by decide +kernel) (by decide +kernel)

/-- A first segment is accepted, and ignored a microsecond later as a duplicate of itself. -/
theorem accepted_then_ignored :
    let m := (StreamDataValidator.sampleDelivery 0).message
    let first := defaultValidator.validate m none ⟨0,0⟩
    let second := first.2.asyncValidate m none ⟨1000,0⟩
    first.1 = .accept ∧ first.2.windowsOpen "alice" 1000 ∧ m.isExpired ⟨1000,0⟩ = false ∧
      second.1 = .ignore ∧ second.2.used "alice" 1000 = defaultValidator.used "alice" 0+2 := by
  decide +kernel

end CompositeValidator

end OpenBroadcast.PubSub
