import OpenBroadcast.Framework.LastSeen
import OpenBroadcast.PubSub.Validation

namespace OpenBroadcast.PubSub

open Media

/-- One call of `validate`. -/
structure Delivery where
  message : Message
  source : Option String
  now : Moment

/-- A track of a stream and a sequence number in it. -/
abbrev SegmentId := (Bytes × UInt8) × UInt64

namespace StreamDataValidator

def segmentId (m : Message) : Option SegmentId :=
  (readSegment m.payload.asBytes).map (fun w => ((w.streamId.val,w.trackId),w.sequence))

/-- The segments of the messages on data topics that `validate` accepts. -/
def accepted (v : StreamDataValidator) : List Delivery → List SegmentId
  | [] => []
  | d::ds =>
    let (result,v') := v.validate d.message d.source d.now
    if isStreamDataTopic d.message.topic ∧ result = .accept then
      (segmentId d.message).toList++accepted v' ds
    else accepted v' ds

/-- The segments on data topics that are within the rate of their source. -/
def withinRate (v : StreamDataValidator) : List Delivery → List SegmentId
  | [] => []
  | d::ds =>
    if isStreamDataTopic d.message.topic then
      let (allowed,v') := v.checkSource d.message d.source d.now
      if allowed then (segmentId d.message).toList++withinRate v' ds else withinRate v' ds
    else withinRate v ds

section Admission

/-- The limit and the rates of two validators are the same. -/
def SameRates (v u : StreamDataValidator) : Prop :=
  v.maxMessagesPerSecond = u.maxMessagesPerSecond ∧ v.rateTracker = u.rateTracker

theorem checkSource_sameRates {v u : StreamDataValidator} (h : SameRates v u) (m : Message)
    (source : Option String) (now : Moment) :
    (v.checkSource m source now).1 = (u.checkSource m source now).1 ∧
      SameRates (v.checkSource m source now).2 (u.checkSource m source now).2 := by
  obtain ⟨hmax,hrates⟩ := h
  unfold checkSource checkRateLimit
  rw [hmax,hrates]
  dsimp only
  split_ifs <;> simp [SameRates,hmax,hrates]

theorem checkSequence_sameRates (v : StreamDataValidator) (key : String) (sequence : UInt64) :
    SameRates (v.checkSequence key sequence).2 v := by
  unfold checkSequence
  split_ifs <;> exact ⟨rfl,rfl⟩

end Admission

/-- The tracker holds what was last seen of each track. -/
def Tracks (v : StreamDataValidator) (s : LastSeen (Bytes × UInt8) UInt64) : Prop :=
  ∀ id trackId, v.sequenceTracker.lookup (streamKey id trackId) = s.last (id,trackId)

theorem tracks_checkSequence {v : StreamDataValidator} {s : LastSeen (Bytes × UInt8) UInt64}
    (h : Tracks v s) (id : Bytes) (trackId : UInt8) (sequence : UInt64) :
    Tracks (v.checkSequence (streamKey id trackId) sequence).2 (s.push ((id,trackId),sequence)) := by
  intro id' trackId'
  have hsame : streamKey id' trackId' = streamKey id trackId ↔
      (id',trackId') = (id,trackId) := by
    constructor
    · intro heq
      obtain ⟨rfl,rfl⟩ := streamKey_injective heq
      rfl
    · intro heq
      cases heq
      rfl
  have hpush : (s.push ((id,trackId),sequence)).last (id',trackId') =
      if (id',trackId') = (id,trackId) then some sequence else s.last (id',trackId') := by
    simp [LastSeen.push,Function.update_apply]
  rw [hpush]
  unfold checkSequence
  by_cases hlast : v.sequenceTracker.lookup (streamKey id trackId) = some sequence
  · rw [if_pos hlast,h id' trackId']
    by_cases hk : (id',trackId') = (id,trackId)
    · rw [if_pos hk,hk,← h id trackId,hlast]
    · rw [if_neg hk]
  · rw [if_neg hlast]
    by_cases hk : (id',trackId') = (id,trackId)
    · rw [if_pos hk,hsame.mpr hk]
      simp
    · rw [if_neg hk,Finmap.lookup_insert_of_ne _ (mt hsame.mp hk)]
      exact h id' trackId'

theorem checkSequence_accept {v : StreamDataValidator} {s : LastSeen (Bytes × UInt8) UInt64}
    (h : Tracks v s) (id : Bytes) (trackId : UInt8) (sequence : UInt64) :
    (v.checkSequence (streamKey id trackId) sequence).1 = .accept ↔
      s.last (id,trackId) ≠ some sequence := by
  unfold checkSequence
  rw [h id trackId]
  split_ifs with hlast <;> simp [hlast]

/-- The accepted segments are those that the filter lets pass. -/
theorem passed_append_accepted (ds : List Delivery) (v u : StreamDataValidator)
    (s : LastSeen (Bytes × UInt8) UInt64) (hrates : SameRates v u) (htracks : Tracks v s) :
    s.passed++v.accepted ds = ((u.withinRate ds).foldl LastSeen.push s).passed := by
  induction ds generalizing v u s with
  | nil => simp [accepted,withinRate]
  | cons d ds ih =>
    obtain ⟨hallowed,hadmitted⟩ := checkSource_sameRates hrates d.message d.source d.now
    have hkept : Tracks (v.checkSource d.message d.source d.now).2 s := by
      intro id trackId
      rw [checkSource_sequenceTracker]
      exact htracks id trackId
    by_cases htopic : isStreamDataTopic d.message.topic
    case neg =>
      have hvalidate : v.validate d.message d.source d.now = (.accept,v) := by
        simp [validate,htopic]
      simpa [accepted,withinRate,htopic,hvalidate] using ih v u s hrates htracks
    case pos =>
      cases hallow : (u.checkSource d.message d.source d.now).1 with
      | false =>
        have hvalidate : v.validate d.message d.source d.now =
            (.reject,(v.checkSource d.message d.source d.now).2) := by
          simp [validate,htopic,hallowed,hallow]
        simpa [accepted,withinRate,htopic,hvalidate,hallow] using
          ih _ _ s hadmitted hkept
      | true =>
        have hvalidate : v.validate d.message d.source d.now =
            (v.checkSource d.message d.source d.now).2.checkSegment d.message.payload.asBytes := by
          simp [validate,htopic,hallowed,hallow]
        cases hread : readSegment d.message.payload.asBytes with
        | none =>
          have hreject : v.validate d.message d.source d.now =
              (.reject,(v.checkSource d.message d.source d.now).2) := by
            rw [hvalidate,checkSegment_eq,hread]
          simpa [accepted,withinRate,htopic,hreject,hallow,segmentId,hread] using
            ih _ _ s hadmitted hkept
        | some w =>
          have hchecked : v.validate d.message d.source d.now =
              (v.checkSource d.message d.source d.now).2.checkSequence
                (streamKey w.streamId.val w.trackId) w.sequence := by
            rw [hvalidate,checkSegment_eq,hread]
          have hrates' := checkSequence_sameRates (v.checkSource d.message d.source d.now).2
            (streamKey w.streamId.val w.trackId) w.sequence
          have hrest := ih _ _ _
            ⟨hrates'.1.trans hadmitted.1,hrates'.2.trans hadmitted.2⟩
            (tracks_checkSequence hkept w.streamId.val w.trackId w.sequence)
          have haccept := checkSequence_accept hkept w.streamId.val w.trackId w.sequence
          rw [← hchecked] at hrest haccept
          have hin : u.withinRate (d::ds) = ((w.streamId.val,w.trackId),w.sequence)::
              (u.checkSource d.message d.source d.now).2.withinRate ds := by
            simp [withinRate,htopic,hallow,segmentId,hread]
          rw [hin,List.foldl_cons,← hrest]
          by_cases hlast : s.last (w.streamId.val,w.trackId) = some w.sequence
          · have hno : (v.validate d.message d.source d.now).1 ≠ .accept :=
              fun h => haccept.mp h hlast
            simp [accepted,hno,LastSeen.push,hlast]
          · have hyes := haccept.mpr hlast
            simp [accepted,htopic,hyes,LastSeen.push,hlast,segmentId,hread]

/-- A validator accepts no segment twice exactly if, among the segments of a track that come within
the rate, none comes back after another one. -/
theorem accepted_nodup_iff (maxMessagesPerSecond : Nat) (ds : List Delivery) :
    ((new maxMessagesPerSecond).accepted ds).Nodup ↔
      LastSeen.NoReturn ((new maxMessagesPerSecond).withinRate ds) := by
  have hpassed := passed_append_accepted ds (new maxMessagesPerSecond) (new maxMessagesPerSecond)
    LastSeen.empty ⟨rfl,rfl⟩ (fun _ _ => by simp [new,LastSeen.empty])
  rw [← LastSeen.nodup_passed_iff]
  unfold LastSeen.filter
  rw [← hpassed]
  rfl

theorem sampleHash_length : (List.replicate 32 (0 : UInt8)).length = 32 := List.length_replicate

def sampleHash (_ : Bytes) : Digest := ⟨List.replicate 32 0,sampleHash_length⟩

theorem sampleStream_fits : [(0xab : UInt8)].length < 2^64 := by decide

theorem sampleData_fits : [(7 : UInt8)].length < 2^64 := by decide

/-- Segment `sequence` of a track of the stream `ab`, on its topic. -/
def sampleDelivery (sequence : UInt64) : Delivery where
  message := {
    topic := "stream/ab/data"
    publisher := some "alice"
    payload := .binary (WireSegment.codec.encode
      (.new sampleHash ⟨[0xab],sampleStream_fits⟩ sequence 0 0 0 1 true ⟨[7],sampleData_fits⟩))
    timestamp := 0
    ttl := 0
    headers := ∅ }
  source := none
  now := ⟨0,0⟩

/-- Segments 0 and 1 take turns, and segment 0 is accepted again. -/
theorem alternating_accepted_twice :
    ¬ ((new 100).accepted [sampleDelivery 0,sampleDelivery 1,sampleDelivery 0]).Nodup := by
  decide +kernel

end StreamDataValidator

end OpenBroadcast.PubSub
