import OpenBroadcast.Delivery.Gossip

namespace OpenBroadcast.PubSub

open Media

inductive ValidationResult where
  | accept
  | reject
  | pending
  | ignore
  deriving DecidableEq, Repr

/-- The clock of `Instant`, in nanoseconds, and the system's, in milliseconds since the epoch. -/
structure Moment where
  instant : Nat
  millis : UInt64

section Message

/-- A JSON value is its text as `to_string` writes it. -/
inductive MessagePayload where
  | binary (data : Bytes)
  | text (text : String)
  | json (text : String)

namespace MessagePayload

def size : MessagePayload → Nat
  | binary data => data.length
  | text t => t.utf8ByteSize
  | json t => t.utf8ByteSize

def asBytes : MessagePayload → Bytes
  | binary data => data
  | text t => t.toUTF8.toList
  | json t => t.toUTF8.toList

end MessagePayload

/-- The fields of a message that a validator reads. Peer ids are their texts. -/
structure Message where
  topic : String
  publisher : Option String
  payload : MessagePayload
  timestamp : UInt64
  ttl : UInt64
  headers : HashMap String String

namespace Message

def isExpired (m : Message) (now : Moment) : Bool :=
  if m.ttl = 0 then false else m.timestamp+m.ttl < now.millis

def size (m : Message) : Nat :=
  32+m.payload.size+(m.headers.entries.map (fun h => h.1.utf8ByteSize+h.2.utf8ByteSize)).sum

end Message

end Message

structure TopicValidationRules where
  maxMessageSize : Option Nat
  allowedPublishers : List String

/-- The limit of messages for each second is in no check. -/
structure BasicValidator where
  maxMessageSize : Nat
  topicRules : HashMap String TopicValidationRules

namespace BasicValidator

def new : BasicValidator := ⟨1024*1024,∅⟩

def getMaxMessageSize (v : BasicValidator) (topic : String) : Nat :=
  ((v.topicRules.lookup topic).bind (·.maxMessageSize)).getD v.maxMessageSize

def isPublisherAllowed (v : BasicValidator) (topic publisher : String) : Bool :=
  match v.topicRules.lookup topic with
  | some rules => rules.allowedPublishers.isEmpty || rules.allowedPublishers.contains publisher
  | none => true

def validate (v : BasicValidator) (m : Message) (now : Moment) : ValidationResult :=
  if v.getMaxMessageSize m.topic < m.size then .reject
  else if m.isExpired now then .ignore
  else if m.publisher.any (fun p => !v.isPublisherAllowed m.topic p) then .reject
  else .accept

def asyncValidate (_ : BasicValidator) : ValidationResult := .accept

end BasicValidator

/-- The trackers behind their locks: messages and start of the window for each source, and the last
sequence number for each key. -/
structure StreamDataValidator where
  maxMessagesPerSecond : Nat
  rateTracker : HashMap String (Nat × Nat)
  sequenceTracker : HashMap String UInt64

namespace StreamDataValidator

def new (maxMessagesPerSecond : Nat) : StreamDataValidator := ⟨maxMessagesPerSecond,∅,∅⟩

def isStreamDataTopic (topic : String) : Bool :=
  "stream/".toList.isPrefixOf topic.toList && Delivery.endsWithData topic

/-- `now.duration_since(start).as_secs() >= 1`, where an `Instant` that lies ahead is no time ago. -/
def elapsed (start now : Nat) : Bool := 1 ≤ (now-start)/10^9

def checkRateLimit (v : StreamDataValidator) (sourceId : String) (now : Nat) :
    Bool × StreamDataValidator :=
  let (count,start) := (v.rateTracker.lookup sourceId).getD (0,now)
  if elapsed start now then
    (true,{ v with rateTracker := v.rateTracker.insert sourceId (1,now) })
  else
    (count+1 ≤ v.maxMessagesPerSecond,
      { v with rateTracker := v.rateTracker.insert sourceId (count+1,start) })

/-- Gaps and steps back are only logged. -/
def checkSequence (v : StreamDataValidator) (streamKey : String) (sequence : UInt64) :
    ValidationResult × StreamDataValidator :=
  if v.sequenceTracker.lookup streamKey = some sequence then (.ignore,v)
  else (.accept,{ v with sequenceTracker := v.sequenceTracker.insert streamKey sequence })

/-- `format!("{}:{}",hex::encode(stream_id),track_id)`. -/
def streamKey (streamId : Bytes) (trackId : UInt8) : String :=
  String.ofList (Delivery.hexEncode streamId++ ':'::Nat.toDigits 10 trackId.toNat)

def sourceId (m : Message) (source : Option String) : String := (source.or m.publisher).getD ""

/-- The rate limit, which a message without a source is not under. -/
def checkSource (v : StreamDataValidator) (m : Message) (source : Option String) (now : Moment) :
    Bool × StreamDataValidator :=
  if sourceId m source = "" then (true,v) else v.checkRateLimit (sourceId m source) now.instant

def checkSegment (v : StreamDataValidator) (payload : Bytes) :
    ValidationResult × StreamDataValidator :=
  match WireSegment.fromBytes payload with
  | .ok wire =>
    if !wire.isCompatible then (.reject,v)
    else if wire.mediaTypeEnum.isNone then (.reject,v)
    else v.checkSequence (streamKey wire.streamId.val wire.trackId) wire.sequence
  | .error _ => (.reject,v)

def validate (v : StreamDataValidator) (m : Message) (source : Option String) (now : Moment) :
    ValidationResult × StreamDataValidator :=
  if !isStreamDataTopic m.topic then (.accept,v)
  else
    let (allowed,v) := v.checkSource m source now
    if !allowed then (.reject,v) else v.checkSegment m.payload.asBytes

def asyncValidate (_ : StreamDataValidator) : ValidationResult := .accept

end StreamDataValidator

/-- What a composite is built from. -/
inductive Validator where
  | basic (v : BasicValidator)
  | streamData (v : StreamDataValidator)

namespace Validator

def validate (v : Validator) (m : Message) (source : Option String) (now : Moment) :
    ValidationResult × Validator :=
  match v with
  | basic b => (b.validate m now,v)
  | streamData s =>
    let (result,s) := s.validate m source now
    (result,streamData s)

def asyncValidate : Validator → ValidationResult
  | basic b => b.asyncValidate
  | streamData s => s.asyncValidate

end Validator

structure CompositeValidator where
  validators : List Validator

namespace CompositeValidator

def new : CompositeValidator := ⟨[]⟩

def addValidator (c : CompositeValidator) (v : Validator) : CompositeValidator :=
  ⟨c.validators++[v]⟩

/-- The loop of `validate` from one validator on. -/
def validateFrom (m : Message) (source : Option String) (now : Moment) (pending : Bool) :
    List Validator → ValidationResult × List Validator
  | [] => (if pending then .pending else .accept,[])
  | v::vs =>
    let (result,v) := v.validate m source now
    match result with
    | .reject => (.reject,v::vs)
    | .ignore => (.ignore,v::vs)
    | .pending =>
      let (result,vs) := validateFrom m source now true vs
      (result,v::vs)
    | .accept =>
      let (result,vs) := validateFrom m source now pending vs
      (result,v::vs)

def validate (c : CompositeValidator) (m : Message) (source : Option String) (now : Moment) :
    ValidationResult × CompositeValidator :=
  let (result,vs) := validateFrom m source now false c.validators
  (result,⟨vs⟩)

/-- The loop of `async_validate`, which runs the fast checks once more. -/
def asyncValidateFrom (m : Message) (source : Option String) (now : Moment) :
    List Validator → ValidationResult × List Validator
  | [] => (.accept,[])
  | v::vs =>
    let (result,v) := v.validate m source now
    match result with
    | .reject => (.reject,v::vs)
    | .ignore => (.ignore,v::vs)
    | _ =>
      match v.asyncValidate with
      | .reject => (.reject,v::vs)
      | .ignore => (.ignore,v::vs)
      | _ =>
        let (result,vs) := asyncValidateFrom m source now vs
        (result,v::vs)

def asyncValidate (c : CompositeValidator) (m : Message) (source : Option String) (now : Moment) :
    ValidationResult × CompositeValidator :=
  let (result,vs) := asyncValidateFrom m source now c.validators
  (result,⟨vs⟩)

end CompositeValidator

section Lemmas

namespace StreamDataValidator

theorem colon_notMem_hexEncode (b : Bytes) : ':' ∉ Delivery.hexEncode b := by
  intro h
  obtain ⟨x,_,hx⟩ := List.mem_flatMap.mp h
  have hlt : x.toNat < 256 := x.toNat_lt
  have hdigit : ∀ n < 16, Relay.StreamId.hexDigit n ≠ ':' := by decide
  rcases List.mem_cons.mp hx with hx | hx
  · exact hdigit _ (by omega) hx.symm
  · exact hdigit _ (by omega) (List.mem_singleton.mp hx).symm

/-- No two tracks share a key. -/
theorem streamKey_injective {a b : Bytes} {s t : UInt8} (h : streamKey a s = streamKey b t) :
    a = b ∧ s = t := by
  have hlist : Delivery.hexEncode a++ ':'::Nat.toDigits 10 s.toNat =
      Delivery.hexEncode b++ ':'::Nat.toDigits 10 t.toNat := by
    simpa [streamKey] using congrArg String.toList h
  have hhex : Delivery.hexEncode a = Delivery.hexEncode b := by
    have htake := congrArg (List.takeWhile (· != ':')) hlist
    have hall : ∀ c : Bytes, ∀ x ∈ Delivery.hexEncode c, (x != ':') = true := by
      intro c x hx
      simp only [bne_iff_ne]
      intro hcolon
      exact colon_notMem_hexEncode c (hcolon ▸ hx)
    simpa [List.takeWhile_append_of_pos (hall a),List.takeWhile_append_of_pos (hall b)] using htake
  have hdigits : Nat.toDigits 10 s.toNat = Nat.toDigits 10 t.toNat := by
    rw [hhex] at hlist
    simpa using hlist
  constructor
  · have hdecode := congrArg Delivery.hexDecode hhex
    simpa [Delivery.hexDecode_hexEncode] using hdecode
  · have hvalue := congrArg (fun l => Nat.ofDigitChars 10 l 0) hdigits
    exact UInt8.toNat_inj.mp (by simpa using hvalue)

/-- The segment in a payload, if it is one that this version knows. -/
def readSegment (payload : Bytes) : Option WireSegment :=
  match WireSegment.fromBytes payload with
  | .ok wire => if wire.isCompatible && wire.mediaTypeEnum.isSome then some wire else none
  | .error _ => none

theorem checkSegment_eq (v : StreamDataValidator) (payload : Bytes) :
    v.checkSegment payload =
      match readSegment payload with
      | some w => v.checkSequence (streamKey w.streamId.val w.trackId) w.sequence
      | none => (.reject,v) := by
  unfold checkSegment readSegment
  cases WireSegment.fromBytes payload with
  | error e => rfl
  | ok w =>
    cases hversion : w.isCompatible <;> cases htype : w.mediaTypeEnum <;> simp [hversion,htype]

theorem checkSource_sequenceTracker (v : StreamDataValidator) (m : Message) (source : Option String)
    (now : Moment) : (v.checkSource m source now).2.sequenceTracker = v.sequenceTracker := by
  unfold checkSource checkRateLimit
  dsimp only
  split_ifs <;> rfl

end StreamDataValidator

end Lemmas

end OpenBroadcast.PubSub
