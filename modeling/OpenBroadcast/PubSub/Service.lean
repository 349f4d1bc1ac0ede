import OpenBroadcast.Framework.Since
import OpenBroadcast.PubSub.Composite
import OpenBroadcast.PubSub.Metrics

namespace OpenBroadcast.PubSub

open Media

/-- The errors that the service can return. -/
inductive PubSubError where
  | subscriptionError (text : String)
  | validationError (text : String)
  deriving DecidableEq, Repr

structure TopicConfig where
  historySize : Nat
  allowedPublishers : List String
  isPrivate : Bool
  maxMessageSize : Nat

def TopicConfig.default : TopicConfig := ⟨100,[],false,0⟩

structure Topic where
  id : String
  name : String
  description : Option String
  config : TopicConfig

namespace Topic

def new (id name : String) : Topic := ⟨id,name,none,.default⟩

def withConfig (id name : String) (config : TopicConfig) : Topic := ⟨id,name,none,config⟩

def streamTopic (streamId : String) : Topic := new ("stream_"++streamId) ("Stream: "++streamId)

end Topic

/-- The settings that are read; the others are for a protocol that no call starts. -/
structure GossipSubConfig where
  maxSubscriptions : Nat

def GossipSubConfig.default : GossipSubConfig := ⟨50⟩

/-- A message with its id. -/
structure NamedMessage where
  id : String
  message : Message

/-- `blake3` is the first sixteen bytes of the hash. -/
def generateMessageId (blake3 : Bytes → Bytes) (topic : String) (data : Bytes)
    (timestamp : UInt64) : String :=
  String.ofList (Delivery.hexEncode
    (blake3 (topic.toUTF8.toList++data++toBe 8 timestamp.toNat)))

def NamedMessage.binary (blake3 : Bytes → Bytes) (now : Moment) (topic : String) (data : Bytes) :
    NamedMessage where
  id := generateMessageId blake3 topic data now.millis
  message := {
    topic := topic
    publisher := none
    payload := .binary data
    timestamp := now.millis
    ttl := 0
    headers := ∅ }

/-- No call adds a peer. The sender of events is there or not; nothing is sent. -/
structure GossipSubService [Lru String Nat] where
  config : GossipSubConfig
  topics : HashMap String Topic
  validator : CompositeValidator
  metrics : PubSubMetrics String
  eventSender : Bool
  peers : List String
  started : Bool

namespace GossipSubService

variable [Lru String Nat]

def withConfig (config : GossipSubConfig) (now : Moment) : GossipSubService where
  config := config
  topics := ∅
  validator := (CompositeValidator.new.addValidator (.basic .new)).addValidator
    (.streamData (.new 100))
  metrics := .new now.instant
  eventSender := false
  peers := []
  started := false

def new (now : Moment) : GossipSubService := withConfig .default now

def subscribe (s : GossipSubService) (topic : Topic) :
    Except PubSubError Unit × GossipSubService :=
  if topic.id ∈ s.topics then (.ok (),s)
  else if s.config.maxSubscriptions ≤ s.topics.keys.card then
    (.error (.subscriptionError
      s!"Maximum subscriptions ({s.config.maxSubscriptions}) reached"),s)
  else
    let topics := s.topics.insert topic.id topic
    (.ok (),{ s with
      topics := topics
      metrics := s.metrics.updateSubscriptionCount topics.keys.card })

def unsubscribe (s : GossipSubService) (topicId : String) :
    Except PubSubError Unit × GossipSubService :=
  if topicId ∈ s.topics then
    let topics := s.topics.erase topicId
    (.ok (),{ s with
      topics := topics
      metrics := s.metrics.updateSubscriptionCount topics.keys.card })
  else (.ok (),s)

/-- The topic that the message is published to is not looked at. -/
def publishMessage (s : GossipSubService) (now : Moment) (_topicId : String) (m : NamedMessage) :
    Except PubSubError String × GossipSubService :=
  let (result,validator) := s.validator.validate m.message none now
  let s := { s with validator := validator }
  match result with
  | .accept => (.ok m.id,s)
  | .reject => (.error (.validationError "Message rejected by local validator"),s)
  | .ignore => (.error (.validationError "Message ignored by local validator"),s)
  | .pending => (.ok m.id,s)

def publish (blake3 : Bytes → Bytes) (s : GossipSubService) (now : Moment) (topicId : String)
    (data : Bytes) : Except PubSubError String × GossipSubService :=
  s.publishMessage now topicId (.binary blake3 now topicId data)

def listPeers (s : GossipSubService) (_topicId : String) : List String := s.peers

def listSubscriptions (order : HashOrder Unit String) (s : GossipSubService) : List String :=
  order.order () s.topics.keys

def start (s : GossipSubService) : Except PubSubError Unit × GossipSubService :=
  if s.started then (.ok (),s) else (.ok (),{ s with eventSender := true, started := true })

def stop (s : GossipSubService) : Except PubSubError Unit × GossipSubService :=
  if s.started then (.ok (),{ s with eventSender := false, started := false }) else (.ok (),s)

def eventStream (s : GossipSubService) : Except PubSubError Unit × GossipSubService :=
  (.ok (),{ s with eventSender := true })

end GossipSubService

inductive ServiceCall where
  | subscribe (topic : Topic)
  | unsubscribe (topicId : String)
  | publish (topicId : String) (data : Bytes)
  | publishMessage (topicId : String) (m : NamedMessage)
  | start
  | stop
  | eventStream

namespace GossipSubService

variable [Lru String Nat]

def step (blake3 : Bytes → Bytes) (s : GossipSubService) (e : Moment × ServiceCall) :
    GossipSubService :=
  match e.2 with
  | .subscribe topic => (s.subscribe topic).2
  | .unsubscribe topicId => (s.unsubscribe topicId).2
  | .publish topicId data => (s.publish blake3 e.1 topicId data).2
  | .publishMessage topicId m => (s.publishMessage e.1 topicId m).2
  | .start => s.start.2
  | .stop => s.stop.2
  | .eventStream => s.eventStream.2

variable (blake3 : Bytes → Bytes)

section Subscriptions

def Subscribes (t : String) (s : GossipSubService) (e : Moment × ServiceCall) : Prop :=
  ∃ topic, e.2 = .subscribe topic ∧ topic.id = t ∧ (s.subscribe topic).1 = .ok ()

def Unsubscribes (t : String) (_ : GossipSubService) (e : Moment × ServiceCall) : Prop :=
  e.2 = .unsubscribe t

@[simp] theorem publishMessage_topics (s : GossipSubService) (now : Moment) (topicId : String)
    (m : NamedMessage) : (s.publishMessage now topicId m).2.topics = s.topics := by
  unfold publishMessage
  cases hresult : (s.validator.validate m.message none now).1 <;> simp [hresult]

@[simp] theorem publishMessage_metrics (s : GossipSubService) (now : Moment) (topicId : String)
    (m : NamedMessage) : (s.publishMessage now topicId m).2.metrics = s.metrics := by
  unfold publishMessage
  cases hresult : (s.validator.validate m.message none now).1 <;> simp [hresult]

@[simp] theorem publishMessage_config (s : GossipSubService) (now : Moment) (topicId : String)
    (m : NamedMessage) : (s.publishMessage now topicId m).2.config = s.config := by
  unfold publishMessage
  cases hresult : (s.validator.validate m.message none now).1 <;> simp [hresult]

@[simp] theorem publishMessage_peers (s : GossipSubService) (now : Moment) (topicId : String)
    (m : NamedMessage) : (s.publishMessage now topicId m).2.peers = s.peers := by
  unfold publishMessage
  cases hresult : (s.validator.validate m.message none now).1 <;> simp [hresult]

theorem subscribe_error_iff (s : GossipSubService) (topic : Topic) (e : PubSubError) :
    (s.subscribe topic).1 = .error e ↔ topic.id ∉ s.topics ∧
      s.config.maxSubscriptions ≤ s.topics.keys.card ∧
      e = .subscriptionError s!"Maximum subscriptions ({s.config.maxSubscriptions}) reached" := by
  unfold subscribe
  by_cases hknown : topic.id ∈ s.topics
  · simp [hknown]
  · by_cases hfull : s.config.maxSubscriptions ≤ s.topics.keys.card
    · simp [hknown,hfull,eq_comm]
    · simp [hknown,hfull]

theorem subscribe_of_error {s : GossipSubService} {topic : Topic} {e : PubSubError}
    (h : (s.subscribe topic).1 = .error e) : (s.subscribe topic).2 = s := by
  obtain ⟨hnew,hfull,_⟩ := (subscribe_error_iff s topic e).mp h
  simp [subscribe,hnew,hfull]

theorem mem_subscribe (s : GossipSubService) (topic : Topic) (t : String) :
    t ∈ (s.subscribe topic).2.topics ↔
      topic.id = t ∧ (s.subscribe topic).1 = .ok () ∨ t ∈ s.topics := by
  by_cases hknown : topic.id ∈ s.topics
  · have hsame : s.subscribe topic = (.ok (),s) := by simp [subscribe,hknown]
    rw [hsame]
    constructor
    · exact .inr
    · rintro (⟨rfl,_⟩ | h)
      · exact hknown
      · exact h
  · by_cases hfull : s.config.maxSubscriptions ≤ s.topics.keys.card
    · simp [subscribe,hknown,hfull]
    · simp [subscribe,hknown,hfull,Finmap.mem_insert,eq_comm]

theorem mem_unsubscribe (s : GossipSubService) (topicId t : String) :
    t ∈ (s.unsubscribe topicId).2.topics ↔ t ∈ s.topics ∧ topicId ≠ t := by
  by_cases hknown : topicId ∈ s.topics
  · simp [unsubscribe,hknown,Finmap.mem_erase,eq_comm,and_comm]
  · have hsame : (s.unsubscribe topicId).2 = s := by simp [unsubscribe,hknown]
    rw [hsame]
    constructor
    · intro h
      exact ⟨h,fun heq => hknown (heq ▸ h)⟩
    · exact And.left

theorem mem_step (t : String) (s : GossipSubService) (e : Moment × ServiceCall) :
    t ∈ (s.step blake3 e).topics ↔ Subscribes t s e ∨ t ∈ s.topics ∧ ¬ Unsubscribes t s e := by
  obtain ⟨now,call⟩ := e
  cases call with
  | subscribe topic =>
    show t ∈ (s.subscribe topic).2.topics ↔ _
    rw [mem_subscribe]
    simp [Subscribes,Unsubscribes]
  | unsubscribe topicId =>
    show t ∈ (s.unsubscribe topicId).2.topics ↔ _
    rw [mem_unsubscribe]
    simp [Subscribes,Unsubscribes]
  | publish topicId data => simp [step,publish,Subscribes,Unsubscribes]
  | publishMessage topicId m => simp [step,Subscribes,Unsubscribes]
  | start =>
    have hsame : s.start.2.topics = s.topics := by
      unfold start
      split_ifs <;> rfl
    simp [step,hsame,Subscribes,Unsubscribes]
  | stop =>
    have hsame : s.stop.2.topics = s.topics := by
      unfold stop
      split_ifs <;> rfl
    simp [step,hsame,Subscribes,Unsubscribes]
  | eventStream => simp [step,eventStream,Subscribes,Unsubscribes]

/-- Within the limit, and the metrics count nothing but the topics. -/
structure Limited (config : GossipSubConfig) (start : Moment) (s : GossipSubService) : Prop where
  config_eq : s.config = config
  few : s.topics.keys.card ≤ config.maxSubscriptions
  metrics_eq : s.metrics =
    (PubSubMetrics.new start.instant).updateSubscriptionCount s.topics.keys.card
  alone : s.peers = []

variable {config : GossipSubConfig} {start : Moment} {s : GossipSubService}

theorem Limited.subscribe (h : Limited config start s) (topic : Topic) :
    Limited config start (s.subscribe topic).2 := by
  obtain ⟨rfl,hfew,hmetrics,halone⟩ := h
  unfold GossipSubService.subscribe
  split_ifs with hknown hfull
  · exact ⟨rfl,hfew,hmetrics,halone⟩
  · exact ⟨rfl,hfew,hmetrics,halone⟩
  · refine ⟨rfl,?_,?_,halone⟩
    · show (s.topics.insert topic.id topic).keys.card ≤ _
      rw [HashMap.card_insert_of_notMem hknown]
      omega
    · show s.metrics.updateSubscriptionCount _ = _
      rw [hmetrics]
      rfl

theorem Limited.unsubscribe (h : Limited config start s) (topicId : String) :
    Limited config start (s.unsubscribe topicId).2 := by
  obtain ⟨rfl,hfew,hmetrics,halone⟩ := h
  unfold GossipSubService.unsubscribe
  split_ifs with hknown
  · refine ⟨rfl,?_,?_,halone⟩
    · show (s.topics.erase topicId).keys.card ≤ _
      have hcard := HashMap.card_erase_of_mem hknown
      omega
    · show s.metrics.updateSubscriptionCount _ = _
      rw [hmetrics]
      rfl
  · exact ⟨rfl,hfew,hmetrics,halone⟩

theorem Limited.publishMessage (h : Limited config start s) (now : Moment) (topicId : String)
    (m : NamedMessage) : Limited config start (s.publishMessage now topicId m).2 := by
  constructor
  · simpa using h.config_eq
  · simpa using h.few
  · simpa using h.metrics_eq
  · simpa using h.alone

theorem Limited.step (h : Limited config start s) (e : Moment × ServiceCall) :
    Limited config start (s.step blake3 e) := by
  obtain ⟨now,call⟩ := e
  cases call with
  | subscribe topic => exact h.subscribe topic
  | unsubscribe topicId => exact h.unsubscribe topicId
  | publish topicId data => exact h.publishMessage now topicId _
  | publishMessage topicId m => exact h.publishMessage now topicId m
  | start =>
    show Limited config start s.start.2
    unfold GossipSubService.start
    split_ifs <;> exact ⟨h.config_eq,h.few,h.metrics_eq,h.alone⟩
  | stop =>
    show Limited config start s.stop.2
    unfold GossipSubService.stop
    split_ifs <;> exact ⟨h.config_eq,h.few,h.metrics_eq,h.alone⟩
  | eventStream => exact ⟨h.config_eq,h.few,h.metrics_eq,h.alone⟩

/-- The service is subscribed to the topics that a call has subscribed to and none has left since.
They never exceed the limit, at which alone a call is refused, and then changes nothing. The
metrics show their number and nothing else. -/
theorem subscriptions_run (config : GossipSubConfig) (start : Moment)
    (es : List (Moment × ServiceCall)) (order : HashOrder Unit String) :
    let s := es.foldl (step blake3) (withConfig config start)
    (∀ t, t ∈ s.listSubscriptions order ↔
      Since (step blake3) (Subscribes t) (Unsubscribes t) (withConfig config start) es) ∧
    (s.listSubscriptions order).length ≤ config.maxSubscriptions ∧
    (∀ topic e, (s.subscribe topic).1 = .error e ↔ topic.id ∉ s.listSubscriptions order ∧
      (s.listSubscriptions order).length = config.maxSubscriptions ∧ e = .subscriptionError
        s!"Maximum subscriptions ({config.maxSubscriptions}) reached") ∧
    (∀ topic e, (s.subscribe topic).1 = .error e → (s.subscribe topic).2 = s) ∧
    s.metrics = (PubSubMetrics.new start.instant).updateSubscriptionCount
      (s.listSubscriptions order).length ∧
    ∀ topicId, s.listPeers topicId = [] := by
  intro s
  have h : Limited config start s :=
    (along_true (step blake3) (withConfig config start) es).invariant (Limited config start)
      ⟨rfl,Nat.zero_le _,rfl,rfl⟩ (fun s e h _ => h.step blake3 e)
  have hlength : (s.listSubscriptions order).length = s.topics.keys.card :=
    order.length_order () s.topics.keys
  have hmem : ∀ t, t ∈ s.listSubscriptions order ↔ t ∈ s.topics := by
    intro t
    exact (order.mem_order () s.topics.keys t).trans Finmap.mem_keys
  have hnone : ∀ t, t ∉ (withConfig config start).topics := fun t => Finmap.notMem_empty
  rw [hlength]
  refine ⟨?_,h.few,?_,fun topic e => subscribe_of_error,h.metrics_eq,fun _ => h.alone⟩
  · intro t
    rw [hmem]
    exact holds_iff_since_of_not (P := fun s : GossipSubService => t ∈ s.topics)
      (mem_step blake3 t) (hnone t) es
  · intro topic e
    have hfull : config.maxSubscriptions ≤ s.topics.keys.card ↔
        s.topics.keys.card = config.maxSubscriptions :=
      ⟨fun hle => le_antisymm h.few hle,fun heq => heq.ge⟩
    rw [subscribe_error_iff,hmem,h.config_eq,hfull]

end Subscriptions

end GossipSubService

section Publishing

open StreamDataValidator

/-- The segment of a message that `validate` accepts on a data topic is the last of its track;
every other message leaves the tracks as they are. -/
theorem StreamDataValidator.tracks_validate {v : StreamDataValidator}
    {log : List SegmentId} (h : Tracks v (LastSeen.filter log)) (m : Message)
    (source : Option String) (now : Moment) :
    Tracks (v.validate m source now).2 (LastSeen.filter (log++
      if isStreamDataTopic m.topic ∧ (v.validate m source now).1 = .accept then
        (segmentId m).toList else [])) := by
  have hkept : Tracks (v.checkSource m source now).2 (LastSeen.filter log) := by
    intro id trackId
    rw [checkSource_sequenceTracker]
    exact h id trackId
  by_cases htopic : isStreamDataTopic m.topic = true
  case neg =>
    have hvalidate : v.validate m source now = (.accept,v) := by simp [validate,htopic]
    simpa [hvalidate,htopic] using h
  case pos =>
    cases hallow : (v.checkSource m source now).1 with
    | false =>
      have hvalidate : v.validate m source now = (.reject,(v.checkSource m source now).2) := by
        simp [validate,htopic,hallow]
      simpa [hvalidate] using hkept
    | true =>
      have hvalidate : v.validate m source now =
          (v.checkSource m source now).2.checkSegment m.payload.asBytes := by
        simp [validate,htopic,hallow]
      rw [hvalidate,checkSegment_eq]
      cases hread : readSegment m.payload.asBytes with
      | none => simpa using hkept
      | some w =>
        have haccept := checkSequence_accept hkept w.streamId.val w.trackId w.sequence
        have hpushed := tracks_checkSequence hkept w.streamId.val w.trackId w.sequence
        by_cases hlast : (LastSeen.filter log).last (w.streamId.val,w.trackId) = some w.sequence
        · have hno : ((v.checkSource m source now).2.checkSequence
              (streamKey w.streamId.val w.trackId) w.sequence).1 ≠ .accept :=
            fun hyes => haccept.mp hyes hlast
          have hsame : ((v.checkSource m source now).2.checkSequence
              (streamKey w.streamId.val w.trackId) w.sequence).2 =
              (v.checkSource m source now).2 := by
            simp [checkSequence,hkept w.streamId.val w.trackId,hlast]
          simpa [hno,hsame] using hkept
        · simpa [haccept.mpr hlast,htopic,segmentId,hread] using hpushed

/-- A message without a source is under no rate. -/
theorem StreamDataValidator.validate_accept_iff {v : StreamDataValidator} {log : List SegmentId}
    (h : Tracks v (LastSeen.filter log)) {m : Message} (hpublisher : m.publisher = none)
    (now : Moment) :
    (v.validate m none now).1 = .accept ↔ (isStreamDataTopic m.topic = true →
      ∃ x, segmentId m = some x ∧ (LastSeen.filter log).last x.1 ≠ some x.2) := by
  by_cases htopic : isStreamDataTopic m.topic = true
  case neg => simp [validate,htopic]
  case pos =>
    have hsource : v.checkSource m none now = (true,v) := by
      simp [checkSource,sourceId,hpublisher]
    have hvalidate : v.validate m none now = v.checkSegment m.payload.asBytes := by
      simp [validate,htopic,hsource]
    rw [hvalidate,checkSegment_eq]
    cases hread : readSegment m.payload.asBytes with
    | none => simp [htopic,segmentId,hread]
    | some w =>
      have haccept := checkSequence_accept h w.streamId.val w.trackId w.sequence
      simpa [htopic,segmentId,hread] using haccept

namespace GossipSubService

variable [Lru String Nat]

variable (blake3 : Bytes → Bytes)

/-- The message that a call validates. -/
def sent (e : Moment × ServiceCall) : Option (String × NamedMessage) :=
  match e.2 with
  | .publish topicId data => some (topicId,.binary blake3 e.1 topicId data)
  | .publishMessage topicId m => some (topicId,m)
  | _ => none

/-- The segments that calls publish on data topics. -/
def published (s : GossipSubService) (e : Moment × ServiceCall) : List SegmentId :=
  match sent blake3 e with
  | some (topicId,m) =>
    if isStreamDataTopic m.message.topic ∧ (s.publishMessage e.1 topicId m).1 = .ok m.id then
      (segmentId m.message).toList
    else []
  | none => []

/-- The validator is the one that the service is built with, and knows the last segment of each
track. -/
def Knows (s : GossipSubService) (log : List SegmentId) : Prop :=
  ∃ v, s.validator = ⟨[.basic .new,.streamData v]⟩ ∧ Tracks v (LastSeen.filter log)

/-- What the two validators make of a message. -/
theorem validate_pair (v : StreamDataValidator) (m : Message) (now : Moment) :
    (⟨[.basic .new,.streamData v]⟩ : CompositeValidator).validate m none now =
      match BasicValidator.new.validate m now with
      | .accept => ((v.validate m none now).1,⟨[.basic .new,.streamData (v.validate m none now).2]⟩)
      | result => (result,⟨[.basic .new,.streamData v]⟩) := by
  have hpending := v.validate_ne_pending m none now
  cases hbasic : BasicValidator.new.validate m now with
  | accept =>
    cases hresult : (v.validate m none now).1 <;>
      simp_all [CompositeValidator.validate,CompositeValidator.validateFrom,Validator.validate]
  | pending =>
    have hnever : BasicValidator.new.validate m now ≠ .pending := by
      unfold BasicValidator.validate
      split_ifs <;> simp
    exact absurd hbasic hnever
  | reject =>
    simp [CompositeValidator.validate,CompositeValidator.validateFrom,Validator.validate,hbasic]
  | ignore =>
    simp [CompositeValidator.validate,CompositeValidator.validateFrom,Validator.validate,hbasic]

theorem publishMessage_validator (s : GossipSubService) (now : Moment) (topicId : String)
    (m : NamedMessage) :
    (s.publishMessage now topicId m).2.validator =
      (s.validator.validate m.message none now).2 := by
  unfold publishMessage
  cases hresult : (s.validator.validate m.message none now).1 <;> simp [hresult]

theorem publishMessage_ok_iff (s : GossipSubService) (now : Moment) (topicId : String)
    (m : NamedMessage) : (s.publishMessage now topicId m).1 = .ok m.id ↔
      (s.validator.validate m.message none now).1 = .accept ∨
        (s.validator.validate m.message none now).1 = .pending := by
  unfold publishMessage
  cases hresult : (s.validator.validate m.message none now).1 <;> simp [hresult]

theorem knows_publishMessage {s : GossipSubService} {log : List SegmentId} (h : s.Knows log)
    (now : Moment) (topicId : String) (m : NamedMessage) :
    (s.publishMessage now topicId m).2.Knows (log++
      if isStreamDataTopic m.message.topic ∧ (s.publishMessage now topicId m).1 = .ok m.id then
        (segmentId m.message).toList else []) := by
  obtain ⟨v,hvalidator,htracks⟩ := h
  have hpair := validate_pair v m.message now
  rw [← hvalidator] at hpair
  have hok := publishMessage_ok_iff s now topicId m
  have hafter := publishMessage_validator s now topicId m
  cases hbasic : BasicValidator.new.validate m.message now with
  | accept =>
    simp only [hbasic] at hpair
    rw [hpair] at hok hafter
    have hsame : (s.publishMessage now topicId m).1 = .ok m.id ↔
        (v.validate m.message none now).1 = .accept :=
      hok.trans (or_iff_left (v.validate_ne_pending m.message none now))
    refine ⟨_,hafter,?_⟩
    simp only [hsame]
    exact tracks_validate htracks m.message none now
  | reject =>
    simp only [hbasic] at hpair
    rw [hpair] at hok hafter
    exact ⟨v,hafter.trans hvalidator,by simpa [hok] using htracks⟩
  | ignore =>
    simp only [hbasic] at hpair
    rw [hpair] at hok hafter
    exact ⟨v,hafter.trans hvalidator,by simpa [hok] using htracks⟩
  | pending =>
    simp only [hbasic] at hpair
    rw [hpair] at hok
    have hnever : BasicValidator.new.validate m.message now ≠ .pending :=
      Validator.validate_ne_pending (.basic .new) m.message none now
    exact absurd hbasic hnever

theorem knows_step {s : GossipSubService} {log : List SegmentId} (h : s.Knows log)
    (e : Moment × ServiceCall) : (s.step blake3 e).Knows (log++s.published blake3 e) := by
  obtain ⟨now,call⟩ := e
  have hsame : ∀ s' : GossipSubService, s'.validator = s.validator → s'.Knows (log++[]) := by
    intro s' hvalidator
    obtain ⟨v,hv,htracks⟩ := h
    exact ⟨v,hvalidator.trans hv,by simpa using htracks⟩
  cases call with
  | subscribe topic =>
    refine hsame (s.subscribe topic).2 ?_
    unfold subscribe
    split_ifs <;> rfl
  | unsubscribe topicId =>
    refine hsame (s.unsubscribe topicId).2 ?_
    unfold unsubscribe
    split_ifs <;> rfl
  | publish topicId data => exact knows_publishMessage h now topicId _
  | publishMessage topicId m => exact knows_publishMessage h now topicId m
  | start =>
    refine hsame s.start.2 ?_
    unfold start
    split_ifs <;> rfl
  | stop =>
    refine hsame s.stop.2 ?_
    unfold stop
    split_ifs <;> rfl
  | eventStream => exact hsame s.eventStream.2 rfl

theorem knows_run {s : GossipSubService} {log : List SegmentId} (h : s.Knows log)
    (es : List (Moment × ServiceCall)) :
    (es.foldl (step blake3) s).Knows (log++collect (step blake3) (published blake3) s es) := by
  induction es generalizing s log with
  | nil => simpa using h
  | cons e es ih =>
    have hrest := ih (knows_step blake3 h e)
    rwa [List.append_assoc] at hrest

/-- Nothing but its size keeps a binary message from the validator of segments. -/
theorem basic_binary (now : Moment) (topicId : String) (data : Bytes) :
    BasicValidator.new.validate (NamedMessage.binary blake3 now topicId data).message now =
      if 32+data.length ≤ 1024*1024 then .accept else .reject := by
  have hsize : (NamedMessage.binary blake3 now topicId data).message.size = 32+data.length := rfl
  have hlimit : BasicValidator.new.getMaxMessageSize
      (NamedMessage.binary blake3 now topicId data).message.topic = 1024*1024 := by
    simp [BasicValidator.getMaxMessageSize,BasicValidator.new]
  have hfresh : (NamedMessage.binary blake3 now topicId data).message.isExpired now = false := rfl
  have hallowed : (NamedMessage.binary blake3 now topicId data).message.publisher.any (fun p =>
      !BasicValidator.new.isPublisherAllowed
        (NamedMessage.binary blake3 now topicId data).message.topic p) = false := rfl
  unfold BasicValidator.validate
  rw [hsize,hlimit,hfresh,hallowed]
  by_cases hsmall : 32+data.length ≤ 1024*1024
  · simp [hsmall,not_lt.mpr hsmall]
  · simp [hsmall,not_le.mp hsmall]

/-- Whatever has been called before, data is published exactly if it is within a mebibyte and, on a
data topic, is a segment that this version knows and whose number is not the one that was last
published on its track. Neither the limits that the settings and the topics name nor whether the
service has been started or is subscribed matter. -/
theorem publish_ok_iff (config : GossipSubConfig) (start : Moment)
    (es : List (Moment × ServiceCall)) (now : Moment) (topicId : String) (data : Bytes) :
    let s := es.foldl (step blake3) (withConfig config start)
    let log := collect (step blake3) (published blake3) (withConfig config start) es
    (s.publish blake3 now topicId data).1 =
        .ok (generateMessageId blake3 topicId data now.millis) ↔
      32+data.length ≤ 1024*1024 ∧ (isStreamDataTopic topicId = true →
        ∃ w, readSegment data = some w ∧ ¬ ∃ before after,
          log = before++((w.streamId.val,w.trackId),w.sequence)::after ∧
            ∀ x ∈ after, x.1 ≠ (w.streamId.val,w.trackId)) := by
  intro s log
  have hstart : (withConfig config start).Knows [] := by
    refine ⟨.new 100,rfl,fun id trackId => ?_⟩
    simp [StreamDataValidator.new,LastSeen.empty]
  obtain ⟨v,hvalidator,htracks⟩ := knows_run blake3 hstart es
  rw [List.nil_append] at htracks
  set m := NamedMessage.binary blake3 now topicId data with hm
  have hok : (s.publish blake3 now topicId data).1 =
      .ok (generateMessageId blake3 topicId data now.millis) ↔ _ :=
    publishMessage_ok_iff s now topicId m
  have hpair := validate_pair v m.message now
  rw [← hvalidator,basic_binary] at hpair
  have haccept := validate_accept_iff htracks (show m.message.publisher = none from rfl) now
  rw [hok,hpair]
  by_cases hsmall : 32+data.length ≤ 1024*1024
  · simp only [hsmall,if_true,true_and]
    rw [or_iff_left (v.validate_ne_pending m.message none now),haccept]
    refine imp_congr_right (fun _ => ?_)
    have hsegment : segmentId m.message =
        (readSegment data).map (fun w => ((w.streamId.val,w.trackId),w.sequence)) := rfl
    rw [hsegment]
    constructor
    · rintro ⟨x,hx,hlast⟩
      obtain ⟨w,hw,rfl⟩ := Option.map_eq_some_iff.mp hx
      exact ⟨w,hw,fun hbefore => hlast ((LastSeen.last_eq_some_iff _ _ _).mpr hbefore)⟩
    · rintro ⟨w,hw,hlast⟩
      exact ⟨_,by rw [hw]; rfl,fun hbefore => hlast ((LastSeen.last_eq_some_iff _ _ _).mp hbefore)⟩
  · simp [hsmall]

end GossipSubService

end Publishing

end OpenBroadcast.PubSub
