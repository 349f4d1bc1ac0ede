import OpenBroadcast.Framework.Run
import OpenBroadcast.Media.WireFormat
import OpenBroadcast.Relay.Stream

namespace OpenBroadcast.Delivery

open Media

/-- Of the errors of the overlay, those that the functions here make up or pass on. -/
inductive OverlayError where
  | relayError (message : String)
  | notRunning
  | other (message : String)
  deriving DecidableEq, Repr

/-- Events about peers and published streams, which no consumer of segments looks at, are `other`. -/
inductive OverlayEvent (PeerId : Type) where
  | streamData (streamId : Relay.StreamId) (source : PeerId) (data : Bytes)
  | streamStopped (streamId : Relay.StreamId) (reason : String)
  | streamAnnounced (streamId : Relay.StreamId) (data : Bytes)
  | other
  deriving DecidableEq

structure P2PBridgeConfig where
  maxStreams : Nat
  deriving DecidableEq, Repr

def P2PBridgeConfig.default : P2PBridgeConfig := ⟨100⟩

/-- The section that a call of `subscribe` comes to next: the test for the stream, the test of the
limit, the call of the overlay, and the insertion. -/
inductive Stage where
  | contains
  | limit
  | overlay
  | insert
  deriving DecidableEq, Repr

structure SubscribeCall where
  streamId : StreamId
  stage : Stage
  deriving DecidableEq, Repr

inductive Progress where
  | goesOn (stage : Stage)
  | returns (result : Except OverlayError Unit)

/-- The bridge, with the calls of `subscribe` that are under way and what it has sent to the local
subscribers so far. -/
structure P2PBridge where
  subscribedStreams : Finset StreamId
  calls : List SubscribeCall
  receiverCount : Nat
  sent : List StreamSegment

/-- What happens at a bridge between two await points. -/
inductive BridgeEvent (PeerId : Type) where
  | subscribe (streamId : StreamId)
  /-- The `k`th call goes on; `overlay` is the answer of the overlay if that is what it waits for. -/
  | proceed (k : Nat) (overlay : Except OverlayError Unit)
  | unsubscribe (streamId : StreamId)
  | overlayEvent (event : OverlayEvent PeerId)
  | subscribeSegments
  | dropReceiver

namespace P2PBridge

variable {PeerId : Type} (cfg : P2PBridgeConfig)

def new : P2PBridge := ⟨∅,[],0,[]⟩

/-- One section of `subscribe`. The lock is released after each. -/
def subscribeSection (s : P2PBridge) (call : SubscribeCall) (overlay : Except OverlayError Unit) :
    P2PBridge × Progress :=
  match call.stage with
  | .contains =>
    (s,if call.streamId ∈ s.subscribedStreams then .returns (.ok ()) else .goesOn .limit)
  | .limit =>
    (s,if cfg.maxStreams ≤ s.subscribedStreams.card then
        .returns (.error (.other
          ("Maximum number of streams ("++toString cfg.maxStreams++") reached")))
      else .goesOn .overlay)
  | .overlay =>
    (s,match overlay with
      | .ok () => .goesOn .insert
      | .error e => .returns (.error e))
  | .insert =>
    ({ s with subscribedStreams := insert call.streamId s.subscribedStreams },.returns (.ok ()))

/-- The gossip topic stays subscribed. -/
def unsubscribe (s : P2PBridge) (streamId : StreamId) : P2PBridge :=
  { s with subscribedStreams := s.subscribedStreams.erase streamId }

def handleEvent (s : P2PBridge) : OverlayEvent PeerId → P2PBridge
  | .streamData streamId _ data =>
    if ⟨streamId.bytes⟩ ∈ s.subscribedStreams then
      match WireSegment.fromBytes data with
      | .ok wire =>
        if 0 < s.receiverCount then { s with sent := s.sent++[wire.toSegment] } else s
      | .error _ => s
    else s
  | .streamStopped streamId _ => s.unsubscribe ⟨streamId.bytes⟩
  | _ => s

def proceed (s : P2PBridge) (k : Nat) (overlay : Except OverlayError Unit) : P2PBridge :=
  match s.calls[k]? with
  | none => s
  | some call =>
    let (s,progress) := subscribeSection cfg s call overlay
    match progress with
    | .goesOn stage => { s with calls := s.calls.set k { call with stage := stage } }
    | .returns _ => { s with calls := s.calls.eraseIdx k }

def step (s : P2PBridge) : BridgeEvent PeerId → P2PBridge
  | .subscribe streamId => { s with calls := s.calls++[⟨streamId,.contains⟩] }
  | .proceed k overlay => s.proceed cfg k overlay
  | .unsubscribe streamId => s.unsubscribe streamId
  | .overlayEvent event => s.handleEvent event
  | .subscribeSegments => { s with receiverCount := s.receiverCount+1 }
  | .dropReceiver => { s with receiverCount := s.receiverCount-1 }

section Cap

variable {cfg} {s : P2PBridge}

/-- A call that comes to its insertion with a new stream finds fewer streams than the limit. -/
def BelowMax (cfg : P2PBridgeConfig) (s : P2PBridge) : BridgeEvent PeerId → Prop
  | .proceed k _ => ∀ call, s.calls[k]? = some call → call.stage = .insert →
    call.streamId ∉ s.subscribedStreams → s.subscribedStreams.card < cfg.maxStreams
  | _ => True

/-- Only the insertion changes the streams. -/
theorem subscribeSection_streams (cfg : P2PBridgeConfig) (call : SubscribeCall)
    (overlay : Except OverlayError Unit) :
    (subscribeSection cfg s call overlay).1.subscribedStreams =
      if call.stage = .insert then insert call.streamId s.subscribedStreams
      else s.subscribedStreams := by
  obtain ⟨streamId,stage⟩ := call
  cases stage <;> rfl

theorem proceed_streams (k : Nat) (overlay : Except OverlayError Unit) :
    (s.proceed cfg k overlay).subscribedStreams = (s.calls[k]?).elim s.subscribedStreams
      (fun call => if call.stage = .insert then insert call.streamId s.subscribedStreams
        else s.subscribedStreams) := by
  unfold proceed
  cases hcall : s.calls[k]? with
  | none => rfl
  | some call =>
    dsimp only [Option.elim]
    rw [← subscribeSection_streams cfg call overlay]
    split <;> rfl

theorem handleEvent_streams (e : OverlayEvent PeerId) :
    (s.handleEvent e).subscribedStreams ⊆ s.subscribedStreams := by
  cases e with
  | streamData streamId source data =>
    simp only [handleEvent]
    split
    · split
      · split <;> exact Finset.Subset.refl _
      · exact Finset.Subset.refl _
    · exact Finset.Subset.refl _
  | streamStopped streamId reason => exact Finset.erase_subset _ _
  | streamAnnounced streamId data => exact Finset.Subset.refl _
  | other => exact Finset.Subset.refl _

/-- A step keeps to the limit exactly if its insertion finds a place. -/
theorem belowMax_iff_step (h : s.subscribedStreams.card ≤ cfg.maxStreams)
    (e : BridgeEvent PeerId) :
    BelowMax cfg s e ↔ (s.step cfg e).subscribedStreams.card ≤ cfg.maxStreams := by
  have hfewer : ∀ s' : P2PBridge, s'.subscribedStreams ⊆ s.subscribedStreams →
      (True ↔ s'.subscribedStreams.card ≤ cfg.maxStreams) :=
    fun s' hsub => ⟨fun _ => (Finset.card_le_card hsub).trans h,fun _ => trivial⟩
  cases e with
  | subscribe streamId => exact hfewer _ (Finset.Subset.refl _)
  | unsubscribe streamId => exact hfewer _ (Finset.erase_subset _ _)
  | overlayEvent e => exact hfewer _ (handleEvent_streams e)
  | subscribeSegments => exact hfewer _ (Finset.Subset.refl _)
  | dropReceiver => exact hfewer _ (Finset.Subset.refl _)
  | proceed k overlay =>
    change (∀ call, s.calls[k]? = some call → call.stage = .insert →
      call.streamId ∉ s.subscribedStreams → s.subscribedStreams.card < cfg.maxStreams) ↔
      (s.proceed cfg k overlay).subscribedStreams.card ≤ cfg.maxStreams
    rw [proceed_streams]
    cases hcall : s.calls[k]? with
    | none => simpa using h
    | some call =>
      simp only [Option.some.injEq,forall_eq',Option.elim]
      by_cases hstage : call.stage = .insert
      · by_cases hnew : call.streamId ∈ s.subscribedStreams
        · simpa [hstage,hnew] using h
        · rw [if_pos hstage,Finset.card_insert_of_notMem hnew]
          exact ⟨fun hroom => hroom hstage hnew,fun hroom _ _ => hroom⟩
      · simpa [hstage] using h

/-- The number of streams stays within `max_streams` exactly in the runs in which every insertion
of a new stream still finds fewer than this. -/
theorem streams_capped_iff (cfg : P2PBridgeConfig) (es : List (BridgeEvent PeerId)) :
    (∀ pre, pre <+: es → (pre.foldl (step cfg) new).subscribedStreams.card ≤ cfg.maxStreams) ↔
      Along (step cfg) (BelowMax cfg) new es := by
  symm
  apply along_iff_prefixes (fun s : P2PBridge => s.subscribedStreams.card ≤ cfg.maxStreams)
  · exact Nat.zero_le _
  · exact fun s e h => belowMax_iff_step h e

/-- Two calls that test the limit before one of them inserts its stream. -/
def overlappingCalls : List (BridgeEvent Unit) :=
  [.subscribe ⟨[1]⟩,.subscribe ⟨[2]⟩,.proceed 0 (.ok ()),.proceed 0 (.ok ()),.proceed 1 (.ok ()),
    .proceed 1 (.ok ()),.proceed 0 (.ok ()),.proceed 0 (.ok ()),.proceed 0 (.ok ()),
    .proceed 0 (.ok ())]

theorem overlapping_calls_exceed_max :
    ((overlappingCalls.foldl (step ⟨1⟩) new).subscribedStreams.card = 2) ∧
    ¬ ∀ pre, pre <+: overlappingCalls →
      (pre.foldl (step ⟨1⟩) new).subscribedStreams.card ≤ 1 := by
  have htwo : (overlappingCalls.foldl (step ⟨1⟩) new).subscribedStreams.card = 2 := by decide
  refine ⟨htwo,?_⟩
  intro hcap
  have hone := hcap overlappingCalls (List.prefix_refl _)
  omega

end Cap

section Subscribed

variable {cfg} {s : P2PBridge}

/-- All that the step sends belongs to streams that are subscribed when it is taken. -/
def SendsSubscribed (cfg : P2PBridgeConfig) (s : P2PBridge) (e : BridgeEvent PeerId) : Prop :=
  ∀ seg ∈ (s.step cfg e).sent.drop s.sent.length, seg.streamId ∈ s.subscribedStreams

instance (cfg : P2PBridgeConfig) (s : P2PBridge) (e : BridgeEvent PeerId) :
    Decidable (SendsSubscribed cfg s e) := inferInstanceAs (Decidable (∀ seg ∈ _, _))

/-- Data of a subscribed stream carries the id of a subscribed stream, if somebody receives it. -/
def PayloadSubscribed (s : P2PBridge) : BridgeEvent PeerId → Prop
  | .overlayEvent (.streamData streamId _ data) =>
    ⟨streamId.bytes⟩ ∈ s.subscribedStreams → 0 < s.receiverCount →
      ∀ wire, WireSegment.fromBytes data = .ok wire → ⟨wire.streamId.val⟩ ∈ s.subscribedStreams
  | _ => True

theorem proceed_sent (k : Nat) (overlay : Except OverlayError Unit) :
    (s.proceed cfg k overlay).sent = s.sent := by
  have hsection : ∀ call, (subscribeSection cfg s call overlay).1.sent = s.sent := by
    intro call
    obtain ⟨streamId,stage⟩ := call
    cases stage <;> rfl
  unfold proceed
  cases hcall : s.calls[k]? with
  | none => rfl
  | some call =>
    rw [← hsection call]
    dsimp only
    split <;> rfl

theorem handleEvent_streamData_sent (streamId : Relay.StreamId) (source : PeerId) (data : Bytes) :
    (s.handleEvent (.streamData streamId source data)).sent = s.sent++
      (if ⟨streamId.bytes⟩ ∈ s.subscribedStreams ∧ 0 < s.receiverCount then
        (WireSegment.fromBytes data).toOption.toList.map WireSegment.toSegment else []) := by
  simp only [handleEvent]
  cases WireSegment.fromBytes data with
  | error e => simp [Except.toOption]
  | ok wire =>
    by_cases hid : ⟨streamId.bytes⟩ ∈ s.subscribedStreams
    · by_cases hreceivers : 0 < s.receiverCount
      · simp [hid,hreceivers,Except.toOption]
      · simp [hid,hreceivers]
    · simp [hid]

theorem sendsSubscribed_iff (e : BridgeEvent PeerId) :
    SendsSubscribed cfg s e ↔ PayloadSubscribed s e := by
  have hnothing : ∀ e : BridgeEvent PeerId, (s.step cfg e).sent = s.sent →
      (SendsSubscribed cfg s e ↔ True) := by
    intro e hsent
    unfold SendsSubscribed
    rw [hsent,List.drop_length]
    simp
  cases e with
  | subscribe streamId => exact hnothing _ rfl
  | proceed k overlay => exact hnothing _ (proceed_sent k overlay)
  | unsubscribe streamId => exact hnothing _ rfl
  | subscribeSegments => exact hnothing _ rfl
  | dropReceiver => exact hnothing _ rfl
  | overlayEvent e =>
    cases e with
    | streamStopped streamId reason => exact hnothing _ rfl
    | streamAnnounced streamId data => exact hnothing _ rfl
    | other => exact hnothing _ rfl
    | streamData streamId source data =>
      have hsent := handleEvent_streamData_sent (s := s) streamId source data
      unfold SendsSubscribed PayloadSubscribed
      rw [step,hsent,List.drop_left]
      constructor
      · intro h hid hreceivers wire hwire
        apply h wire.toSegment
        rw [if_pos ⟨hid,hreceivers⟩,hwire]
        exact List.mem_singleton_self _
      · intro h seg hseg
        split_ifs at hseg with hsends
        · cases hwire : WireSegment.fromBytes data with
          | error e => simp [hwire,Except.toOption] at hseg
          | ok wire =>
            rw [hwire] at hseg
            rw [List.mem_singleton.mp hseg]
            exact h hsends.1 hsends.2 wire hwire
        · cases hseg

/-- The bridge sends segments of subscribed streams only, exactly in the runs in which the data of
a subscribed stream carries the id of a subscribed stream. -/
theorem sends_subscribed_iff (cfg : P2PBridgeConfig) (es : List (BridgeEvent PeerId)) :
    Along (step cfg) (SendsSubscribed cfg) new es ↔ Along (step cfg) PayloadSubscribed new es :=
  along_congr (fun _ e => sendsSubscribed_iff e) new es

/-- A segment of the stream `[2]`. -/
def foreignSegment : StreamSegment :=
  ⟨⟨[2]⟩,7,0,0,.video,[9],true,1,by decide,by decide⟩

/-- A segment of another stream in the data of a subscribed one. -/
def foreignPayload (data : Bytes) : List (BridgeEvent Unit) :=
  [.subscribeSegments,.subscribe ⟨[1]⟩,.proceed 0 (.ok ()),.proceed 0 (.ok ()),.proceed 0 (.ok ()),
    .proceed 0 (.ok ()),.overlayEvent (.streamData ⟨[1]⟩ () data)]

theorem foreign_payload_sent :
    ∃ data, ((foreignPayload data).foldl (step .default) new).sent = [foreignSegment] ∧
      ((foreignPayload data).foldl (step .default) new).subscribedStreams = {⟨[1]⟩} ∧
      ¬ Along (step .default) (SendsSubscribed .default) new (foreignPayload data) := by
  let wire := WireSegment.ofSegment (fun _ => ⟨List.replicate 32 0,rfl⟩) foreignSegment
  exact ⟨WireSegment.codec.encode wire,by decide,by decide,by decide⟩

end Subscribed

end P2PBridge

end OpenBroadcast.Delivery
