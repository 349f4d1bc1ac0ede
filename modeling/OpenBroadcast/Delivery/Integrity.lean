import OpenBroadcast.Delivery.Gossip
import OpenBroadcast.Framework.Utf8

namespace OpenBroadcast.Delivery

open Media

variable {PeerId : Type}

/-- A node that receives streams: the overlay, a bridge, and the receive loops, which share their
channel and the initialization segment. What has been handed to local subscribers is recorded with
the message that it came in. -/
structure Node (PeerId : Type) where
  overlay : Libp2pOverlay PeerId
  bridge : P2PBridge
  targets : List StreamId
  receiverCount : Nat
  initSegment : Option Bytes
  delivered : List (Option (GossipMessage PeerId) × StreamSegment)

inductive NodeEvent (PeerId : Type) where
  | gossip (c : Circumstances) (m : GossipMessage PeerId)
  /-- Another part of the overlay reports an event about peers. -/
  | report (c : Circumstances)
  /-- A step of the bridge other than taking an event. -/
  | bridge (e : BridgeEvent PeerId)
  | bridgeTakes
  | startLoop (target : StreamId)
  | stopLoop (k : Nat)
  /-- The `k`th receive loop takes an event. -/
  | loopTakes (k : Nat)
  | subscribeSegments
  | dropReceiver

namespace Node

def new : Node PeerId := ⟨.new,.new,[],0,none,[]⟩

/-- `run_p2p_receive_loop` on one event: what it sends, besides keeping an initialization segment. -/
def receiveEvent (n : Node PeerId) (target : StreamId) :
    OverlayEvent PeerId → Node PeerId × List StreamSegment
  | .streamData streamId _ data =>
    if fromUtf8Lossy streamId.bytes ≠ (fromUtf8 target.bytes).getD "" then (n,[])
    else
      match WireSegment.fromBytes data with
      | .ok wire =>
        let segment := wire.toSegment
        let n := if segment.mediaType = .initialization then
            { n with initSegment := some segment.data }
          else n
        (n,if 0 < n.receiverCount then [segment] else [])
      | .error _ => (n,[])
  | _ => (n,[])

def record (n : Node PeerId) (m : Option (GossipMessage PeerId)) (segments : List StreamSegment) :
    Node PeerId :=
  { n with delivered := n.delivered++segments.map (fun seg => (m,seg)) }

/-- The next event of the channel. -/
def nextEvent (n : Node PeerId) :
    Option ((Option (GossipMessage PeerId) × OverlayEvent PeerId) × Node PeerId) :=
  match n.overlay.events with
  | [] => none
  | entry::rest => some (entry,{ n with overlay := { n.overlay with events := rest } })

def bridgeTakes (n : Node PeerId) : Node PeerId :=
  match n.nextEvent with
  | none => n
  | some ((m,event),n) =>
    let bridge := n.bridge.handleEvent event
    { n with bridge := bridge }.record m (bridge.sent.drop n.bridge.sent.length)

def loopTakes (n : Node PeerId) (k : Nat) : Node PeerId :=
  match n.targets[k]?,n.nextEvent with
  | some target,some ((m,event),n) =>
    let (n,segments) := n.receiveEvent target event
    n.record m segments
  | _,_ => n

def step (cfg : P2PBridgeConfig) (blake3 : Bytes → Digest) (n : Node PeerId) :
    NodeEvent PeerId → Node PeerId
  | .gossip c m => { n with overlay := (n.overlay.handleGossipsubEvent blake3 c m).1 }
  | .report c => { n with overlay := n.overlay.trySend c none .other }
  -- Events come to the bridge through the channel only.
  | .bridge (.overlayEvent _) => n
  | .bridge e => { n with bridge := n.bridge.step cfg e }
  | .bridgeTakes => n.bridgeTakes
  | .startLoop target => { n with targets := n.targets++[target] }
  | .stopLoop k => { n with targets := n.targets.eraseIdx k }
  | .loopTakes k => n.loopTakes k
  | .subscribeSegments => { n with receiverCount := n.receiverCount+1 }
  | .dropReceiver => { n with receiverCount := n.receiverCount-1 }

end Node

section Entries

variable (blake3 : Bytes → Digest)

/-- A segment that was handed on comes from a payload that is what its hash says, keeps its type,
and came on a data topic. -/
def Verified (d : Option (GossipMessage PeerId) × StreamSegment) : Prop :=
  ∃ m streamId wire, d.1 = some m ∧ m.topic = streamData streamId ∧
    WireSegment.fromBytes m.data = .ok wire ∧ wire.verifyIntegrity blake3 = true ∧
    d.2 = wire.toSegment ∧ wire.mediaTypeEnum = some d.2.mediaType

/-- What is known of an event in the channel: its data has been checked if it came on a topic that
ends with `/data`. -/
def Checked (entry : Option (GossipMessage PeerId) × OverlayEvent PeerId) : Prop :=
  ∀ streamId source data, entry.2 = .streamData streamId source data →
    ∃ m, entry.1 = some m ∧ parseStreamId m.topic = some streamId ∧ data = m.data ∧
      (endsWithData m.topic → ∀ wire, WireSegment.fromBytes data = .ok wire →
        wire.verifyIntegrity blake3 = true)

/-- What a consumer sends of an event, if it takes the streams that `accepts` says. -/
def received (accepts : Relay.StreamId → Bool) : OverlayEvent PeerId → List StreamSegment
  | .streamData streamId _ data =>
    if accepts streamId then (WireSegment.fromBytes data).toOption.toList.map WireSegment.toSegment
    else []
  | _ => []

/-- Data that a consumer takes and that is a segment came on the data topic of the stream and has
a type that is known. -/
def CleanEntry (accepts : Relay.StreamId → Bool)
    (entry : Option (GossipMessage PeerId) × OverlayEvent PeerId) : Prop :=
  ∀ m streamId source data wire, entry = (some m,.streamData streamId source data) →
    accepts streamId → WireSegment.fromBytes data = .ok wire →
    m.topic = streamData streamId ∧ wire.mediaType.toNat ≤ 3

variable {blake3}

theorem mediaTypeEnum_eq_toSegment_iff (wire : WireSegment) :
    wire.mediaTypeEnum = some wire.toSegment.mediaType ↔ wire.mediaType.toNat ≤ 3 := by
  have hnone := MediaType.fromU8_eq_none_iff wire.mediaType
  change MediaType.fromU8 wire.mediaType =
    some ((MediaType.fromU8 wire.mediaType).getD .video) ↔ _
  cases htype : MediaType.fromU8 wire.mediaType with
  | none =>
    have := hnone.mp htype
    simp only [Option.getD_none,reduceCtorEq,false_iff]
    omega
  | some t =>
    have hsmall : ¬ 3 < wire.mediaType.toNat := by
      intro hbig
      rw [hnone.mpr hbig] at htype
      cases htype
    simp only [Option.getD_some,true_iff]
    omega

/-- All that is sent of an event is verified exactly if the event is clean. -/
theorem verified_iff_clean {entry : Option (GossipMessage PeerId) × OverlayEvent PeerId}
    (hchecked : Checked blake3 entry) (accepts : Relay.StreamId → Bool) :
    (∀ seg ∈ received accepts entry.2, Verified blake3 (entry.1,seg)) ↔
      CleanEntry accepts entry := by
  constructor
  · intro h m streamId source data wire hentry haccepts hwire
    subst hentry
    obtain ⟨m',hm,hparse,rfl,_⟩ := hchecked streamId source data rfl
    cases hm
    have hseg : wire.toSegment ∈ received accepts
        (OverlayEvent.streamData streamId source m.data) := by
      simp [received,haccepts,hwire,Except.toOption]
    obtain ⟨m',streamId',wire',hm,htopic,hwire',_,_,htype⟩ := h _ hseg
    cases hm
    rw [hwire] at hwire'
    cases hwire'
    rw [htopic,parseStreamId_streamData] at hparse
    cases hparse
    exact ⟨htopic,(mediaTypeEnum_eq_toSegment_iff wire).mp htype⟩
  · intro h seg hseg
    obtain ⟨src,event⟩ := entry
    cases event with
    | streamStopped streamId reason => cases hseg
    | streamAnnounced streamId data => cases hseg
    | other => cases hseg
    | streamData streamId source data =>
      obtain ⟨m,hm,_,rfl,hintact⟩ := hchecked streamId source data rfl
      dsimp only at hm
      subst hm
      unfold received at hseg
      dsimp only at hseg
      split_ifs at hseg with haccepts
      · cases hwire : WireSegment.fromBytes m.data with
        | error e => simp [hwire,Except.toOption] at hseg
        | ok wire =>
          rw [hwire] at hseg
          have heq : seg = wire.toSegment := List.mem_singleton.mp hseg
          obtain ⟨htopic,htype⟩ := h m streamId source m.data wire rfl haccepts hwire
          have hends : endsWithData m.topic = true := by
            rw [htopic]
            exact endsWithData_streamData streamId
          subst heq
          exact ⟨m,streamId,wire,rfl,htopic,hwire,hintact hends wire hwire,rfl,
            (mediaTypeEnum_eq_toSegment_iff wire).mpr htype⟩
      · cases hseg

end Entries

section Channel

variable {blake3 : Bytes → Digest}

theorem trySend_checked {o : Libp2pOverlay PeerId} {c : Circumstances}
    {m : Option (GossipMessage PeerId)} {event : OverlayEvent PeerId}
    (h : ∀ entry ∈ o.events, Checked blake3 entry) (hnew : Checked blake3 (m,event)) :
    ∀ entry ∈ (o.trySend c m event).events, Checked blake3 entry := by
  unfold Libp2pOverlay.trySend
  split_ifs
  · exact h
  · intro entry hentry
    rcases List.mem_append.mp hentry with hentry | hentry
    · exact h entry hentry
    · rw [List.mem_singleton.mp hentry]
      exact hnew

theorem dataChunk_intact {c : Circumstances} {streamId : Relay.StreamId}
    {m : GossipMessage PeerId} {chunk : Relay.StreamChunk PeerId}
    (h : dataChunk blake3 c streamId m = some chunk) {wire : WireSegment}
    (hwire : WireSegment.fromBytes m.data = .ok wire) : wire.verifyIntegrity blake3 = true := by
  unfold dataChunk at h
  rw [hwire] at h
  dsimp only at h
  split_ifs at h with hintact
  simpa using hintact

/-- What a message puts into the channel has been checked if it came on a data topic. -/
theorem handleGossipsubEvent_checked {o : Libp2pOverlay PeerId}
    (h : ∀ entry ∈ o.events, Checked blake3 entry) (c : Circumstances) (m : GossipMessage PeerId) :
    ∀ entry ∈ (o.handleGossipsubEvent blake3 c m).1.events, Checked blake3 entry := by
  unfold Libp2pOverlay.handleGossipsubEvent
  cases hparse : parseStreamId m.topic with
  | none =>
    dsimp only
    split_ifs
    · exact h
    · apply trySend_checked h
      intro _ _ _ hevent
      cases hevent
    · exact h
  | some streamId =>
    dsimp only
    split_ifs with hends
    · cases hchunk : dataChunk blake3 c streamId m with
      | none => exact h
      | some chunk =>
        dsimp only
        split
        · exact h
        · apply trySend_checked (o := { o with streams := insert streamId o.streams }) h
          intro _ _ _ hevent
          cases hevent
          exact ⟨m,rfl,hparse,rfl,fun _ wire hwire => dataChunk_intact hchunk hwire⟩
    · apply trySend_checked h
      intro _ _ _ hevent
      cases hevent
      exact ⟨m,rfl,hparse,rfl,fun hdata => absurd hdata hends⟩

end Channel

namespace Node

section Consumers

variable (n : Node PeerId)

def bridgeAccepts (streamId : Relay.StreamId) : Bool :=
  ⟨streamId.bytes⟩ ∈ n.bridge.subscribedStreams ∧ 0 < n.bridge.receiverCount

def loopAccepts (target : StreamId) (streamId : Relay.StreamId) : Bool :=
  fromUtf8Lossy streamId.bytes = (fromUtf8 target.bytes).getD "" ∧ 0 < n.receiverCount

theorem bridge_received (event : OverlayEvent PeerId) :
    (n.bridge.handleEvent event).sent.drop n.bridge.sent.length =
      received n.bridgeAccepts event := by
  cases event with
  | streamData streamId source data =>
    rw [P2PBridge.handleEvent_streamData_sent,List.drop_left]
    simp [received,bridgeAccepts]
  | streamStopped streamId reason => exact List.drop_length
  | streamAnnounced streamId data => exact List.drop_length
  | other => exact List.drop_length

theorem loop_received (target : StreamId) (event : OverlayEvent PeerId) :
    (n.receiveEvent target event).2 = received (n.loopAccepts target) event := by
  cases event with
  | streamStopped streamId reason => rfl
  | streamAnnounced streamId data => rfl
  | other => rfl
  | streamData streamId source data =>
    unfold receiveEvent received loopAccepts
    dsimp only
    by_cases htarget : fromUtf8Lossy streamId.bytes = (fromUtf8 target.bytes).getD ""
    · rw [if_neg (not_not.mpr htarget)]
      cases WireSegment.fromBytes data with
      | error e => simp [Except.toOption]
      | ok wire =>
        have hcount : (if wire.toSegment.mediaType = .initialization then
            { n with initSegment := some wire.toSegment.data } else n).receiverCount =
            n.receiverCount := by
          split_ifs <;> rfl
        dsimp only
        rw [hcount]
        by_cases hreceivers : 0 < n.receiverCount
        · simp [htarget,hreceivers,Except.toOption]
        · simp [hreceivers]
    · rw [if_pos htarget]
      simp [htarget]

/-- A receive loop changes nothing but the initialization segment. -/
theorem receiveEvent_frame (target : StreamId) (event : OverlayEvent PeerId) :
    (n.receiveEvent target event).1.overlay = n.overlay ∧
    (n.receiveEvent target event).1.delivered = n.delivered := by
  cases event with
  | streamStopped streamId reason => exact ⟨rfl,rfl⟩
  | streamAnnounced streamId data => exact ⟨rfl,rfl⟩
  | other => exact ⟨rfl,rfl⟩
  | streamData streamId source data =>
    unfold receiveEvent
    dsimp only
    split_ifs
    · exact ⟨rfl,rfl⟩
    · split
      · dsimp only
        split_ifs <;> exact ⟨rfl,rfl⟩
      · exact ⟨rfl,rfl⟩

end Consumers

section Runs

variable {cfg : P2PBridgeConfig} {blake3 : Bytes → Digest}

/-- A consumer takes only events that are clean. -/
def Clean (n : Node PeerId) : NodeEvent PeerId → Prop
  | .bridgeTakes => ∀ entry rest, n.overlay.events = entry::rest → CleanEntry n.bridgeAccepts entry
  | .loopTakes k => ∀ target entry rest, n.targets[k]? = some target →
    n.overlay.events = entry::rest → CleanEntry (n.loopAccepts target) entry
  | _ => True

def ChannelChecked (blake3 : Bytes → Digest) (n : Node PeerId) : Prop :=
  ∀ entry ∈ n.overlay.events, Checked blake3 entry

def DeliveredVerified (blake3 : Bytes → Digest) (n : Node PeerId) : Prop :=
  ∀ d ∈ n.delivered, Verified blake3 d

/-- A step of a consumer: the event is taken off the channel, and what is received of it is handed
on. -/
theorem take_iff {n n' : Node PeerId} {entry : Option (GossipMessage PeerId) × OverlayEvent PeerId}
    {rest : List (Option (GossipMessage PeerId) × OverlayEvent PeerId)}
    {accepts : Relay.StreamId → Bool} (hchannel : ChannelChecked blake3 n)
    (hdelivered : DeliveredVerified blake3 n) (hevents : n.overlay.events = entry::rest)
    (hafter : n'.delivered = n.delivered++
      (received accepts entry.2).map (fun seg => (entry.1,seg))) :
    CleanEntry accepts entry ↔ DeliveredVerified blake3 n' := by
  have hchecked : Checked blake3 entry := hchannel entry (by rw [hevents]; exact List.mem_cons_self)
  rw [← verified_iff_clean hchecked accepts]
  unfold DeliveredVerified
  rw [hafter]
  constructor
  · intro h d hd
    rcases List.mem_append.mp hd with hd | hd
    · exact hdelivered d hd
    · obtain ⟨seg,hseg,rfl⟩ := List.mem_map.mp hd
      exact h seg hseg
  · intro h seg hseg
    exact h _ (List.mem_append_right _ (List.mem_map_of_mem hseg))

theorem bridgeTakes_of_cons {n : Node PeerId}
    {entry : Option (GossipMessage PeerId) × OverlayEvent PeerId}
    {rest : List (Option (GossipMessage PeerId) × OverlayEvent PeerId)}
    (hevents : n.overlay.events = entry::rest) :
    n.bridgeTakes.overlay.events = rest ∧
    n.bridgeTakes.delivered = n.delivered++
      (received n.bridgeAccepts entry.2).map (fun seg => (entry.1,seg)) := by
  unfold bridgeTakes nextEvent record
  rw [hevents]
  refine ⟨rfl,?_⟩
  dsimp only
  rw [n.bridge_received entry.2]

theorem loopTakes_of_cons {n : Node PeerId} {k : Nat} {target : StreamId}
    {entry : Option (GossipMessage PeerId) × OverlayEvent PeerId}
    {rest : List (Option (GossipMessage PeerId) × OverlayEvent PeerId)}
    (htarget : n.targets[k]? = some target) (hevents : n.overlay.events = entry::rest) :
    (n.loopTakes k).overlay.events = rest ∧
    (n.loopTakes k).delivered = n.delivered++
      (received (n.loopAccepts target) entry.2).map (fun seg => (entry.1,seg)) := by
  let taken : Node PeerId := { n with overlay := { n.overlay with events := rest } }
  obtain ⟨hoverlay,hdelivered⟩ := taken.receiveEvent_frame target entry.2
  have hreceived := taken.loop_received target entry.2
  unfold loopTakes nextEvent record
  rw [htarget,hevents]
  dsimp only
  constructor
  · rw [hoverlay]
  · rw [hdelivered,hreceived]
    rfl

theorem loopTakes_of_none {n : Node PeerId} {k : Nat} (htarget : n.targets[k]? = none) :
    n.loopTakes k = n := by
  unfold loopTakes
  rw [htarget]

theorem bridgeTakes_of_nil {n : Node PeerId} (hevents : n.overlay.events = []) :
    n.bridgeTakes = n := by
  unfold bridgeTakes nextEvent
  rw [hevents]

theorem loopTakes_of_nil {n : Node PeerId} (k : Nat) (hevents : n.overlay.events = []) :
    n.loopTakes k = n := by
  unfold loopTakes nextEvent
  rw [hevents]
  cases n.targets[k]? <;> rfl

theorem checked_other (m : Option (GossipMessage PeerId)) : Checked blake3 (m,.other) := by
  intro _ _ _ hevent
  cases hevent

theorem bridge_step_frame (n : Node PeerId) (e : BridgeEvent PeerId) :
    (n.step cfg blake3 (.bridge e)).overlay = n.overlay ∧
    (n.step cfg blake3 (.bridge e)).delivered = n.delivered := by
  cases e <;> exact ⟨rfl,rfl⟩

/-- Every step keeps the channel checked. -/
theorem channelChecked_step {n : Node PeerId} (h : ChannelChecked blake3 n)
    (e : NodeEvent PeerId) : ChannelChecked blake3 (n.step cfg blake3 e) := by
  cases e with
  | gossip c m => exact handleGossipsubEvent_checked h c m
  | report c => exact trySend_checked h (checked_other none)
  | bridge e =>
    unfold ChannelChecked
    rw [(bridge_step_frame n e).1]
    exact h
  | startLoop target => exact h
  | stopLoop k => exact h
  | subscribeSegments => exact h
  | dropReceiver => exact h
  | bridgeTakes =>
    change ChannelChecked blake3 n.bridgeTakes
    cases hevents : n.overlay.events with
    | nil => rwa [bridgeTakes_of_nil hevents]
    | cons entry rest =>
      intro x hx
      rw [(bridgeTakes_of_cons hevents).1] at hx
      exact h x (hevents ▸ List.mem_cons_of_mem _ hx)
  | loopTakes k =>
    change ChannelChecked blake3 (n.loopTakes k)
    cases htarget : n.targets[k]? with
    | none => rwa [loopTakes_of_none htarget]
    | some target =>
      cases hevents : n.overlay.events with
      | nil => rwa [loopTakes_of_nil k hevents]
      | cons entry rest =>
        intro x hx
        rw [(loopTakes_of_cons htarget hevents).1] at hx
        exact h x (hevents ▸ List.mem_cons_of_mem _ hx)

/-- What is delivered stays verified by a step exactly if the step is clean. -/
theorem clean_iff_step {n : Node PeerId} (hchannel : ChannelChecked blake3 n)
    (hdelivered : DeliveredVerified blake3 n) (e : NodeEvent PeerId) :
    Clean n e ↔ DeliveredVerified blake3 (n.step cfg blake3 e) := by
  have hsame : ∀ n' : Node PeerId, n'.delivered = n.delivered →
      (True ↔ DeliveredVerified blake3 n') := by
    intro n' heq
    unfold DeliveredVerified
    rw [heq]
    exact ⟨fun _ => hdelivered,fun _ => trivial⟩
  cases e with
  | gossip c m => exact hsame _ rfl
  | report c => exact hsame _ rfl
  | bridge e => exact hsame _ (bridge_step_frame n e).2
  | startLoop target => exact hsame _ rfl
  | stopLoop k => exact hsame _ rfl
  | subscribeSegments => exact hsame _ rfl
  | dropReceiver => exact hsame _ rfl
  | bridgeTakes =>
    change (∀ entry rest, n.overlay.events = entry::rest → CleanEntry n.bridgeAccepts entry) ↔
      DeliveredVerified blake3 n.bridgeTakes
    cases hevents : n.overlay.events with
    | nil => simpa [bridgeTakes_of_nil hevents] using hdelivered
    | cons entry rest =>
      rw [← take_iff hchannel hdelivered hevents (bridgeTakes_of_cons hevents).2]
      simp
  | loopTakes k =>
    change (∀ target entry rest, n.targets[k]? = some target →
      n.overlay.events = entry::rest → CleanEntry (n.loopAccepts target) entry) ↔
      DeliveredVerified blake3 (n.loopTakes k)
    cases htarget : n.targets[k]? with
    | none => simpa [loopTakes_of_none htarget] using hdelivered
    | some target =>
      cases hevents : n.overlay.events with
      | nil => simpa [loopTakes_of_nil k hevents] using hdelivered
      | cons entry rest =>
        rw [← take_iff hchannel hdelivered hevents (loopTakes_of_cons htarget hevents).2]
        simp

/-- All that is ever delivered is verified, exactly in the runs in which every segment that a
consumer takes came on the data topic of its stream and has a known type. -/
theorem delivered_verified_iff (cfg : P2PBridgeConfig) (blake3 : Bytes → Digest)
    (es : List (NodeEvent PeerId)) :
    (∀ pre, pre <+: es → DeliveredVerified blake3 (pre.foldl (step cfg blake3) new)) ↔
      Along (step cfg blake3) Clean new es := by
  have hchannel : ∀ pre : List (NodeEvent PeerId),
      ChannelChecked blake3 (pre.foldl (step cfg blake3) new) := by
    intro pre
    apply (along_true (step cfg blake3) new pre).invariant (ChannelChecked blake3)
    · intro entry hentry
      cases hentry
    · exact fun n e h _ => channelChecked_step h e
  have hrun : Along (step cfg blake3) Clean new es ↔ ∀ pre, pre <+: es →
      ChannelChecked blake3 (pre.foldl (step cfg blake3) new) ∧
      DeliveredVerified blake3 (pre.foldl (step cfg blake3) new) := by
    apply along_iff_prefixes (fun n => ChannelChecked blake3 n ∧ DeliveredVerified blake3 n)
    · exact ⟨hchannel [],fun d hd => by cases hd⟩
    · intro n e hinv
      rw [clean_iff_step hinv.1 hinv.2 e]
      exact (and_iff_right (channelChecked_step hinv.1 e)).symm
  rw [hrun]
  exact forall₂_congr fun pre _ => (and_iff_right (hchannel pre)).symm

theorem forgedData_short : ([9] : Bytes).length < 2^64 := by decide

/-- A segment whose content does not have the hash that comes with it. -/
def forgedSegment : WireSegment :=
  ⟨1,⟨[1],by decide⟩,7,0,0,0,1,true,⟨List.replicate 16 1,by decide⟩,⟨[9],forgedData_short⟩⟩

/-- A subscribed bridge takes a segment that came on the given topic. -/
def segmentOn (topic : String) (wire : WireSegment) : List (NodeEvent Unit) :=
  let c : Circumstances := ⟨0,.default,.present,false,fun b => ⟨b⟩⟩
  [.bridge .subscribeSegments,.bridge (.subscribe ⟨[1]⟩),.bridge (.proceed 0 (.ok ())),
    .bridge (.proceed 0 (.ok ())),.bridge (.proceed 0 (.ok ())),.bridge (.proceed 0 (.ok ())),
    .gossip c ⟨topic,WireSegment.codec.encode wire,()⟩,.bridgeTakes]

/-- A segment with a type that does not exist. -/
def untypedSegment : WireSegment :=
  { forgedSegment with
    mediaType := 7
    contentHash := computeContentHash (fun _ => ⟨List.replicate 32 0,rfl⟩) [9] }

/-- What a verified delivery says of the segment that was sent. -/
theorem verified_sent {topic : String} {wire : WireSegment} {seg : StreamSegment}
    (h : Verified blake3 (some (⟨topic,WireSegment.codec.encode wire,()⟩ : GossipMessage Unit),seg)) :
    wire.verifyIntegrity blake3 = true ∧ wire.mediaTypeEnum = some seg.mediaType := by
  obtain ⟨m,streamId,wire',hm,_,hwire,hintact,_,htype⟩ := h
  cases hm
  rw [show WireSegment.fromBytes (WireSegment.codec.encode wire) = .ok wire from
    map_decode_encode _ _] at hwire
  cases hwire
  exact ⟨hintact,htype⟩

theorem forged_segment_delivered :
    let blake3 : Bytes → Digest := fun _ => ⟨List.replicate 32 0,rfl⟩
    let forged := (segmentOn (streamControl ⟨[1]⟩) forgedSegment).foldl (step .default blake3) new
    let untyped := (segmentOn (streamData ⟨[1]⟩) untypedSegment).foldl (step .default blake3) new
    forged.delivered = [(some ⟨streamControl ⟨[1]⟩,WireSegment.codec.encode forgedSegment,()⟩,
      forgedSegment.toSegment)] ∧
    forgedSegment.verifyIntegrity blake3 = false ∧ ¬ DeliveredVerified blake3 forged ∧
    untyped.delivered = [(some ⟨streamData ⟨[1]⟩,WireSegment.codec.encode untypedSegment,()⟩,
      untypedSegment.toSegment)] ∧
    untypedSegment.toSegment.mediaType = .video ∧ untypedSegment.mediaTypeEnum = none ∧
    ¬ DeliveredVerified blake3 untyped := by
  intro blake3 forged untyped
  have hforged : forged.delivered = [(some ⟨streamControl ⟨[1]⟩,
      WireSegment.codec.encode forgedSegment,()⟩,forgedSegment.toSegment)] := by decide
  have huntyped : untyped.delivered = [(some ⟨streamData ⟨[1]⟩,
      WireSegment.codec.encode untypedSegment,()⟩,untypedSegment.toSegment)] := by decide
  have hhash : forgedSegment.verifyIntegrity blake3 = false := by decide
  have htype : untypedSegment.mediaTypeEnum = none := rfl
  refine ⟨hforged,hhash,?_,huntyped,rfl,htype,?_⟩
  · intro h
    have hintact := (verified_sent (h _ (hforged ▸ List.mem_singleton_self _))).1
    rw [hhash] at hintact
    cases hintact
  · intro h
    have hkept := (verified_sent (h _ (huntyped ▸ List.mem_singleton_self _))).2
    rw [htype] at hkept
    cases hkept

end Runs

end Node

end OpenBroadcast.Delivery
