import OpenBroadcast.Delivery.Consumers

namespace OpenBroadcast.Delivery

open Media

/-- The frame is a segment of the stream with this text for an id. -/
def Decodes (text : String) (frame : Bytes) : Prop :=
  ∃ wire, WireSegment.fromBytes frame = .ok wire ∧ wire.streamId.val = utf8Bytes text

instance (text : String) (frame : Bytes) : Decidable (Decodes text frame) :=
  decidable_of_iff (((WireSegment.fromBytes frame).toOption.map (fun w => w.streamId.val)) =
    some (utf8Bytes text)) (by
      unfold Decodes
      cases WireSegment.fromBytes frame with
      | error e => simp [Except.toOption]
      | ok wire => simp [Except.toOption])

theorem decodes_ofSegment (blake3 : Bytes → Digest) {segment : StreamSegment} {text : String}
    (h : segment.streamId = streamOf text) :
    Decodes text (WireSegment.codec.encode (WireSegment.ofSegment blake3 segment)) := by
  refine ⟨WireSegment.ofSegment blake3 segment,map_decode_encode _ _,?_⟩
  change segment.streamId.bytes = utf8Bytes text
  rw [h]
  rfl

namespace RelaySocket

/-- The stream that the task takes from the overlay. -/
def target (r : RelaySocket) : Option String :=
  match r.task with
  | some (.overlay text) => some text
  | _ => none

/-- The segment that the task receives next. -/
def nextSegment (r : RelaySocket) : Option StreamSegment :=
  match r.task with
  | some (.segments (segment::_) false) => some segment
  | _ => none

/-- The frames that wait while a stream is subscribed to are segments of it, and so were those that
have been sent. -/
structure Framed (r : RelaySocket) : Prop where
  queue : ∀ text, r.subscribed = some text → ∀ frame ∈ r.queue, Decodes text frame
  sent : ∀ text frame, (some text,frame) ∈ r.sent → Decodes text frame

theorem framed_new : new.Framed where
  queue _ hsubscribed := by cases hsubscribed
  sent _ _ hframe := by cases hframe

/-- What changes neither the subscription nor the frames. -/
theorem Framed.same {r r' : RelaySocket} (h : r.Framed) (hsubscribed : r'.subscribed = r.subscribed)
    (hqueue : r'.queue = r.queue) (hsent : r'.sent = r.sent) : r'.Framed where
  queue := by
    rw [hsubscribed,hqueue]
    exact h.queue
  sent := by
    rw [hsent]
    exact h.sent

theorem Framed.trySend {r : RelaySocket} (h : r.Framed) {data : Bytes}
    (hdata : ∀ text, r.subscribed = some text → r.hasRoom = true → Decodes text data) :
    (r.trySend data).Framed := by
  unfold RelaySocket.trySend
  split_ifs with hroom
  · refine ⟨?_,h.sent⟩
    intro text hsubscribed frame hframe
    rcases List.mem_append.mp hframe with hold | hnew
    · exact h.queue text hsubscribed frame hold
    · rw [List.mem_singleton.mp hnew]
      exact hdata text hsubscribed hroom
  · exact h

theorem Framed.enqueue {r : RelaySocket} (h : r.Framed) (segments : List StreamSegment) :
    (r.enqueue segments).Framed := by
  unfold RelaySocket.enqueue
  split
  · exact h.same rfl rfl rfl
  · exact h

theorem Framed.forward {r : RelaySocket} (h : r.Framed) : r.forward.Framed := by
  unfold RelaySocket.forward
  cases hqueue : r.queue with
  | nil => exact h
  | cons frame rest =>
    constructor
    · intro text hsubscribed x hx
      exact h.queue text hsubscribed x (hqueue ▸ List.mem_cons_of_mem _ hx)
    · intro text x hx
      rcases List.mem_append.mp hx with hold | hnew
      · exact h.sent text x hold
      · have hsent := List.mem_singleton.mp hnew
        have hsubscribed : r.subscribed = some text := (congrArg Prod.fst hsent).symm
        have hframe : x = frame := congrArg Prod.snd hsent
        rw [hframe]
        exact h.queue text hsubscribed frame (hqueue ▸ List.mem_cons_self)

theorem Framed.takeEvent {PeerId : Type} {r : RelaySocket} (h : r.Framed) {target : String}
    {event : OverlayEvent PeerId}
    (hdata : ∀ text id source data, event = .streamData id source data →
      r.subscribed = some text → fromUtf8Lossy id.bytes = target → r.hasRoom = true →
        Decodes text data) : (r.takeEvent target event).Framed := by
  cases event with
  | streamStopped id reason => exact h
  | streamAnnounced id data => exact h
  | other => exact h
  | streamData id source data =>
    unfold RelaySocket.takeEvent
    dsimp only
    split_ifs with hmatch hroom
    · exact h
    · apply h.trySend
      intro text hsubscribed _
      exact hdata text id source data rfl hsubscribed (not_not.mp hmatch) hroom
    · exact h.same rfl rfl rfl

theorem Framed.receiveSegment {r : RelaySocket} (h : r.Framed) (blake3 : Bytes → Digest)
    (hsegment : ∀ text ∈ r.subscribed, ∀ segment ∈ r.nextSegment, r.hasRoom = true →
      segment.streamId = streamOf text) : (r.receiveSegment blake3).Framed := by
  unfold RelaySocket.receiveSegment
  split
  · exact h.same rfl rfl rfl
  · next segment rest htask =>
    split_ifs with hroom
    · have hsend : (r.trySend
          (WireSegment.codec.encode (WireSegment.ofSegment blake3 segment))).Framed := by
        apply h.trySend
        intro text hsubscribed _
        have hnext : r.nextSegment = some segment := by rw [nextSegment,htask]
        exact decodes_ofSegment blake3 (hsegment text hsubscribed segment hnext hroom)
      exact hsend.same rfl rfl rfl
    · exact h.same rfl rfl rfl
  · exact h

end RelaySocket

namespace WebServer

variable {PeerId : Type} {blake3 : Bytes → Digest} {s : WebServer PeerId}

def AllFramed (s : WebServer PeerId) : Prop := ∀ r ∈ s.relays, r.Framed

/-- The stream and the data of the next event. -/
def nextData (s : WebServer PeerId) : Option (Relay.StreamId × Bytes) :=
  match s.node.overlay.events with
  | (_,.streamData id _ data)::_ => some (id,data)
  | _ => none

/-- A relay client subscribes when no frame of another stream is left in its channel, and whatever
comes into the channel while it is subscribed, the cached initialization segment included, is a
segment of the stream. -/
def Routed (s : WebServer PeerId) (e : WebEvent PeerId) : Prop :=
  match e with
  | .relayMessage k (.subscribe text) => ∀ r ∈ s.relays[k]?, r.subscribing = none →
    ∀ frame ∈ r.queue, Decodes text frame
  | .relayProceeds k => ∀ r ∈ s.relays[k]?, r.subscribing ≠ none → ∀ text ∈ r.subscribed,
    r.hasRoom = true → ∀ data ∈ s.node.initSegment, Decodes text data
  | .relayTakes k => ∀ r ∈ s.relays[k]?, ∀ text ∈ r.subscribed, ∀ next ∈ s.nextData,
    r.target = some (fromUtf8Lossy next.1.bytes) → r.hasRoom = true → Decodes text next.2
  | .relayReceives k => ∀ r ∈ s.relays[k]?, ∀ text ∈ r.subscribed, ∀ segment ∈ r.nextSegment,
    r.hasRoom = true → segment.streamId = streamOf text
  | _ => True

instance (s : WebServer PeerId) (e : WebEvent PeerId) : Decidable (s.Routed e) := by
  unfold Routed
  split <;> infer_instance

theorem allFramed_relayMessage (h : s.AllFramed) (k : Nat) (msg : RelayMessage)
    (hok : s.Routed (.relayMessage k msg)) : (s.relayMessage k msg).AllFramed := by
  unfold relayMessage
  cases hr : s.relays[k]? with
  | none => exact h
  | some r =>
    have hframed : r.Framed := h r (List.mem_of_getElem? hr)
    dsimp only
    split_ifs with hbusy
    · exact h
    · have hidle : r.subscribing = none := by simpa using hbusy
      cases msg with
      | subscribe text =>
        have hqueue : ∀ frame ∈ r.queue, Decodes text frame := hok r hr hidle
        have hnew : ∀ r' : RelaySocket, r'.subscribed = some text → r'.queue = r.queue →
            r'.sent = r.sent → r'.Framed := by
          intro r' hsubscribed heq hsent
          constructor
          · rw [hsubscribed,heq]
            intro text' heq'
            cases heq'
            exact hqueue
          · rw [hsent]
            exact hframed.sent
        simp only [handleMessage]
        split_ifs
        · exact forall_mem_set h (hnew _ rfl rfl rfl)
        · exact forall_mem_set h (hnew _ rfl rfl rfl)
      | unsubscribe text =>
        apply forall_mem_set h
        exact ⟨(fun _ hsubscribed => by cases hsubscribed),hframed.sent⟩
      | publish text => exact forall_mem_set h (hframed.same rfl rfl rfl)
      | listStreams => exact h
      | binary data =>
        simp only [handleMessage]
        split
        · split_ifs <;> exact h
        · exact h

theorem allFramed_relayProceeds (h : s.AllFramed) (k : Nat) (hok : s.Routed (.relayProceeds k)) :
    (s.relayProceeds k).AllFramed := by
  unfold relayProceeds
  cases hr : s.relays[k]? with
  | none => exact h
  | some r =>
    have hframed : r.Framed := h r (List.mem_of_getElem? hr)
    dsimp only
    split
    · exact h
    · next id hsubscribing =>
      apply forall_mem_set h
      cases hinit : s.node.initSegment with
      | none => exact hframed.same rfl rfl rfl
      | some data =>
        have hsend : (r.trySend data).Framed := by
          apply hframed.trySend
          intro text hsubscribed hroom
          exact hok r hr (by simp [hsubscribing]) text hsubscribed hroom data hinit
        exact hsend.same rfl rfl rfl

theorem allFramed_relayTakes (h : s.AllFramed) (k : Nat) (hok : s.Routed (.relayTakes k)) :
    (s.relayTakes k).AllFramed := by
  unfold relayTakes
  cases hr : s.relays[k]? with
  | none => exact h
  | some r =>
    have hframed : r.Framed := h r (List.mem_of_getElem? hr)
    dsimp only
    split
    · next target m event node htask hnext =>
      apply forall_mem_set h
      apply hframed.takeEvent
      rintro text id source data rfl hsubscribed hmatch hroom
      obtain ⟨rest,hevents⟩ : ∃ rest,
          s.node.overlay.events = (m,.streamData id source data)::rest := by
        unfold Node.nextEvent at hnext
        split at hnext
        · cases hnext
        · next entry rest hevents =>
          cases hnext
          exact ⟨rest,hevents⟩
      have hdata : s.nextData = some (id,data) := by rw [nextData,hevents]
      have htarget : r.target = some (fromUtf8Lossy id.bytes) := by
        rw [RelaySocket.target,htask,hmatch]
      exact hok r hr text hsubscribed (id,data) hdata htarget hroom
    · exact h

/-- The steps that leave the relay connections alone. -/
theorem viewerProceeds_relays (k : Nat) : (s.viewerProceeds k).relays = s.relays := by
  unfold viewerProceeds
  split
  · rfl
  · split
    · split
      · split_ifs <;> rfl
      · rfl
    · rfl
    · rfl
    · rfl
    · rfl
    · split <;> rfl

theorem viewerLeaves_relays (k : Nat) : (s.viewerLeaves k).relays = s.relays := by
  unfold viewerLeaves
  split
  · rfl
  · split_ifs <;> rfl

theorem loadContent_relays (separate : Option (Bytes × Option Bytes)) (combined : Option Bytes) :
    (s.loadContent separate combined).relays = s.relays := by
  cases separate <;> cases combined <;> rfl

theorem allFramed_broadcast (h : s.AllFramed) (segments : List StreamSegment) :
    (s.broadcast segments).AllFramed := by
  intro r hr
  obtain ⟨r',hr',rfl⟩ := List.mem_map.mp hr
  exact (h r' hr').enqueue segments

theorem allFramed_step (h : s.AllFramed) {e : WebEvent PeerId} (hok : s.Routed e) :
    (s.step blake3 e).AllFramed := by
  have hsame : ∀ s' : WebServer PeerId, s'.relays = s.relays → s'.AllFramed := by
    intro s' heq
    unfold AllFramed
    rw [heq]
    exact h
  cases e with
  | gossip c m => exact h
  | report c => exact h
  | startListener => exact hsame _ (startListener_frame blake3 s).2
  | stopListener => exact hsame _ (stopListener_frame blake3 s).2
  | listenerTakes => exact hsame _ (listenerTakes_frame blake3 s).2
  | loopTakes k =>
    simp only [step,loopTakes]
    split
    · exact allFramed_broadcast (hsame _ rfl) _
    · exact h
  | sendSegment segment =>
    simp only [step,sendSegment]
    split_ifs
    · exact allFramed_broadcast h _
    · exact h
  | loadContent separate combined => exact hsame _ (loadContent_relays separate combined)
  | connect requested => exact h
  | viewerProceeds k => exact hsame _ (viewerProceeds_relays k)
  | viewerLeaves k => exact hsame _ (viewerLeaves_relays k)
  | relayConnect =>
    intro r hr
    rcases List.mem_append.mp hr with hold | hnew
    · exact h r hold
    · rw [List.mem_singleton.mp hnew]
      exact RelaySocket.framed_new
  | relayMessage k msg => exact allFramed_relayMessage h k msg hok
  | relayProceeds k => exact allFramed_relayProceeds h k hok
  | relayTakes k => exact allFramed_relayTakes h k hok
  | relayReceives k =>
    simp only [step,relayReceives]
    split
    · exact h
    · next r hr =>
      apply forall_mem_set h
      apply (h r (List.mem_of_getElem? hr)).receiveSegment
      exact hok r hr
  | relayForwards k =>
    simp only [step,relayForwards]
    split
    · exact h
    · next r hr => exact forall_mem_set h (h r (List.mem_of_getElem? hr)).forward
  | relayFails k =>
    simp only [step,relayFails]
    split
    · exact h
    · next r hr =>
      apply forall_mem_set h
      exact ⟨(fun _ _ _ hframe => by cases hframe),(h r (List.mem_of_getElem? hr)).sent⟩
  | relayCloses k =>
    simp only [step,relayCloses]
    split
    · exact h
    · exact fun r hr => h r (List.mem_of_mem_eraseIdx hr)

/-- A binary frame of a client that has published a stream is published under this stream. -/
def PublishedRight (blake3 : Bytes → Digest) (s : WebServer PeerId) (e : WebEvent PeerId) : Prop :=
  match e with
  | .relayMessage k (.binary data) => ∀ r ∈ s.relays[k]?, r.subscribing = none →
    ∀ text ∈ r.published,
      (s.step blake3 e).publishedData = s.publishedData++[(utf8Bytes text,data)]
  | _ => True

instance (s : WebServer PeerId) (e : WebEvent PeerId) : Decidable (s.PublishedRight blake3 e) := by
  unfold PublishedRight
  split <;> infer_instance

/-- The node has an overlay, and the stream that the client has published is the node's own. -/
def OwnStream (s : WebServer PeerId) (e : WebEvent PeerId) : Prop :=
  match e with
  | .relayMessage k (.binary _) => ∀ r ∈ s.relays[k]?, r.subscribing = none →
    ∀ text ∈ r.published, s.hasOverlay = true ∧
      ∃ id ∈ s.streamId, utf8Bytes (asText id) = utf8Bytes text
  | _ => True

instance (s : WebServer PeerId) (e : WebEvent PeerId) : Decidable (s.OwnStream e) := by
  unfold OwnStream
  split <;> infer_instance

theorem publishedRight_iff (e : WebEvent PeerId) : s.PublishedRight blake3 e ↔ s.OwnStream e := by
  unfold PublishedRight OwnStream
  split
  · next k data =>
    apply forall₂_congr
    intro r hr
    have hr : s.relays[k]? = some r := hr
    apply forall_congr'
    intro hidle
    apply forall₂_congr
    intro text _
    have hstep : s.step blake3 (.relayMessage k (.binary data)) =
        s.handleMessage k r (.binary data) := by
      simp only [step,relayMessage,hr,hidle,Option.isSome_none,Bool.false_eq_true,if_false]
    have hlost : s.publishedData ≠ s.publishedData++[(utf8Bytes text,data)] := by simp
    rw [hstep]
    simp only [handleMessage]
    cases s.streamId with
    | none => exact iff_of_false hlost (fun h => by obtain ⟨_,id,hsome,_⟩ := h; cases hsome)
    | some id =>
      dsimp only
      split_ifs with hoverlay
      · simp [hoverlay]
      · exact iff_of_false hlost (fun h => hoverlay h.1)
  · exact Iff.rfl

/-- In runs in which a relay client subscribes when no other frame is left in its channel and only
segments of the stream come into the channel, every frame that is sent to a subscribed client is a
segment of its stream; and what the clients send is published under the streams that they have
published exactly if these are the node's own. -/
theorem relay_framing (blake3 : Bytes → Digest) (hasOverlay : Bool) (streamId : Option StreamId)
    (segmentStreamId : StreamId) (es : List (WebEvent PeerId))
    (h : Along (step blake3) Routed (new hasOverlay streamId segmentStreamId) es) :
    (∀ pre, pre <+: es →
      ∀ r ∈ (pre.foldl (step blake3) (new hasOverlay streamId segmentStreamId)).relays,
        ∀ text frame, (some text,frame) ∈ r.sent → Decodes text frame) ∧
    (Along (step blake3) (PublishedRight blake3) (new hasOverlay streamId segmentStreamId) es ↔
      Along (step blake3) OwnStream (new hasOverlay streamId segmentStreamId) es) := by
  constructor
  · intro pre hpre r hr
    have hall := (h.of_prefix hpre).invariant AllFramed (fun r hr => by cases hr)
      (fun _ e hs hok => allFramed_step hs hok)
    exact (hall r hr).sent
  · exact along_congr (fun _ e => publishedRight_iff e) _ es

/-- A client of a node with the stream `b` subscribes to it, gets a segment, and publishes it. -/
def relayed : List (WebEvent Unit) :=
  [.relayConnect,.relayMessage 0 (.subscribe "b"),.relayProceeds 0,gossipOfB,.relayTakes 0,
    .relayForwards 0,.relayMessage 0 (.publish "b"),.relayMessage 0 (.binary messageOfB.data)]

theorem relay_framing_relayed :
    let start : WebServer Unit := new true (some (streamOf "b")) ⟨[0]⟩
    (∀ pre, pre <+: relayed → ∀ r ∈ (pre.foldl (step zeroHash) start).relays,
      ∀ text frame, (some text,frame) ∈ r.sent → Decodes text frame) ∧
    Along (step zeroHash) (PublishedRight zeroHash) start relayed := by
  intro start
  have hrouted : Along (step zeroHash) Routed start relayed := by decide +kernel
  have hown : Along (step zeroHash) OwnStream start relayed := by decide +kernel
  obtain ⟨hframes,hpublished⟩ :=
    relay_framing zeroHash true (some (streamOf "b")) ⟨[0]⟩ relayed hrouted
  exact ⟨hframes,hpublished.mpr hown⟩

/-- An initialization segment of the stream `b`. -/
def gossipOfInit : WebEvent Unit :=
  .gossip ⟨0,.default,.present,false,fun b => ⟨b⟩⟩
    ⟨streamData ⟨[98]⟩,WireSegment.codec.encode { segmentOfB with mediaType := 3 },()⟩

/-- A node with the stream `b` has cached an initialization segment of it when a client subscribes
to `b` and publishes `a`. -/
def misrouted : List (WebEvent Unit) :=
  [.startListener,gossipOfInit,.loopTakes 0,.relayConnect,.relayMessage 0 (.subscribe "b"),
    .relayProceeds 0,.relayForwards 0,.relayMessage 0 (.publish "a"),
    .relayMessage 0 (.binary messageOfB.data)]

theorem relay_frames_misrouted :
    let start : WebServer Unit := new true (some (streamOf "b")) ⟨[0]⟩
    let last := misrouted.foldl (step zeroHash) start
    last.relays.map RelaySocket.sent = [[(some "b",[9])]] ∧ ¬ Decodes "b" [9] ∧
    last.publishedData = [(utf8Bytes "b",messageOfB.data)] ∧
    ¬ (∀ pre, pre <+: misrouted → ∀ r ∈ (pre.foldl (step zeroHash) start).relays,
      ∀ text frame, (some text,frame) ∈ r.sent → Decodes text frame) ∧
    ¬ Along (step zeroHash) (PublishedRight zeroHash) start misrouted := by
  intro start last
  have hsent : last.relays.map RelaySocket.sent = [[(some "b",[9])]] := by decide +kernel
  have hraw : ¬ Decodes "b" [9] := by decide +kernel
  refine ⟨hsent,hraw,by decide +kernel,?_,by decide +kernel⟩
  intro hframes
  obtain ⟨r,hr,heq⟩ := List.mem_map.mp (hsent ▸ List.mem_cons_self)
  exact hraw (hframes misrouted (List.prefix_refl _) r hr "b" [9]
    (heq ▸ List.mem_singleton_self _))

end WebServer

end OpenBroadcast.Delivery
