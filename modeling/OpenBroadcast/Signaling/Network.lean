import OpenBroadcast.Framework.Run
import OpenBroadcast.Signaling.Client
import OpenBroadcast.Signaling.Routing

namespace OpenBroadcast.Signaling

/-- A browser and the connection that its client last opened. -/
structure Browser where
  client : Client
  socket : Option Nat

/-- The browsers and the server: `owner` has the browser of each connection, and `toServer`
what is under way from the client of a connection. -/
structure Network where
  server : Server
  browsers : List Browser
  owner : Nat → Nat
  toServer : Nat → List SignalingMessage

inductive NetworkEvent where
  | visit (u : Uuid) (streamId : Text) (isPublisher : Bool)
  | connect (b : Nat) (u : Uuid)
  | client (b : Nat) (e : ClientEvent)
  | toServer (k : Nat)
  | toClient (k : Nat)
  | server (e : ServerEvent)

/-- The steps of the server that take no message from a client and give none to it. -/
def ServerEvent.isInternal : ServerEvent → Bool
  | .connect _ => false
  | .receive _ _ => false
  | .invalid _ _ => false
  | .deliver _ => false
  | _ => true

namespace Network

def new (moderation : Option ModerationManager) : Network where
  server := .new moderation
  browsers := []
  owner := fun _ => 0
  toServer := fun _ => []

def modifyClient (s : Network) (b : Nat) (f : Client → Client) : Network :=
  { s with browsers := s.browsers.modify b (fun x => { x with client := f x.client }) }

def sendSignaling (s : Network) (socket : Option Nat) (ms : List SignalingMessage) : Network :=
  match socket with
  | some k => { s with toServer := Function.update s.toServer k (s.toServer k++ms) }
  | none => s

def isWaiting (s : Network) (k : Nat) : Bool :=
  (s.server.connections[k]?).any (fun c => c.handler = .idle)

/-- What the client of connection `k` receives next. -/
def next (s : Network) (k : Nat) : Option SignalingMessage :=
  (s.server.connections[k]?).bind (fun c => c.socket.head?)

def step (cfg : WebServerConfig) (s : Network) : NetworkEvent → Network
  | .visit u sid pub => { s with browsers := s.browsers++[⟨Client.new u sid pub,none⟩] }
  | .connect b u =>
    if s.server.sendersHeld then s
    else
      let k := s.server.connections.length
      { s with
        server := s.server.step cfg (.connect u)
        owner := Function.update s.owner k b
        browsers := s.browsers.modify b (fun x => { x with socket := some k }) }
  | .client b e =>
    match s.browsers[b]? with
    | some x =>
      (s.modifyClient b (fun c => (c.step e).1)).sendSignaling x.socket (x.client.step e).2
    | none => s
  | .toServer k =>
    match s.toServer k with
    | m::ms =>
      if s.isWaiting k then
        { s with
          server := s.server.step cfg (.receive k m)
          toServer := Function.update s.toServer k ms }
      else s
    | [] => s
  | .toClient k =>
    match s.next k with
    | some m =>
      { s with server := s.server.step cfg (.deliver k) }.modifyClient (s.owner k)
        (fun c => c.handleSignalingMessage m)
    | none => s
  | .server e => if e.isInternal then { s with server := s.server.step cfg e } else s

def run (cfg : WebServerConfig) (moderation : Option ModerationManager)
    (es : List NetworkEvent) : Network :=
  es.foldl (step cfg) (new moderation)

end Network

namespace Client

@[simp] theorem connectSources_localPeerId (c : Client) (sources : List Text) :
    (c.connectSources sources).localPeerId = c.localPeerId := by
  cases sources with
  | nil => rfl
  | cons p sources =>
    simp only [connectSources]
    split_ifs <;> rfl

theorem handleSignalingMessage_localPeerId (c : Client) (m : SignalingMessage) :
    (c.handleSignalingMessage m).localPeerId = c.localPeerId := by
  cases m with
  | peerList peers =>
    simp only [handleSignalingMessage]
    split_ifs
    · exact connectSources_localPeerId c _
    · rfl
  | peerJoin | peerUpdate | peerLeave =>
    simp only [handleSignalingMessage]
    split_ifs <;> rfl
  | error => rfl
  | offer =>
    simp only [handleSignalingMessage,handleOffer]
    split_ifs
    · split <;> rfl
    · rfl
  | answer =>
    simp only [handleSignalingMessage,handleAnswer]
    split_ifs
    · split <;> rfl
    · rfl
  | iceCandidate =>
    simp only [handleSignalingMessage,handleIceCandidate]
    split_ifs <;> rfl

theorem finish_localPeerId (c : Client) (t : ClientTask) (outcome : Option String) :
    (c.finish t outcome).1.localPeerId = c.localPeerId := by
  cases t <;> cases outcome <;> simp [finish] <;> rfl

theorem step_localPeerId (c : Client) (e : ClientEvent) :
    (c.step e).1.localPeerId = c.localPeerId := by
  cases e with
  | resume i outcome =>
    simp only [step]
    split
    · exact finish_localPeerId _ _ _
    · rfl
  | opened | closed | connectionLost | channelReceived | channelOpened | channelClosed
  | disconnect => rfl
  | candidateFound | relayReady | becomePublisher =>
    simp only [step]
    split_ifs <;> rfl

/-- The two programs name a peer differently. -/
theorem generatePeerId_ne (u v : Uuid) : v.toText ≠ generatePeerId u := by
  intro h
  have lengths := congrArg List.length h
  rw [generatePeerId,List.length_append,u.length_toText,v.length_toText] at lengths
  cases lengths

/-- A client takes no directed message whose target is an id of the server. -/
theorem not_accepts {c : Client} {u v : Uuid} {m : SignalingMessage}
    (hc : c.localPeerId = generatePeerId u) (hdir : m.directed) (hm : m.target = some v.toText) :
    c.accepts m = false := by
  have hne : v.toText ≠ c.localPeerId := hc ▸ generatePeerId_ne u v
  have hempty : v.toText ≠ [] := by
    intro h
    have lengths := congrArg List.length h
    rw [v.length_toText] at lengths
    cases lengths
  cases m with
  | offer p t sdp =>
    cases hm
    simp [accepts,hne,hempty]
  | answer p t sdp =>
    cases hm
    simp [accepts,hne]
  | iceCandidate p t candidate mid index =>
    cases hm
    simp [accepts,hne]
  | peerJoin | peerLeave | peerList | peerUpdate | error => cases hdir

end Client

namespace Network

/-- Messages keep to their targets, and every client still has the id it gave itself. -/
structure Named (s : Network) : Prop where
  routed : s.server.Routed
  clients : ∀ x ∈ s.browsers, ∃ u, x.client.localPeerId = Client.generatePeerId u

variable {s : Network}

theorem modifyClient_named (h : s.Named) (b : Nat) {f : Client → Client}
    (hf : ∀ c, (f c).localPeerId = c.localPeerId) : (s.modifyClient b f).Named := by
  refine ⟨h.routed,?_⟩
  intro x hx
  rcases mem_modify hx with hx | ⟨y,hy,rfl⟩
  · exact h.clients x hx
  · obtain ⟨u,hu⟩ := h.clients y (List.mem_of_getElem? hy)
    exact ⟨u,(hf y.client).trans hu⟩

theorem step_named (h : s.Named) (cfg : WebServerConfig) (e : NetworkEvent) :
    (s.step cfg e).Named := by
  cases e with
  | visit u sid pub =>
    refine ⟨h.routed,?_⟩
    intro x hx
    rcases List.mem_append.mp hx with hx | hx
    · exact h.clients x hx
    · rw [List.mem_singleton] at hx
      subst hx
      exact ⟨u,rfl⟩
  | connect b u =>
    simp only [step]
    split_ifs
    · exact h
    · refine ⟨Server.step_routed h.routed cfg (.connect u),?_⟩
      intro x hx
      rcases mem_modify hx with hx | ⟨y,hy,rfl⟩
      · exact h.clients x hx
      · exact h.clients y (List.mem_of_getElem? hy)
  | client b e =>
    simp only [step]
    split
    · next x _ =>
      have moved := modifyClient_named h b (f := fun c => (c.step e).1)
        (fun c => c.step_localPeerId e)
      unfold sendSignaling
      split
      · exact ⟨moved.routed,moved.clients⟩
      · exact moved
    · exact h
  | toServer k =>
    simp only [step]
    split
    · next m _ _ =>
      split_ifs
      · exact ⟨Server.step_routed h.routed cfg (.receive k m),h.clients⟩
      · exact h
    · exact h
  | toClient k =>
    simp only [step]
    split
    · next m _ =>
      have taken : Named { s with server := s.server.step cfg (.deliver k) } :=
        ⟨Server.step_routed h.routed cfg (.deliver k),h.clients⟩
      exact modifyClient_named taken _ (fun c => c.handleSignalingMessage_localPeerId m)
    · exact h
  | server e =>
    simp only [step]
    split_ifs
    · exact ⟨Server.step_routed h.routed cfg e,h.clients⟩
    · exact h

theorem run_named (cfg : WebServerConfig) (moderation : Option ModerationManager)
    (es : List NetworkEvent) : (run cfg moderation es).Named := by
  apply (along_true (step cfg) (new moderation) es).invariant Named
  · exact ⟨Server.new_routed moderation,by simp [new]⟩
  · intro s e h _
    exact step_named h cfg e

/-- The client of browser `b` takes up the directed message `m`. -/
def Accepts (s : Network) (b : Nat) (m : SignalingMessage) : Prop :=
  ∃ x, s.browsers[b]? = some x ∧ x.client.accepts m

/-- The client of connection `k` takes up the message, and no other one would. -/
def Agreed (s : Network) (k : Nat) (m : SignalingMessage) : Prop :=
  s.Accepts (s.owner k) m ∧ ∀ b, b ≠ s.owner k → ¬ s.Accepts b m

/-- In every run, an offer, an answer or an ICE candidate that a client receives is meant for
the id under which the server knows its connection, and for this reason neither this client
nor any other one takes it up. -/
theorem directed_never_agreed (cfg : WebServerConfig) (moderation : Option ModerationManager)
    (es : List NetworkEvent) (k : Nat) (m : SignalingMessage)
    (hm : (run cfg moderation es).next k = some m) (hdir : m.directed) :
    ((run cfg moderation es).server.connections[k]?).map (fun c => c.peerId.toText) = m.target ∧
    (∀ b, ¬ (run cfg moderation es).Accepts b m) ∧ ¬ (run cfg moderation es).Agreed k m := by
  have h := run_named cfg moderation es
  obtain ⟨c,hc,hhead⟩ := Option.bind_eq_some_iff.mp hm
  have htarget : m.target = some c.peerId.toText :=
    (h.routed.routed c (List.mem_of_getElem? hc)).socket m (List.mem_of_mem_head? hhead) hdir
  have rejected : ∀ b, ¬ (run cfg moderation es).Accepts b m := by
    intro b hyp
    obtain ⟨x,hx,hacc⟩ := hyp
    obtain ⟨u,hu⟩ := h.clients x (List.mem_of_getElem? hx)
    rw [Client.not_accepts hu hdir htarget] at hacc
    cases hacc
  refine ⟨?_,rejected,fun agreed => rejected _ agreed.1⟩
  rw [hc,htarget]
  rfl

def sampleBytes (b : UInt8) (i : Fin 16) : UInt8 :=
  if i.val = 6 then 0x40 else if i.val = 8 then 0x80 else b

theorem sampleBytes_version (b : UInt8) : sampleBytes b 6 >>> 4 = 4 := by
  rw [sampleBytes,if_pos (by decide)]
  decide

theorem sampleBytes_variant (b : UInt8) : sampleBytes b 8 >>> 6 = 2 := by
  rw [sampleBytes,if_neg (by decide),if_pos (by decide)]
  decide

def sampleUuid (b : UInt8) : Uuid := ⟨sampleBytes b,sampleBytes_version b,sampleBytes_variant b⟩

def sampleConfig : WebServerConfig := ⟨20,50,300⟩

/-- The client of connection `k` opens its socket and joins. -/
def joins (k : Nat) : List NetworkEvent :=
  [.client k .opened,.toServer k]++List.replicate 6 (.server (.advance k))

/-- A publisher and a subscriber of one stream join, and the subscriber gets the list. -/
def subscriberJoins : List NetworkEvent :=
  [.visit (sampleUuid 1) ['s'] true,.connect 0 (sampleUuid 2)]++joins 0++
    [.visit (sampleUuid 3) ['s'] false,.connect 1 (sampleUuid 4)]++joins 1++
    [.server (.forward 1)]

/-- The subscriber takes up the list, and its offer is on its way to the publisher. -/
def subscriberOffers : List NetworkEvent :=
  subscriberJoins++[.toClient 1,.client 1 (.resume 0 (some "v=0")),.toServer 1,
    .server (.advance 1),.server (.advance 1),.server (.forward 0),.server (.forward 0),
    .server (.forward 0),.toClient 0,.toClient 0]

/-- The publisher has received the offer, and a candidate of the subscriber comes after it. -/
def candidateFollows : List NetworkEvent :=
  subscriberOffers++[.toClient 0,
    .client 1 (.candidateFound (sampleUuid 2).toText ⟨"candidate",none,none⟩),.toServer 1,
    .server (.advance 1),.server (.forward 0)]

theorem directed_never_agreed_candidateFollows :
    (run sampleConfig none candidateFollows).next 0 = some (.iceCandidate (sampleUuid 4).toText
      (sampleUuid 2).toText "candidate" none none) ∧
    ∀ b, ¬ (run sampleConfig none candidateFollows).Accepts b (.iceCandidate
      (sampleUuid 4).toText (sampleUuid 2).toText "candidate" none none) := by
  have received : (run sampleConfig none candidateFollows).next 0 = some (.iceCandidate
      (sampleUuid 4).toText (sampleUuid 2).toText "candidate" none none) := by decide +kernel
  exact ⟨received,(directed_never_agreed sampleConfig none candidateFollows 0 _ received rfl).2.1⟩

/-- The subscriber learns the id of the publisher from the list of peers, the offer that it
sends to this id reaches the publisher, and the publisher does not take it up. -/
theorem publisher_ignores_offer :
    (run sampleConfig none subscriberJoins).next 1 =
      some (.peerList [⟨(sampleUuid 2).toText,true,false⟩]) ∧
    (run sampleConfig none subscriberOffers).next 0 =
      some (.offer (sampleUuid 4).toText (some (sampleUuid 2).toText) "v=0") ∧
    (run sampleConfig none subscriberOffers).owner 0 = 0 ∧
    ¬ (run sampleConfig none subscriberOffers).Agreed 0
      (.offer (sampleUuid 4).toText (some (sampleUuid 2).toText) "v=0") := by
  refine ⟨by decide +kernel,by decide +kernel,by decide +kernel,?_⟩
  intro hyp
  obtain ⟨⟨x,hx,hacc⟩,_⟩ := hyp
  have rejected : ((run sampleConfig none subscriberOffers).browsers[0]?).all (fun x =>
      !x.client.accepts (.offer (sampleUuid 4).toText (some (sampleUuid 2).toText) "v=0")) := by
    decide +kernel
  rw [show (run sampleConfig none subscriberOffers).owner 0 = 0 by decide +kernel] at hx
  rw [hx] at rejected
  simp [hacc] at rejected

end Network

end OpenBroadcast.Signaling
