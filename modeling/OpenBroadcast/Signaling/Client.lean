import OpenBroadcast.Framework.Collections
import OpenBroadcast.Signaling.Message

namespace OpenBroadcast.Signaling

structure IceCandidate where
  candidate : String
  sdpMid : Option String
  sdpMlineIndex : Option UInt32
  deriving DecidableEq, Repr

/-- What an asynchronous function of the client still has to do when the operation that it
awaits has come back. -/
inductive ClientTask where
  | offering (remote : Text) (sources : List Text)
  | describingOffer (pc : Nat) (remote : Text)
  | answering (remote : Text)
  | describingAnswer (pc : Nat) (remote : Text)
  deriving DecidableEq, Repr

/-- A `WebRtcStreamClient`. The peer connections are numbered as they are created, and
`described` has those with a remote description; a data channel is mapped to whether it
is open. -/
structure Client where
  localPeerId : Text
  streamId : Text
  isPublisher : Bool
  canRelay : Bool
  signalingConnected : Bool
  created : Nat
  described : Finset Nat
  peerConnections : HashMap Text Nat
  dataChannels : HashMap Text Bool
  pendingIceCandidates : HashMap Text (List IceCandidate)
  tasks : List ClientTask

namespace Client

def generatePeerId (u : Uuid) : Text := ['p','e','e','r','-']++u.toText

def new (u : Uuid) (streamId : Text) (isPublisher : Bool) : Client where
  localPeerId := generatePeerId u
  streamId := streamId
  isPublisher := isPublisher
  canRelay := false
  signalingConnected := false
  created := 0
  described := ∅
  peerConnections := ∅
  dataChannels := ∅
  pendingIceCandidates := ∅
  tasks := []

def maxPeerConnections : Nat := 5

def getConnectedPeerCount (c : Client) : Nat :=
  c.dataChannels.entries.countP (fun e => e.2)

def sendSignaling (c : Client) (m : SignalingMessage) : List SignalingMessage :=
  if c.signalingConnected then [m] else []

def createPeerConnection (c : Client) (remote : Text) : Client :=
  { c with
    created := c.created+1
    peerConnections := c.peerConnections.insert remote c.created
    pendingIceCandidates := c.pendingIceCandidates.insert remote [] }

def closePeerConnection (c : Client) (remote : Text) : Client :=
  { c with
    peerConnections := c.peerConnections.erase remote
    dataChannels := c.dataChannels.erase remote
    pendingIceCandidates := c.pendingIceCandidates.erase remote }

def await (c : Client) (t : ClientTask) : Client := { c with tasks := c.tasks++[t] }

/-- Up to `await pc.createOffer()`; `sources` are the peers that the caller goes on with. -/
def initiateConnection (c : Client) (remote : Text) (sources : List Text) : Client :=
  let c := c.createPeerConnection remote
  { c with dataChannels := c.dataChannels.insert remote false }.await (.offering remote sources)

/-- The loop over the sources in a list of peers. -/
def connectSources (c : Client) : List Text → Client
  | [] => c
  | p::sources =>
    if maxPeerConnections ≤ c.getConnectedPeerCount then c else c.initiateConnection p sources

/-- The publishers, then the relayers. -/
def sourcesOf (peers : List PeerInfo) : List Text :=
  (peers.filter (fun p => p.isPublisher)++
    peers.filter (fun p => !p.isPublisher && p.canRelay)).map PeerInfo.peerId

/-- Up to `await pc.setRemoteDescription(..)`. -/
def handleOffer (c : Client) (remote : Text) : Client :=
  match c.peerConnections.lookup remote with
  | some pc => c.await (.describingOffer pc remote)
  | none => (c.createPeerConnection remote).await (.describingOffer c.created remote)

def handleAnswer (c : Client) (remote : Text) : Client :=
  match c.peerConnections.lookup remote with
  | some pc => c.await (.describingAnswer pc remote)
  | none => c

def handleIceCandidate (c : Client) (remote : Text) (candidate : IceCandidate) : Client :=
  if (c.peerConnections.lookup remote).any (fun pc => pc ∈ c.described) then c
  else
    let pending := (c.pendingIceCandidates.lookup remote).getD []
    { c with pendingIceCandidates := c.pendingIceCandidates.insert remote (pending++[candidate]) }

/-- Whether `handleOffer`, `handleAnswer` or `handleIceCandidate` is called. An offer is also
taken if it names no target or the empty one. -/
def accepts (c : Client) : SignalingMessage → Bool
  | .offer _ target _ => target == some c.localPeerId || target == none || target == some []
  | .answer _ target _ => target == c.localPeerId
  | .iceCandidate _ target _ _ _ => target == c.localPeerId
  | _ => false

def handleSignalingMessage (c : Client) (m : SignalingMessage) : Client :=
  match m with
  | .peerList peers => if !c.isPublisher then c.connectSources (sourcesOf peers) else c
  | .peerJoin p _ pub =>
    if p ≠ c.localPeerId ∧ !c.isPublisher ∧ pub ∧
      c.getConnectedPeerCount < maxPeerConnections then c.initiateConnection p [] else c
  | .peerUpdate p _ _ relay =>
    if p ≠ c.localPeerId ∧ !c.isPublisher ∧ relay ∧ p ∉ c.peerConnections ∧
      c.getConnectedPeerCount < maxPeerConnections then c.initiateConnection p [] else c
  | .peerLeave p => if p ≠ c.localPeerId then c.closePeerConnection p else c
  | .offer p _ _ => if c.accepts m then c.handleOffer p else c
  | .answer p _ _ => if c.accepts m then c.handleAnswer p else c
  | .iceCandidate p _ candidate mid index =>
    if c.accepts m then c.handleIceCandidate p ⟨candidate,mid,index⟩ else c
  | .error _ => c

/-- The remote description of `pc` is set and the candidates that waited for it are added. -/
def setRemoteDescription (c : Client) (pc : Nat) (remote : Text) : Client :=
  { c with
    described := insert pc c.described
    pendingIceCandidates := c.pendingIceCandidates.insert remote [] }

/-- What follows an awaited operation, which gave a text or failed. -/
def finish (c : Client) : ClientTask → Option String → Client × List SignalingMessage
  | .offering remote sources,some sdp =>
    (c.connectSources sources,c.sendSignaling (.offer c.localPeerId (some remote) sdp))
  | .offering remote sources,none => ((c.closePeerConnection remote).connectSources sources,[])
  | .describingOffer pc remote,some _ =>
    ((c.setRemoteDescription pc remote).await (.answering remote),[])
  | .describingOffer _ remote,none => (c.closePeerConnection remote,[])
  | .answering remote,some sdp => (c,c.sendSignaling (.answer c.localPeerId remote sdp))
  | .answering remote,none => (c.closePeerConnection remote,[])
  | .describingAnswer pc remote,some _ => (c.setRemoteDescription pc remote,[])
  | .describingAnswer _ _,none => (c,[])

end Client

/-- What the browser calls the client with, apart from the messages it receives. -/
inductive ClientEvent where
  | opened
  | closed
  | resume (i : Nat) (outcome : Option String)
  | candidateFound (remote : Text) (candidate : IceCandidate)
  | connectionLost (remote : Text)
  | channelReceived (remote : Text)
  | channelOpened (remote : Text)
  | channelClosed (remote : Text)
  | relayReady
  | becomePublisher
  | disconnect

open Client in
/-- The client after an event, and the messages that it sends to the server. -/
def Client.step (c : Client) : ClientEvent → Client × List SignalingMessage
  | .opened =>
    let c := { c with signalingConnected := true }
    (c,c.sendSignaling (.peerJoin c.localPeerId c.streamId c.isPublisher))
  | .closed => ({ c with signalingConnected := false },[])
  | .resume i outcome =>
    match c.tasks[i]? with
    | some t => { c with tasks := c.tasks.eraseIdx i }.finish t outcome
    | none => (c,[])
  | .candidateFound remote candidate =>
    if remote ∈ c.peerConnections then
      (c,c.sendSignaling (.iceCandidate c.localPeerId remote candidate.candidate
        candidate.sdpMid candidate.sdpMlineIndex))
    else (c,[])
  | .connectionLost remote => (c.closePeerConnection remote,[])
  -- a connection that is no longer in the map goes on to call these, and they do not look
  | .channelReceived remote =>
    ({ c with dataChannels := c.dataChannels.insert remote false },[])
  | .channelOpened remote => ({ c with dataChannels := c.dataChannels.insert remote true },[])
  | .channelClosed remote => ({ c with dataChannels := c.dataChannels.erase remote },[])
  | .relayReady =>
    if !c.isPublisher && !c.canRelay then
      ({ c with canRelay := true },
        c.sendSignaling (.peerUpdate c.localPeerId (some c.streamId) false true))
    else (c,[])
  | .becomePublisher =>
    if c.isPublisher then (c,[])
    else
      ({ c with isPublisher := true },
        c.sendSignaling (.peerUpdate c.localPeerId (some c.streamId) true false))
  | .disconnect =>
    ({ c with peerConnections := ∅, dataChannels := ∅, signalingConnected := false },
      c.sendSignaling (.peerLeave c.localPeerId))

end OpenBroadcast.Signaling
