import OpenBroadcast.Delivery.Integrity
import OpenBroadcast.Framework.Fifo

namespace OpenBroadcast.Delivery

open Media

variable {PeerId : Type}

section Publishing

end Publishing

section Handling

variable {blake3 : Bytes → Digest}

/-- What a message puts into the channel. -/
def emitted (blake3 : Bytes → Digest) (c : Circumstances) (m : GossipMessage PeerId) :
    List (Option (GossipMessage PeerId) × OverlayEvent PeerId) :=
  (Libp2pOverlay.new.handleGossipsubEvent blake3 c m).1.events

/-- The relay takes the data, and there is room in the event channel. -/
def Passes (c : Circumstances) (size : Nat) : Prop :=
  size ≤ c.relayConfig.maxChunkSize ∧ c.chunkChannel = .present ∧ c.full = false

instance (c : Circumstances) (size : Nat) : Decidable (Passes c size) :=
  inferInstanceAs (Decidable (_ ∧ _))

end Handling

/-- The messages that come on a topic, each with what its handling depends on. -/
def arrivals (topic : String) (es : List (NodeEvent PeerId)) :
    List (Circumstances × GossipMessage PeerId) :=
  es.filterMap (fun
    | .gossip c m => if m.topic = topic then some (c,m) else none
    | _ => none)

namespace Node

section Channel

variable (blake3 : Bytes → Digest) (streamId : Relay.StreamId)

def puts : NodeEvent PeerId → List (Option (GossipMessage PeerId) × OverlayEvent PeerId)
  | .gossip c m => emitted blake3 c m
  | .report c => if c.full then [] else [(none,.other)]
  | _ => []

/-- The streams that the consumer accepts whose turn it is, if there is one. -/
def consumer (n : Node PeerId) : NodeEvent PeerId → Option (Relay.StreamId → Bool)
  | .bridgeTakes => some n.bridgeAccepts
  | .loopTakes k => n.targets[k]?.map n.loopAccepts
  | _ => none

def takes (n : Node PeerId) (e : NodeEvent PeerId) :
    List (Option (GossipMessage PeerId) × OverlayEvent PeerId) :=
  match n.consumer e with
  | some _ => n.overlay.events.take 1
  | none => []

variable {blake3}

/-- Whether the consumer takes the stream that the event is of. -/
def accepted (accepts : Relay.StreamId → Bool) : OverlayEvent PeerId → Bool
  | .streamData id _ _ => accepts id
  | _ => true

end Channel

section Runs

variable {blake3 : Bytes → Digest} {streamId : Relay.StreamId}

end Runs

end Node

end OpenBroadcast.Delivery
