import OpenBroadcast.Delivery.WebServer

namespace OpenBroadcast.Delivery

open Media

namespace RelaySocket

end RelaySocket

namespace WebServer

variable {PeerId : Type}

section Takes

variable {s s' : WebServer PeerId} {m : Option (GossipMessage PeerId)} {id : Relay.StreamId}
  {data : Bytes}

end Takes

section Runs

variable {blake3 : Bytes → Digest} {s : WebServer PeerId}

theorem zeros_length : (List.replicate 32 (0 : UInt8)).length = 32 := List.length_replicate

/-- A hash that tells nothing apart. -/
def zeroHash : Bytes → Digest := fun _ => ⟨List.replicate 32 0,zeros_length⟩

theorem idOfB_short : ([98] : Bytes).length < 2^64 := by decide

/-- A segment of the stream `b`. -/
def segmentOfB : WireSegment :=
  ⟨2,⟨[98],idOfB_short⟩,7,0,0,0,1,true,
    computeContentHash zeroHash [9],⟨[9],Node.forgedData_short⟩⟩

def messageOfB : GossipMessage Unit :=
  ⟨streamData ⟨[98]⟩,WireSegment.codec.encode segmentOfB,()⟩

def gossipOfB : WebEvent Unit :=
  .gossip ⟨0,.default,.present,false,fun b => ⟨b⟩⟩ messageOfB

end Runs

end WebServer

end OpenBroadcast.Delivery
