import Mathlib.Tactic.IntervalCases
import OpenBroadcast.Delivery.Bridge
import OpenBroadcast.Relay.Node

namespace OpenBroadcast.Delivery

open Media

section Topics

/-- `hex::encode`. -/
def hexEncode (b : Bytes) : List Char :=
  b.flatMap (fun x => [Relay.StreamId.hexDigit (x.toNat/16),Relay.StreamId.hexDigit (x.toNat%16)])

def hexValue (c : Char) : Option Nat :=
  if '0' ≤ c ∧ c ≤ '9' then some (c.toNat-48)
  else if 'a' ≤ c ∧ c ≤ 'f' then some (c.toNat-87)
  else if 'A' ≤ c ∧ c ≤ 'F' then some (c.toNat-55)
  else none

/-- `hex::decode`, which takes digits of either case. -/
def hexDecode : List Char → Option Bytes
  | [] => some []
  | [_] => none
  | a::b::rest => do
    let high ← hexValue a
    let low ← hexValue b
    let bytes ← hexDecode rest
    return UInt8.ofNat (16*high+low)::bytes

def streamTopic (kind : String) (streamId : Relay.StreamId) : String :=
  String.ofList (['/'].intercalate ["stream".toList,hexEncode streamId.bytes,kind.toList])

def streamControl (streamId : Relay.StreamId) : String := streamTopic "control" streamId

def streamData (streamId : Relay.StreamId) : String := streamTopic "data" streamId

def discovery : String := "discovery"

def streamAnnounceTopic : String := "obn/streams/announce"

/-- Any topic of three parts or more names a stream. -/
def parseStreamId (topic : String) : Option Relay.StreamId :=
  match topic.toList.splitOn '/' with
  | first::id::_::_ => if first = "stream".toList then (hexDecode id).map Relay.StreamId.mk else none
  | _ => none

/-- `topic.ends_with("/data")`. -/
def endsWithData (topic : String) : Bool := "/data".toList.isSuffixOf topic.toList

theorem endsWithData_streamData (streamId : Relay.StreamId) :
    endsWithData (streamData streamId) = true := by
  unfold endsWithData streamData streamTopic
  rw [String.toList_ofList,List.isSuffixOf_iff_suffix]
  exact ⟨"stream/".toList++hexEncode streamId.bytes,by simp [List.intercalate,List.intersperse]⟩

theorem hexValue_hexDigit {n : Nat} (h : n < 16) :
    hexValue (Relay.StreamId.hexDigit n) = some n := by
  interval_cases n <;> rfl

theorem hexDecode_hexEncode (b : Bytes) : hexDecode (hexEncode b) = some b := by
  induction b with
  | nil => rfl
  | cons x b ih =>
    have hx : x.toNat < 256 := x.toNat_lt
    have hdecode : hexDecode (hexEncode (x::b)) = (do
        let high ← hexValue (Relay.StreamId.hexDigit (x.toNat/16))
        let low ← hexValue (Relay.StreamId.hexDigit (x.toNat%16))
        let bytes ← hexDecode (hexEncode b)
        return UInt8.ofNat (16*high+low)::bytes) := rfl
    have hbyte : UInt8.ofNat (16*(x.toNat/16)+x.toNat%16) = x := by
      rw [Nat.div_add_mod]
      exact UInt8.ofNat_toNat
    rw [hdecode,hexValue_hexDigit (by omega),hexValue_hexDigit (by omega),ih]
    exact congrArg (fun y => some (y::b)) hbyte

theorem hexDigit_ne_slash {n : Nat} (h : n < 16) : Relay.StreamId.hexDigit n ≠ '/' := by
  interval_cases n <;> decide

theorem slash_notMem_hexEncode (b : Bytes) : '/' ∉ hexEncode b := by
  intro h
  obtain ⟨x,_,hx⟩ := List.mem_flatMap.mp h
  have hlt : x.toNat < 256 := x.toNat_lt
  rcases List.mem_cons.mp hx with hx | hx
  · exact hexDigit_ne_slash (by omega) hx.symm
  · exact hexDigit_ne_slash (by omega) (List.mem_singleton.mp hx).symm

/-- The topics of a stream name this stream. -/
theorem parseStreamId_streamTopic {kind : String} (hkind : '/' ∉ kind.toList)
    (streamId : Relay.StreamId) : parseStreamId (streamTopic kind streamId) = some streamId := by
  have hparts : ∀ part ∈ ["stream".toList,hexEncode streamId.bytes,kind.toList], '/' ∉ part := by
    intro part hpart
    simp only [List.mem_cons,List.not_mem_nil,or_false] at hpart
    rcases hpart with rfl | rfl | rfl
    · decide
    · exact slash_notMem_hexEncode _
    · exact hkind
  unfold parseStreamId streamTopic
  rw [String.toList_ofList,List.splitOn_intercalate '/' hparts (by simp)]
  dsimp only
  rw [if_pos rfl,hexDecode_hexEncode]
  rfl

theorem parseStreamId_streamData (streamId : Relay.StreamId) :
    parseStreamId (streamData streamId) = some streamId :=
  parseStreamId_streamTopic (by decide) streamId

theorem parseStreamId_streamControl (streamId : Relay.StreamId) :
    parseStreamId (streamControl streamId) = some streamId :=
  parseStreamId_streamTopic (by decide) streamId

theorem endsWithData_streamControl (streamId : Relay.StreamId) :
    endsWithData (streamControl streamId) = false := by
  have htopic : (streamControl streamId).toList =
      "stream/".toList++hexEncode streamId.bytes++"/contro".toList++['l'] := by
    unfold streamControl streamTopic
    rw [String.toList_ofList]
    simp [List.intercalate,List.intersperse]
  unfold endsWithData
  rw [Bool.eq_false_iff,ne_eq,List.isSuffixOf_iff_suffix]
  rintro ⟨front,hfront⟩
  -- The one ends with an `a`, the other with an `l`.
  have hlast := congrArg List.getLast? (hfront.trans htopic)
  rw [List.getLast?_concat] at hlast
  simp at hlast

/-- A topic is told from others that are parsed to something else. -/
theorem ne_of_parseStreamId {topic topic' : String} {streamId : Relay.StreamId}
    (h : parseStreamId topic = some streamId) (h' : parseStreamId topic' = none) :
    topic ≠ topic' := by
  rintro rfl
  rw [h] at h'
  cases h'

/-- The topics of a stream are parsed to this stream, whatever its id, so that no two streams share
one, and the topics for data are no topics for anything else. -/
theorem stream_topics_faithful :
    (∀ streamId, parseStreamId (streamData streamId) = some streamId ∧
      parseStreamId (streamControl streamId) = some streamId) ∧
    Function.Injective streamData ∧ Function.Injective streamControl ∧
    (∀ streamId streamId', streamData streamId ≠ streamControl streamId') ∧
    ∀ streamId, streamData streamId ≠ discovery ∧ streamData streamId ≠ streamAnnounceTopic := by
  refine ⟨fun s => ⟨parseStreamId_streamData s,parseStreamId_streamControl s⟩,?_,?_,?_,?_⟩
  · intro s s' htopic
    have hparsed := congrArg parseStreamId htopic
    rwa [parseStreamId_streamData,parseStreamId_streamData,Option.some_inj] at hparsed
  · intro s s' htopic
    have hparsed := congrArg parseStreamId htopic
    rwa [parseStreamId_streamControl,parseStreamId_streamControl,Option.some_inj] at hparsed
  · intro s s' htopic
    have hends := congrArg endsWithData htopic
    rw [endsWithData_streamData,endsWithData_streamControl] at hends
    cases hends
  · intro s
    have hparsed := parseStreamId_streamData s
    exact ⟨ne_of_parseStreamId hparsed (by decide),ne_of_parseStreamId hparsed (by decide)⟩

end Topics

structure GossipMessage (PeerId : Type) where
  topic : String
  data : Bytes
  propagationSource : PeerId
  deriving DecidableEq

/-- The sender of chunks of the relay node. -/
inductive ChunkChannel where
  | absent
  | closed
  | present
  deriving DecidableEq, Repr

/-- What a call depends on besides the message: the time, the relay node, whether the event channel
is full, and which stream `serde_json` finds in an announcement. -/
structure Circumstances where
  nowSecs : Nat
  relayConfig : Relay.RelayConfig
  chunkChannel : ChunkChannel
  full : Bool
  announced : Bytes → Relay.StreamId

variable {PeerId : Type}

def publishChunk (c : Circumstances) (chunk : Relay.StreamChunk PeerId) : Except OverlayError Unit :=
  if c.relayConfig.maxChunkSize < chunk.data.length then
    .error (.relayError ("Chunk too large: "++toString chunk.data.length++" bytes (max "++
      toString c.relayConfig.maxChunkSize++")"))
  else
    match c.chunkChannel with
    | .absent => .error .notRunning
    | .closed => .error (.relayError "Failed to send chunk: channel closed")
    | .present => .ok ()

def contentType : Option MediaType → String
  | some .video => "video/h264"
  | some .audio => "audio/opus"
  | some .metadata => "application/json"
  | some .initialization => "video/mp4"
  | none => "application/octet-stream"

/-- The chunk for the relay, or nothing if the content does not have the hash that it should have.
Data that is no segment gets defaults. -/
def dataChunk (blake3 : Bytes → Digest) (c : Circumstances) (streamId : Relay.StreamId)
    (m : GossipMessage PeerId) : Option (Relay.StreamChunk PeerId) :=
  match WireSegment.fromBytes m.data with
  | .ok wire =>
    if !wire.verifyIntegrity blake3 then none
    else
      some ⟨wire.sequence.toNat,streamId,m.data,wire.ptsUs.toNat/1000,wire.sequence.toNat,
        contentType wire.mediaTypeEnum,wire.isKeyframe,some m.propagationSource⟩
  | .error _ =>
    some ⟨0,streamId,m.data,c.nowSecs,0,"application/octet-stream",false,some m.propagationSource⟩

/-- The overlay: the streams it has seen data of, and its event channel. Each event in the channel
stands beside the message that it was made of. -/
structure Libp2pOverlay (PeerId : Type) where
  streams : Finset Relay.StreamId
  events : List (Option (GossipMessage PeerId) × OverlayEvent PeerId)

namespace Libp2pOverlay

def new : Libp2pOverlay PeerId := ⟨∅,[]⟩

/-- An event for which there is no room is dropped. -/
def trySend (o : Libp2pOverlay PeerId) (c : Circumstances) (m : Option (GossipMessage PeerId))
    (event : OverlayEvent PeerId) : Libp2pOverlay PeerId :=
  if c.full then o else { o with events := o.events++[(m,event)] }

/-- `handle_gossipsub_event` for a message. -/
def handleGossipsubEvent (blake3 : Bytes → Digest) (o : Libp2pOverlay PeerId) (c : Circumstances)
    (m : GossipMessage PeerId) : Libp2pOverlay PeerId × Except OverlayError Unit :=
  match parseStreamId m.topic with
  | some streamId =>
    let event := OverlayEvent.streamData streamId m.propagationSource m.data
    if endsWithData m.topic then
      match dataChunk blake3 c streamId m with
      | none => (o,.ok ())
      | some chunk =>
        match publishChunk c chunk with
        | .error e => (o,.error e)
        | .ok () => ({ o with streams := insert streamId o.streams }.trySend c (some m) event,.ok ())
    -- Control messages, and what comes on any other topic of the stream, are passed on as they are.
    else (o.trySend c (some m) event,.ok ())
  | none =>
    if m.topic = discovery then (o,.ok ())
    else if m.topic = streamAnnounceTopic then
      (o.trySend c (some m) (.streamAnnounced (c.announced m.data) m.data),.ok ())
    else (o,.ok ())

end Libp2pOverlay

end OpenBroadcast.Delivery
