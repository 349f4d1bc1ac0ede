import Mathlib.Data.Multiset.ZeroCons
import OpenBroadcast.Browser.DataChannel

namespace OpenBroadcast.Browser

open ArrayBuffer

variable {PeerId ι β : Type}

/-- What identifies a segment for a subscriber. -/
def SegmentHeader.key (h : SegmentHeader PeerId) : String × Int × Bool :=
  (h.segmentType,h.sequence,h.isKeyframe)

variable [DecidableEq PeerId]

section Lists

end Lists

namespace StreamClient

variable [ArrayBuffer β] {c : StreamClient PeerId ι β}

section Effects

/-- What a message is answered with. -/
def answer (c : StreamClient PeerId ι β) (peer : PeerId) (now : Nat) :
    Frame PeerId ι β → List (Item PeerId ι β)
  | .text .requestInit =>
    if c.dataChannels.get peer = some true ∧ (c.isPublisher || c.canRelay) then c.cachedItems now
    else []
  | _ => []

end Effects

section Meanwhile

/-- What is done for others: the channel to `peer` stays as it is, a client that serves goes on with
it and keeps a `stream_info`, and it sends `peer` nothing but segments under headers of its own. -/
structure Serving (peer : PeerId) (c : StreamClient PeerId ι β)
    (r : StreamClient PeerId ι β × List (ClientEffect PeerId ι β)) : Prop where
  channel : r.1.dataChannels.get peer = c.dataChannels.get peer
  serves : (c.isPublisher || c.canRelay) = true → (r.1.isPublisher || r.1.canRelay) = true
  info : c.cachedStreamInfo.isSome = true → r.1.cachedStreamInfo.isSome = true
  items : ∀ item ∈ itemsTo peer r.2, ∃ h buffer, item = .segment h buffer ∧ h.typed

variable {peer : PeerId}

omit [ArrayBuffer β] in
theorem Serving.trans {r r' : StreamClient PeerId ι β × List (ClientEffect PeerId ι β)}
    (h : Serving peer c r) (h' : Serving peer r.1 r') : Serving peer c (r'.1,r.2++r'.2) where
  channel := h'.channel.trans h.channel
  serves := h'.serves ∘ h.serves
  info := h'.info ∘ h.info
  items := by
    intro item hitem
    rw [itemsTo_append] at hitem
    exact (List.mem_append.mp hitem).elim (h.items item) (h'.items item)

end Meanwhile

section Joining

/-- A subscriber opens a channel to a client that serves it: all that the subscriber does on what
this client sends at the opening, in the time until the first message of the subscriber arrives, and
as its answer. -/
def join (c sub : StreamClient PeerId ι β) (server subscriber : PeerId)
    (mid : List (Nat × StreamEvent PeerId ι β)) (now later : Nat) :
    List (ClientEffect PeerId ι β) :=
  let (c,opening) := c.channelOpened subscriber now
  let (c,meanwhile) := c.run mid
  let (sub,request) := sub.channelOpened server now
  let (_,answers) := c.run (messagesOf subscriber later (itemsTo server request))
  (sub.run (messagesOf server later (itemsTo subscriber (opening++meanwhile++answers)))).2

/-- What the client does between the opening and the answer. -/
def meanwhile (c : StreamClient PeerId ι β) (subscriber : PeerId)
    (mid : List (Nat × StreamEvent PeerId ι β)) (now : Nat) :
    StreamClient PeerId ι β × List (ClientEffect PeerId ι β) :=
  (c.channelOpened subscriber now).1.run mid

section Items

variable {sub : StreamClient PeerId ι β} {subscriber : PeerId}
    {mid : List (Nat × StreamEvent PeerId ι β)}

end Items

end Joining

end StreamClient

open StreamClient

/-- A client, with the header under which it processed or created the init segment that it has
cached, if it was one of these. -/
structure Server (PeerId ι β : Type) where
  client : StreamClient PeerId ι β
  initHeader : Option (SegmentHeader PeerId)

namespace Server

variable [ArrayBuffer β]

omit [DecidableEq PeerId] [ArrayBuffer β] in
/-- The header of the last init segment that is processed. -/
def processedInit (before : Option (SegmentHeader PeerId))
    (effects : List (ClientEffect PeerId ι β)) : Option (SegmentHeader PeerId) :=
  effects.foldl (fun last e =>
    match e with
    | .received _ (some h) _ => if isInitType h.segmentType then some h else last
    | _ => last) before

def step (s : Server PeerId ι β) (e : Nat × StreamEvent PeerId ι β) : Server PeerId ι β :=
  let (client,effects) := s.client.step e.1 e.2
  { client := client
    initHeader :=
      match e.2 with
      | .cacheInitSegment _ => none
      | .forward buffer chunkType isKeyframe =>
        if (s.client.isPublisher || s.client.canRelay) && isInitType chunkType then
          some (s.client.createHeader buffer chunkType isKeyframe e.1)
        else s.initHeader
      | _ => processedInit s.initHeader effects }

def run (streamId : String) (isPublisher : Bool) (es : List (Nat × StreamEvent PeerId ι β)) :
    Server PeerId ι β :=
  es.foldl step ⟨.new streamId isPublisher,none⟩

/-- The server when it answers the first message of a subscriber that has opened a channel. -/
def answering (s : Server PeerId ι β) (subscriber : PeerId)
    (mid : List (Nat × StreamEvent PeerId ι β)) (now : Nat) : Server PeerId ι β :=
  mid.foldl step (s.step (now,.channelOpened subscriber))

/-- The server at the event that has to bring the subscriber what is cached: its request, and the
opening for one that is a relayer and does not request. -/
def sending (s : Server PeerId ι β) (sub : StreamClient PeerId ι β) (subscriber : PeerId)
    (mid : List (Nat × StreamEvent PeerId ι β)) (now : Nat) : Server PeerId ι β :=
  if sub.canRelay then s else s.answering subscriber mid now

/-- The segments that the subscriber is sent between these events as they come up. -/
def live (s : Server PeerId ι β) (subscriber : PeerId)
    (mid : List (Nat × StreamEvent PeerId ι β)) (now : Nat) : List ((String × Int × Bool) × β) :=
  ((itemsTo subscriber (s.client.meanwhile subscriber mid now).2).filterMap Item.segment?).map
    (fun seg => (seg.1.key,seg.2))

section Served

variable {s : Server PeerId ι β}

section Counting

variable {α γ : Type} [BEq α] [LawfulBEq α] {f : α → γ} {sent : List γ} {cached live : List α}

end Counting

/-- Another channel is opened and served, and there is a `stream_info` by now. -/
def others : List (Nat × StreamEvent Nat Nat Bytes) :=
  [(5,.channelOpened 4),(5,.message 4 (.text .requestInit)),(6,.cacheStreamInfo 7)]

/-- What a subscriber needs to become a relayer, and a keyframe. -/
def relayed (peer : Nat) : List (Nat × StreamEvent Nat Nat Bytes) :=
  (0,.channelOpened peer)::messagesOf peer 0
    [.streamInfo 7,.segment (StreamClient.initHeader ([1] : Bytes) 0) [1],
      .segment ⟨true,"video",0,1,true,0,some 3,none⟩ [2]]

end Served

end Server

end OpenBroadcast.Browser
