import Mathlib.Logic.Function.Basic
import OpenBroadcast.Browser.DataChannel

namespace OpenBroadcast.Browser

open ArrayBuffer

/-- A buffer in a mesh. Beside its bytes, which are all that the clients work with, it has the
clients that have sent it on, from the publisher on, and whether one of them has done so under a
header without a `ttl`. -/
structure Copy (PeerId : Type) where
  bytes : Bytes
  path : List PeerId
  renewed : Bool
  deriving DecidableEq

namespace Copy

variable {PeerId : Type}

/-- The number of channels that the copy has gone through. -/
def hops (b : Copy PeerId) : Nat := b.path.length

def fresh (bytes : Bytes) : Copy PeerId := ⟨bytes,[],false⟩

def sliceOf (b : Copy PeerId) (start stop : Nat) : Copy PeerId :=
  { b with bytes := slice b.bytes start stop }

/-- Slices of one copy make up this copy. -/
def assemble : List (Copy PeerId) → Copy PeerId
  | [] => fresh (assembleChunks [])
  | b::bs => { b with bytes := assembleChunks (b.bytes::bs.map bytes) }

theorem assemble_slicesOf (b : Copy PeerId) (l : List Nat) (hl : l ≠ []) (start stop : Nat → Nat) :
    assemble (l.map (fun i => b.sliceOf (start i) (stop i))) =
      { b with bytes := assembleChunks (l.map (fun i => slice b.bytes (start i) (stop i))) } := by
  cases l with
  | nil => exact absurd rfl hl
  | cons i l => simp [assemble,sliceOf,Function.comp_def]

instance : ArrayBuffer (Copy PeerId) where
  byteLength b := byteLength b.bytes
  slice := sliceOf
  assembleChunks := assemble
  assemble_slices := by
    intro n b hn hb
    have hcount : 0 < (byteLength b.bytes+n-1)/n := by
      apply Nat.div_pos _ hn
      omega
    have hne : List.range ((byteLength b.bytes+n-1)/n) ≠ [] := by
      intro hnil
      rw [List.range_eq_nil] at hnil
      omega
    rw [assemble_slicesOf b _ hne,assemble_slices n b.bytes hn hb]

end Copy

namespace StreamClient

variable {PeerId ι β : Type} [DecidableEq PeerId] [ArrayBuffer β]

/-- Nothing is kept between the messages of a segment. -/
structure Idle (c : StreamClient PeerId ι β) : Prop where
  pending : c.pendingSegmentHeader = ∅
  chunks : c.incomingChunks = ∅

/-- What a segment does as a whole. -/
def receiveSegment (c : StreamClient PeerId ι β) (peer : PeerId) (h : SegmentHeader PeerId)
    (buffer : β) : StreamClient PeerId ι β × List (ClientEffect PeerId ι β) :=
  if h.typed then
    let (c,ready) := c.cacheReceived (h.pending peer) buffer
    let (c,relayed) := c.relayReceived (h.pending peer) buffer peer
    (c,ready++.received peer (some (h.pending peer)) buffer::relayed)
  else (c,[.received peer none buffer])

section Segments

variable {c : StreamClient PeerId ι β}

theorem erase_insert_empty {α γ : Type} [DecidableEq α] (a : α) (b : γ) :
    ((∅ : HashMap α γ).insert a b).erase a = ∅ := by
  apply Finmap.ext_lookup
  intro x
  by_cases hx : x = a
  · subst hx
    simp
  · simp [hx]

theorem erase_empty {α γ : Type} [DecidableEq α] (a : α) : (∅ : HashMap α γ).erase a = ∅ := by
  apply Finmap.ext_lookup
  intro x
  by_cases hx : x = a
  · subst hx
    simp
  · simp [hx]

/-- Binary messages between the markers are collected. -/
theorem run_binaries (peer : PeerId) (now : Nat) (slices : List β) (state : ChunkState β) :
    ∃ state' : ChunkState β, state'.chunks = state.chunks++slices ∧
      { c with incomingChunks := c.incomingChunks.insert peer state }.run
        (slices.map (fun data => (now,.message peer (.binary data)))) =
      ({ c with incomingChunks := c.incomingChunks.insert peer state' },[]) := by
  induction slices generalizing state with
  | nil => exact ⟨state,by simp,rfl⟩
  | cons data slices ih =>
    obtain ⟨state',hchunks,hrun⟩ :=
      ih ⟨state.chunks++[data],state.totalSize+byteLength data,state.expectedSize⟩
    refine ⟨state',by simp [hchunks],?_⟩
    rw [List.map_cons,run_cons,step_message]
    simp only [handleDataChannelMessage,Finmap.lookup_insert,Finmap.insert_insert]
    rw [hrun]
    rfl

theorem run_append (es es' : List (Nat × StreamEvent PeerId ι β)) :
    c.run (es++es') =
      (((c.run es).1.run es').1,(c.run es).2++((c.run es).1.run es').2) := by
  induction es generalizing c with
  | nil => rfl
  | cons e es ih =>
    obtain ⟨now,e⟩ := e
    rw [List.cons_append,run_cons,run_cons,ih]
    simp

theorem run_one (now : Nat) (e : StreamEvent PeerId ι β) : c.run [(now,e)] = c.step now e := by
  rw [run_cons]
  simp [run]

/-- The binary part of a segment ends with the call of `processReceivedSegment`. -/
theorem run_payload (hchunks : c.incomingChunks = ∅) (peer : PeerId) (now : Nat) (buffer : β) :
    c.run ((if maxChunkSize < byteLength buffer then sendChunked buffer else [.binary buffer]).map
      (fun data => (now,.message peer data))) = c.processReceivedSegment peer buffer := by
  split_ifs with hsize
  · obtain ⟨slices,hjoined,hframes⟩ := sendChunked_eq PeerId ι buffer (by omega)
    obtain ⟨state,hstate,hrun⟩ :=
      run_binaries (c := c) peer now slices ⟨[],0,byteLength buffer⟩
    have hslices : state.chunks = slices := hstate
    rw [hframes,List.map_cons,List.map_append,List.map_map,run_cons,step_message]
    simp only [handleDataChannelMessage,handleControlMessage]
    rw [run_append]
    have hmessages : slices.map ((fun data => (now,StreamEvent.message peer data)) ∘
        (Frame.binary : β → Frame PeerId ι β)) =
        slices.map (fun data => (now,.message peer (.binary data))) := rfl
    rw [hmessages,hrun,List.map_singleton,run_one,step_message]
    simp only [handleDataChannelMessage,handleControlMessage,Finmap.lookup_insert,hslices,hjoined]
    have hclean : ({ c with incomingChunks := (c.incomingChunks.insert peer state).erase peer } :
        StreamClient PeerId ι β) = c := by
      rw [hchunks,erase_insert_empty,← hchunks]
    rw [hclean]
    rfl
  · rw [List.map_singleton,run_one,step_message]
    simp [handleDataChannelMessage,hchunks]

/-- A segment that comes as a whole is processed as a whole. -/
theorem run_segment (hidle : c.Idle) (peer : PeerId) (now : Nat) (h : SegmentHeader PeerId)
    (buffer : β) :
    c.run (messagesOf peer now [.segment h buffer]) = c.receiveSegment peer h buffer := by
  have hmessages : messagesOf peer now [(.segment h buffer : Item PeerId ι β)] =
      (now,.message peer (.text (.header h)))::
        (if maxChunkSize < byteLength buffer then sendChunked buffer else [.binary buffer]).map
          (fun data => (now,.message peer data)) := by
    simp [messagesOf,Item.frames,sendSegmentToPeer]
  rw [hmessages,run_cons,step_message]
  simp only [handleDataChannelMessage,handleControlMessage,receiveSegment]
  by_cases ht : h.typed = true
  · rw [if_pos ht,if_pos ht]
    dsimp only
    let c' : StreamClient PeerId ι β :=
      { c with pendingSegmentHeader := c.pendingSegmentHeader.insert peer (h.pending peer) }
    have hchunks : c'.incomingChunks = ∅ := hidle.chunks
    have hheader : c'.pendingSegmentHeader.lookup peer = some (h.pending peer) :=
      Finmap.lookup_insert _
    have hclean : c'.takeHeader peer = c := by
      simp only [takeHeader,c']
      rw [hidle.pending,erase_insert_empty,← hidle.pending]
    have hpayload := run_payload hchunks peer now buffer
    rw [processReceivedSegment_some hheader,hclean] at hpayload
    rw [hpayload]
    rfl
  · rw [if_neg ht,if_neg ht]
    dsimp only
    have hnone : c.pendingSegmentHeader.lookup peer = none := by
      rw [hidle.pending]
      exact Finmap.lookup_empty peer
    have hclean : c.takeHeader peer = c := by
      simp only [takeHeader]
      rw [hidle.pending,erase_empty,← hidle.pending]
    rw [run_payload hidle.chunks,processReceivedSegment_none hnone,hclean]
    rfl

end Segments

end StreamClient

/-- An event of a client that brings no message, with the copies that it creates. -/
def StreamEvent.fresh? {PeerId ι : Type} :
    StreamEvent PeerId ι Bytes → Option (StreamEvent PeerId ι (Copy PeerId))
  | .setupDataChannel peer => some (.setupDataChannel peer)
  | .channelOpened peer => some (.channelOpened peer)
  | .channelClosed peer => some (.channelClosed peer)
  | .closePeerConnection peer => some (.closePeerConnection peer)
  | .message _ _ => none
  | .forward buffer chunkType isKeyframe => some (.forward (.fresh buffer) chunkType isKeyframe)
  | .cacheStreamInfo data => some (.cacheStreamInfo data)
  | .cacheInitSegment buffer => some (.cacheInitSegment (.fresh buffer))
  | .becomePublisher => some .becomePublisher
  | .disconnect => some .disconnect

/-- An item as it leaves a client: the copy has one channel more behind it. -/
def Item.leave {PeerId ι : Type} (peer : PeerId) :
    Item PeerId ι (Copy PeerId) → Item PeerId ι (Copy PeerId)
  | .segment h b =>
    .segment h { b with path := b.path++[peer], renewed := b.renewed || (h.typed && h.ttl.isNone) }
  | item => item

/-- Clients and what is under way between them: `wires p q` are the items from `p` to `q`, and
`reached` are the copies that have come to a client. -/
structure Mesh (PeerId ι : Type) where
  clients : PeerId → StreamClient PeerId ι (Copy PeerId)
  wires : PeerId → PeerId → List (Item PeerId ι (Copy PeerId))
  reached : List (PeerId × Copy PeerId)

inductive MeshEvent (PeerId ι : Type) where
  | act (peer : PeerId) (now : Nat) (e : StreamEvent PeerId ι Bytes)
  | deliver (source target : PeerId) (now : Nat)
  | lose (source target : PeerId)

namespace Mesh

variable {PeerId ι : Type} [DecidableEq PeerId]

omit [DecidableEq PeerId] in
/-- The publishers are those that start as such. -/
def new (streamId : String) (publishers : PeerId → Bool) : Mesh PeerId ι where
  clients p := .new streamId (publishers p)
  wires _ _ := []
  reached := []

/-- What a client sends is put on the wires. -/
def post (m : Mesh PeerId ι) (p : PeerId)
    (r : StreamClient PeerId ι (Copy PeerId) × List (ClientEffect PeerId ι (Copy PeerId))) :
    Mesh PeerId ι :=
  { m with
    clients := Function.update m.clients p r.1
    wires := fun source target =>
      if source = p then m.wires source target++(itemsTo target r.2).map (Item.leave p)
      else m.wires source target }

def takeFirst (m : Mesh PeerId ι) (source target : PeerId)
    (rest : List (Item PeerId ι (Copy PeerId))) : Mesh PeerId ι :=
  { m with wires := fun s t => if s = source ∧ t = target then rest else m.wires s t }

omit [DecidableEq PeerId] in
/-- A segment has reached a client. -/
def record (m : Mesh PeerId ι) (target : PeerId) : Item PeerId ι (Copy PeerId) → Mesh PeerId ι
  | .segment _ b => { m with reached := m.reached++[(target,b)] }
  | _ => m

/-- A channel keeps the order of the items, and may lose what is under way when it is closed. -/
def step (m : Mesh PeerId ι) : MeshEvent PeerId ι → Mesh PeerId ι
  | .act p now e =>
    match e.fresh? with
    | some e => m.post p ((m.clients p).step now e)
    | none => m
  | .deliver source target now =>
    match m.wires source target with
    | item::rest =>
      ((m.takeFirst source target rest).record target item).post target
        ((m.clients target).run (messagesOf source now [item]))
    | [] => m
  | .lose source target => m.takeFirst source target []

def run (streamId : String) (publishers : PeerId → Bool) (es : List (MeshEvent PeerId ι)) :
    Mesh PeerId ι :=
  es.foldl step (new streamId publishers)

end Mesh

end OpenBroadcast.Browser
