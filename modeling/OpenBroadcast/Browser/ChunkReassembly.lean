import OpenBroadcast.Browser.WebSocketClient
import OpenBroadcast.Framework.Run

namespace OpenBroadcast.Browser

open Media

/-- A group of frames that is being delivered: its key, how many frames it has, and those that have
come. -/
structure Group where
  key : String
  totalChunks : Nat
  frames : List Bytes

/-- What the other end of the connections has sent: the group in the midst of which the connection
is, the keys so far, and the groups that have been delivered completely on one connection. -/
structure GroupSender where
  current : Option Group
  announced : List String
  complete : List (List Bytes)

/-- What happens to a client. The close event of a socket that was given up may come when there is a
connection again. -/
inductive ReceiverEvent where
  | input (input : ClientInput)
  | lateClose
  | setMaxMessageSize (size : Nat)

def isChunkInfo (message : Json) : Bool := Json.hasText (message.member "type") "chunk_info"

/-- The number of frames that a description announces. -/
def totalChunks (message : Json) : Option Nat :=
  match message.member "total_chunks" with
  | some (.integer n) => if 0 ≤ n then some n.toNat else none
  | _ => none

namespace GroupSender

variable (js : Script)

/-- Whole groups come one after the other, each with a key of its own. -/
def Allows (d : GroupSender) : ReceiverEvent → Prop
  | .input (.message (.text _ (some message))) =>
    isChunkInfo message = true → d.current.isNone = true ∧ js.chunkKey message ∉ d.announced ∧
      (totalChunks message).isSome = true
  | .input (.message (.binary _)) => d.current.isSome = true
  | _ => True

instance decidableAllows (d : GroupSender) : (e : ReceiverEvent) → Decidable (d.Allows js e)
  | .input (.message (.text _ (some message))) =>
    inferInstanceAs (Decidable (isChunkInfo message = true → d.current.isNone = true ∧
      js.chunkKey message ∉ d.announced ∧ (totalChunks message).isSome = true))
  | .input (.message (.binary _)) => inferInstanceAs (Decidable (d.current.isSome = true))
  | .input (.message (.text _ none)) => .isTrue trivial
  | .input (.timeout _) => .isTrue trivial
  | .input .disconnected => .isTrue trivial
  | .input .resetChunks => .isTrue trivial
  | .lateClose => .isTrue trivial
  | .setMaxMessageSize _ => .isTrue trivial

/-- The group with the frames that it has now, which may be all. -/
def deliver (d : GroupSender) (group : Group) : GroupSender :=
  if group.frames.length = group.totalChunks then
    { d with current := none, complete := group.frames::d.complete }
  else { d with current := some group }

def step (d : GroupSender) : ReceiverEvent → GroupSender
  | .input (.message (.text _ (some message))) =>
    if isChunkInfo message then
      let key := js.chunkKey message
      { d with announced := key::d.announced }.deliver ⟨key,(totalChunks message).getD 0,[]⟩
    else d
  | .input (.message (.binary data)) =>
    match d.current with
    | none => d
    | some group => d.deliver { group with frames := group.frames++[data] }
  | .input .disconnected => { d with current := none }
  | _ => d

end GroupSender

/-- A client, beside the other end. -/
structure Reception where
  client : WebSocketClient
  server : GroupSender

namespace Reception

variable (js : Script)

def start (maxMessageSize : Nat) : Reception := ⟨.new maxMessageSize,⟨none,[],[]⟩⟩

def clientStep (c : WebSocketClient) : ReceiverEvent → WebSocketClient × List ClientEvent
  | .input input => c.step js input
  | .lateClose => (c.handleDisconnection,[])
  | .setMaxMessageSize size => ({ c with maxMessageSize := size },[])

def step (s : Reception) (e : ReceiverEvent) : Reception :=
  ⟨(clientStep js s.client e).1,s.server.step js e⟩

def events (s : Reception) (e : ReceiverEvent) : List ClientEvent := (clientStep js s.client e).2

/-- Data that is described and not all there. -/
def incomplete (entry : String × ChunkedDataState) : Bool :=
  js.below entry.2.receivedChunks.length entry.2.expectedChunks

/-- When a frame comes that is not refused for its size, nothing is incomplete but the group that is
being delivered. -/
def OwnFrames (s : Reception) : ReceiverEvent → Prop
  | .input (.message (.binary data)) => data.length ≤ s.client.maxMessageSize →
    ∀ entry ∈ s.client.chunkedData.entries, incomplete js entry = true →
      s.server.current.map Group.key = some entry.1
  | _ => True

/-- Each segment that the client hands over is one group that has been delivered completely. -/
def WholeSegments (s : Reception) (e : ReceiverEvent) : Prop :=
  ∀ event ∈ s.events js e, ∀ data totalSize chunkCount,
    event.segment = some (data,totalSize,chunkCount) →
    ∃ frames ∈ (s.step js e).server.complete, data = frames.flatten ∧ totalSize = data.length ∧
      chunkCount = .integer frames.length

section Invariant

variable {js} {s : Reception} {c c' : WebSocketClient} {d : GroupSender} {group : Group}

theorem sizeEquals_integer (size n : Nat) : sizeEquals size (.integer n) = decide (size = n) := by
  simp [sizeEquals,Json.asNumber]

theorem orElse_totalChunks {message : Json} {n : Nat} (h : totalChunks message = some n) :
    Json.orElse (.integer 1) (message.member "total_chunks") = .integer n := by
  unfold totalChunks at h
  split at h
  · next m hmember =>
    split_ifs at h with hpos
    cases h
    rw [hmember,Json.orElse,Int.toNat_of_nonneg hpos]
    exact fun hnull => nomatch hnull
  · cases h

/-- The frames of a group as the client has received them. Where some were refused for their size it
has fewer of them. -/
structure Receives (group : Group) (state : ChunkedDataState) : Prop where
  expectedChunks : state.expectedChunks = .integer group.totalChunks
  totalSize : state.totalSize = state.receivedChunks.flatten.length
  receivedChunks : state.receivedChunks = group.frames ∨
    state.receivedChunks.length < group.frames.length

/-- Only what was announced is waited for, and the group that is being delivered, where the client
still waits for it, is received frame by frame. -/
structure Coherent (c : WebSocketClient) (d : GroupSender) : Prop where
  announced : ∀ entry ∈ c.chunkedData.entries, entry.1 ∈ d.announced
  current : ∀ group, d.current = some group → group.key ∈ d.announced ∧
    group.frames.length < group.totalChunks ∧
    ∀ state, (group.key,state) ∈ c.chunkedData.entries → Receives group state

theorem coherent_start (maxMessageSize : Nat) :
    Coherent (start maxMessageSize).client (start maxMessageSize).server := by
  constructor
  · exact List.forall_mem_nil _
  · intro group hgroup
    cases hgroup

/-- What is no longer waited for does no harm. -/
theorem Coherent.fewer (h : Coherent c d)
    (hfewer : c'.chunkedData.entries ⊆ c.chunkedData.entries) : Coherent c' d := by
  refine ⟨fun entry hentry => h.announced entry (hfewer hentry),?_⟩
  intro group hgroup
  obtain ⟨hkey,hlength,hreceives⟩ := h.current group hgroup
  exact ⟨hkey,hlength,fun state hstate => hreceives state (hfewer hstate)⟩

theorem Coherent.closed (h : Coherent c d) : Coherent c { d with current := none } :=
  ⟨h.announced,fun _ hgroup => nomatch hgroup⟩

theorem coherent_deliver (hannounced : ∀ entry ∈ c.chunkedData.entries, entry.1 ∈ d.announced)
    (hkey : group.key ∈ d.announced) (hlength : group.frames.length ≤ group.totalChunks)
    (hreceives : ∀ state, (group.key,state) ∈ c.chunkedData.entries → Receives group state) :
    Coherent c (d.deliver group) := by
  unfold GroupSender.deliver
  split_ifs with hlast
  · exact ⟨hannounced,fun _ hgroup => nomatch hgroup⟩
  · refine ⟨hannounced,?_⟩
    intro group' hgroup
    cases hgroup
    exact ⟨hkey,by omega,hreceives⟩

theorem mem_complete_deliver (hlast : group.frames.length = group.totalChunks) :
    group.frames ∈ (d.deliver group).complete := by
  unfold GroupSender.deliver
  rw [if_pos hlast]
  exact List.mem_cons_self

/-- The group with one more frame. -/
def grown (group : Group) (data : Bytes) : Group :=
  { group with frames := group.frames++[data] }

theorem length_grown (group : Group) (data : Bytes) :
    (grown group data).frames.length = group.frames.length+1 := by
  rw [grown,List.length_append,List.length_singleton]

theorem Receives.receive {state : ChunkedDataState} (h : Receives group state) (data : Bytes) :
    Receives (grown group data) (state.receive data) := by
  refine ⟨h.expectedChunks,?_,?_⟩
  · simp [ChunkedDataState.receive,h.totalSize]
  · rcases h.receivedChunks with heq | hlt
    · exact .inl (by rw [ChunkedDataState.receive,heq]; rfl)
    · refine .inr ?_
      rw [ChunkedDataState.receive,length_grown,List.length_append,List.length_singleton]
      omega

theorem Receives.refuse {state : ChunkedDataState} (h : Receives group state) (data : Bytes) :
    Receives (grown group data) state := by
  refine ⟨h.expectedChunks,h.totalSize,.inr ?_⟩
  rw [length_grown]
  rcases h.receivedChunks with heq | hlt
  · rw [heq]
    omega
  · omega

/-- Where a client has all chunks of a group, they are the frames of the group, which is
complete. -/
theorem Receives.all {state : ChunkedDataState} (h : Receives group state)
    (hlength : group.frames.length ≤ group.totalChunks)
    (hall : sizeEquals state.receivedChunks.length state.expectedChunks = true) :
    state.receivedChunks = group.frames ∧ group.frames.length = group.totalChunks := by
  rw [h.expectedChunks,sizeEquals_integer,decide_eq_true_eq] at hall
  rcases h.receivedChunks with heq | hlt
  · exact ⟨heq,by rw [← heq]; exact hall⟩
  · omega

theorem segment_assembleChunks (key : String) (state : ChunkedDataState) :
    (WebSocketClient.assembleChunks key state).segment =
      some (state.receivedChunks.flatten,state.totalSize,state.expectedChunks) := by
  unfold WebSocketClient.assembleChunks
  dsimp only
  split_ifs <;> rfl

theorem Coherent.describe (h : Coherent c d) {message : Json} {n : Nat}
    (hfresh : js.chunkKey message ∉ d.announced) (hn : totalChunks message = some n) :
    Coherent (c.handleChunkInfo js message)
      ({ d with announced := js.chunkKey message::d.announced }.deliver
        ⟨js.chunkKey message,n,[]⟩) := by
  have hnew : ∀ state, (js.chunkKey message,state) ∉ c.chunkedData.entries :=
    fun state hstate => hfresh (h.announced _ hstate)
  have hget : (c.chunkedData.get (js.chunkKey message)).isSome = false := by
    cases hget : c.chunkedData.get (js.chunkKey message) with
    | none => rfl
    | some state =>
      exact absurd ((InsertionMap.mem_entries_iff _ _ _).mpr hget) (hnew state)
  unfold WebSocketClient.handleChunkInfo
  dsimp only
  rw [hget,if_neg Bool.false_ne_true]
  apply coherent_deliver
  · refine InsertionMap.forall_keys_set (P := (· ∈ js.chunkKey message::d.announced)) ?_ ?_ _
    · exact fun entry hentry => List.mem_cons_of_mem _ (h.announced entry hentry)
    · exact List.mem_cons_self
  · exact List.mem_cons_self
  · exact Nat.zero_le n
  · intro state hstate
    rw [InsertionMap.mem_entries_iff,InsertionMap.get_set_self] at hstate
    cases hstate
    exact ⟨orElse_totalChunks hn,rfl,.inl rfl⟩

/-- A description that is refused for its size. -/
theorem Coherent.refuseDescription (h : Coherent c d) {key : String} (n : Nat)
    (hfresh : key ∉ d.announced) :
    Coherent c ({ d with announced := key::d.announced }.deliver ⟨key,n,[]⟩) := by
  apply coherent_deliver
  · exact fun entry hentry => List.mem_cons_of_mem _ (h.announced entry hentry)
  · exact List.mem_cons_self
  · exact Nat.zero_le n
  · exact fun state hstate => absurd (h.announced _ hstate) hfresh

theorem Coherent.refuse (h : Coherent c d) (hcurrent : d.current = some group) (data : Bytes) :
    Coherent c (d.deliver (grown group data)) := by
  obtain ⟨hkey,hlength,hreceives⟩ := h.current group hcurrent
  apply coherent_deliver h.announced
  · exact hkey
  · rw [length_grown]
    exact hlength
  · exact fun state hstate => (hreceives state hstate).refuse data

/-- A frame that finds nothing incomplete but its own group. -/
theorem Coherent.frame (h : Coherent c d) (hcurrent : d.current = some group) (data : Bytes)
    (hown : ∀ entry ∈ c.chunkedData.entries, incomplete js entry = true → group.key = entry.1) :
    Coherent (c.handleChunkData js data).1 (d.deliver (grown group data)) ∧
    ∀ event ∈ (c.handleChunkData js data).2, group.frames.length+1 = group.totalChunks ∧
      event.segment = some ((grown group data).frames.flatten,
        (grown group data).frames.flatten.length,.integer (grown group data).frames.length) := by
  obtain ⟨hkey,hlength,hreceives⟩ := h.current group hcurrent
  obtain hnone | ⟨key,state,hstate,hincomplete,hcase⟩ := c.handleChunkData_cases js data
  · rw [hnone]
    exact ⟨h.refuse hcurrent data,List.forall_mem_nil _⟩
  · have hsame : group.key = key := hown (key,state) hstate hincomplete
    subst hsame
    have hreceived := (hreceives state hstate).receive data
    obtain ⟨hall,hresult⟩ | ⟨hmore,hresult⟩ := hcase
    · obtain ⟨hframes,hlast⟩ := hreceived.all (by rw [length_grown]; exact hlength) hall
      rw [hresult]
      constructor
      · apply (h.refuse hcurrent data).fewer
        exact List.filter_subset_self _
      · intro event hevent
        rw [List.mem_singleton.mp hevent,segment_assembleChunks,hreceived.totalSize,hframes,
          hreceived.expectedChunks,← hlast]
        exact ⟨length_grown group data ▸ hlast,rfl⟩
    · rw [hresult]
      refine ⟨?_,List.forall_mem_nil _⟩
      apply coherent_deliver
      · exact InsertionMap.forall_keys_set h.announced hkey _
      · exact hkey
      · rw [length_grown]
        exact hlength
      · intro state' hstate'
        rw [InsertionMap.mem_entries_iff] at hstate'
        have hself := InsertionMap.get_set_self c.chunkedData group.key (state.receive data)
        rw [grown,hself] at hstate'
        cases hstate'
        exact hreceived

theorem Coherent.text (h : Coherent c d) {length : Nat} {parsed : Option Json}
    (hallowed : d.Allows js (.input (.message (.text length parsed)))) :
    Coherent (c.handleMessage js (.text length parsed)).1
      (d.step js (.input (.message (.text length parsed)))) := by
  obtain hsame | ⟨message,rfl,hchunk,htaken⟩ := c.handleMessage_text js length parsed
  · rw [hsame]
    cases parsed with
    | none => exact h
    | some message =>
      rw [GroupSender.step]
      split_ifs with hchunk
      · exact h.refuseDescription _ (hallowed hchunk).2.1
      · exact h
  · obtain ⟨_,hfresh,hsome⟩ := hallowed hchunk
    obtain ⟨n,hn⟩ := Option.isSome_iff_exists.mp hsome
    have hinfo : isChunkInfo message = true := hchunk
    rw [htaken,GroupSender.step,if_pos hinfo,hn]
    exact h.describe hfresh hn

theorem Coherent.binary (h : Coherent c d) (hcurrent : d.current = some group) {data : Bytes}
    (hown : data.length ≤ c.maxMessageSize →
      ∀ entry ∈ c.chunkedData.entries, incomplete js entry = true → group.key = entry.1) :
    Coherent (c.handleMessage js (.binary data)).1 (d.deliver (grown group data)) ∧
    ∀ event ∈ (c.handleMessage js (.binary data)).2, ∀ segment, event.segment = some segment →
      group.frames.length+1 = group.totalChunks ∧
      segment = ((grown group data).frames.flatten,
        (grown group data).frames.flatten.length,.integer (grown group data).frames.length) := by
  unfold WebSocketClient.handleMessage
  dsimp only
  split_ifs with hsize
  · refine ⟨h.refuse hcurrent data,?_⟩
    intro event hevent segment hsegment
    rw [List.mem_singleton.mp hevent] at hsegment
    cases hsegment
  · obtain ⟨hcoherent,hwhole⟩ := h.frame hcurrent data (hown (Nat.le_of_not_lt hsize))
    refine ⟨hcoherent,?_⟩
    intro event hevent segment hsegment
    rcases List.mem_cons.mp hevent with rfl | hevent
    · cases hsegment
    · obtain ⟨hlast,hsome⟩ := hwhole event hevent
      exact ⟨hlast,Option.some.inj (hsegment.symm.trans hsome)⟩

/-- What a frame finds, of the group to which it belongs. -/
theorem own_of_ownFrames {data : Bytes} (hcurrent : s.server.current = some group)
    (hown : s.OwnFrames js (.input (.message (.binary data))))
    (hsize : data.length ≤ s.client.maxMessageSize) (entry : String × ChunkedDataState)
    (hentry : entry ∈ s.client.chunkedData.entries) (hincomplete : incomplete js entry = true) :
    group.key = entry.1 := by
  have hkey := hown hsize entry hentry hincomplete
  rw [hcurrent] at hkey
  exact Option.some.inj hkey

theorem step_server_binary {data : Bytes} (hcurrent : s.server.current = some group) :
    (s.step js (.input (.message (.binary data)))).server =
      s.server.deliver (grown group data) := by
  rw [step,GroupSender.step,hcurrent]
  rfl

theorem Coherent.step (h : Coherent s.client s.server) {e : ReceiverEvent}
    (hallowed : s.server.Allows js e) (hown : s.OwnFrames js e) :
    Coherent (s.step js e).client (s.step js e).server := by
  cases e with
  | input input =>
    cases input with
    | message data =>
      cases data with
      | text length parsed => exact h.text hallowed
      | binary data =>
        obtain ⟨group,hcurrent⟩ := Option.isSome_iff_exists.mp hallowed
        rw [step_server_binary hcurrent]
        exact (h.binary hcurrent (own_of_ownFrames hcurrent hown)).1
    | timeout key => exact h.fewer (s.client.handleChunkTimeout_subset key)
    | disconnected => exact h.closed.fewer (List.Subset.refl _)
    | resetChunks => exact h.fewer (List.nil_subset _)
  | lateClose => exact h.fewer (List.Subset.refl _)
  | setMaxMessageSize size => exact h.fewer (List.Subset.refl _)

theorem Coherent.wholeSegments (h : Coherent s.client s.server) {e : ReceiverEvent}
    (hallowed : s.server.Allows js e) (hown : s.OwnFrames js e) : s.WholeSegments js e := by
  intro event hevent data totalSize chunkCount hsegment
  cases e with
  | input input =>
    obtain ⟨frame,key,state,rfl,_⟩ | ⟨hnone,_⟩ :=
      (WebSocketClient.dispatched_of_mem hevent).assembled_or
    · obtain ⟨group,hcurrent⟩ := Option.isSome_iff_exists.mp hallowed
      obtain ⟨hcoherent,hwhole⟩ := h.binary hcurrent (own_of_ownFrames hcurrent hown)
      obtain ⟨hlast,heq⟩ := hwhole event hevent _ hsegment
      cases heq
      rw [step_server_binary hcurrent]
      refine ⟨(grown group frame).frames,mem_complete_deliver ?_,rfl,rfl,rfl⟩
      rw [length_grown]
      exact hlast
    · rw [hnone] at hsegment
      cases hsegment
  | lateClose => exact absurd hevent List.not_mem_nil
  | setMaxMessageSize size => exact absurd hevent List.not_mem_nil

end Invariant

/-- In runs where each frame finds its own group only, every segment is a whole group. -/
theorem segments_whole (js : Script) (maxMessageSize : Nat) (es : List ReceiverEvent)
    (hdelivered : Along (step js) (fun s e => s.server.Allows js e) (start maxMessageSize) es)
    (hown : Along (step js) (OwnFrames js) (start maxMessageSize) es) :
    Along (step js) (WholeSegments js) (start maxMessageSize) es := by
  apply (hdelivered.and hown).imp (fun s => Coherent s.client s.server)
  · exact coherent_start maxMessageSize
  · exact fun s e h hok => h.step hok.1 hok.2
  · exact fun s e h hok => h.wholeSegments hok.1 hok.2

def plainScript : Script := ⟨fun n => toString n.num,fun _ => none⟩

def description (kind : String) (sequence n : Nat) : ReceiverEvent :=
  .input (.message (.text 100 (some (.object [("type",.string "chunk_info"),
    ("chunk_type",.string kind),("sequence",.integer sequence),("total_chunks",.integer n)]))))

def frame (data : Bytes) : ReceiverEvent := .input (.message (.binary data))

/-- A connection that closes between two groups. -/
def closedBetween : List ReceiverEvent :=
  [description "init" 1 2,frame [1],frame [2],.input .disconnected,description "video" 2 1,
    frame [3]]

theorem segments_whole_closedBetween :
    Along (step plainScript) (WholeSegments plainScript) (start 1000) closedBetween := by
  apply segments_whole plainScript 1000 closedBetween
  · decide
  · refine ⟨trivial,?_,?_,trivial,trivial,?_,trivial⟩
    · intro _ entry hentry _
      rw [List.mem_singleton.mp hentry]
      rfl
    · intro _ entry hentry _
      rw [List.mem_singleton.mp hentry]
      rfl
    · intro _ entry hentry _
      rw [List.mem_singleton.mp hentry]
      rfl

/-- A connection that closes within a group. -/
def closedWithin : List ReceiverEvent :=
  [description "video" 1 2,frame [1],.input .disconnected,description "video" 2 1,frame [2]]

/-- The frame of the second connection fills the group of the first. -/
theorem closedWithin_segment_mixed :
    Along (step plainScript) (fun s e => s.server.Allows plainScript e) (start 1000) closedWithin ∧
    (closedWithin.foldl (step plainScript) (start 1000)).server.complete = [[[2]]] ∧
    ((closedWithin.dropLast.foldl (step plainScript) (start 1000)).events plainScript
      (frame [2])).filterMap ClientEvent.segment = [([1,2],2,.integer 2)] ∧
    ¬ Along (step plainScript) (WholeSegments plainScript) (start 1000) closedWithin := by
  have hevents : ((closedWithin.dropLast.foldl (step plainScript) (start 1000)).events plainScript
      (frame [2])).filterMap ClientEvent.segment = [([1,2],2,.integer 2)] := rfl
  refine ⟨by decide,rfl,hevents,?_⟩
  rintro ⟨-,-,-,-,hlast,-⟩
  have hmem : ([1,2],2,.integer 2) ∈ ((closedWithin.dropLast.foldl (step plainScript)
      (start 1000)).events plainScript (frame [2])).filterMap ClientEvent.segment := by
    rw [hevents]
    exact List.mem_singleton_self _
  obtain ⟨event,hevent,hsegment⟩ := List.mem_filterMap.mp hmem
  obtain ⟨frames,hframes,hdata,-⟩ := hlast event hevent _ _ _ hsegment
  have hsecond : frames = [[2]] := List.mem_singleton.mp hframes
  rw [hsecond] at hdata
  cases hdata

end Reception

end OpenBroadcast.Browser
