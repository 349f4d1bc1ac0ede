import OpenBroadcast.Framework.InsertionOrder
import OpenBroadcast.Framework.Json
import OpenBroadcast.Media.Segment

namespace OpenBroadcast.Browser

open Media

/-- How scripts write numbers, and the number that they take another value for, if any. -/
structure Script where
  numberText : ℚ → String
  toNumber : Json → Option ℚ

namespace Script

variable (js : Script)

/-- `size < value`. -/
def below (size : Nat) (value : Json) : Bool :=
  match value.asNumber with
  | some n => (size : ℚ) < n
  | none => (js.toNumber value).any (fun n : ℚ => (size : ℚ) < n)

/-- Chunks go by the type and the sequence of their description. -/
def chunkKey (chunkInfo : Json) : String :=
  Json.template js.numberText (chunkInfo.member "chunk_type")++"_"++
    Json.template js.numberText (chunkInfo.member "sequence")

end Script

/-- `key.split('_')`, of which only the first part is used. -/
def chunkType (key : String) : String := .ofList (key.toList.takeWhile (fun c => c ≠ '_'))

theorem chunkType_append {kind rest : String} (h : '_' ∉ kind.toList) :
    chunkType (kind++"_"++rest) = kind := by
  have hkind : ∀ c ∈ kind.toList, decide (c ≠ '_') = true := by
    intro c hc
    simpa using fun heq : c = '_' => h (heq ▸ hc)
  unfold chunkType
  rw [String.toList_append,String.toList_append,List.append_assoc,
    List.takeWhile_append_of_pos hkind]
  simp

/-- `size === value`. -/
def sizeEquals (size : Nat) (value : Json) : Bool :=
  match value.asNumber with
  | some n => (size : ℚ) = n
  | none => false

structure ChunkedDataState where
  expectedChunks : Json
  receivedChunks : List Bytes
  totalSize : Nat

def ChunkedDataState.receive (state : ChunkedDataState) (data : Bytes) : ChunkedDataState where
  expectedChunks := state.expectedChunks
  receivedChunks := state.receivedChunks++[data]
  totalSize := state.totalSize+data.length

/-- What the socket hands to the script: a text, with its length and what it parses to, or an
`ArrayBuffer`. -/
inductive SocketData where
  | text (length : Nat) (parsed : Option Json)
  | binary (data : Bytes)

/-- The events that a client dispatches for what it receives. -/
inductive ClientEvent where
  | messageError (error : String) (size maxSize : Nat)
  | parseError
  | streamInfo (detail : Json)
  | chunkInfo (detail : Json)
  | error (detail : Json)
  | message (detail : Json)
  | binaryChunk (sequence : Nat) (isInit : Bool) (data : Bytes)
  | initSegment (data : Bytes) (totalSize : Nat) (chunkCount : Json)
  | mediaSegment (data : Bytes) (totalSize : Nat) (chunkCount : Json)
  | chunkTimeout (chunkType : Option Json) (sequence : Json)

/-- The data of an `init_segment` event. -/
def ClientEvent.initData : ClientEvent → Option Bytes
  | .initSegment data _ _ => some data
  | _ => none

/-- The data of a segment, its size and its number of chunks. -/
def ClientEvent.segment : ClientEvent → Option (Bytes × Nat × Json)
  | .initSegment data totalSize chunkCount => some (data,totalSize,chunkCount)
  | .mediaSegment data totalSize chunkCount => some (data,totalSize,chunkCount)
  | _ => none

/-- The data of a frame that is no part of an init segment. -/
def ClientEvent.mediaData : ClientEvent → Option Bytes
  | .binaryChunk _ false data => some data
  | _ => none

/-- The receiving part of a `WebSocketClient`. A timer that runs is mapped to the description for
which it was set. -/
structure WebSocketClient where
  chunkedData : InsertionMap String ChunkedDataState
  chunkTimeouts : InsertionMap String Json
  maxMessageSize : Nat

/-- What a client is called with. -/
inductive ClientInput where
  | message (data : SocketData)
  | timeout (key : String)
  | disconnected
  | resetChunks

namespace WebSocketClient

def new (maxMessageSize : Nat) : WebSocketClient := ⟨.empty,.empty,maxMessageSize⟩

/-- Both are stubs. -/
def getCurrentChunkSequence (_ : WebSocketClient) : Nat := 1

def isCurrentChunkInit (_ : WebSocketClient) : Bool := true

def handleChunkInfo (js : Script) (c : WebSocketClient) (chunkInfo : Json) : WebSocketClient :=
  let key := js.chunkKey chunkInfo
  if (c.chunkedData.get key).isSome then c
  else
    { c with
      chunkedData := c.chunkedData.set key
        ⟨Json.orElse (.integer 1) (chunkInfo.member "total_chunks"),[],0⟩
      chunkTimeouts := c.chunkTimeouts.set key chunkInfo }

/-- The chunks one after the other fill the buffer, as it has the size of all of them. -/
def assembleChunks (key : String) (state : ChunkedDataState) : ClientEvent :=
  let combined := state.receivedChunks.flatten
  if chunkType key = "init" then .initSegment combined state.totalSize state.expectedChunks
  else .mediaSegment combined state.totalSize state.expectedChunks

/-- Data goes to the first description that is not complete. -/
def handleChunkData (js : Script) (c : WebSocketClient) (data : Bytes) :
    WebSocketClient × List ClientEvent :=
  match c.chunkedData.entries.find?
      (fun e => js.below e.2.receivedChunks.length e.2.expectedChunks) with
  | none => (c,[])
  | some (key,state) =>
    let state := state.receive data
    if sizeEquals state.receivedChunks.length state.expectedChunks then
      ({ c with
        chunkedData := c.chunkedData.delete key
        chunkTimeouts := c.chunkTimeouts.delete key },[assembleChunks key state])
    else ({ c with chunkedData := c.chunkedData.set key state },[])

def handleBinaryMessage (js : Script) (c : WebSocketClient) (data : Bytes) :
    WebSocketClient × List ClientEvent :=
  let chunk := .binaryChunk c.getCurrentChunkSequence c.isCurrentChunkInit data
  let (c,events) := c.handleChunkData js data
  (c,chunk::events)

/-- A `null` has no type to look at. -/
def handleJSONMessage (js : Script) (c : WebSocketClient) :
    Option Json → WebSocketClient × List ClientEvent
  | none | some .null => (c,[.parseError])
  | some message =>
    let type := message.member "type"
    if Json.hasText type "stream_info" then (c,[.streamInfo message])
    else if Json.hasText type "chunk_info" then (c.handleChunkInfo js message,[.chunkInfo message])
    else if Json.hasText type "error" then (c,[.error message])
    else (c,[.message message])

def handleMessage (js : Script) (c : WebSocketClient) :
    SocketData → WebSocketClient × List ClientEvent
  | .text length parsed =>
    if c.maxMessageSize < length then
      (c,[.messageError ("Message too large: "++toString length++" bytes") length
        c.maxMessageSize])
    else c.handleJSONMessage js parsed
  | .binary data =>
    if c.maxMessageSize < data.length then
      (c,[.messageError ("Binary message too large: "++toString data.length++" bytes") data.length
        c.maxMessageSize])
    else c.handleBinaryMessage js data

/-- Only a timer that runs can come to its end. -/
def handleChunkTimeout (c : WebSocketClient) (key : String) :
    WebSocketClient × List ClientEvent :=
  match c.chunkTimeouts.get key with
  | none => (c,[])
  | some chunkInfo =>
    if (c.chunkedData.get key).isSome then
      ({ c with
        chunkedData := c.chunkedData.delete key
        chunkTimeouts := c.chunkTimeouts.delete key },
        [.chunkTimeout (chunkInfo.member "chunk_type")
          (Json.orElse (.integer 0) (chunkInfo.member "sequence"))])
    else ({ c with chunkTimeouts := c.chunkTimeouts.delete key },[])

/-- The data of a connection outlives it, its timers do not. -/
def handleDisconnection (c : WebSocketClient) : WebSocketClient :=
  { c with chunkTimeouts := .empty }

def resetChunks (c : WebSocketClient) : WebSocketClient :=
  { c with chunkedData := .empty, chunkTimeouts := .empty }

def step (js : Script) (c : WebSocketClient) :
    ClientInput → WebSocketClient × List ClientEvent
  | .message data => c.handleMessage js data
  | .timeout key => c.handleChunkTimeout key
  | .disconnected => (c.handleDisconnection,[])
  | .resetChunks => (c.resetChunks,[])

section Calls

/-- Data is for the first description that is not complete, if there is any, and completes it or
does not. -/
theorem handleChunkData_cases (js : Script) (c : WebSocketClient) (data : Bytes) :
    c.handleChunkData js data = (c,[]) ∨
    ∃ key state, (key,state) ∈ c.chunkedData.entries ∧
      js.below state.receivedChunks.length state.expectedChunks = true ∧
      ((sizeEquals (state.receive data).receivedChunks.length state.expectedChunks = true ∧
        c.handleChunkData js data = ({ c with
          chunkedData := c.chunkedData.delete key
          chunkTimeouts := c.chunkTimeouts.delete key },
          [assembleChunks key (state.receive data)])) ∨
      (sizeEquals (state.receive data).receivedChunks.length state.expectedChunks = false ∧
        c.handleChunkData js data =
          ({ c with chunkedData := c.chunkedData.set key (state.receive data) },[]))) := by
  unfold handleChunkData
  cases hfind : c.chunkedData.entries.find?
      (fun e => js.below e.2.receivedChunks.length e.2.expectedChunks) with
  | none => exact .inl rfl
  | some entry =>
    obtain ⟨key,state⟩ := entry
    have hbelow := List.find?_some hfind
    refine .inr ⟨key,state,List.mem_of_find?_eq_some hfind,hbelow,?_⟩
    cases hall : sizeEquals (state.receive data).receivedChunks.length state.expectedChunks with
    | true => exact .inl ⟨rfl,if_pos hall⟩
    | false => exact .inr ⟨rfl,if_neg (ne_true_of_eq_false hall)⟩

/-- A text leaves the client as it is, unless it is a description of chunks that is taken. -/
theorem handleMessage_text (js : Script) (c : WebSocketClient) (length : Nat)
    (parsed : Option Json) :
    (c.handleMessage js (.text length parsed)).1 = c ∨
    ∃ message, parsed = some message ∧
      Json.hasText (message.member "type") "chunk_info" = true ∧
      (c.handleMessage js (.text length parsed)).1 = c.handleChunkInfo js message := by
  unfold handleMessage
  dsimp only
  split_ifs
  · exact .inl rfl
  · unfold handleJSONMessage
    split
    · exact .inl rfl
    · exact .inl rfl
    · next message hnull =>
      dsimp only
      split_ifs with hinfo hchunk herror
      · exact .inl rfl
      · exact .inr ⟨message,rfl,hchunk,rfl⟩
      · exact .inl rfl
      · exact .inl rfl

theorem handleChunkTimeout_subset (c : WebSocketClient) (key : String) :
    (c.handleChunkTimeout key).1.chunkedData.entries ⊆ c.chunkedData.entries := by
  unfold handleChunkTimeout
  cases c.chunkTimeouts.get key with
  | none => exact List.Subset.refl _
  | some chunkInfo =>
    dsimp only
    split_ifs
    · exact List.filter_subset_self _
    · exact List.Subset.refl _

end Calls

section Keys

variable {js : Script} {c : WebSocketClient} {P : String → Prop}

/-- All data that is waited for goes by keys of a kind. -/
def AllKeys (c : WebSocketClient) (P : String → Prop) : Prop :=
  ∀ e ∈ c.chunkedData.entries, P e.1

theorem allKeys_new (maxMessageSize : Nat) : (new maxMessageSize).AllKeys P := by
  intro e he
  simp [new,InsertionMap.empty] at he

theorem AllKeys.handleChunkInfo (h : c.AllKeys P) {chunkInfo : Json}
    (hkey : P (js.chunkKey chunkInfo)) : (c.handleChunkInfo js chunkInfo).AllKeys P := by
  unfold WebSocketClient.handleChunkInfo
  dsimp only
  split_ifs
  · exact h
  · exact InsertionMap.forall_keys_set h hkey _

theorem AllKeys.handleChunkData (h : c.AllKeys P) (data : Bytes) :
    (c.handleChunkData js data).1.AllKeys P := by
  obtain hnone | ⟨key,state,hmem,_,hcase⟩ := handleChunkData_cases js c data
  · rw [hnone]
    exact h
  · obtain ⟨_,hlast⟩ | ⟨_,hmore⟩ := hcase
    · rw [hlast]
      exact InsertionMap.forall_keys_delete h key
    · rw [hmore]
      exact InsertionMap.forall_keys_set h (h (key,state) hmem) _

theorem AllKeys.handleChunkTimeout (h : c.AllKeys P) (key : String) :
    (c.handleChunkTimeout key).1.AllKeys P :=
  fun e he => h e (handleChunkTimeout_subset c key he)

/-- The texts that announce chunks do so by keys of a kind. -/
def Announces (js : Script) (P : String → Prop) : ClientInput → Prop
  | .message (.text _ (some message)) =>
    Json.hasText (message.member "type") "chunk_info" = true → P (js.chunkKey message)
  | _ => True

theorem AllKeys.handleMessage (h : c.AllKeys P) {data : SocketData}
    (hkey : Announces js P (.message data)) : (c.handleMessage js data).1.AllKeys P := by
  cases data with
  | text length parsed =>
    obtain hsame | ⟨message,rfl,hchunk,htaken⟩ := handleMessage_text js c length parsed
    · rw [hsame]
      exact h
    · rw [htaken]
      exact h.handleChunkInfo (hkey hchunk)
  | binary data =>
    unfold WebSocketClient.handleMessage
    dsimp only
    split_ifs
    · exact h
    · exact h.handleChunkData data

theorem AllKeys.step (h : c.AllKeys P) {input : ClientInput} (hkey : Announces js P input) :
    (c.step js input).1.AllKeys P := by
  cases input with
  | message data => exact h.handleMessage hkey
  | timeout key => exact h.handleChunkTimeout key
  | disconnected => exact h
  | resetChunks =>
    intro e he
    simp [WebSocketClient.step,resetChunks,InsertionMap.empty] at he

end Keys

section Events

variable {js : Script} {c : WebSocketClient} {e : ClientEvent}

/-- The events that an input may lead to. -/
inductive Dispatched (c : WebSocketClient) : ClientInput → ClientEvent → Prop where
  | tooLarge (data : SocketData) (error : String) (size : Nat) :
    Dispatched c (.message data) (.messageError error size c.maxMessageSize)
  | parseError (length : Nat) (parsed : Option Json) :
    Dispatched c (.message (.text length parsed)) .parseError
  | streamInfo (length : Nat) (m : Json) :
    Dispatched c (.message (.text length (some m))) (.streamInfo m)
  | chunkInfo (length : Nat) (m : Json) :
    Dispatched c (.message (.text length (some m))) (.chunkInfo m)
  | error (length : Nat) (m : Json) : Dispatched c (.message (.text length (some m))) (.error m)
  | message (length : Nat) (m : Json) : Dispatched c (.message (.text length (some m))) (.message m)
  | binaryChunk (data : Bytes) : Dispatched c (.message (.binary data)) (.binaryChunk 1 true data)
  | assembled (data : Bytes) (key : String) (state : ChunkedDataState)
      (hmem : (key,state) ∈ c.chunkedData.entries) :
    Dispatched c (.message (.binary data)) (assembleChunks key (state.receive data))
  | timeout (key : String) (chunkType : Option Json) (sequence : Json) :
    Dispatched c (.timeout key) (.chunkTimeout chunkType sequence)

theorem dispatched_handleJSONMessage {length : Nat} {parsed : Option Json}
    (he : e ∈ (c.handleJSONMessage js parsed).2) :
    Dispatched c (.message (.text length parsed)) e := by
  unfold handleJSONMessage at he
  split at he
  · rw [List.mem_singleton.mp he]
    exact .parseError length _
  · rw [List.mem_singleton.mp he]
    exact .parseError length _
  · dsimp only at he
    split_ifs at he
    · rw [List.mem_singleton.mp he]
      exact .streamInfo length _
    · rw [List.mem_singleton.mp he]
      exact .chunkInfo length _
    · rw [List.mem_singleton.mp he]
      exact .error length _
    · rw [List.mem_singleton.mp he]
      exact .message length _

theorem dispatched_handleChunkData {data : Bytes} (he : e ∈ (c.handleChunkData js data).2) :
    Dispatched c (.message (.binary data)) e := by
  obtain hnone | ⟨key,state,hmem,_,hcase⟩ := handleChunkData_cases js c data
  · rw [hnone] at he
    cases he
  · obtain ⟨_,hlast⟩ | ⟨_,hmore⟩ := hcase
    · rw [hlast] at he
      rw [List.mem_singleton.mp he]
      exact .assembled data key state hmem
    · rw [hmore] at he
      cases he

theorem dispatched_handleMessage {data : SocketData} (he : e ∈ (c.handleMessage js data).2) :
    Dispatched c (.message data) e := by
  unfold handleMessage at he
  cases data with
  | text length parsed =>
    dsimp only at he
    split_ifs at he
    · rw [List.mem_singleton.mp he]
      exact .tooLarge _ _ _
    · exact dispatched_handleJSONMessage he
  | binary data =>
    dsimp only at he
    split_ifs at he
    · rw [List.mem_singleton.mp he]
      exact .tooLarge _ _ _
    · rcases List.mem_cons.mp he with rfl | he
      · exact .binaryChunk data
      · exact dispatched_handleChunkData he

theorem dispatched_of_mem {input : ClientInput} (he : e ∈ (c.step js input).2) :
    Dispatched c input e := by
  cases input with
  | message data => exact dispatched_handleMessage he
  | timeout key =>
    simp only [step,handleChunkTimeout] at he
    split at he
    · simp at he
    · split_ifs at he
      · rw [List.mem_singleton.mp he]
        exact .timeout key _ _
      · simp at he
  | disconnected => simp [step] at he
  | resetChunks => simp [step] at he

theorem assembleChunks_mediaData (key : String) (state : ChunkedDataState) :
    (assembleChunks key state).mediaData = none := by
  unfold assembleChunks
  dsimp only
  split_ifs <;> rfl

/-- What is dispatched has been assembled, or it is no segment. -/
theorem Dispatched.assembled_or {input : ClientInput} (h : Dispatched c input e) :
    (∃ data key state, input = .message (.binary data) ∧ (key,state) ∈ c.chunkedData.entries ∧
      e = assembleChunks key (state.receive data)) ∨
    e.segment = none ∧ e.mediaData = none := by
  cases h with
  | assembled data key state hmem => exact .inl ⟨data,key,state,rfl,hmem,rfl⟩
  | tooLarge _ _ _ => exact .inr ⟨rfl,rfl⟩
  | parseError _ _ => exact .inr ⟨rfl,rfl⟩
  | streamInfo _ _ => exact .inr ⟨rfl,rfl⟩
  | chunkInfo _ _ => exact .inr ⟨rfl,rfl⟩
  | error _ _ => exact .inr ⟨rfl,rfl⟩
  | message _ _ => exact .inr ⟨rfl,rfl⟩
  | binaryChunk _ => exact .inr ⟨rfl,rfl⟩
  | timeout _ _ _ => exact .inr ⟨rfl,rfl⟩

theorem initData_of_segment (h : e.segment = none) : e.initData = none := by
  cases e with
  | initSegment data totalSize chunkCount => cases h
  | _ => rfl

/-- Every frame that is not a text is taken for a part of an init segment. -/
theorem Dispatched.mediaData {input : ClientInput} (h : Dispatched c input e) :
    e.mediaData = none := by
  obtain ⟨data,key,state,_,_,rfl⟩ | ⟨_,hmedia⟩ := h.assembled_or
  · exact assembleChunks_mediaData key _
  · exact hmedia

/-- Where no key is one of an init segment, none is handed over. -/
theorem Dispatched.initData (hkeys : c.AllKeys (fun key => chunkType key ≠ "init"))
    {input : ClientInput} (h : Dispatched c input e) : e.initData = none := by
  obtain ⟨data,key,state,_,hmem,rfl⟩ | ⟨hsegment,_⟩ := h.assembled_or
  · unfold assembleChunks
    rw [if_neg (hkeys _ hmem)]
    rfl
  · exact initData_of_segment hsegment

theorem assembleChunks_ne_streamInfo (key : String) (state : ChunkedDataState) (detail : Json) :
    assembleChunks key state ≠ .streamInfo detail := by
  unfold assembleChunks
  dsimp only
  split_ifs <;> exact ClientEvent.noConfusion

theorem Dispatched.of_streamInfo {input : ClientInput} {detail : Json}
    (h : Dispatched c input (.streamInfo detail)) :
    ∃ length, input = .message (.text length (some detail)) := by
  generalize hevent : ClientEvent.streamInfo detail = event at h
  cases h with
  | streamInfo length m =>
    cases hevent
    exact ⟨length,rfl⟩
  | assembled data key state hmem => exact absurd hevent.symm (assembleChunks_ne_streamInfo _ _ _)
  | tooLarge _ _ _ => cases hevent
  | parseError _ _ => cases hevent
  | chunkInfo _ _ => cases hevent
  | error _ _ => cases hevent
  | message _ _ => cases hevent
  | binaryChunk _ => cases hevent
  | timeout _ _ _ => cases hevent

end Events

end WebSocketClient

end OpenBroadcast.Browser
