import OpenBroadcast.Browser.StreamManager
import OpenBroadcast.Delivery.StreamMessages
import OpenBroadcast.Framework.Run

namespace OpenBroadcast.Browser

open Delivery

/-- What a node and a page take from their platforms. Texts have a length. -/
structure Platform where
  engine : Engine
  reader : JsonReader
  textLength : Json → Nat

/-- What the page gets of a frame. The browser answers a ping by itself. -/
def Platform.socketData (p : Platform) : Message → Option SocketData
  | .text m => some (.text (p.textLength m.toJson) (some m.toJson))
  | .binary data => some (.binary data)
  | .ping => none

inductive HandlerStage where
  | opening
  | loop
  | finished
  deriving DecidableEq, Repr

/-- A run of `handle_websocket` and the page at the other end, which gets the frames in the order
in which they are sent. The handler has an outbox, as it sends one frame after the other before it
goes on. Recorded besides: the frames that have been sent, and those that have arrived. -/
structure Connection where
  stage : HandlerStage
  outbox : List Outgoing
  wire : List Outgoing
  page : StreamManager
  sent : List Outgoing
  delivered : List Outgoing

inductive ConnectionEvent where
  | opens (r : Readings)
  | takes (e : LoopEvent)
  | sends
  | sendFails
  | delivers
  | timeout (key : String)
  | updateEnd

namespace Connection

def new (maxMessageSize : Nat) : Connection :=
  ⟨.opening,[],[],.new maxMessageSize,[],[]⟩

/-- The page takes the next frame from the wire. -/
def deliver (p : Platform) (c : Connection) : Connection :=
  match c.wire with
  | [] => c
  | frame::rest =>
    let page := match p.socketData frame.message with
      | some data => c.page.step p.engine (.client (.message data))
      | none => c.page
    { c with wire := rest, page := page, delivered := c.delivered++[frame] }

def step (p : Platform) (c : Connection) : ConnectionEvent → Connection
  | .opens r =>
    if c.stage = .opening then { c with stage := .loop, outbox := r.opening } else c
  | .takes e =>
    if c.stage = .loop ∧ c.outbox.isEmpty then
      { c with
        stage := if e.ends then .finished else .loop
        outbox := p.reader.loopMessages e }
    else c
  | .sends =>
    match c.outbox with
    | [] => c
    | frame::rest => { c with outbox := rest, wire := c.wire++[frame], sent := c.sent++[frame] }
  | .sendFails => if c.outbox.isEmpty then c else { c with stage := .finished, outbox := [] }
  | .delivers => c.deliver p
  | .timeout key => { c with page := c.page.step p.engine (.client (.timeout key)) }
  | .updateEnd => { c with page := c.page.step p.engine .updateEnd }

def run (p : Platform) (maxMessageSize : Nat) (es : List ConnectionEvent) : Connection :=
  es.foldl (step p) (new maxMessageSize)

/-- Every init segment that was sent has led to one `init_segment` event with its bytes, or is on
its way, and every video segment has been appended once, or is on its way; all in order. -/
structure Agrees (c : Connection) : Prop where
  inits : c.page.initSegments++initsOf c.wire = initsOf c.sent
  videos : c.page.mediaAppended++videosOf c.wire = videosOf c.sent

/-- The frame that arrives with an event. -/
def arriving (c : Connection) : ConnectionEvent → List Outgoing
  | .delivers => c.wire.head?.toList
  | .opens _ | .takes _ | .sends | .sendFails | .timeout _ | .updateEnd => []

/-- An init segment or a video segment is complete with what arrives. -/
def DeliversSegment (c : Connection) (e : ConnectionEvent) : Prop :=
  ∃ frame ∈ c.arriving e, frame.completes ≠ none

section Delivery

variable {p : Platform} {c : Connection}

/-- What a step does: the server may put frames on the wire, the page takes the first of them, or
something happens on the page alone. -/
theorem step_cases (p : Platform) (c : Connection) (e : ConnectionEvent) :
    (∃ frames, (c.step p e).wire = c.wire++frames ∧ (c.step p e).sent = c.sent++frames ∧
      (c.step p e).delivered = c.delivered ∧ c.arriving e = [] ∧ (c.step p e).page = c.page) ∨
    (∃ frame rest, c.wire = frame::rest ∧ (c.step p e).wire = rest ∧
      (c.step p e).sent = c.sent ∧ (c.step p e).delivered = c.delivered++[frame] ∧
      c.arriving e = [frame] ∧ (c.step p e).page = match p.socketData frame.message with
        | some data => c.page.step p.engine (.client (.message data))
        | none => c.page) ∨
    ((c.step p e).wire = c.wire ∧ (c.step p e).sent = c.sent ∧
      (c.step p e).delivered = c.delivered ∧ c.arriving e = [] ∧
      ((∃ key, (c.step p e).page = c.page.step p.engine (.client (.timeout key))) ∨
        (c.step p e).page = c.page.step p.engine .updateEnd)) := by
  have hsame : c.wire = c.wire++[] ∧ c.sent = c.sent++[] :=
    ⟨(List.append_nil _).symm,(List.append_nil _).symm⟩
  cases e with
  | opens r =>
    refine .inl ⟨[],?_⟩
    simp only [step]
    split_ifs <;> exact ⟨hsame.1,hsame.2,rfl,rfl,rfl⟩
  | takes e =>
    refine .inl ⟨[],?_⟩
    simp only [step]
    split_ifs <;> exact ⟨hsame.1,hsame.2,rfl,rfl,rfl⟩
  | sends =>
    simp only [step]
    cases c.outbox with
    | nil => exact .inl ⟨[],hsame.1,hsame.2,rfl,rfl,rfl⟩
    | cons frame rest => exact .inl ⟨[frame],rfl,rfl,rfl,rfl,rfl⟩
  | sendFails =>
    refine .inl ⟨[],?_⟩
    simp only [step]
    split_ifs <;> exact ⟨hsame.1,hsame.2,rfl,rfl,rfl⟩
  | delivers =>
    simp only [step,deliver,arriving]
    cases hwire : c.wire with
    | nil => exact .inl ⟨[],by simp [hwire],hsame.2,rfl,rfl,rfl⟩
    | cons frame rest => exact .inr (.inl ⟨frame,rest,rfl,rfl,rfl,rfl,rfl,rfl⟩)
  | timeout key => exact .inr (.inr ⟨rfl,rfl,rfl,rfl,.inl ⟨key,rfl⟩⟩)
  | updateEnd => exact .inr (.inr ⟨rfl,rfl,rfl,rfl,.inr rfl⟩)

/-- Nothing is lost, doubled or overtaken on the wire. -/
theorem step_sent (h : c.sent = c.delivered++c.wire) (e : ConnectionEvent) :
    (c.step p e).sent = (c.step p e).delivered++(c.step p e).wire := by
  obtain ⟨frames,hwire,hsent,hdelivered,_⟩ | ⟨frame,rest,hfirst,hwire,hsent,hdelivered,_⟩ |
    ⟨hwire,hsent,hdelivered,_⟩ := c.step_cases p e
  · rw [hwire,hsent,hdelivered,h,List.append_assoc]
  · rw [hwire,hsent,hdelivered,h,hfirst,List.append_assoc]
    rfl
  · rw [hwire,hsent,hdelivered]
    exact h

/-- No text of the server announces an init segment where the client looks. -/
theorem announces_socketData {data : SocketData} {m : Message} (h : p.socketData m = some data) :
    WebSocketClient.Announces p.engine.toScript (fun key => chunkType key ≠ "init")
      (.message data) := by
  cases m with
  | text m =>
    cases h
    intro _
    have htype : m.toJson.member "chunk_type" = none :=
      m.member_eq_none (by decide) (by decide) (by decide)
    have hkey : chunkType (p.engine.toScript.chunkKey m.toJson) = "undefined" := by
      unfold Script.chunkKey
      rw [htype,Json.template_none]
      exact chunkType_append (by decide)
    simp [hkey]
  | binary data =>
    cases h
    trivial
  | ping => cases h

theorem video_socketData {m : Message} {length : Nat} {parsed : Json}
    (h : p.socketData m = some (.text length (some parsed))) : parsed.member "video" = none := by
  cases m with
  | text m =>
    cases h
    exact m.member_eq_none (by decide) (by decide) (by decide)
  | binary data => cases h
  | ping => cases h

/-- The page stays as it is whatever the server sends. -/
theorem step_deaf (h : c.page.Deaf) (e : ConnectionEvent) : (c.step p e).page.Deaf := by
  obtain ⟨_,_,_,_,_,hpage⟩ | ⟨frame,_,_,_,_,_,_,hpage⟩ | ⟨_,_,_,_,⟨key,hpage⟩ | hpage⟩ :=
    c.step_cases p e
  · rw [hpage]
    exact h
  · rw [hpage]
    cases hdata : p.socketData frame.message with
    | none => exact h
    | some data =>
      refine h.client (announces_socketData hdata) ?_
      rintro length m heq
      cases heq
      exact video_socketData hdata
  · rw [hpage]
    have hkey : WebSocketClient.Announces p.engine.toScript (fun key => chunkType key ≠ "init")
        (.timeout key) := trivial
    refine h.client hkey ?_
    rintro length m heq
    cases heq
  · rw [hpage]
    exact h.updateEnd

/-- Nothing that has arrived completes a segment. -/
def NothingComplete (c : Connection) : Prop := ∀ frame ∈ c.delivered, frame.completes = none

theorem step_delivered (c : Connection) (e : ConnectionEvent) :
    (c.step p e).delivered = c.delivered++c.arriving e := by
  obtain ⟨_,_,_,hdelivered,hnone,_⟩ | ⟨_,_,_,_,_,hdelivered,hone,_⟩ | ⟨_,_,hdelivered,hnone,_⟩ :=
    c.step_cases p e
  · rw [hdelivered,hnone,List.append_nil]
  · rw [hdelivered,hone]
  · rw [hdelivered,hnone,List.append_nil]

theorem nothingComplete_step (h : c.NothingComplete) (e : ConnectionEvent) :
    ¬ c.DeliversSegment e ↔ (c.step p e).NothingComplete := by
  unfold NothingComplete DeliversSegment
  rw [step_delivered]
  constructor
  · intro hnone frame hframe
    rcases List.mem_append.mp hframe with hold | hnew
    · exact h frame hold
    · by_contra hcomplete
      exact hnone ⟨frame,hnew,hcomplete⟩
  · rintro hall ⟨frame,hnew,hcomplete⟩
    exact hcomplete (hall frame (List.mem_append_right _ hnew))

theorem nothingComplete_of_step {e : ConnectionEvent} (h : (c.step p e).NothingComplete) :
    c.NothingComplete := by
  intro frame hframe
  refine h frame ?_
  rw [step_delivered]
  exact List.mem_append_left _ hframe

end Delivery

section Runs

variable (p : Platform) (maxMessageSize : Nat)

/-- What holds of a connection at all times. -/
structure Coherent (c : Connection) : Prop where
  sent : c.sent = c.delivered++c.wire
  deaf : c.page.Deaf

theorem coherent_new : (new maxMessageSize).Coherent :=
  ⟨rfl,StreamManager.deaf_new maxMessageSize⟩

theorem coherent_run (es : List ConnectionEvent) : (run p maxMessageSize es).Coherent :=
  (along_true (step p) (new maxMessageSize) es).invariant Coherent (coherent_new maxMessageSize)
    (fun _ e h _ => ⟨step_sent h.sent e,step_deaf h.deaf e⟩)

/-- The page has nothing to show, so that the two agree only before a segment has arrived. -/
theorem Coherent.agrees_iff_nothingComplete {c : Connection} (h : c.Coherent) :
    c.Agrees ↔ c.NothingComplete := by
  have hinits : initsOf c.sent = initsOf c.delivered++initsOf c.wire := by
    rw [h.sent,initsOf_append]
  have hvideos : videosOf c.sent = videosOf c.delivered++videosOf c.wire := by
    rw [h.sent,videosOf_append]
  have hnone : c.NothingComplete ↔ initsOf c.delivered = [] ∧ videosOf c.delivered = [] := by
    unfold NothingComplete initsOf videosOf
    rw [List.filterMap_eq_nil_iff,List.filterMap_eq_nil_iff,← forall₂_and]
    exact forall₂_congr (fun frame _ => frame.completes_eq_none_iff)
  rw [hnone]
  constructor
  · rintro ⟨hi,hv⟩
    rw [h.deaf.initSegments,hinits,List.nil_append] at hi
    rw [h.deaf.mediaAppended,hvideos,List.nil_append] at hv
    exact ⟨List.self_eq_append_left.mp hi,List.self_eq_append_left.mp hv⟩
  · rintro ⟨hi,hv⟩
    refine ⟨?_,?_⟩
    · rw [h.deaf.initSegments,hinits,hi]
    · rw [h.deaf.mediaAppended,hvideos,hv]

/-- The server nests the description of a chunk where the client does not look, and the client
takes every frame that is not a text for a part of an init segment: a page agrees with the server
exactly as long as no init segment and no video segment has arrived. -/
theorem agrees_iff_no_segment (es : List ConnectionEvent) : (run p maxMessageSize es).Agrees ↔
    Along (step p) (fun c e => ¬ c.DeliversSegment e) (new maxMessageSize) es := by
  have hnew : (new maxMessageSize).NothingComplete := by
    intro frame hframe
    cases hframe
  rw [(coherent_run p maxMessageSize es).agrees_iff_nothingComplete]
  exact (along_iff_last NothingComplete hnew (fun _ e h => nothingComplete_step h e)
    (fun _ _ => nothingComplete_of_step)).symm

/-- A page that plays everything. -/
def plainPlatform : Platform where
  engine := {
    numberText := fun n => toString n.num
    toNumber := fun _ => none
    isTypeSupported := fun _ => true
    isChrome := true
    addSourceBuffer := fun _ => .ok ()
    appendBuffer := fun _ _ => .ok ()
    notString := fun _ => "codec.toLowerCase is not a function" }
  reader := ⟨fun _ => none,some⟩
  textLength := fun _ => 200

/-- A keyframe. -/
def keyframe : Media.StreamSegment :=
  ⟨⟨[1]⟩,0,0,40000,.video,[0,0,0,8,0x6d,0x6f,0x6f,0x66],true,1,by decide,by decide⟩

/-- The handler sends a description of the stream, an init segment and a keyframe, and all that it
sends arrives. -/
def plainRun : List ConnectionEvent :=
  [.opens ⟨none,none,some [0,0,0,8,0x66,0x74,0x79,0x70],none,none⟩,
    .sends,.sends,.sends,.delivers,.delivers,.delivers,
    .takes (.segment keyframe),.sends,.sends,.delivers,.delivers]

/-- Neither leads to anything on the page. -/
theorem plainRun_segments_lost :
    (run plainPlatform (50*1024*1024) plainRun).wire = [] ∧
      initsOf (run plainPlatform (50*1024*1024) plainRun).sent =
        [[0,0,0,8,0x66,0x74,0x79,0x70]] ∧
      videosOf (run plainPlatform (50*1024*1024) plainRun).sent =
        [[0,0,0,8,0x6d,0x6f,0x6f,0x66]] ∧
      (run plainPlatform (50*1024*1024) plainRun).page.initSegments = [] ∧
      (run plainPlatform (50*1024*1024) plainRun).page.mediaAppended = [] ∧
      ¬ (run plainPlatform (50*1024*1024) plainRun).Agrees := by
  have hcoherent := coherent_run plainPlatform (50*1024*1024) plainRun
  have hwire : (run plainPlatform (50*1024*1024) plainRun).wire = [] := rfl
  have hinits : initsOf (run plainPlatform (50*1024*1024) plainRun).sent =
      [[0,0,0,8,0x66,0x74,0x79,0x70]] := rfl
  have hvideos : videosOf (run plainPlatform (50*1024*1024) plainRun).sent =
      [[0,0,0,8,0x6d,0x6f,0x6f,0x66]] := rfl
  refine ⟨hwire,hinits,hvideos,hcoherent.deaf.initSegments,hcoherent.deaf.mediaAppended,?_⟩
  intro h
  have hlost := h.inits
  rw [hcoherent.deaf.initSegments,hwire,hinits] at hlost
  cases hlost

end Runs

end Connection

end OpenBroadcast.Browser
