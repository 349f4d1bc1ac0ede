import OpenBroadcast.Delivery.Consumers

namespace OpenBroadcast.Delivery

open Media

/-- Of a viewer that has requested a stream: whatever binary frame was sent to it, or is still to be
sent, comes from this stream. -/
structure Viewer.Own (v : Viewer) : Prop where
  sending : ∀ text rest, v.requested = some text → v.stage = .sendInit rest →
    ∀ f ∈ rest, f.origin = streamOf text
  pending : ∀ text, v.requested = some text → ∀ segment ∈ v.pending,
    segment.mediaType ≠ .metadata → segment.streamId = streamOf text
  frames : ∀ text, v.requested = some text → ∀ f ∈ v.frames, f.origin = streamOf text

theorem mem_of_mem_newest {segment : StreamSegment} {pending : List StreamSegment}
    (h : segment ∈ newest pending) : segment ∈ pending := by
  unfold newest at h
  exact List.mem_of_mem_drop h

namespace Viewer

theorem own_new (requested : Option String) : Own ⟨requested,.dynamic,false,[],[]⟩ where
  sending _ _ _ hstage := by cases hstage
  pending _ _ segment hsegment := by cases hsegment
  frames _ _ f hf := by cases hf

/-- The viewer may get these segments. -/
def Allows (v : Viewer) (segments : List StreamSegment) : Prop :=
  v.subscribed = true → ∀ text, v.requested = some text → ∀ segment ∈ segments,
    segment.mediaType ≠ .metadata → segment.streamId = streamOf text

theorem Own.enqueue {v : Viewer} (h : v.Own) {segments : List StreamSegment}
    (hallows : v.Allows segments) : (v.enqueue segments).Own := by
  unfold Viewer.enqueue
  split_ifs with hsubscribed
  · refine ⟨h.sending,?_,h.frames⟩
    intro text hrequested segment hsegment hmedia
    dsimp only at hsegment
    rcases List.mem_append.mp (mem_of_mem_newest hsegment) with hold | hnew
    · exact h.pending text hrequested segment hold hmedia
    · exact hallows hsubscribed text hrequested segment hnew hmedia
  · exact h

theorem Own.stage {v : Viewer} (h : v.Own) (stage : ViewerStage) (hasLoop : Bool)
    (hstage : ∀ text rest, v.requested = some text → stage = .sendInit rest →
      ∀ f ∈ rest, f.origin = streamOf text) :
    Own { v with stage := stage, hasLoop := hasLoop } :=
  ⟨hstage,h.pending,h.frames⟩

theorem Own.sent {v : Viewer} (h : v.Own) {f : Frame} {rest : List Frame}
    (hstage : v.stage = .sendInit (f::rest)) :
    Own { v with stage := .sendInit rest, frames := v.frames++[f] } where
  sending text rest' hrequested heq := by
    cases heq
    exact fun x hx => h.sending text _ hrequested hstage x (List.mem_cons_of_mem _ hx)
  pending := h.pending
  frames text hrequested x hx := by
    rcases List.mem_append.mp hx with hold | hnew
    · exact h.frames text hrequested x hold
    · rw [List.mem_singleton.mp hnew]
      exact h.sending text _ hrequested hstage f List.mem_cons_self

theorem Own.forwarded {v : Viewer} (h : v.Own) {segment : StreamSegment}
    {rest : List StreamSegment} (hpending : v.pending = segment::rest) :
    Own { v with pending := rest, frames := v.frames++frameOf segment } where
  sending := h.sending
  pending text hrequested x hx :=
    h.pending text hrequested x (hpending ▸ List.mem_cons_of_mem _ hx)
  frames text hrequested x hx := by
    rcases List.mem_append.mp hx with hold | hnew
    · exact h.frames text hrequested x hold
    · unfold frameOf at hnew
      split_ifs at hnew with hmedia
      · cases hnew
      · rw [List.mem_singleton.mp hnew]
        exact h.pending text hrequested segment (hpending ▸ List.mem_cons_self) hmedia

end Viewer

namespace WebServer

variable {PeerId : Type} {blake3 : Bytes → Digest} {s : WebServer PeerId}

def AllOwn (s : WebServer PeerId) : Prop := ∀ v ∈ s.viewers, v.Own

/-- The segments that go to the receivers in a step. -/
def carried (s : WebServer PeerId) : WebEvent PeerId → List StreamSegment
  | .loopTakes k =>
    match s.node.targets[k]?,s.node.overlay.events with
    | some target,entry::_ => received (s.node.loopAccepts target) entry.2
    | _,_ => []
  | .sendSegment segment => if 0 < s.node.receiverCount then [segment] else []
  | _ => []

/-- Whatever goes to the receivers is of the stream that each of the viewers has requested, and so is
the cached initialization segment when a viewer comes to read it. -/
def Separate (s : WebServer PeerId) (e : WebEvent PeerId) : Prop :=
  (∀ v ∈ s.viewers, v.Allows (s.carried e)) ∧
  ∀ k v text, e = .viewerProceeds k → s.viewers[k]? = some v → v.stage = .init →
    v.requested = some text → ∀ f ∈ s.initFrames, f.origin = streamOf text

theorem loopTakes_viewers (k : Nat) : (s.loopTakes k).viewers =
    s.viewers.map (fun v => v.enqueue (s.carried (.loopTakes k))) ∨
    (s.loopTakes k).viewers = s.viewers := by
  unfold loopTakes carried Node.nextEvent
  cases htarget : s.node.targets[k]? with
  | none => exact .inr rfl
  | some target =>
    cases hevents : s.node.overlay.events with
    | nil => exact .inr rfl
    | cons entry rest =>
      left
      let taken : Node PeerId := { s.node with overlay := { s.node.overlay with events := rest } }
      have hreceived : (taken.receiveEvent target entry.2).2 =
          received (s.node.loopAccepts target) entry.2 := taken.loop_received target entry.2
      simp only [broadcast,htarget]
      rw [← hreceived]

theorem allOwn_map {segments : List StreamSegment} (h : s.AllOwn)
    (hallows : ∀ v ∈ s.viewers, v.Allows segments) :
    ∀ v ∈ s.viewers.map (fun v => v.enqueue segments), v.Own := by
  intro v hv
  obtain ⟨w,hw,rfl⟩ := List.mem_map.mp hv
  exact (h w hw).enqueue (hallows w hw)

theorem allOwn_viewerProceeds (h : s.AllOwn) (k : Nat)
    (hinit : ∀ v text, s.viewers[k]? = some v → v.stage = .init → v.requested = some text →
      ∀ f ∈ s.initFrames, f.origin = streamOf text) : (s.viewerProceeds k).AllOwn := by
  unfold viewerProceeds
  cases hv : s.viewers[k]? with
  | none => exact h
  | some v =>
    have hown : v.Own := h v (List.mem_of_getElem? hv)
    have hstep : ∀ stage hasLoop, (∀ rest, stage ≠ ViewerStage.sendInit rest) →
        ∀ w ∈ s.viewers.set k { v with stage := stage, hasLoop := hasLoop }, w.Own := by
      intro stage hasLoop hne
      exact forall_mem_set h (hown.stage stage hasLoop (fun _ rest _ heq => absurd heq (hne rest)))
    dsimp only
    split
    · split
      · split_ifs
        · exact hstep .receiver true (fun _ heq => by cases heq)
        · exact hstep .receiver v.hasLoop (fun _ heq => by cases heq)
      · exact hstep .receiver v.hasLoop (fun _ heq => by cases heq)
    · exact hstep .init v.hasLoop (fun _ heq => by cases heq)
    · next hstage =>
      apply forall_mem_set h
      apply hown.stage (.sendInit s.initFrames) v.hasLoop
      intro text rest hrequested heq
      cases heq
      exact hinit v text hv hstage hrequested
    · exact hstep .forward v.hasLoop (fun _ heq => by cases heq)
    · next f rest hstage => exact forall_mem_set h (hown.sent hstage)
    · split
      · exact h
      · next segment rest hpending => exact forall_mem_set h (hown.forwarded hpending)

theorem allOwn_viewerLeaves (h : s.AllOwn) (k : Nat) : (s.viewerLeaves k).AllOwn := by
  unfold viewerLeaves
  cases s.viewers[k]? with
  | none => exact h
  | some v =>
    dsimp only
    split_ifs
    · exact h
    · exact fun w hw => h w (List.mem_of_mem_eraseIdx hw)
    · exact fun w hw => h w (List.mem_of_mem_eraseIdx hw)

theorem loadContent_viewers (separate : Option (Bytes × Option Bytes)) (combined : Option Bytes) :
    (s.loadContent separate combined).viewers = s.viewers := by
  cases separate <;> cases combined <;> rfl

theorem relayMessage_viewers (k : Nat) (msg : RelayMessage) :
    (s.relayMessage k msg).viewers = s.viewers := by
  unfold relayMessage
  split
  · rfl
  · split_ifs
    · rfl
    · cases msg with
      | subscribe id =>
        simp only [handleMessage]
        split_ifs <;> rfl
      | unsubscribe id => rfl
      | publish id => rfl
      | listStreams => rfl
      | binary data =>
        simp only [handleMessage]
        split
        · split_ifs <;> rfl
        · rfl

variable (blake3) in
theorem relay_viewers (k : Nat) : (s.relayProceeds k).viewers = s.viewers ∧
    (s.relayTakes k).viewers = s.viewers ∧ (s.relayReceives blake3 k).viewers = s.viewers ∧
    (s.relayForwards k).viewers = s.viewers ∧ (s.relayFails k).viewers = s.viewers ∧
    (s.relayCloses k).viewers = s.viewers := by
  unfold relayProceeds relayTakes relayReceives relayForwards relayFails relayCloses
  cases s.relays[k]? with
  | none => exact ⟨rfl,rfl,rfl,rfl,rfl,rfl⟩
  | some r =>
    refine ⟨?_,?_,rfl,rfl,rfl,rfl⟩
    · dsimp only
      split <;> rfl
    · dsimp only
      split <;> rfl

theorem allOwn_step (h : s.AllOwn) {e : WebEvent PeerId} (hok : s.Separate e) :
    (s.step blake3 e).AllOwn := by
  have hsame : ∀ s' : WebServer PeerId, s'.viewers = s.viewers → s'.AllOwn := by
    intro s' heq
    unfold AllOwn
    rw [heq]
    exact h
  cases e with
  | gossip c m => exact h
  | report c => exact h
  | startListener => exact hsame _ (startListener_frame blake3 s).1
  | stopListener => exact hsame _ (stopListener_frame blake3 s).1
  | listenerTakes => exact hsame _ (listenerTakes_frame blake3 s).1
  | loopTakes k =>
    rcases loopTakes_viewers (s := s) k with hviewers | hviewers
    · unfold AllOwn
      rw [show s.step blake3 (.loopTakes k) = s.loopTakes k from rfl,hviewers]
      exact allOwn_map h hok.1
    · exact hsame _ hviewers
  | sendSegment segment =>
    have hallows := hok.1
    simp only [carried] at hallows
    simp only [step,sendSegment]
    split_ifs with hcount
    · rw [if_pos hcount] at hallows
      exact allOwn_map h hallows
    · exact h
  | loadContent separate combined => exact hsame _ (loadContent_viewers separate combined)
  | connect requested =>
    intro v hv
    rcases List.mem_append.mp hv with hold | hnew
    · exact h v hold
    · rw [List.mem_singleton.mp hnew]
      exact Viewer.own_new requested
  | viewerProceeds k => exact allOwn_viewerProceeds h k (fun v text => hok.2 k v text rfl)
  | viewerLeaves k => exact allOwn_viewerLeaves h k
  | relayConnect => exact h
  | relayMessage k msg => exact hsame _ (relayMessage_viewers k msg)
  | relayProceeds k => exact hsame _ (relay_viewers blake3 k).1
  | relayTakes k => exact hsame _ (relay_viewers blake3 k).2.1
  | relayReceives k => exact hsame _ (relay_viewers blake3 k).2.2.1
  | relayForwards k => exact hsame _ (relay_viewers blake3 k).2.2.2.1
  | relayFails k => exact hsame _ (relay_viewers blake3 k).2.2.2.2.1
  | relayCloses k => exact hsame _ (relay_viewers blake3 k).2.2.2.2.2

/-- On a node that browses, in runs in which whatever goes to the receivers of segments, and the
initialization segment that a viewer reads, is of the stream that the viewers have requested, every
binary frame that is sent to a viewer comes from the stream that this viewer has requested. -/
theorem viewers_isolated (blake3 : Bytes → Digest) (segmentStreamId : StreamId)
    (es : List (WebEvent PeerId))
    (h : Along (step blake3) Separate (new true none segmentStreamId) es) :
    ∀ pre, pre <+: es → ∀ v ∈ (pre.foldl (step blake3) (new true none segmentStreamId)).viewers,
      ∀ text, v.requested = some text → ∀ f ∈ v.frames, f.origin = streamOf text := by
  intro pre hpre v hv text hrequested
  have hall := (h.of_prefix hpre).invariant AllOwn (fun v hv => by cases hv)
    (fun _ e hs hok => allOwn_step hs hok)
  exact (hall v hv).frames text hrequested

/-- All viewers want the one stream that there is. -/
def OneStream (text : String) (s : WebServer PeerId) (e : WebEvent PeerId) : Prop :=
  (∀ requested ∈ s.viewers.map Viewer.requested, requested = some text) ∧
  (∀ segment ∈ s.carried e, segment.streamId = streamOf text) ∧
  ∀ f ∈ s.initFrames, f.origin = streamOf text

instance (text : String) (s : WebServer PeerId) (e : WebEvent PeerId) :
    Decidable (OneStream text s e) := by
  unfold OneStream
  infer_instance

theorem OneStream.separate {text : String} {e : WebEvent PeerId} (h : s.OneStream text e) :
    s.Separate e := by
  have hrequested : ∀ v ∈ s.viewers, ∀ text', v.requested = some text' → text' = text := by
    intro v hv text' heq
    have hsame := h.1 v.requested (List.mem_map_of_mem hv)
    rw [heq] at hsame
    exact Option.some.inj hsame
  constructor
  · intro v hv _ text' heq segment hsegment _
    rw [hrequested v hv text' heq]
    exact h.2.1 segment hsegment
  · intro k v text' _ hv _ heq f hf
    rw [hrequested v (List.mem_of_getElem? hv) text' heq]
    exact h.2.2 f hf

/-- A viewer of `b` comes to its loop, gets a segment and sends it on. -/
def watched : List (WebEvent Unit) :=
  [.connect (some "b"),.viewerProceeds 0,.viewerProceeds 0,.viewerProceeds 0,.viewerProceeds 0,
    gossipOfB,.loopTakes 0,.viewerProceeds 0]

theorem viewers_isolated_watched :
    let last := watched.foldl (step zeroHash) (new true none ⟨[0]⟩)
    last.viewers.map Viewer.frames = [[⟨streamOf "b",[9]⟩]] ∧
    ∀ pre, pre <+: watched → ∀ v ∈ (pre.foldl (step zeroHash) (new true none ⟨[0]⟩)).viewers,
      ∀ text, v.requested = some text → ∀ f ∈ v.frames, f.origin = streamOf text := by
  intro last
  refine ⟨by decide +kernel,viewers_isolated zeroHash ⟨[0]⟩ watched ?_⟩
  have hone : Along (step zeroHash) (OneStream "b") (new true none ⟨[0]⟩) watched := by
    decide +kernel
  exact hone.imp (fun _ => True) trivial (fun _ _ _ _ => trivial) (fun _ _ _ h => h.separate)

/-- There is a viewer of `a` too when the loop of the viewer of `b` takes data of `b`. -/
def watchedByOther : List (WebEvent Unit) :=
  [.connect (some "a"),.viewerProceeds 0,.viewerProceeds 0,.viewerProceeds 0,.viewerProceeds 0,
    .connect (some "b"),.viewerProceeds 1,gossipOfB,.loopTakes 1,.viewerProceeds 0]

theorem viewer_gets_other_stream :
    let last := watchedByOther.foldl (step zeroHash) (new true none ⟨[0]⟩)
    last.viewers.map Viewer.requested = [some "a",some "b"] ∧
    last.viewers.map Viewer.frames = [[⟨streamOf "b",[9]⟩],[]] ∧
    ¬ ∀ pre, pre <+: watchedByOther →
      ∀ v ∈ (pre.foldl (step zeroHash) (new true none ⟨[0]⟩)).viewers,
        ∀ text, v.requested = some text → ∀ f ∈ v.frames, f.origin = streamOf text := by
  intro last
  have hlast : last.viewers.map (fun v => (v.requested,v.frames)) =
      [(some "a",[⟨streamOf "b",[9]⟩]),(some "b",[])] := by decide +kernel
  refine ⟨by decide +kernel,by decide +kernel,?_⟩
  intro hisolated
  obtain ⟨v,hv,heq⟩ := List.mem_map.mp (hlast ▸ List.mem_cons_self)
  have hframes : v.frames = [⟨streamOf "b",[9]⟩] := congrArg Prod.snd heq
  have horigin := hisolated watchedByOther (List.prefix_refl _) v hv "a" (congrArg Prod.fst heq)
    ⟨streamOf "b",[9]⟩ (hframes ▸ List.mem_singleton_self _)
  revert horigin
  decide +kernel

end WebServer

end OpenBroadcast.Delivery
