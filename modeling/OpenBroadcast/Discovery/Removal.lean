import OpenBroadcast.Discovery.StreamDiscovery
import OpenBroadcast.Framework.Run

namespace OpenBroadcast.Discovery

open Relay (StreamId)
open Delivery (OverlayError)

/-- The stream that a call has still to publish or to add to the node's own streams. -/
def AnnounceCall.pending (call : AnnounceCall) : List StreamId :=
  if call.stage = .cache then [] else [call.announcement.streamId]

/-- The streams that the task has still to announce in its loop. -/
def Task.pending : Task → List StreamId
  | .announcing call rest =>
    call.toList.flatMap AnnounceCall.pending++rest.map StreamAnnouncement.streamId
  | _ => []

/-- The events that no call of `announce_stream` or `remove_stream` has a part in. -/
def DiscoveryEvent.internal : DiscoveryEvent → Bool
  | .spawn | .stop | .taskStarts | .taskChecks | .cleanupTick _ | .announceTick | .receive _ _ => true
  | _ => false

namespace StreamDiscovery

/-- The streams with an announcement under way. -/
def pending (s : StreamDiscovery) : List StreamId :=
  s.announces.flatMap AnnounceCall.pending++s.task.toList.flatMap Task.pending

/-- The streams of which the service may still publish an announcement by itself. -/
def alive (s : StreamDiscovery) : List StreamId :=
  s.ownStreams.map StreamAnnouncement.streamId++s.pending

/-- `remove_stream` has returned for the stream, or is past its first section. -/
def Gone (s : StreamDiscovery) (id : StreamId) : Prop :=
  id ∈ s.removed ∨ ⟨id,.cache⟩ ∈ s.removes

/-- When `remove_stream` takes a stream out of the node's own streams, no announcement of it is
under way; and the application does not announce it until the call has returned. -/
def Settled (s : StreamDiscovery) : DiscoveryEvent → Prop
  | .announceStream announcement => ⟨announcement.streamId,.cache⟩ ∉ s.removes
  | .removeProceeds k => ∀ id, s.removes[k]? = some ⟨id,.own⟩ → id ∉ s.pending
  | _ => True

/-- The step publishes no announcement of a stream that has been removed. -/
def Quiet (cfg : StreamDiscoveryConfig) (s : StreamDiscovery) (e : DiscoveryEvent) : Prop :=
  ∀ a ∈ (s.step cfg e).published.drop s.published.length, a.streamId ∉ s.removed

section Sections

variable {s : StreamDiscovery} {call : AnnounceCall} {sent : Except OverlayError Unit}

variable (s call sent) in
/-- What a section of `announce_stream` may change. -/
theorem announceSection_frame :
    (s.announceSection call sent).1.announces = s.announces ∧
    (s.announceSection call sent).1.removes = s.removes ∧
    (s.announceSection call sent).1.task = s.task ∧
    (s.announceSection call sent).1.removed = s.removed := by
  obtain ⟨announcement,stage⟩ := call
  cases stage with
  | publish => cases sent <;> exact ⟨rfl,rfl,rfl,rfl⟩
  | own => exact ⟨rfl,rfl,rfl,rfl⟩
  | cache => exact ⟨rfl,rfl,rfl,rfl⟩

/-- It adds no stream but that of the call, and only while this is pending. -/
theorem announceSection_own {a : StreamAnnouncement}
    (h : a ∈ (s.announceSection call sent).1.ownStreams) :
    a ∈ s.ownStreams ∨ a.streamId ∈ call.pending := by
  obtain ⟨announcement,stage⟩ := call
  cases stage with
  | publish => cases sent <;> exact .inl h
  | cache => exact .inl h
  | own =>
    rcases List.mem_append.mp h with h | h
    · exact .inl (List.mem_of_mem_filter h)
    · rw [List.mem_singleton.mp h]
      exact .inr (List.mem_singleton_self _)

variable (s call sent) in
theorem announceSection_published :
    ∃ l, (s.announceSection call sent).1.published = s.published++l ∧
      ∀ a ∈ l, a.streamId ∈ call.pending := by
  obtain ⟨announcement,stage⟩ := call
  cases stage with
  | own => exact ⟨[],(List.append_nil _).symm,List.forall_mem_nil _⟩
  | cache => exact ⟨[],(List.append_nil _).symm,List.forall_mem_nil _⟩
  | publish =>
    cases sent with
    | error e => exact ⟨[],(List.append_nil _).symm,List.forall_mem_nil _⟩
    | ok _ =>
      refine ⟨[announcement],rfl,?_⟩
      intro a ha
      rw [List.mem_singleton.mp ha]
      exact List.mem_singleton_self _

/-- The rest of a call has nothing pending that the call had not. -/
theorem announceSection_rest {id : StreamId}
    (h : id ∈ (s.announceSection call sent).2.toList.flatMap AnnounceCall.pending) :
    id ∈ call.pending := by
  obtain ⟨announcement,stage⟩ := call
  cases stage with
  | publish =>
    cases sent with
    | ok _ => simpa [announceSection,AnnounceCall.pending] using h
    | error e => cases h
  | own => cases h
  | cache => cases h

theorem mem_pending_call {k : Nat} (hcall : s.announces[k]? = some call) {id : StreamId}
    (h : id ∈ call.pending) : id ∈ s.pending :=
  List.mem_append_left _ (List.mem_flatMap.mpr ⟨call,List.mem_of_getElem? hcall,h⟩)

theorem mem_pending_task {task : Task} (htask : s.task = some task) {id : StreamId} :
    id ∈ s.pending ↔ id ∈ s.announces.flatMap AnnounceCall.pending ∨ id ∈ task.pending := by
  unfold pending
  rw [htask,List.mem_append]
  simp

end Sections

section Steps

variable {s : StreamDiscovery} {id : StreamId}

theorem mem_alive : id ∈ s.alive ↔ (∃ a ∈ s.ownStreams, a.streamId = id) ∨ id ∈ s.pending := by
  unfold alive
  rw [List.mem_append,List.mem_map]

theorem announceProceeds_alive {k : Nat} {sent : Except OverlayError Unit}
    (h : id ∈ (s.announceProceeds k sent).alive) : id ∈ s.alive := by
  unfold announceProceeds at h
  cases hcall : s.announces[k]? with
  | none => simpa only [hcall] using h
  | some call =>
    have hframe := announceSection_frame s call sent
    simp only [hcall,mem_alive] at h
    rw [mem_alive]
    rcases h with ⟨a,ha,rfl⟩ | h
    · rcases announceSection_own ha with ha | ha
      · exact .inl ⟨a,ha,rfl⟩
      · exact .inr (mem_pending_call hcall ha)
    · right
      rcases List.mem_append.mp h with h | h
      · obtain ⟨c,hc,hid⟩ := List.mem_flatMap.mp h
        cases hrest : (s.announceSection call sent).2 with
        | none =>
          simp only [hrest,hframe.1] at hc
          exact List.mem_append_left _ (List.mem_flatMap.mpr ⟨c,List.mem_of_mem_eraseIdx hc,hid⟩)
        | some rest =>
          simp only [hrest,hframe.1] at hc
          rcases List.mem_or_eq_of_mem_set hc with hc | rfl
          · exact List.mem_append_left _ (List.mem_flatMap.mpr ⟨c,hc,hid⟩)
          · apply mem_pending_call hcall
            have hpending : id ∈ (s.announceSection call sent).2.toList.flatMap
                AnnounceCall.pending := by
              rw [hrest]
              simpa using hid
            exact announceSection_rest hpending
      · rw [hframe.2.2.1] at h
        exact List.mem_append_right _ h

/-- When the task goes on, what it then has pending decides. -/
theorem alive_of_task {s' : StreamDiscovery} {task : Task} (h : id ∈ s'.alive)
    (hown : s'.ownStreams = s.ownStreams) (hannounces : s'.announces = s.announces)
    (htask : s'.task = some task) (hpending : ∀ id ∈ task.pending, id ∈ s.alive) :
    id ∈ s.alive := by
  rw [mem_alive,mem_pending_task htask,hown,hannounces] at h
  rcases h with h | h | h
  · exact mem_alive.mpr (.inl h)
  · exact mem_alive.mpr (.inr (List.mem_append_left _ h))
  · exact hpending id h

theorem taskAnnounces_alive {now : UInt64} {sent : Except OverlayError Unit}
    (h : id ∈ (s.taskAnnounces now sent).alive) : id ∈ s.alive := by
  unfold taskAnnounces at h
  split at h
  · exact alive_of_task h rfl rfl rfl (List.forall_mem_nil _)
  · next announcement rest htask =>
    refine alive_of_task h rfl rfl rfl ?_
    intro id hid
    rw [mem_alive,mem_pending_task htask]
    exact .inr (.inr (by simpa [Task.pending,AnnounceCall.pending] using hid))
  · next call rest htask =>
    have hframe := announceSection_frame s call sent
    have hcall : ∀ id ∈ call.pending, id ∈ s.pending := by
      intro id hid
      rw [mem_pending_task htask]
      exact .inr (List.mem_append_left _ (by simpa using hid))
    rw [mem_alive,mem_pending_task rfl] at h
    rw [mem_alive]
    rcases h with ⟨a,ha,rfl⟩ | h | h
    · rcases announceSection_own ha with ha | ha
      · exact .inl ⟨a,ha,rfl⟩
      · exact .inr (hcall _ ha)
    · exact .inr (List.mem_append_left _ (hframe.1 ▸ h))
    · right
      rcases List.mem_append.mp h with h | h
      · exact hcall _ (announceSection_rest h)
      · rw [mem_pending_task htask]
        exact .inr (List.mem_append_right _ h)
  · exact h

theorem removeProceeds_alive {k : Nat} (h : id ∈ (s.removeProceeds k).alive) :
    id ∈ s.alive ∧ (s.removes[k]? = some ⟨id,.own⟩ → id ∈ s.pending) := by
  unfold removeProceeds at h
  cases hcall : s.removes[k]? with
  | none => exact ⟨by simpa only [hcall] using h,fun heq => by cases heq⟩
  | some call =>
    obtain ⟨streamId,stage⟩ := call
    cases stage with
    | cache =>
      simp only [hcall] at h
      exact ⟨h,fun heq => by cases heq⟩
    | own =>
      simp only [hcall,mem_alive] at h
      rw [mem_alive]
      rcases h with ⟨a,ha,rfl⟩ | h
      · obtain ⟨ha,hne⟩ := List.mem_filter.mp ha
        refine ⟨.inl ⟨a,ha,rfl⟩,?_⟩
        intro heq
        cases heq
        simp at hne
      · exact ⟨.inr h,fun _ => h⟩

/-- The other events leave the calls and the streams alone; the task may turn to the node's own
streams. -/
theorem internal_step (cfg : StreamDiscoveryConfig) (s : StreamDiscovery) {e : DiscoveryEvent}
    (he : e.internal = true) :
    ((s.step cfg e).ownStreams = s.ownStreams ∧ (s.step cfg e).announces = s.announces ∧
      (s.step cfg e).removes = s.removes ∧ (s.step cfg e).published = s.published ∧
      (s.step cfg e).removed = s.removed) ∧
    ((s.step cfg e).task = s.task ∨ ∃ task, (s.step cfg e).task = some task ∧
      ∀ id ∈ task.pending, id ∈ s.ownStreams.map StreamAnnouncement.streamId) := by
  cases e with
  | spawn =>
    simp only [step]
    split_ifs
    · exact ⟨⟨rfl,rfl,rfl,rfl,rfl⟩,.inr ⟨_,rfl,List.forall_mem_nil _⟩⟩
    · exact ⟨⟨rfl,rfl,rfl,rfl,rfl⟩,.inl rfl⟩
  | stop => exact ⟨⟨rfl,rfl,rfl,rfl,rfl⟩,.inl rfl⟩
  | taskStarts =>
    simp only [step]
    split_ifs
    · exact ⟨⟨rfl,rfl,rfl,rfl,rfl⟩,.inr ⟨_,rfl,List.forall_mem_nil _⟩⟩
    · exact ⟨⟨rfl,rfl,rfl,rfl,rfl⟩,.inl rfl⟩
  | taskChecks =>
    simp only [step]
    split_ifs
    · exact ⟨⟨rfl,rfl,rfl,rfl,rfl⟩,.inr ⟨_,rfl,List.forall_mem_nil _⟩⟩
    · exact ⟨⟨rfl,rfl,rfl,rfl,rfl⟩,.inr ⟨_,rfl,List.forall_mem_nil _⟩⟩
    · exact ⟨⟨rfl,rfl,rfl,rfl,rfl⟩,.inl rfl⟩
  | cleanupTick now =>
    simp only [step]
    split_ifs
    · exact ⟨⟨rfl,rfl,rfl,rfl,rfl⟩,.inr ⟨_,rfl,List.forall_mem_nil _⟩⟩
    · exact ⟨⟨rfl,rfl,rfl,rfl,rfl⟩,.inl rfl⟩
  | announceTick =>
    simp only [step]
    split_ifs
    · exact ⟨⟨rfl,rfl,rfl,rfl,rfl⟩,.inr ⟨_,rfl,fun _ hid => hid⟩⟩
    · exact ⟨⟨rfl,rfl,rfl,rfl,rfl⟩,.inl rfl⟩
  | receive now parsed => exact ⟨⟨rfl,rfl,rfl,rfl,rfl⟩,.inl rfl⟩
  | announceStream a => cases he
  | announceProceeds k sent => cases he
  | removeStream streamId => cases he
  | removeProceeds k => cases he
  | taskAnnounces now sent => cases he

theorem internal_alive {cfg : StreamDiscoveryConfig} {e : DiscoveryEvent} (he : e.internal = true)
    (h : id ∈ (s.step cfg e).alive) : id ∈ s.alive := by
  obtain ⟨⟨hown,hannounces,_,_,_⟩,htask | ⟨task,htask,hpending⟩⟩ := internal_step cfg s he
  · unfold alive pending at h
    rwa [hown,hannounces,htask] at h
  · refine alive_of_task h hown hannounces htask ?_
    exact fun id hid => List.mem_append_left _ (hpending id hid)

/-- Only the application brings a stream back to life. -/
theorem alive_step {cfg : StreamDiscoveryConfig} {e : DiscoveryEvent}
    (h : id ∈ (s.step cfg e).alive) :
    id ∈ s.alive ∨ ∃ a, e = .announceStream a ∧ a.streamId = id := by
  by_cases he : e.internal = true
  · exact .inl (internal_alive he h)
  cases e with
  | announceStream a =>
    rw [mem_alive] at h
    rw [mem_alive]
    rcases h with h | h
    · exact .inl (.inl h)
    · simp only [step,pending,List.flatMap_append,List.append_assoc,List.mem_append] at h
      rcases h with h | h | h
      · exact .inl (.inr (List.mem_append_left _ h))
      · simp only [List.flatMap_singleton] at h
        exact .inr ⟨a,rfl,(List.mem_singleton.mp h).symm⟩
      · exact .inl (.inr (List.mem_append_right _ h))
  | announceProceeds k sent => exact .inl (announceProceeds_alive h)
  | removeStream streamId => exact .inl h
  | removeProceeds k => exact .inl (removeProceeds_alive h).1
  | taskAnnounces now sent => exact .inl (taskAnnounces_alive h)
  | _ => exact absurd rfl he

/-- Whatever the event, a stream is gone because it was before, or because its removal begins with
this step. -/
theorem gone_of_step {cfg : StreamDiscoveryConfig} {e : DiscoveryEvent}
    (h : (s.step cfg e).Gone id) :
    s.Gone id ∨ ∃ k, e = .removeProceeds k ∧ s.removes[k]? = some ⟨id,.own⟩ := by
  have hsame : ∀ s' : StreamDiscovery, s'.removed = s.removed → s'.removes = s.removes →
      s'.Gone id → s.Gone id := by
    intro s' hremoved hremoves hgone
    unfold Gone at hgone
    rwa [hremoved,hremoves] at hgone
  by_cases he : e.internal = true
  · obtain ⟨⟨_,_,hremoves,_,hremoved⟩,_⟩ := internal_step cfg s he
    exact .inl (hsame _ hremoved hremoves h)
  cases e with
  | announceStream a =>
    rcases h with h | h
    · exact .inl (.inl (Finset.mem_of_mem_erase h))
    · exact .inl (.inr h)
  | removeStream streamId =>
    rcases h with h | h
    · exact .inl (.inl h)
    · rcases List.mem_append.mp h with h | h
      · exact .inl (.inr h)
      · cases List.mem_singleton.mp h
  | removeProceeds k =>
    simp only [step,removeProceeds] at h
    cases hcall : s.removes[k]? with
    | none =>
      simp only [hcall] at h
      exact .inl h
    | some call =>
      obtain ⟨streamId,stage⟩ := call
      cases stage with
      | own =>
        simp only [hcall] at h
        rcases h with h | h
        · exact .inl (.inl h)
        · rcases List.mem_or_eq_of_mem_set h with h | h
          · exact .inl (.inr h)
          · cases h
            exact .inr ⟨k,rfl,hcall⟩
      | cache =>
        simp only [hcall] at h
        rcases h with h | h
        · rcases Finset.mem_insert.mp h with rfl | h
          · exact .inl (.inr (List.mem_of_getElem? hcall))
          · exact .inl (.inl h)
        · exact .inl (.inr (List.mem_of_mem_eraseIdx h))
  | announceProceeds k sent =>
    left
    simp only [step,announceProceeds] at h
    cases hcall : s.announces[k]? with
    | none =>
      simp only [hcall] at h
      exact h
    | some call =>
      have hframe := announceSection_frame s call sent
      simp only [hcall] at h
      exact hsame _ hframe.2.2.2 hframe.2.1 h
  | taskAnnounces now sent =>
    left
    simp only [step,taskAnnounces] at h
    split at h
    · exact h
    · exact h
    · next call rest htask =>
      have hframe := announceSection_frame s call sent
      exact hsame _ hframe.2.2.2 hframe.2.1 h
    · exact h
  | _ => exact absurd rfl he

/-- The application does not announce a stream that stays gone. -/
theorem gone_step {cfg : StreamDiscoveryConfig} {e : DiscoveryEvent} (h : (s.step cfg e).Gone id)
    (hok : s.Settled e) :
    (s.Gone id ∧ ∀ a, e = .announceStream a → a.streamId ≠ id) ∨
    ∃ k, e = .removeProceeds k ∧ s.removes[k]? = some ⟨id,.own⟩ := by
  rcases gone_of_step h with hbefore | hremoval
  · refine .inl ⟨hbefore,?_⟩
    rintro a rfl hid
    subst hid
    rcases h with h | h
    · exact (Finset.mem_erase.mp h).1 rfl
    · exact hok h
  · exact .inr hremoval

/-- Only what is pending is published. -/
theorem published_step (cfg : StreamDiscoveryConfig) (s : StreamDiscovery) (e : DiscoveryEvent) :
    ∃ l, (s.step cfg e).published = s.published++l ∧ ∀ a ∈ l, a.streamId ∈ s.pending := by
  have hnone : ∀ s' : StreamDiscovery, s'.published = s.published →
      ∃ l, s'.published = s.published++l ∧ ∀ a ∈ l, a.streamId ∈ s.pending :=
    fun s' h => ⟨[],by rw [h,List.append_nil],List.forall_mem_nil _⟩
  by_cases he : e.internal = true
  · exact hnone _ (internal_step cfg s he).1.2.2.2.1
  cases e with
  | announceProceeds k sent =>
    simp only [step,announceProceeds]
    cases hcall : s.announces[k]? with
    | none => exact hnone _ rfl
    | some call =>
      obtain ⟨l,hl,hpending⟩ := announceSection_published s call sent
      exact ⟨l,hl,fun a ha => mem_pending_call hcall (hpending a ha)⟩
  | taskAnnounces now sent =>
    simp only [step,taskAnnounces]
    split
    · exact hnone _ rfl
    · exact hnone _ rfl
    · next call rest htask =>
      obtain ⟨l,hl,hpending⟩ := announceSection_published s call sent
      refine ⟨l,hl,?_⟩
      intro a ha
      rw [mem_pending_task htask]
      exact .inr (List.mem_append_left _ (by simpa using hpending a ha))
    · exact hnone _ rfl
  | removeProceeds k =>
    simp only [step,removeProceeds]
    cases s.removes[k]? with
    | none => exact hnone _ rfl
    | some call =>
      dsimp only
      split <;> exact hnone _ rfl
  | announceStream a => exact hnone _ rfl
  | removeStream streamId => exact hnone _ rfl
  | _ => exact absurd rfl he

end Steps

section Runs

/-- Nothing of a stream that is gone is left in the service. -/
def Dead (s : StreamDiscovery) : Prop := ∀ id, s.Gone id → id ∉ s.alive

theorem dead_step {cfg : StreamDiscoveryConfig} {s : StreamDiscovery} {e : DiscoveryEvent}
    (h : s.Dead) (hok : s.Settled e) : (s.step cfg e).Dead := by
  intro id hgone halive
  rcases gone_step hgone hok with ⟨hbefore,hother⟩ | ⟨k,rfl,hcall⟩
  · rcases alive_step halive with halive | ⟨a,rfl,hid⟩
    · exact h id hbefore halive
    · exact hother a rfl hid
  · exact hok id hcall ((removeProceeds_alive halive).2 hcall)

theorem quiet_of_dead (cfg : StreamDiscoveryConfig) {s : StreamDiscovery} (h : s.Dead)
    (e : DiscoveryEvent) : s.Quiet cfg e := by
  obtain ⟨l,hl,hpending⟩ := published_step cfg s e
  unfold Quiet
  rw [hl,List.drop_left]
  intro a ha hremoved
  exact h a.streamId (.inl hremoved) (List.mem_append_right _ (hpending a ha))

theorem dead_new : new.Dead := by
  rintro id (h | h) <;> cases h

/-- In runs in which a stream is removed while no announcement of it is under way, and announced
again only afterwards, a stream that has been removed is not among the node's own streams and is
not published. -/
theorem removed_stays_removed (cfg : StreamDiscoveryConfig) (es : List DiscoveryEvent)
    (h : Along (step cfg) Settled new es) :
    (∀ pre, pre <+: es → ∀ a ∈ (pre.foldl (step cfg) new).ownStreams,
      a.streamId ∉ (pre.foldl (step cfg) new).removed) ∧
    Along (step cfg) (Quiet cfg) new es := by
  have hstep : ∀ (s : StreamDiscovery) (e : DiscoveryEvent), s.Dead → s.Settled e →
      (s.step cfg e).Dead := fun _ _ => dead_step
  constructor
  · intro pre hpre a ha hremoved
    have hdead := (h.of_prefix hpre).invariant Dead dead_new hstep
    exact hdead a.streamId (.inl hremoved) (mem_alive.mpr (.inl ⟨a,ha,rfl⟩))
  · exact h.imp Dead dead_new hstep (fun s e hdead _ => quiet_of_dead cfg hdead e)

def sampleAnnouncement : StreamAnnouncement := .new ⟨[1]⟩ "Stream" [7] 0

def announced : List DiscoveryEvent :=
  [.announceStream sampleAnnouncement,.announceProceeds 0 (.ok ()),.announceProceeds 0 (.ok ()),
    .announceProceeds 0 (.ok ())]

def otherAnnouncement : StreamAnnouncement := .new ⟨[2]⟩ "Other" [7] 0

/-- Two streams are announced and one is removed; then the task announces the other again. -/
def announcedAndRemoved : List DiscoveryEvent :=
  announced++[.announceStream otherAnnouncement,.announceProceeds 0 (.ok ()),
    .announceProceeds 0 (.ok ()),.announceProceeds 0 (.ok ()),.spawn,.taskStarts,
    .removeStream ⟨[1]⟩,.removeProceeds 0,.removeProceeds 0,.taskChecks,.announceTick,
    .taskAnnounces 60 (.ok ()),.taskAnnounces 60 (.ok ()),.taskAnnounces 60 (.ok ())]

theorem removed_stays_removed_sample :
    (announcedAndRemoved.foldl (step .default) new).published =
      [sampleAnnouncement,otherAnnouncement,{ otherAnnouncement with announcedAt := 60 }] ∧
    (∀ pre, pre <+: announcedAndRemoved → ∀ a ∈ (pre.foldl (step .default) new).ownStreams,
      a.streamId ∉ (pre.foldl (step .default) new).removed) ∧
    Along (step .default) (Quiet .default) new announcedAndRemoved := by
  refine ⟨by decide,removed_stays_removed .default announcedAndRemoved ?_⟩
  refine ⟨List.not_mem_nil,trivial,trivial,trivial,List.not_mem_nil,trivial,trivial,trivial,trivial,
    trivial,trivial,?_,?_,trivial,trivial,trivial,trivial,trivial,trivial⟩
  · intro id _
    exact List.not_mem_nil
  · intro id heq
    cases heq

/-- The stream is removed after the task has copied the node's own streams. -/
def removedBetween : List DiscoveryEvent :=
  announced++[.spawn,.taskStarts,.taskChecks,.announceTick,.removeStream ⟨[1]⟩,.removeProceeds 0,
    .removeProceeds 0,.taskAnnounces 60 (.ok ()),.taskAnnounces 60 (.ok ()),
    .taskAnnounces 60 (.ok ())]

theorem removed_stream_reannounced :
    let last := removedBetween.foldl (step .default) new
    let again := { sampleAnnouncement with announcedAt := 60 }
    last.removed = {⟨[1]⟩} ∧ last.ownStreams = [again] ∧
    last.published = [sampleAnnouncement,again] ∧
    ¬ ((∀ pre, pre <+: removedBetween → ∀ a ∈ (pre.foldl (step .default) new).ownStreams,
      a.streamId ∉ (pre.foldl (step .default) new).removed) ∧
    Along (step .default) (Quiet .default) new removedBetween) := by
  intro last again
  have hremoved : last.removed = {⟨[1]⟩} := by decide
  have hown : last.ownStreams = [again] := by decide
  refine ⟨hremoved,hown,by decide,?_⟩
  rintro ⟨hstays,_⟩
  have hnot := hstays removedBetween (List.prefix_refl _) again (hown ▸ List.mem_singleton_self _)
  rw [show (removedBetween.foldl (step .default) new).removed = {⟨[1]⟩} from hremoved] at hnot
  exact hnot (Finset.mem_singleton_self _)

end Runs

end StreamDiscovery

end OpenBroadcast.Discovery
