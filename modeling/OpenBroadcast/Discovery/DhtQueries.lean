import OpenBroadcast.Discovery.Dht
import OpenBroadcast.Framework.Run

namespace OpenBroadcast.Discovery.Dht

namespace DhtDiscovery

variable {PeerId : Type} {ids : PeerIds PeerId} {s : DhtDiscovery PeerId}

/-- The swarm is in the slot until the task has taken it, and then it is with the task. -/
inductive Serving (s : DhtDiscovery PeerId) : Prop where
  | untaken (htask : s.Untaken) (hswarm : s.swarm ≠ none)
  | inner (swarm : KademliaSwarm PeerId) (htask : s.task = some (.inner swarm))
    (hswarm : s.swarm = none)
  | wait (swarm : KademliaSwarm PeerId) (htask : s.task = some (.wait swarm))
    (hswarm : s.swarm = none)
  | handle (swarm : KademliaSwarm PeerId) (todo : List TaskAction)
    (htask : s.task = some (.handle swarm todo)) (hswarm : s.swarm = none)

theorem Serving.inLoop (h : Serving s) : s.InLoop := by
  cases h with
  | untaken htask hswarm => rcases htask with htask | htask <;> simp [InLoop,htask]
  | inner swarm htask hswarm => simp [InLoop,htask]
  | wait swarm htask hswarm => simp [InLoop,htask]
  | handle swarm todo htask hswarm => simp [InLoop,htask]

theorem Serving.swarm_iff (h : Serving s) : s.swarm ≠ none ↔ s.Untaken := by
  cases h with
  | untaken htask hswarm => exact ⟨fun _ => htask,fun _ => hswarm⟩
  | inner swarm htask hswarm => simp [Untaken,htask,hswarm]
  | wait swarm htask hswarm => simp [Untaken,htask,hswarm]
  | handle swarm todo htask hswarm => simp [Untaken,htask,hswarm]

theorem Serving.congr {s' : DhtDiscovery PeerId} (h : Serving s) (htask : s'.task = s.task)
    (hswarm : s'.swarm = s.swarm) : Serving s' := by
  cases h with
  | untaken hold hslot =>
    exact .untaken (by simpa only [Untaken,htask] using hold) (by rw [hswarm]; exact hslot)
  | inner swarm hold hslot => exact .inner swarm (htask.trans hold) (hswarm.trans hslot)
  | wait swarm hold hslot => exact .wait swarm (htask.trans hold) (hswarm.trans hslot)
  | handle swarm todo hold hslot =>
    exact .handle swarm todo (htask.trans hold) (hswarm.trans hslot)

/-- The task that finds the flag set goes on. -/
theorem Serving.task (h : Serving s) (hrunning : s.running = true) (event : SwarmEvent PeerId) :
    Serving (s.runSwarmLoop ids event) := by
  cases h with
  | untaken htask hswarm =>
    rcases htask with htask | htask
    · exact .untaken (.inr (by simp [runSwarmLoop,htask,hrunning]))
        (by simpa [runSwarmLoop,htask] using hswarm)
    · obtain ⟨swarm,hslot⟩ := Option.ne_none_iff_exists'.mp hswarm
      exact .inner swarm (by simp [runSwarmLoop,htask,hslot]) (by simp [runSwarmLoop,htask,hslot])
  | inner swarm htask hswarm =>
    exact .wait swarm (by simp [runSwarmLoop,htask,hrunning])
      (by simpa [runSwarmLoop,htask] using hswarm)
  | wait swarm htask hswarm =>
    exact .handle swarm (event.actions ids) (by simp [runSwarmLoop,htask])
      (by simpa [runSwarmLoop,htask] using hswarm)
  | handle swarm todo htask hswarm =>
    cases todo with
    | nil =>
      exact .inner swarm (by simp [runSwarmLoop,htask]) (by simpa [runSwarmLoop,htask] using hswarm)
    | cons action rest =>
      by_cases hwaits : s.waitsForPeers action = true
      · exact .handle swarm (action::rest) (by simp [runSwarmLoop,htask,hwaits])
          (by simpa [runSwarmLoop,htask,hwaits] using hswarm)
      · refine .handle swarm rest (by simp [runSwarmLoop,htask,hwaits]) ?_
        cases action <;> simpa [runSwarmLoop,htask,hwaits,perform] using hswarm

/-- The invariant: without the flag there is no task but one that is just spawned or about to be
aborted; the swarm that `start` has made is in the slot; and the task of a start serves. -/
structure Inv (s : DhtDiscovery PeerId) : Prop where
  idle : s.running = false → s.call ≠ some (.start .setRunning) → s.call ≠ some (.stop .abort) →
    s.task = none
  starting : ∀ stage, s.call = some (.start stage) → s.running = false ∧ s.started = false
  filled : s.call = some (.start .spawn) → s.swarm ≠ none
  spawned : s.call = some (.start .setRunning) → s.task = some .outer ∧ s.swarm ≠ none
  stopping : ∀ stage, s.call = some (.stop stage) → s.started = false
  serving : s.started = true → s.running = true ∧ Serving s

theorem inv_withConfig : Inv (withConfig : DhtDiscovery PeerId) := by
  refine ⟨fun _ _ _ => rfl,?_,?_,?_,?_,?_⟩ <;> simp [withConfig]

/-- What a section that leaves `start`, `stop` and the task alone keeps. -/
theorem Inv.frame {s' : DhtDiscovery PeerId} (h : Inv s) (hrunning : s'.running = s.running)
    (hstarted : s'.started = s.started) (htask : s'.task = s.task) (hswarm : s'.swarm = s.swarm)
    (hstart : ∀ stage, s'.call = some (.start stage) ↔ s.call = some (.start stage))
    (hstop : ∀ stage, s'.call = some (.stop stage) ↔ s.call = some (.stop stage)) : Inv s' where
  idle := by
    rw [hrunning,htask,ne_eq,ne_eq,hstart,hstop]
    exact h.idle
  starting stage := by
    rw [hstart,hrunning,hstarted]
    exact h.starting stage
  filled := by
    rw [hstart,hswarm]
    exact h.filled
  spawned := by
    rw [hstart,htask,hswarm]
    exact h.spawned
  stopping stage := by
    rw [hstop,hstarted]
    exact h.stopping stage
  serving := by
    rw [hstarted,hrunning]
    exact fun hset => ⟨(h.serving hset).1,(h.serving hset).2.congr htask hswarm⟩

theorem Inv.same {s' : DhtDiscovery PeerId} (h : Inv s) (hrunning : s'.running = s.running)
    (hstarted : s'.started = s.started) (htask : s'.task = s.task) (hswarm : s'.swarm = s.swarm)
    (hcall : s'.call = s.call) : Inv s' :=
  h.frame hrunning hstarted htask hswarm (fun _ => by rw [hcall]) (fun _ => by rw [hcall])

theorem inv_startProceeds (h : Inv s) (peer : PeerId) (built : Except String Unit) :
    Inv (s.startProceeds peer built) := by
  cases hcall : s.call with
  | none => simpa only [startProceeds,hcall] using h
  | some call =>
    cases call with
    | stop stage => simpa only [startProceeds,hcall] using h
    | announce peer => simpa only [startProceeds,hcall] using h
    | start stage =>
      have hstarting := h.starting stage hcall
      have hstarted : ∀ P : Prop, s.started = true → P := by
        intro P hset
        rw [hstarting.2] at hset
        cases hset
      cases stage with
      | initSwarm =>
        have htask : s.task = none := by
          apply h.idle hstarting.1 <;> simp [hcall]
        cases built with
        | error e =>
          simp only [startProceeds,hcall]
          refine ⟨fun _ _ _ => htask,?_,?_,?_,?_,hstarted _⟩ <;> simp [reply]
        | ok =>
          simp only [startProceeds,hcall]
          refine ⟨fun _ _ _ => htask,fun _ _ => hstarting,?_,?_,?_,hstarted _⟩ <;> simp
      | spawn =>
        simp only [startProceeds,hcall]
        refine ⟨?_,fun _ _ => hstarting,?_,fun _ => ⟨rfl,h.filled hcall⟩,?_,hstarted _⟩ <;> simp
      | setRunning =>
        obtain ⟨htask,hswarm⟩ := h.spawned hcall
        simp only [startProceeds,hcall]
        refine ⟨?_,?_,?_,?_,?_,fun _ => ⟨rfl,.untaken (.inl htask) hswarm⟩⟩ <;> simp

theorem inv_stopProceeds (h : Inv s) : Inv s.stopProceeds := by
  cases hcall : s.call with
  | none => simpa only [stopProceeds,hcall] using h
  | some call =>
    cases call with
    | start stage => simpa only [stopProceeds,hcall] using h
    | announce peer => simpa only [stopProceeds,hcall] using h
    | stop stage =>
      have hstarted : ∀ P : Prop, s.started = true → P := by
        intro P hset
        rw [h.stopping stage hcall] at hset
        cases hset
      cases stage with
      | abort =>
        simp only [stopProceeds,hcall]
        refine ⟨fun _ _ _ => rfl,?_,?_,?_,fun _ _ => h.stopping .abort hcall,hstarted _⟩ <;> simp
      | clearSwarm =>
        simp only [stopProceeds,hcall]
        refine ⟨fun hrunning _ _ => ?_,?_,?_,?_,?_,hstarted _⟩
        · apply h.idle hrunning <;> simp [hcall]
        all_goals simp

variable (ids s) in
theorem runSwarmLoop_frame (event : SwarmEvent PeerId) :
    (s.runSwarmLoop ids event).running = s.running ∧
    (s.runSwarmLoop ids event).started = s.started ∧
    (s.runSwarmLoop ids event).call = s.call ∧
    (s.runSwarmLoop ids event).replies = s.replies := by
  unfold runSwarmLoop
  split
  · exact ⟨rfl,rfl,rfl,rfl⟩
  · exact ⟨rfl,rfl,rfl,rfl⟩
  · exact ⟨rfl,rfl,rfl,rfl⟩
  · split <;> exact ⟨rfl,rfl,rfl,rfl⟩
  · exact ⟨rfl,rfl,rfl,rfl⟩
  · exact ⟨rfl,rfl,rfl,rfl⟩
  · exact ⟨rfl,rfl,rfl,rfl⟩
  · next swarm action rest htask =>
    split_ifs
    · exact ⟨rfl,rfl,rfl,rfl⟩
    · cases action <;> exact ⟨rfl,rfl,rfl,rfl⟩
  · exact ⟨rfl,rfl,rfl,rfl⟩

/-- While a start is under way, the task does nothing before it is spawned. -/
theorem inv_runSwarmLoop (h : Inv s) (event : SwarmEvent PeerId)
    (hflag : s.call ≠ some (.start .setRunning)) : Inv (s.runSwarmLoop ids event) := by
  obtain ⟨hrunning,hstarted,hcall,_⟩ := runSwarmLoop_frame ids s event
  have hnone : s.task = none → s.runSwarmLoop ids event = s := by
    intro htask
    simp only [runSwarmLoop,htask]
  refine ⟨?_,?_,?_,?_,?_,?_⟩
  · intro hclear hspawned habort
    rw [hrunning] at hclear
    rw [hcall] at hspawned habort
    have htask := h.idle hclear hspawned habort
    rw [hnone htask]
    exact htask
  · rw [hrunning,hstarted,hcall]
    exact h.starting
  · intro hspawn
    rw [hcall] at hspawn
    have htask : s.task = none := by
      apply h.idle (h.starting _ hspawn).1 hflag
      rw [hspawn]
      exact fun heq => by cases heq
    rw [hnone htask]
    exact h.filled hspawn
  · intro hspawned
    rw [hcall] at hspawned
    exact absurd hspawned hflag
  · rw [hstarted,hcall]
    exact h.stopping
  · rw [hstarted,hrunning]
    exact fun hset => ⟨(h.serving hset).1,(h.serving hset).2.task (h.serving hset).1 event⟩

theorem inv_announce (h : Inv s) (hfree : s.call = none) (info : PeerInfo) :
    Inv (s.announce ids info) := by
  unfold announce
  split
  · exact h.same rfl rfl rfl rfl rfl
  · apply h.frame <;> simp [hfree]

theorem inv_announceProceeds (h : Inv s) (provided : Except String Nat) :
    Inv (s.announceProceeds ids provided) := by
  unfold announceProceeds
  split
  · next peer hcall =>
    dsimp only
    split
    · apply h.frame <;> simp [hcall,reply]
    · split <;> apply h.frame <;> simp [hcall,reply,track]
  · exact h

theorem inv_sharedProceeds (h : Inv s) (k query : Nat) : Inv (s.sharedProceeds ids k query) := by
  unfold sharedProceeds
  split
  · exact h
  · dsimp only
    split
    · exact h.same rfl rfl rfl rfl rfl
    · split <;> exact h.same rfl rfl rfl rfl rfl
    · exact h.same rfl rfl rfl rfl rfl
    · exact h.same rfl rfl rfl rfl rfl

theorem call_none_of_free (hfree : ¬ (!s.free) = true) : s.call = none := by
  have hboth : s.call = none ∧ s.shared = [] := by simpa [free] using hfree
  exact hboth.1

theorem inv_step (h : Inv s) {e : DhtEvent PeerId} (hflag : s.FlagFirst e) :
    Inv (s.step ids e) := by
  cases e with
  | start =>
    simp only [step]
    split_ifs with hfree hrunning
    · exact h
    · exact h.same rfl rfl rfl rfl rfl
    · have hcall := call_none_of_free hfree
      have hclear : s.running = false := by simpa using hrunning
      have hstarted : s.started = false := by
        by_contra hset
        exact hrunning (h.serving (by simpa using hset)).1
      refine ⟨fun _ _ _ => ?_,fun _ _ => ⟨hclear,hstarted⟩,?_,?_,?_,fun hset => ?_⟩
      · apply h.idle hclear <;> simp [hcall]
      · simp
      · simp
      · simp
      · exact absurd hset (by simp [hstarted])
  | startProceeds peer built => exact inv_startProceeds h peer built
  | stop =>
    simp only [step]
    split_ifs with hfree hrunning
    · exact h
    · exact h.same rfl rfl rfl rfl rfl
    · refine ⟨?_,?_,?_,?_,?_,?_⟩ <;> simp
  | stopProceeds => exact inv_stopProceeds h
  | announce info =>
    simp only [step]
    split_ifs with hfree
    · exact h
    · exact inv_announce h (call_none_of_free hfree) info
  | announceProceeds provided => exact inv_announceProceeds h provided
  | lookupPeer id =>
    simp only [step,lookupPeer]
    split_ifs
    · exact h
    · split <;> exact h.same rfl rfl rfl rfl rfl
  | findPeers order criteria =>
    simp only [step]
    split_ifs
    · exact h
    · exact h.same rfl rfl rfl rfl rfl
  | sharedProceeds k query => exact inv_sharedProceeds h k query
  | task event => exact inv_runSwarmLoop h event (hflag event rfl)

theorem asked_same {s' : DhtDiscovery PeerId} (h : s'.replies = s.replies) : s.Asked s' := by
  intro r hr
  rw [h,List.drop_length] at hr
  cases hr

theorem asked_without {s' : DhtDiscovery PeerId} {reply : Reply} (hasks : reply.asks = false)
    (h : s'.replies = s.replies++[(reply,none)]) : s.Asked s' := by
  intro r hr hr'
  rw [h,List.drop_left,List.mem_singleton] at hr
  rw [hr,hasks] at hr'
  cases hr'

theorem asked_with {s' : DhtDiscovery PeerId} {reply : Reply} {query : Nat}
    (h : s'.replies = s.replies++[(reply,some query)]) (hquery : query ∈ s'.activeQueries) :
    s.Asked s' := by
  intro r hr _
  rw [h,List.drop_left,List.mem_singleton] at hr
  exact ⟨query,by rw [hr],hquery⟩

theorem not_asked {s' : DhtDiscovery PeerId} {reply : Reply} (hasks : reply.asks = true)
    (h : s'.replies = s.replies++[(reply,none)]) : ¬ s.Asked s' := by
  intro hall
  rw [Asked,h,List.drop_left] at hall
  obtain ⟨query,hquery,_⟩ := hall _ (List.mem_singleton_self _) hasks
  cases hquery

/-- The replies of the sections that do not come to the swarm need no query. -/
theorem queried_of_not_atSwarm {e : DhtEvent PeerId} (hnot : ¬ s.AtSwarm e) : s.Queried ids e := by
  intro hstarted
  have hnone : ∀ P : Prop, s.AtSwarm e → P := fun _ hat => absurd hat hnot
  cases e with
  | start =>
    simp only [step]
    split_ifs
    · exact asked_same rfl
    · exact asked_without rfl rfl
    · exact asked_same rfl
  | startProceeds peer built =>
    simp only [step,startProceeds]
    split
    · split
      · exact asked_without rfl rfl
      · exact asked_same rfl
    · exact asked_same rfl
    · exact asked_same rfl
    · exact asked_same rfl
  | stop =>
    simp only [step]
    split_ifs
    · exact asked_same rfl
    · exact asked_without rfl rfl
    · exact asked_same rfl
  | stopProceeds =>
    simp only [step,stopProceeds]
    split <;> exact asked_same rfl
  | announce info =>
    simp only [step,announce]
    split_ifs
    · exact asked_same rfl
    · split
      · exact asked_without rfl rfl
      · exact asked_same rfl
  | announceProceeds provided =>
    simp only [step,announceProceeds]
    split
    · next peer hcall =>
      exact hnone _ ⟨hstarted,by simp [peersLocked,hcall]⟩
    · exact asked_same rfl
  | lookupPeer id =>
    simp only [step,lookupPeer]
    split_ifs
    · exact asked_same rfl
    · split
      · exact asked_without rfl rfl
      · exact asked_same rfl
  | findPeers order criteria =>
    simp only [step]
    split_ifs <;> exact asked_same rfl
  | sharedProceeds k query =>
    simp only [step,sharedProceeds]
    split
    · exact asked_same rfl
    · next call hcall => exact hnone _ ⟨hstarted,(List.getElem?_eq_some_iff.mp hcall).1⟩
  | task event => exact asked_same (runSwarmLoop_frame ids s event).2.2.2

/-- A call that comes to the swarm issues its query exactly if it finds the swarm in the slot. -/
theorem queried_iff_of_atSwarm {e : DhtEvent PeerId} (hat : s.AtSwarm e) :
    s.Queried ids e ↔ s.swarm ≠ none := by
  obtain ⟨hstarted,hat⟩ := hat
  have hasked : s.Queried ids e ↔ s.Asked (s.step ids e) := ⟨fun h => h hstarted,fun h _ => h⟩
  rw [hasked]
  cases e with
  | announceProceeds provided =>
    obtain ⟨peer,hcall⟩ : ∃ peer, s.call = some (.announce peer) := by
      revert hat
      simp only [peersLocked]
      split
      · next peer hcall => exact fun _ => ⟨peer,hcall⟩
      · exact fun hlocked => by cases hlocked
    simp only [step,announceProceeds,hcall]
    cases s.swarm with
    | none => exact iff_of_false (not_asked rfl rfl) (not_not.mpr rfl)
    | some swarm =>
      apply iff_of_true _ (Option.some_ne_none swarm)
      cases provided with
      | error e => exact asked_without rfl rfl
      | ok query => exact asked_with rfl (Finmap.mem_insert.mpr (.inl rfl))
  | sharedProceeds k query =>
    simp only [step,sharedProceeds,List.getElem?_eq_getElem hat]
    cases s.swarm with
    | none =>
      apply iff_of_false _ (not_not.mpr rfl)
      cases s.shared[k] with
      | lookupPeer id => exact not_asked rfl rfl
      | findPeers criteria known => exact not_asked rfl rfl
    | some swarm =>
      apply iff_of_true _ (Option.some_ne_none swarm)
      cases s.shared[k] with
      | lookupPeer id =>
        dsimp only
        split
        · exact asked_without rfl rfl
        · exact asked_with rfl (Finmap.mem_insert.mpr (.inl rfl))
      | findPeers criteria known => exact asked_with rfl (Finmap.mem_insert.mpr (.inl rfl))
  | _ => cases hat

/-- With the swarm in the slot until the task takes it, that is before the task has taken it. -/
theorem queried_iff (h : Inv s) (e : DhtEvent PeerId) : s.Queried ids e ↔ s.BeforeTaken e := by
  by_cases hat : s.AtSwarm e
  · rw [queried_iff_of_atSwarm hat,(h.serving hat.1).2.swarm_iff]
    exact ⟨fun huntaken _ => huntaken,fun hbefore => hbefore hat⟩
  · exact iff_of_true (queried_of_not_atSwarm hat) (fun h => absurd h hat)

/-- In runs in which the task does not look at the flag before it is set, the task is in its loop
while the service is started, and the service asks for whatever it answers exactly if every call
comes to the swarm before the task has taken it. -/
theorem answers_while_running (ids : PeerIds PeerId) (es : List (DhtEvent PeerId))
    (h : Along (step ids) FlagFirst withConfig es) :
    (∀ pre, pre <+: es → (pre.foldl (step ids) withConfig).started = true →
      (pre.foldl (step ids) withConfig).InLoop) ∧
    (Along (step ids) (Queried ids) withConfig es ↔
      Along (step ids) BeforeTaken withConfig es) := by
  have hstep : ∀ (s : DhtDiscovery PeerId) (e : DhtEvent PeerId), Inv s → s.FlagFirst e →
      Inv (s.step ids e) := fun _ _ hs hflag => inv_step hs hflag
  constructor
  · intro pre hpre hstarted
    have hinv := (h.of_prefix hpre).invariant Inv inv_withConfig hstep
    exact (hinv.serving hstarted).2.inLoop
  · exact along_congr_of_invariant Inv h inv_withConfig hstep (fun _ e hs _ => queried_iff hs e)

/-- Ids of one byte. -/
def byteIds : PeerIds UInt8 where
  fromBytes
    | [b] => .ok b
    | _ => .error "length"
  toBytes b := [b]
  toText b := toString b.toNat

def starting : List (DhtEvent UInt8) :=
  [.start,.startProceeds 1 (.ok ()),.startProceeds 1 (.ok ()),.startProceeds 1 (.ok ())]

def announcing : List (DhtEvent UInt8) := [.announce ⟨[2],[]⟩,.announceProceeds (.ok 5)]

theorem answers_while_running_early :
    (∀ pre, pre <+: starting++announcing →
      (pre.foldl (step byteIds) withConfig).started = true →
        (pre.foldl (step byteIds) withConfig).InLoop) ∧
    Along (step byteIds) (Queried byteIds) withConfig (starting++announcing) := by
  have h : Along (step byteIds) FlagFirst withConfig (starting++announcing) := by
    refine ⟨?_,?_,?_,?_,?_,?_,trivial⟩ <;> exact fun event heq => by cases heq
  obtain ⟨hloop,hiff⟩ := answers_while_running byteIds (starting++announcing) h
  refine ⟨hloop,hiff.mpr ⟨?_,?_,?_,?_,?_,?_,trivial⟩⟩
  iterate 5 exact fun hat => hat.2.elim
  exact fun _ => .inl rfl

/-- The task looks at the flag before it is set. -/
def flagLate : List (DhtEvent UInt8) :=
  [.start,.startProceeds 1 (.ok ()),.startProceeds 1 (.ok ()),.task .other,
    .startProceeds 1 (.ok ())]

/-- A peer is announced after the task has taken the swarm. -/
def announcedLate : List (DhtEvent UInt8) :=
  starting++[.task .other,.task .other]++announcing

theorem silent_while_running :
    ((flagLate.foldl (step byteIds) withConfig).started = true ∧
      ¬ (flagLate.foldl (step byteIds) withConfig).InLoop) ∧
    ((announcedLate.foldl (step byteIds) withConfig).started = true ∧
      (announcedLate.foldl (step byteIds) withConfig).replies = [(.announced,none)] ∧
      (announcedLate.foldl (step byteIds) withConfig).activeQueries = ∅) ∧
    ¬ Along (step byteIds) (Queried byteIds) withConfig announcedLate := by
  have hflag : (flagLate.foldl (step byteIds) withConfig).started = true ∧
      (flagLate.foldl (step byteIds) withConfig).task = some .left := by decide
  refine ⟨⟨hflag.1,fun hloop => hloop.2 hflag.2⟩,by decide,?_⟩
  rintro ⟨_,_,_,_,_,_,_,hlast,_⟩
  obtain ⟨query,hquery,_⟩ := hlast rfl (.announced,none) (by decide) rfl
  cases hquery

end DhtDiscovery

end OpenBroadcast.Discovery.Dht
