import OpenBroadcast.Signaling.Capacity

namespace OpenBroadcast.Signaling

/-- The room that the handler has entered, without having recorded the time. -/
def Handler.unstamped : Handler → Option Text
  | .entered sid _ => some sid
  | _ => none

/-- The handler is about to take its peer out of its room. -/
def Handler.quits : Handler → Bool
  | .leavingRoom _ => true
  | _ => false

theorem Handler.Moves.unstamped {ok : Bool} {p : Text} {h h' : Handler}
    (hm : Handler.Moves ok p h h') : h.unstamped = none ∧ h'.unstamped = none := by
  cases hm with
  | receive m => cases m <;> exact ⟨rfl,rfl⟩
  | _ => exact ⟨rfl,rfl⟩

namespace Server

section Leaks

/-- The rooms that have a timestamp, or will get one from a join that is under way, exist. -/
structure Stamped (streams : HashMap Text (List SignalingPeer)) (stamps : HashMap Text Nat)
    (seats : List Seat) : Prop where
  stamp : ∀ sid ∈ stamps, sid ∈ streams
  pending : ∀ c ∈ seats, ∀ sid ∈ c.handler.unstamped, sid ∈ streams

/-- Leaves, the ends of connections and kicks take out of its room no peer that is the last one
there, and the idle cleanup removes no room that a join has entered but not stamped. -/
def KeepsRooms (cfg : WebServerConfig) (s : Server) : ServerEvent → Prop
  | .advance k => ∀ c ∈ s.seats[k]?, c.handler.quits → ∀ sid ∈ c.currentStreamId,
      ∀ peers ∈ s.streams.lookup sid, others peers c.peerId ≠ []
  | .kick i _ => ∀ kick ∈ s.kicks[i]?, ∀ p ∈ kick.evicts, ∀ sid ∈ s.streams.keys,
      ∀ peers ∈ s.streams.lookup sid, others peers p ≠ []
  | .cleanup => ∀ now ∈ s.cleanupNow, ∀ c ∈ s.seats, ∀ sid ∈ c.handler.unstamped,
      ∀ peers ∈ s.streams.lookup sid, ¬ s.isStale cfg now sid peers
  | _ => True

variable {cfg : WebServerConfig} {s : Server}

section Rooms

variable {streams streams' : HashMap Text (List SignalingPeer)} {stamps : HashMap Text Nat}
  {seats : List Seat} {p x : Text}

theorem mem_filter_others {room : Option (List SignalingPeer)} (hroom : room.isSome)
    (hne : ∀ peers ∈ room, others peers p ≠ []) :
    ((room.map (fun peers => others peers p)).filter (fun peers => !peers.isEmpty)).isSome := by
  obtain ⟨peers,rfl⟩ := Option.isSome_iff_exists.mp hroom
  have hothers := hne peers rfl
  simp [Option.filter,hothers]

theorem mem_withoutPeer {current : Option Text} (hx : x ∈ streams)
    (hne : ∀ sid ∈ current, ∀ peers ∈ streams.lookup sid, others peers p ≠ []) :
    x ∈ withoutPeer streams p current := by
  rw [← Finmap.lookup_isSome] at hx ⊢
  rw [lookup_withoutPeer]
  split_ifs with hcurrent
  · exact mem_filter_others hx (fun peers hpeers => hne x hcurrent peers hpeers)
  · exact hx

theorem mem_evicted (hx : x ∈ streams)
    (hne : ∀ peers ∈ streams.lookup x, others peers p ≠ []) : x ∈ evicted streams p := by
  rw [← Finmap.lookup_isSome] at hx ⊢
  rw [lookup_evicted]
  exact mem_filter_others hx hne

theorem mem_idleCleanup {now : Nat} (hx : x ∈ s.streams)
    (hfresh : ∀ peers ∈ s.streams.lookup x, ¬ s.isStale cfg now x peers) :
    x ∈ (s.idleCleanup cfg now).streams := by
  obtain ⟨peers,hpeers⟩ := Finmap.mem_iff.mp hx
  rw [← Finmap.lookup_isSome,lookup_idleCleanup,hpeers]
  have := hfresh peers hpeers
  simp [Option.filter,this]

/-- The timestamps of the rooms that are removed are removed, and no others. -/
theorem lookup_stamps_idleCleanup {now last : Nat} :
    (s.idleCleanup cfg now).streamLastActive.lookup x = some last ↔
      s.streamLastActive.lookup x = some last ∧
        ∀ peers ∈ s.streams.lookup x, ¬ s.isStale cfg now x peers := by
  rw [idleCleanup,HashMap.lookup_retain,Option.filter_eq_some_iff]
  cases s.streams.lookup x <;> simp

theorem Stamped.rooms (h : Stamped streams stamps seats) (hrooms : ∀ x ∈ streams, x ∈ streams') :
    Stamped streams' stamps seats :=
  ⟨fun x hx => hrooms x (h.stamp x hx),fun c hc x hx => hrooms x (h.pending c hc x hx)⟩

theorem Stamped.insert (h : Stamped streams stamps seats) (sid : Text) (peers : List SignalingPeer) :
    Stamped (streams.insert sid peers) stamps seats :=
  h.rooms (fun _ hx => Finmap.mem_insert.mpr (Or.inr hx))

/-- The handler of a connection goes on. -/
theorem Stamped.set (h : Stamped streams stamps seats) {k : Nat} {c : Seat}
    (hc : ∀ x ∈ c.handler.unstamped, x ∈ streams) : Stamped streams stamps (seats.set k c) := by
  exact ⟨h.stamp,forall_mem_set h.pending hc⟩

theorem Stamped.setNone (h : Stamped streams stamps seats) {k : Nat} {c : Seat}
    (hc : c.handler.unstamped = none) : Stamped streams stamps (seats.set k c) := by
  apply h.set
  intro x hx
  rw [hc] at hx
  cases hx

end Rooms

theorem step_stamped (h : Stamped s.streams s.streamLastActive s.seats) (e : ServerEvent)
    (keeps : KeepsRooms cfg s e) :
    Stamped (s.step cfg e).streams (s.step cfg e).streamLastActive (s.step cfg e).seats := by
  have hchange := step_change cfg s e
  change Stamped (s.step cfg e).registry.streams (s.step cfg e).registry.streamLastActive
    (s.step cfg e).registry.seats
  generalize (s.step cfg e).registry = r at hchange ⊢
  cases hchange with
  | stay => exact h
  | connect u =>
    refine ⟨h.stamp,?_⟩
    intro c hc x hx
    rcases List.mem_append.mp hc with hc | hc
    · exact h.pending c hc x hx
    · rw [List.mem_singleton] at hc
      subst hc
      cases hx
  | move _ hk hm => exact h.setNone hm.unstamped.2
  | @enter k c sid pub hk hh room =>
    apply (h.insert sid _).set
    intro x hx
    cases hx
    exact Finmap.mem_insert.mpr (Or.inl rfl)
  | @stamp k c sid pub hk hh =>
    have hset := h.setNone (k := k) (c := { c with handler := .stamped sid pub }) rfl
    refine ⟨?_,hset.pending⟩
    intro x hx
    rcases Finmap.mem_insert.mp hx with rfl | hx
    · apply h.pending c (List.mem_of_getElem? hk)
      rw [hh]
      rfl
    · exact h.stamp x hx
  | sit => exact h.setNone rfl
  | update h' _ _ _ _ hh' =>
    apply (h.insert _ _).setNone
    rcases hh' with rfl | ⟨_,m,rfl⟩
    · rfl
    · rfl
  | resign => exact h.setNone rfl
  | @leave k c c' closing hk hh hc' =>
    have hquits : c.handler.quits = true := by rw [hh]; rfl
    have hkept := h.rooms (fun x hx => mem_withoutPeer hx (keeps c hk hquits))
    apply hkept.setNone
    rw [hc']
    split_ifs <;> rfl
  | @evict i p H hi =>
    apply h.rooms
    exact fun x hx => mem_evicted hx (keeps _ hi p rfl x (Finmap.mem_keys.mpr hx))
  | mute => exact h
  | @sweep now hnow =>
    constructor
    · intro x hx
      obtain ⟨last,hlast⟩ := Finmap.mem_iff.mp hx
      obtain ⟨hold,hkept⟩ := lookup_stamps_idleCleanup.mp hlast
      exact mem_idleCleanup (h.stamp x (Finmap.mem_of_lookup_eq_some hold)) hkept
    · intro c hc x hx
      apply mem_idleCleanup (h.pending c hc x hx)
      exact keeps now hnow c hc x hx

theorem step_card_rooms (h : s.streams.keys.card ≤ cfg.maxStreamRooms) (e : ServerEvent) :
    (s.step cfg e).streams.keys.card ≤ cfg.maxStreamRooms := by
  have fewer {streams : HashMap Text (List SignalingPeer)}
      (hrooms : ∀ x ∈ streams, x ∈ s.streams) : streams.keys.card ≤ cfg.maxStreamRooms := by
    apply (Finset.card_le_card _).trans h
    intro x hx
    exact Finmap.mem_keys.mpr (hrooms x (Finmap.mem_keys.mp hx))
  have hchange := step_change cfg s e
  change (s.step cfg e).registry.streams.keys.card ≤ _
  generalize (s.step cfg e).registry = r at hchange ⊢
  cases hchange with
  | enter _ _ room => exact card_rooms_enter h room _
  | update _ _ _ _ hsid _ =>
    dsimp only
    rw [keys_insert_of_lookup hsid]
    exact h
  | leave => exact fewer (fun x hx => mem_of_mem_withoutPeer _ _ x _ hx)
  | evict => exact fewer (fun x hx => mem_of_mem_evicted _ _ x hx)
  | sweep => exact fewer (fun x hx => mem_of_mem_idleCleanup x cfg s _ hx)
  | _ => exact h

/-- In every run in which rooms are deleted by the idle cleanup only, and by this not in the middle
of a join, every timestamp is that of a room, so there are at most `max_stream_rooms`. -/
theorem run_no_stamp_leak (cfg : WebServerConfig) (moderation : Option ModerationManager)
    (es : List ServerEvent) (keeps : Along (step cfg) (KeepsRooms cfg) (new moderation) es) :
    (run cfg moderation es).streamLastActive.keys ⊆ (run cfg moderation es).streams.keys ∧
    (run cfg moderation es).streamLastActive.keys.card ≤ cfg.maxStreamRooms := by
  have hstamped : Stamped (run cfg moderation es).streams
      (run cfg moderation es).streamLastActive (run cfg moderation es).seats := by
    apply keeps.invariant (fun s => Stamped s.streams s.streamLastActive s.seats)
    · exact ⟨fun x hx => absurd hx Finmap.notMem_empty,by simp [new,seats]⟩
    · exact fun s e h hok => step_stamped h e hok
  have hrooms : (run cfg moderation es).streams.keys.card ≤ cfg.maxStreamRooms := by
    apply (along_true (step cfg) (new moderation) es).invariant
      (fun s => s.streams.keys.card ≤ cfg.maxStreamRooms)
    · exact Nat.zero_le _
    · exact fun s e h _ => step_card_rooms h e
  have hsub : (run cfg moderation es).streamLastActive.keys ⊆
      (run cfg moderation es).streams.keys := by
    intro x hx
    exact Finmap.mem_keys.mpr (hstamped.stamp x (Finmap.mem_keys.mp hx))
  exact ⟨hsub,(Finset.card_le_card hsub).trans hrooms⟩

instance (cfg : WebServerConfig) (s : Server) (e : ServerEvent) : Decidable (KeepsRooms cfg s e) :=
  match e with
  | .advance k => inferInstanceAs (Decidable (∀ c ∈ s.seats[k]?, c.handler.quits →
      ∀ sid ∈ c.currentStreamId, ∀ peers ∈ s.streams.lookup sid, others peers c.peerId ≠ []))
  | .kick i _ => inferInstanceAs (Decidable (∀ kick ∈ s.kicks[i]?, ∀ p ∈ kick.evicts,
      ∀ sid ∈ s.streams.keys, ∀ peers ∈ s.streams.lookup sid, others peers p ≠ []))
  | .cleanup => inferInstanceAs (Decidable (∀ now ∈ s.cleanupNow, ∀ c ∈ s.seats,
      ∀ sid ∈ c.handler.unstamped, ∀ peers ∈ s.streams.lookup sid,
        ¬ s.isStale cfg now sid peers))
  | .connect _ | .receive _ _ | .invalid _ _ | .forward _ | .deliver _ | .forwarderEnds _
  | .disconnect _ | .block _ | .unblock _ | .whitelist _ | .removeWhitelist _
  | .tick _ | .cleanupTick => .isTrue trivial

/-- The clock goes on by some seconds, and the cleanup task runs. -/
def cleanUpAfter (secs : Nat) : List ServerEvent := [.tick (secs*10^9),.cleanupTick,.cleanup]

def sharedRoom : List ServerEvent :=
  [.connect (Network.sampleUuid 1),.connect (Network.sampleUuid 2)]++
    joinRoom 0 ['a']++joinRoom 1 ['a']++quitRoom 0++cleanUpAfter 301

theorem run_no_stamp_leak_sharedRoom :
    Along (step Network.sampleConfig) (KeepsRooms Network.sampleConfig) (new none) sharedRoom ∧
    (run Network.sampleConfig none sharedRoom).streamLastActive.keys ⊆
      (run Network.sampleConfig none sharedRoom).streams.keys ∧
    (run Network.sampleConfig none sharedRoom).streamLastActive.keys.card ≤ 20 := by
  have keeps : Along (step Network.sampleConfig) (KeepsRooms Network.sampleConfig) (new none)
      sharedRoom := by decide +kernel
  exact ⟨keeps,run_no_stamp_leak Network.sampleConfig none sharedRoom keeps⟩

/-- The last peer leaves its room, and the timestamp stays, also after a cleanup. -/
theorem left_room_leaks_stamp :
    (∀ c ∈ (run Network.sampleConfig none (joinAndLeave++cleanUpAfter 301)).connections,
      c.handler = .idle) ∧
    ['a'] ∈ (run Network.sampleConfig none
      (joinAndLeave++cleanUpAfter 301)).streamLastActive.keys ∧
    ['a'] ∉ (run Network.sampleConfig none (joinAndLeave++cleanUpAfter 301)).streams.keys := by
  decide +kernel

end Leaks

section Activity

/-- What the members of the rooms do, with the time at which they do it. -/
inductive Activity where
  | joined (peerId streamId : Text) (time : Nat)
  | sent (peerId : Text) (time : Nat)
  deriving DecidableEq

/-- The messages with which a member of a room is active. -/
def isActivity : SignalingMessage → Bool
  | .offer _ _ _ => true
  | .answer _ _ _ => true
  | .iceCandidate _ _ _ _ _ => true
  | .peerUpdate _ _ _ _ => true
  | _ => false

/-- The activity in one step: a join that is let into its room, or a message that is taken up. -/
def activity (cfg : WebServerConfig) (s : Server) : ServerEvent → List Activity
  | .advance k =>
    match s.seats[k]? with
    | some ⟨p,_,.allowed sid _⟩ => if Admits cfg s.streams p sid then [.joined p sid s.clock] else []
    | _ => []
  | .receive k m =>
    match s.seats[k]? with
    | some ⟨p,_,.idle⟩ => if isActivity m then [.sent p s.clock] else []
    | _ => []
  | _ => []

/-- A server together with all activity so far, which the server itself does not record. -/
structure Watched where
  server : Server
  history : List Activity

def Watched.step (cfg : WebServerConfig) (w : Watched) (e : ServerEvent) : Watched :=
  ⟨w.server.step cfg e,w.history++w.server.activity cfg e⟩

def watch (cfg : WebServerConfig) (moderation : Option ModerationManager) (es : List ServerEvent) :
    Watched :=
  es.foldl (Watched.step cfg) ⟨new moderation,[]⟩

/-- The time is at least `idle_cleanup_secs` before `now`. -/
def LongAgo (cfg : WebServerConfig) (now t : Nat) : Prop := cfg.idleCleanupSecs*10^9 ≤ now-t

instance (cfg : WebServerConfig) (now t : Nat) : Decidable (LongAgo cfg now t) :=
  inferInstanceAs (Decidable (cfg.idleCleanupSecs*10^9 ≤ now-t))

/-- A cleanup at this point removes no room with a member that has joined it or sent a message in
the last `idle_cleanup_secs`. -/
def SparesActive (cfg : WebServerConfig) (w : Watched) : Prop :=
  ∀ now, w.server.cleanupNow = some now → ∀ p sid, Listed w.server.streams p sid →
    sid ∉ (w.server.step cfg .cleanup).streams →
      (∀ t, .joined p sid t ∈ w.history → LongAgo cfg now t) ∧
      (∀ t, .sent p t ∈ w.history → LongAgo cfg now t)

/-- The timestamp of the room is older than `idle_cleanup_secs`. -/
def Overdue (cfg : WebServerConfig) (s : Server) (now : Nat) (sid : Text) : Prop :=
  ∃ last, s.streamLastActive.lookup sid = some last ∧ cfg.idleCleanupSecs < (now-last)/10^9

/-- No member of a room that is overdue has sent a message in the last `idle_cleanup_secs`, or is
in the middle of a join and has entered the room, but not renewed its timestamp, in this time. -/
def Quiet (cfg : WebServerConfig) (w : Watched) : Prop :=
  ∀ now, w.server.cleanupNow = some now → ∀ p sid, Listed w.server.streams p sid →
    Overdue cfg w.server now sid →
      (∀ c ∈ w.server.seats, c.peerId = p → c.handler.unstamped = some sid →
        ∀ t, .joined p sid t ∈ w.history → LongAgo cfg now t) ∧
      (∀ t, .sent p t ∈ w.history → LongAgo cfg now t)

variable {cfg : WebServerConfig} {w : Watched}

/-- A room that somebody joined has been stamped since, or the join is about to do so. -/
def Renewal (stamps : HashMap Text Nat) (seats : List Seat) (p sid : Text) (t : Nat) : Prop :=
  (∃ last, stamps.lookup sid = some last ∧ t ≤ last) ∨
  ∃ c ∈ seats, c.peerId = p ∧ c.handler.unstamped = some sid

structure Renewed (w : Watched) : Prop where
  past : ∀ p sid t, .joined p sid t ∈ w.history → t ≤ w.server.clock
  renewal : ∀ p sid t, .joined p sid t ∈ w.history → Listed w.server.streams p sid →
    Renewal w.server.streamLastActive w.server.seats p sid t

theorem joined_mem_activity {s : Server} {e : ServerEvent} {p sid : Text} {t : Nat}
    (h : .joined p sid t ∈ s.activity cfg e) :
    t = s.clock ∧ ∃ k c pub, e = .advance k ∧ s.seats[k]? = some c ∧ c.peerId = p ∧
      c.handler = .allowed sid pub ∧ Admits cfg s.streams p sid := by
  unfold activity at h
  split at h
  · split at h
    · next hk =>
      split_ifs at h with room
      · rw [List.mem_singleton] at h
        cases h
        exact ⟨rfl,_,_,_,rfl,hk,rfl,rfl,room⟩
      · cases h
    · cases h
  · split at h
    · split_ifs at h
      · rw [List.mem_singleton] at h
        cases h
      · cases h
    · cases h
  · cases h

theorem Renewal.mono {stamps stamps' : HashMap Text Nat} {seats seats' : List Seat} {p sid : Text}
    {t : Nat} (h : Renewal stamps seats p sid t)
    (hstamps : ∀ last, stamps.lookup sid = some last → stamps'.lookup sid = some last)
    (hseats : ∀ c ∈ seats, c.handler.unstamped = some sid → c ∈ seats') :
    Renewal stamps' seats' p sid t := by
  rcases h with ⟨last,hlast,hle⟩ | ⟨c,hc,hid,hh⟩
  · exact Or.inl ⟨last,hstamps last hlast,hle⟩
  · exact Or.inr ⟨c,hseats c hc hh,hid,hh⟩

/-- A seat stays where another one is changed. -/
theorem mem_set_of_ne {l : List Seat} {k : Nat} {c c' d : Seat} (hd : d ∈ l)
    (hk : l[k]? = some c) (hne : d ≠ c) : d ∈ l.set k c' := by
  obtain ⟨i,hi⟩ := List.mem_iff_getElem?.mp hd
  have hki : k ≠ i := by
    intro h
    subst h
    rw [hk] at hi
    exact hne (Option.some.inj hi).symm
  apply List.mem_iff_getElem?.mpr
  exact ⟨i,by rw [List.getElem?_set_ne hki,hi]⟩

/-- The handler of a connection that has nothing to stamp goes on. -/
theorem Renewal.set {stamps : HashMap Text Nat} {seats : List Seat} {p sid : Text} {t k : Nat}
    {c c' : Seat} (h : Renewal stamps seats p sid t) (hk : seats[k]? = some c)
    (hc : c.handler.unstamped ≠ some sid) : Renewal stamps (seats.set k c') p sid t := by
  apply h.mono (fun _ hlast => hlast)
  intro d hd hh
  apply mem_set_of_ne hd hk
  intro hdc
  rw [hdc] at hh
  exact hc hh

theorem Renewal.setNone {stamps : HashMap Text Nat} {seats : List Seat} {p sid : Text} {t k : Nat}
    {c c' : Seat} (h : Renewal stamps seats p sid t) (hk : seats[k]? = some c)
    (hc : c.handler.unstamped = none) : Renewal stamps (seats.set k c') p sid t := by
  apply h.set hk
  rw [hc]
  nofun

theorem step_renewal {s : Server} {e : ServerEvent} {p sid : Text} {t : Nat} (past : t ≤ s.clock)
    (h : Listed s.streams p sid → Renewal s.streamLastActive s.seats p sid t)
    (hl : Listed (s.step cfg e).streams p sid) :
    Renewal (s.step cfg e).streamLastActive (s.step cfg e).seats p sid t := by
  have hchange := step_change cfg s e
  change Listed (s.step cfg e).registry.streams p sid at hl
  change Renewal (s.step cfg e).registry.streamLastActive (s.step cfg e).registry.seats p sid t
  generalize (s.step cfg e).registry = r at hchange hl ⊢
  cases hchange with
  | stay => exact h hl
  | connect u => exact (h hl).mono (fun _ hlast => hlast) (fun c hc _ => List.mem_append_left _ hc)
  | move _ hk hm => exact (h hl).setNone hk hm.unstamped.1
  | @enter k c x pub hk hh room =>
    rcases (listed_enter s.streams c.peerId p x sid pub).mp hl with hl | ⟨hp,hsid⟩
    · exact (h hl).setNone hk (by rw [hh]; rfl)
    · right
      subst hp hsid
      have hlt : k < s.seats.length := (List.getElem?_eq_some_iff.mp hk).1
      exact ⟨_,List.mem_set hlt _,rfl,rfl⟩
  | @stamp k c x pub hk hh =>
    by_cases hsid : sid = x
    · subst hsid
      exact Or.inl ⟨s.clock,Finmap.lookup_insert _,past⟩
    · have hother : c.handler.unstamped ≠ some sid := by
        rw [hh]
        intro heq
        exact hsid (Option.some.inj heq).symm
      have hset : Renewal s.streamLastActive (s.seats.set k { c with handler := .stamped x pub })
          p sid t := (h hl).set hk hother
      exact hset.mono (fun last hlast => by rw [Finmap.lookup_insert_of_ne _ hsid]; exact hlast)
        (fun c hc _ => hc)
  | sit peers hk hh => exact (h hl).setNone hk (by rw [hh]; rfl)
  | @update k c x peers pub relay h' hk hh hcurrent hx hh' =>
    have hl := (listed_update s.streams c.peerId p x sid hx pub relay).mp hl
    exact (h hl).setNone hk (by rw [hh]; rfl)
  | resign hk hh => exact (h hl).setNone hk (by rw [hh]; rfl)
  | @leave k c c' closing hk hh hc' =>
    have hl := ((listed_withoutPeer s.streams c.peerId p sid c.currentStreamId).mp hl).1
    exact (h hl).setNone hk (by rw [hh]; rfl)
  | @evict i q H hi => exact h ((listed_evicted s.streams q p sid).mp hl).1
  | mute => exact h hl
  | @sweep now hnow =>
    -- A room that somebody is listed in afterwards has not been removed, and has kept its stamp.
    obtain ⟨peers,hpeers,hp⟩ := hl
    rw [lookup_idleCleanup] at hpeers
    obtain ⟨hold,hfresh⟩ := Option.filter_eq_some_iff.mp hpeers
    apply (h ⟨peers,hold,hp⟩).mono ?_ (fun c hc _ => hc)
    intro last hlast
    refine lookup_stamps_idleCleanup.mpr ⟨hlast,?_⟩
    intro peers' hpeers'
    rw [hold] at hpeers'
    cases hpeers'
    simpa using hfresh

theorem step_renewed (h : Renewed w) (e : ServerEvent) : Renewed (w.step cfg e) := by
  have hclock := clock_le_step cfg w.server e
  constructor
  · intro p sid t ht
    rcases List.mem_append.mp ht with ht | ht
    · exact (h.past p sid t ht).trans hclock
    · exact (joined_mem_activity ht).1.le.trans hclock
  · intro p sid t ht hl
    rcases List.mem_append.mp ht with ht | ht
    · exact step_renewal (h.past p sid t ht) (h.renewal p sid t ht) hl
    · right
      obtain ⟨_,k,c,pub,rfl,hk,rfl,hh,room⟩ := joined_mem_activity ht
      have hseats := congrArg Registry.seats (registry_enter hk hh room)
      have hlt : k < w.server.seats.length := (List.getElem?_eq_some_iff.mp hk).1
      refine ⟨{ c with handler := .entered sid pub },?_,rfl,rfl⟩
      change _ ∈ (w.server.step cfg (.advance k)).registry.seats
      rw [hseats]
      exact List.mem_set hlt _

theorem watch_renewed (cfg : WebServerConfig) (moderation : Option ModerationManager)
    (es : List ServerEvent) : Renewed (watch cfg moderation es) := by
  apply (along_true (Watched.step cfg) ⟨new moderation,[]⟩ es).invariant Renewed
  · exact ⟨by simp,by simp⟩
  · exact fun w e h _ => step_renewed h e

/-- Of the rooms that somebody is in, the cleanup removes those that are overdue. -/
theorem removed_iff_overdue {s : Server} {now : Nat} (hnow : s.cleanupNow = some now) {p sid : Text}
    (hl : Listed s.streams p sid) :
    sid ∉ (s.step cfg .cleanup).streams ↔ Overdue cfg s now sid := by
  obtain ⟨peers,hpeers,hp⟩ := hl
  have hnonempty : peers.isEmpty = false := by
    cases peers with
    | nil => simp [peerIds] at hp
    | cons => rfl
  have hafter : (s.step cfg .cleanup).streams.lookup sid =
      (some peers).filter (fun peers => !s.isStale cfg now sid peers) := by
    have hstep : (s.step cfg .cleanup).streams = (s.idleCleanup cfg now).streams := by
      simp only [step,hnow]
    rw [hstep,lookup_idleCleanup,hpeers]
  rw [← Finmap.lookup_isSome,hafter]
  unfold Overdue isStale
  cases s.streamLastActive.lookup sid <;> simp [Option.filter,hnonempty]

theorem longAgo_of_le {last t now : Nat} (hle : t ≤ last)
    (hover : cfg.idleCleanupSecs < (now-last)/10^9) : LongAgo cfg now t := by
  calc
    cfg.idleCleanupSecs*10^9 ≤ (cfg.idleCleanupSecs+1)*10^9 :=
      Nat.mul_le_mul_right _ (Nat.le_succ _)
    _ ≤ now-last := (Nat.le_div_iff_mul_le (by decide)).mp hover
    _ ≤ now-t := Nat.sub_le_sub_left hle now

/-- After every run, a cleanup spares the active rooms exactly if the overdue rooms are quiet. -/
theorem cleanup_spares_active_iff (cfg : WebServerConfig) (moderation : Option ModerationManager)
    (es : List ServerEvent) :
    SparesActive cfg (watch cfg moderation es) ↔ Quiet cfg (watch cfg moderation es) := by
  have hrenewed := watch_renewed cfg moderation es
  generalize watch cfg moderation es = w at hrenewed ⊢
  constructor
  · intro spares now hnow p sid hl hover
    obtain ⟨hjoined,hsent⟩ := spares now hnow p sid hl ((removed_iff_overdue hnow hl).mpr hover)
    exact ⟨fun c _ _ _ t ht => hjoined t ht,hsent⟩
  · intro quiet now hnow p sid hl hremoved
    have hover := (removed_iff_overdue hnow hl).mp hremoved
    obtain ⟨hpending,hsent⟩ := quiet now hnow p sid hl hover
    refine ⟨?_,hsent⟩
    intro t ht
    rcases hrenewed.renewal p sid t ht hl with ⟨last,hlast,hle⟩ | ⟨c,hc,hid,hh⟩
    · obtain ⟨last',hlast',hold⟩ := hover
      rw [hlast] at hlast'
      cases hlast'
      exact longAgo_of_le hle hold
    · exact hpending c hc hid hh t ht

/-- The only peer of a room sends an offer after five minutes. -/
def lateOffer : List ServerEvent :=
  .connect (Network.sampleUuid 1)::joinRoom 0 ['a']++
    [.tick (301*10^9),.receive 0 (.offer [] none ""),.advance 0,.cleanupTick]

/-- A second peer has just entered a room that was left five minutes ago. -/
def lateJoin : List ServerEvent :=
  joinAndLeave++[.connect (Network.sampleUuid 2),.tick (301*10^9)]++
    (joinRoom 1 ['a']).take 3++[.cleanupTick]

/-- The offer is no activity for the cleanup, and a join only once it is past its second lock. -/
theorem active_room_removed :
    ¬ SparesActive Network.sampleConfig (watch Network.sampleConfig none lateOffer) ∧
    ¬ SparesActive Network.sampleConfig (watch Network.sampleConfig none lateJoin) := by
  have sent : ∀ w, w = watch Network.sampleConfig none lateOffer →
      w.server.cleanupNow = some (301*10^9) ∧
      Listed w.server.streams (Network.sampleUuid 1).toText ['a'] ∧
      ['a'] ∉ (w.server.step Network.sampleConfig .cleanup).streams ∧
      .sent (Network.sampleUuid 1).toText (301*10^9) ∈ w.history := by
    intro w hw
    subst hw
    decide +kernel
  have joined : ∀ w, w = watch Network.sampleConfig none lateJoin →
      w.server.cleanupNow = some (301*10^9) ∧
      Listed w.server.streams (Network.sampleUuid 2).toText ['a'] ∧
      ['a'] ∉ (w.server.step Network.sampleConfig .cleanup).streams ∧
      .joined (Network.sampleUuid 2).toText ['a'] (301*10^9) ∈ w.history := by
    intro w hw
    subst hw
    decide +kernel
  have recent : ¬ LongAgo Network.sampleConfig (301*10^9) (301*10^9) := by decide
  constructor
  · intro spares
    obtain ⟨hnow,hl,hremoved,hsent⟩ := sent _ rfl
    exact recent ((spares _ hnow _ _ hl hremoved).2 _ hsent)
  · intro spares
    obtain ⟨hnow,hl,hremoved,hjoined⟩ := joined _ rfl
    exact recent ((spares _ hnow _ _ hl hremoved).1 _ hjoined)

end Activity

end Server

end OpenBroadcast.Signaling
