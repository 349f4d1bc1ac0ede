import OpenBroadcast.Framework.Run
import OpenBroadcast.Signaling.Routing

namespace OpenBroadcast.Signaling

/-- What the server keeps about a connection, without the messages on their way to it. -/
structure Seat where
  peerId : Text
  currentStreamId : Option Text
  handler : Handler

def Connection.seat (c : Connection) : Seat := ⟨c.peerId.toText,c.currentStreamId,c.handler⟩

/-- The three maps of the signaling state, and the connections. -/
structure Registry where
  streams : HashMap Text (List SignalingPeer)
  peerSenders : HashMap Text Nat
  streamLastActive : HashMap Text Nat
  seats : List Seat

/-- The peer is in the list of the room. -/
def Listed (streams : HashMap Text (List SignalingPeer)) (p sid : Text) : Prop :=
  ∃ peers, streams.lookup sid = some peers ∧ p ∈ Server.peerIds peers

instance (streams : HashMap Text (List SignalingPeer)) (p sid : Text) :
    Decidable (Listed streams p sid) :=
  decidable_of_iff (p ∈ (streams.lookup sid).elim [] Server.peerIds) (by
    unfold Listed
    cases streams.lookup sid <;> simp)

theorem Listed.mem_keys {streams : HashMap Text (List SignalingPeer)} {p sid : Text}
    (h : Listed streams p sid) : sid ∈ streams.keys := by
  obtain ⟨peers,hpeers,_⟩ := h
  exact Finmap.mem_keys.mpr (Finmap.mem_of_lookup_eq_some hpeers)

/-- A handler goes on without changing a map; `ok` tells whether its peer is allowed. -/
inductive Handler.Moves (ok : Bool) (p : Text) : Handler → Handler → Prop
  | receive (m : SignalingMessage) : Moves ok p .idle (Server.received p m)
  | invalid (message : String) : Moves ok p .idle (.refused message)
  | disconnect : Moves ok p .idle (.leaving true)
  | reject (sid : Text) (pub : Bool) (message : String) :
      Moves ok p (.joining sid pub) (.refused message)
  | allow (sid : Text) (pub : Bool) (h : ok = true) :
      Moves ok p (.joining sid pub) (.allowed sid pub)
  | answered (message : String) : Moves ok p (.refused message) .idle
  | noPlace (sid : Text) (pub : Bool) : Moves ok p (.allowed sid pub) .idle
  | list (sid : Text) (pub : Bool) (peers : List PeerInfo) :
      Moves ok p (.listed sid pub peers) (.notifying sid pub)
  | notified (sid : Text) (pub : Bool) : Moves ok p (.notifying sid pub) .idle
  | relay (t : Text) (sdp : String) (h : ok = true) :
      Moves ok p (.offering (some t) sdp) (.relaying t (.offer p (some t) sdp))
  | drop (t : Option Text) (sdp : String) : Moves ok p (.offering t sdp) .idle
  | relayed (t : Text) (m : SignalingMessage) : Moves ok p (.relaying t m) .idle
  | noRoom (pub relay : Bool) : Moves ok p (.updating pub relay) .idle
  | told (ps : List Text) (m : SignalingMessage) : Moves ok p (.broadcasting ps m) .idle

namespace Server

def seats (s : Server) : List Seat := s.connections.map Connection.seat

def registry (s : Server) : Registry :=
  ⟨s.streams,s.peerSenders,s.streamLastActive,s.seats⟩

/-- The room has a place for the peer. -/
def Admits (cfg : WebServerConfig) (streams : HashMap Text (List SignalingPeer)) (p sid : Text) :
    Prop :=
  match streams.lookup sid with
  | none => streams.keys.card < cfg.maxStreamRooms
  | some peers => p ∈ peerIds peers ∨ peers.length < cfg.maxPeersPerStream

instance (cfg : WebServerConfig) (streams : HashMap Text (List SignalingPeer)) (p sid : Text) :
    Decidable (Admits cfg streams p sid) :=
  decidable_of_iff ((match streams.lookup sid with
    | none => decide (streams.keys.card < cfg.maxStreamRooms)
    | some peers => decide (p ∈ peerIds peers ∨ peers.length < cfg.maxPeersPerStream)) = true) (by
    unfold Admits
    split <;> simp)

/-- The rooms after a peer has left one of them. -/
def withoutPeer (streams : HashMap Text (List SignalingPeer)) (p : Text) (current : Option Text) :
    HashMap Text (List SignalingPeer) :=
  match current with
  | none => streams
  | some sid =>
    match streams.lookup sid with
    | none => streams
    | some peers =>
      if (others peers p).isEmpty then (streams.insert sid (others peers p)).erase sid
      else streams.insert sid (others peers p)

/-- The rooms after a peer has been thrown out of all of them. -/
def evicted (streams : HashMap Text (List SignalingPeer)) (p : Text) :
    HashMap Text (List SignalingPeer) :=
  (streams.mapValues (fun peers => others peers p)).retain (fun _ peers => !peers.isEmpty)

/-- Everything that one step can do to the registry. -/
inductive Change (cfg : WebServerConfig) (s : Server) : ServerEvent → Registry → Prop
  | stay (e : ServerEvent) : Change cfg s e s.registry
  | connect (u : Uuid) :
      Change cfg s (.connect u) { s.registry with
        peerSenders := s.peerSenders.insert u.toText s.connections.length
        seats := s.seats++[⟨u.toText,none,.idle⟩] }
  | move (e : ServerEvent) {k : Nat} {c : Seat} {h : Handler} (hk : s.seats[k]? = some c)
      (hm : Handler.Moves (s.isPeerAllowed c.peerId) c.peerId c.handler h) :
      Change cfg s e { s.registry with seats := s.seats.set k { c with handler := h } }
  | enter {k : Nat} {c : Seat} {sid : Text} {pub : Bool} (hk : s.seats[k]? = some c)
      (hh : c.handler = .allowed sid pub) (room : Admits cfg s.streams c.peerId sid) :
      Change cfg s (.advance k) { s.registry with
        streams := s.streams.insert sid
          (others ((s.streams.lookup sid).getD []) c.peerId++[SignalingPeer.mk c.peerId pub false])
        seats := s.seats.set k { c with handler := .entered sid pub } }
  | stamp {k : Nat} {c : Seat} {sid : Text} {pub : Bool} (hk : s.seats[k]? = some c)
      (hh : c.handler = .entered sid pub) :
      Change cfg s (.advance k) { s.registry with
        streamLastActive := s.streamLastActive.insert sid s.clock
        seats := s.seats.set k { c with handler := .stamped sid pub } }
  | sit {k : Nat} {c : Seat} {sid : Text} {pub : Bool} (peers : List PeerInfo)
      (hk : s.seats[k]? = some c) (hh : c.handler = .stamped sid pub) :
      Change cfg s (.advance k) { s.registry with
        seats := s.seats.set k ⟨c.peerId,some sid,.listed sid pub peers⟩ }
  | update {k : Nat} {c : Seat} {sid : Text} {peers : List SignalingPeer} {pub relay : Bool}
      (h : Handler) (hk : s.seats[k]? = some c) (hh : c.handler = .updating pub relay)
      (hcurrent : c.currentStreamId = some sid) (hsid : s.streams.lookup sid = some peers)
      (hh' : h = .idle ∨ others (updatePeer c.peerId pub relay peers) c.peerId ≠ [] ∧
        ∃ m, h = .broadcasting (peerIds (others (updatePeer c.peerId pub relay peers) c.peerId)) m) :
      Change cfg s (.advance k) { s.registry with
        streams := s.streams.insert sid (updatePeer c.peerId pub relay peers)
        seats := s.seats.set k { c with handler := h } }
  | resign {k : Nat} {c : Seat} {closing : Bool} (hk : s.seats[k]? = some c)
      (hh : c.handler = .leaving closing) (free : ¬ s.sendersHeld) :
      Change cfg s (.advance k) { s.registry with
        peerSenders := s.peerSenders.erase c.peerId
        seats := s.seats.set k { c with handler := .leavingRoom closing } }
  | leave {k : Nat} {c c' : Seat} {closing : Bool} (hk : s.seats[k]? = some c)
      (hh : c.handler = .leavingRoom closing)
      (hc' : c' = if closing then { c with handler := .closed } else ⟨c.peerId,none,.idle⟩) :
      Change cfg s (.advance k) { s.registry with
        streams := withoutPeer s.streams c.peerId c.currentStreamId
        seats := s.seats.set k c' }
  | evict {i : Nat} {p : Text} (H : HashOrder Unit Text) (hi : s.kicks[i]? = some (.blocked p)) :
      Change cfg s (.kick i H) { s.registry with streams := evicted s.streams p }
  | mute {i : Nat} {p : Text} (H : HashOrder Unit Text) (hi : s.kicks[i]? = some (.notified p))
      (free : ¬ s.sendersHeld) :
      Change cfg s (.kick i H) { s.registry with peerSenders := s.peerSenders.erase p }
  | sweep {now : Nat} (hnow : s.cleanupNow = some now) :
      Change cfg s .cleanup { s.registry with
        streams := (s.idleCleanup cfg now).streams
        streamLastActive := (s.idleCleanup cfg now).streamLastActive }

section Frame

variable (s : Server)

theorem seats_modifyConnection_same (k : Nat) {f : Connection → Connection}
    (hf : ∀ c, (f c).seat = c.seat) : (s.modifyConnection k f).seats = s.seats := by
  apply List.ext_getElem?
  intro i
  simp only [seats,modifyConnection,List.getElem?_map,List.getElem?_modify]
  cases s.connections[i]? with
  | none => rfl
  | some c =>
    by_cases hi : k = i
    · simp [hi,hf c]
    · simp [hi]

theorem seats_modifyConnection {k : Nat} {c : Connection} (hk : s.connections[k]? = some c)
    (f : Connection → Connection) :
    (s.modifyConnection k f).seats = s.seats.set k (f c).seat := by
  apply List.ext_getElem?
  intro i
  have hlt : k < s.connections.length := (List.getElem?_eq_some_iff.mp hk).1
  simp only [seats,modifyConnection,List.getElem?_map,List.getElem?_modify,List.getElem?_set,
    List.length_map]
  by_cases hi : k = i
  · subst hi
    rw [hk]
    simp [hlt]
  · simp [hi]

theorem seat_trySend (c : Connection) (m : SignalingMessage) : (c.trySend m).seat = c.seat := by
  unfold Connection.trySend
  split_ifs <;> rfl

/-- Sending a message touches nothing but channels. -/
theorem registry_send (m : SignalingMessage) (p : Text) :
    (s.send m p).registry = s.registry := by
  unfold send
  split
  · next k _ =>
    have hseats := seats_modifyConnection_same s k (fun c => seat_trySend c m)
    unfold registry
    rw [hseats]
    rfl
  · rfl

theorem registry_sendAll (m : SignalingMessage) (ps : List Text) :
    (s.sendAll m ps).registry = s.registry := by
  unfold sendAll
  induction ps generalizing s with
  | nil => rfl
  | cons p ps ih => rw [List.foldl_cons,ih,registry_send]

theorem registry_setHandler {k : Nat} {c : Seat} (hk : s.seats[k]? = some c) (h : Handler) :
    (s.setHandler k h).registry =
      { s.registry with seats := s.seats.set k { c with handler := h } } := by
  rw [seats,List.getElem?_map,Option.map_eq_some_iff] at hk
  obtain ⟨x,hx,rfl⟩ := hk
  have hseats := seats_modifyConnection s hx (fun c => { c with handler := h })
  unfold registry setHandler
  rw [hseats]
  rfl

theorem seats_congr {s s' : Server} (h : s'.registry = s.registry) : s'.seats = s.seats :=
  congrArg Registry.seats h

/-- Sending something and then going on is only going on. -/
theorem registry_setHandler_of_same {s s' : Server} (hs : s'.registry = s.registry) {k : Nat}
    {c : Seat} (hk : s.seats[k]? = some c) (h : Handler) :
    (s'.setHandler k h).registry =
      { s.registry with seats := s.seats.set k { c with handler := h } } := by
  rw [registry_setHandler s' (by rw [seats_congr hs]; exact hk),seats_congr hs,hs]

end Frame

section Steps

variable {cfg : WebServerConfig} {s : Server}

theorem mem_peerIds {peers : List SignalingPeer} {p : Text} :
    p ∈ peerIds peers ↔ ∃ q ∈ peers, q.peerId = p := by
  simp [peerIds]

theorem enterRoom_change {k : Nat} {c : Seat} {sid : Text} {pub : Bool}
    (hk : s.seats[k]? = some c) (hh : c.handler = .allowed sid pub) :
    Change cfg s (.advance k) (s.enterRoom cfg k c.peerId sid pub).registry := by
  have refused (message : String) : Change cfg s (.advance k)
      ((s.send (.error message) c.peerId).setHandler k .idle).registry := by
    rw [registry_setHandler_of_same (registry_send s _ _) hk]
    exact .move _ hk (by rw [hh]; exact .noPlace sid pub)
  simp only [enterRoom]
  split_ifs with hrooms hfull
  · exact refused _
  · exact refused _
  · have room : Admits cfg s.streams c.peerId sid := by
      unfold Admits
      split
      · next hl =>
        rw [not_and_or,not_not,← Finmap.lookup_isSome,hl] at hrooms
        rcases hrooms with h | h
        · cases h
        · omega
      · next peers hl =>
        have hmem : sid ∈ s.streams := Finmap.mem_of_lookup_eq_some hl
        rw [hl,Option.getD_some] at hfull
        by_cases hp : c.peerId ∈ peerIds peers
        · exact Or.inl hp
        · right
          by_contra hlen
          apply hfull
          refine ⟨hmem,?_,by omega⟩
          intro q hq hqp
          exact hp (mem_peerIds.mpr ⟨q,hq,hqp⟩)
    have hset := registry_setHandler
      { s with
        streams := s.streams.insert sid
          (others ((s.streams.lookup sid).getD []) c.peerId++[SignalingPeer.mk c.peerId pub false]) }
      hk (.entered sid pub)
    rw [hset]
    exact .enter hk hh room

/-- A join with a place goes through. -/
theorem registry_enter {k : Nat} {c : Seat} {sid : Text} {pub : Bool}
    (hk : s.seats[k]? = some c) (hh : c.handler = .allowed sid pub)
    (room : Admits cfg s.streams c.peerId sid) :
    (s.step cfg (.advance k)).registry = { s.registry with
      streams := s.streams.insert sid
        (others ((s.streams.lookup sid).getD []) c.peerId++[SignalingPeer.mk c.peerId pub false])
      seats := s.seats.set k { c with handler := .entered sid pub } } := by
  have hset := registry_setHandler
    { s with
      streams := s.streams.insert sid
        (others ((s.streams.lookup sid).getD []) c.peerId++[SignalingPeer.mk c.peerId pub false]) }
    hk (.entered sid pub)
  rw [seats,List.getElem?_map,Option.map_eq_some_iff] at hk
  obtain ⟨x,hx,rfl⟩ := hk
  have hh : x.handler = .allowed sid pub := hh
  simp only [step,advance,hx,hh,enterRoom]
  unfold Admits at room
  rw [if_neg,if_neg]
  · exact hset
  · intro hyp
    obtain ⟨hmem,hnot,hfull⟩ := hyp
    obtain ⟨peers,hpeers⟩ := Finmap.mem_iff.mp hmem
    rw [hpeers] at room
    rw [hpeers,Option.getD_some] at hnot hfull
    rcases room with hp | hlt
    · obtain ⟨q,hq,hqp⟩ := mem_peerIds.mp hp
      exact hnot q hq hqp
    · omega
  · intro hyp
    obtain ⟨hmem,hfull⟩ := hyp
    rw [Finmap.lookup_eq_none.mpr hmem] at room
    omega

theorem updateRoom_change {k : Nat} {c : Seat} {pub relay : Bool} (hk : s.seats[k]? = some c)
    (hh : c.handler = .updating pub relay) :
    Change cfg s (.advance k)
      (s.updateRoom k c.peerId c.currentStreamId pub relay).registry := by
  have none : Change cfg s (.advance k) (s.setHandler k .idle).registry := by
    rw [registry_setHandler s hk]
    exact .move _ hk (by rw [hh]; exact .noRoom pub relay)
  unfold updateRoom
  cases hcurrent : c.currentStreamId with
  | none => exact none
  | some sid =>
    cases hsid : s.streams.lookup sid with
    | none =>
      dsimp only
      rw [hsid]
      exact none
    | some peers =>
      dsimp only
      rw [hsid]
      dsimp only
      rw [registry_setHandler
        { s with
          streams := s.streams.insert sid (updatePeer c.peerId pub relay peers) } hk]
      apply Change.update _ hk hh hcurrent hsid
      split_ifs with hempty
      · exact Or.inl rfl
      · refine Or.inr ⟨?_,_,rfl⟩
        intro hothers
        rw [hothers] at hempty
        exact hempty rfl

theorem leaveRoom_registry (s : Server) (p : Text) (current : Option Text) :
    (s.leaveRoom p current).registry =
      { s.registry with streams := withoutPeer s.streams p current } := by
  unfold leaveRoom withoutPeer
  cases current with
  | none => rfl
  | some sid =>
    dsimp only
    cases hsid : s.streams.lookup sid with
    | none => rfl
    | some peers =>
      have sent := registry_sendAll { s with streams := s.streams.insert sid (others peers p) }
        (.peerLeave p) (peerIds (others peers p))
      have hstreams := congrArg Registry.streams sent
      have hsenders := congrArg Registry.peerSenders sent
      have hstamps := congrArg Registry.streamLastActive sent
      have hseats := seats_congr sent
      simp only [registry] at hstreams hsenders hstamps
      dsimp only
      split_ifs
      · simp only [registry,hstreams,hsenders,hstamps]
        exact congrArg _ hseats
      · exact sent

theorem leaveRoom_change {k : Nat} {x : Connection} (hx : s.connections[k]? = some x)
    {closing : Bool} (hh : x.handler = .leavingRoom closing) :
    Change cfg s (.advance k) ((s.leaveRoom x.peerId.toText x.currentStreamId).modifyConnection k
      (leaveDone closing)).registry := by
  have hk : s.seats[k]? = some x.seat := by rw [seats,List.getElem?_map,hx]; rfl
  have left := leaveRoom_registry s x.peerId.toText x.currentStreamId
  have hsame : (s.leaveRoom x.peerId.toText x.currentStreamId).seats = s.seats :=
    congrArg Registry.seats left
  have hk' : (s.leaveRoom x.peerId.toText x.currentStreamId).seats[k]? = some x.seat := by
    rw [hsame]
    exact hk
  rw [seats,List.getElem?_map,Option.map_eq_some_iff] at hk'
  obtain ⟨y,hy,hyx⟩ := hk'
  have hdone : (leaveDone closing y).seat =
      if closing then { x.seat with handler := .closed } else ⟨x.seat.peerId,none,.idle⟩ := by
    rw [← hyx,leaveDone]
    cases closing with
    | true => rfl
    | false => rfl
  have hseats := seats_modifyConnection _ hy (leaveDone closing)
  rw [hsame] at hseats
  have hregistry : ((s.leaveRoom x.peerId.toText x.currentStreamId).modifyConnection k
      (leaveDone closing)).registry = { s.registry with
        streams := withoutPeer s.streams x.peerId.toText x.currentStreamId
        seats := s.seats.set k (leaveDone closing y).seat } := by
    have hmodified : ((s.leaveRoom x.peerId.toText x.currentStreamId).modifyConnection k
        (leaveDone closing)).registry =
        { (s.leaveRoom x.peerId.toText x.currentStreamId).registry with
          seats := ((s.leaveRoom x.peerId.toText x.currentStreamId).modifyConnection k
            (leaveDone closing)).seats } := rfl
    rw [hmodified,left,hseats]
  rw [hregistry]
  exact .leave hk hh hdone

theorem advance_change (cfg : WebServerConfig) (s : Server) (k : Nat) :
    Change cfg s (.advance k) (s.advance cfg k).registry := by
  unfold advance
  cases hx : s.connections[k]? with
  | none => exact .stay _
  | some x =>
    have hk : s.seats[k]? = some x.seat := by rw [seats,List.getElem?_map,hx]; rfl
    -- The handler goes on to `h`, after at most having sent something.
    have move {s' : Server} (hs : s'.registry = s.registry) {h : Handler}
        (hm : Handler.Moves (s.isPeerAllowed x.seat.peerId) x.seat.peerId x.handler h) :
        Change cfg s (.advance k) (s'.setHandler k h).registry := by
      rw [registry_setHandler_of_same hs hk]
      exact .move _ hk hm
    dsimp only
    cases hh : x.handler with
    | idle => exact .stay _
    | closed => exact .stay _
    | joining sid pub =>
      dsimp only
      split_ifs with hvalid hallowed
      · exact move rfl (by rw [hh]; exact .reject sid pub _)
      · exact move rfl (by rw [hh]; exact .reject sid pub _)
      · have hok : s.isPeerAllowed x.peerId.toText = true := by simpa using hallowed
        exact move rfl (by rw [hh]; exact .allow sid pub hok)
    | refused message => exact move (registry_send s _ _) (by rw [hh]; exact .answered message)
    | allowed sid pub => exact enterRoom_change hk hh
    | entered sid pub =>
      have hset := registry_setHandler
        { s with streamLastActive := s.streamLastActive.insert sid s.clock } hk (.stamped sid pub)
      dsimp only
      rw [hset]
      exact .stamp hk hh
    | stamped sid pub =>
      have hseats := seats_modifyConnection s hx (fun c => { c with
        currentStreamId := some sid
        handler := .listed sid pub (s.peerList x.peerId.toText sid) })
      dsimp only
      unfold registry
      rw [hseats]
      exact .sit _ hk hh
    | listed sid pub peers => exact move (registry_send s _ _) (by rw [hh]; exact .list sid pub peers)
    | notifying sid pub =>
      have hsame : (s.notifyJoin x.peerId.toText sid pub).registry = s.registry := by
        unfold notifyJoin
        split
        · exact registry_sendAll s _ _
        · rfl
      exact move hsame (by rw [hh]; exact .notified sid pub)
    | offering target sdp =>
      dsimp only
      split
      · next t hok => exact move rfl (by rw [hh]; exact .relay t sdp hok)
      · exact move rfl (by rw [hh]; exact .drop _ sdp)
    | relaying t m => exact move (registry_send s _ _) (by rw [hh]; exact .relayed t m)
    | updating pub relay => exact updateRoom_change hk hh
    | broadcasting ps m => exact move (registry_sendAll s _ _) (by rw [hh]; exact .told ps m)
    | leaving closing =>
      dsimp only
      split_ifs with hheld
      · exact .stay _
      · have hset := registry_setHandler
          { s with peerSenders := s.peerSenders.erase x.peerId.toText } hk (.leavingRoom closing)
        rw [hset]
        exact .resign hk hh hheld
    | leavingRoom closing => exact leaveRoom_change hx hh

/-- A handler that waits for a message takes something up, or the registry stays. -/
theorem modifyConnection_change (cfg : WebServerConfig) (s : Server) (e : ServerEvent) (k : Nat)
    {f : Connection → Connection}
    (hf : ∀ c, (f c).seat = c.seat ∨ ∃ h, (f c).seat = { c.seat with handler := h } ∧
      Handler.Moves (s.isPeerAllowed c.seat.peerId) c.seat.peerId c.seat.handler h) :
    Change cfg s e (s.modifyConnection k f).registry := by
  have hregistry : (s.modifyConnection k f).registry =
      { s.registry with seats := (s.modifyConnection k f).seats } := rfl
  cases hx : s.connections[k]? with
  | none =>
    have hsame : s.modifyConnection k f = s := by
      unfold modifyConnection
      rw [List.modify_eq_self (List.getElem?_eq_none_iff.mp hx)]
    rw [hsame]
    exact .stay e
  | some x =>
    have hk : s.seats[k]? = some x.seat := by rw [seats,List.getElem?_map,hx]; rfl
    rw [hregistry,seats_modifyConnection s hx]
    rcases hf x with hsame | ⟨h,hseat,hm⟩
    · obtain ⟨hlt,hget⟩ := List.getElem?_eq_some_iff.mp hk
      rw [hsame,← hget,List.set_getElem_self]
      exact .stay e
    · rw [hseat]
      exact .move e hk hm

theorem begin_change (cfg : WebServerConfig) (s : Server) (e : ServerEvent) (k : Nat)
    {f : Text → Handler} (hf : ∀ ok p, Handler.Moves ok p .idle (f p)) :
    Change cfg s e (s.begin k f).registry := by
  apply modifyConnection_change
  intro c
  by_cases hidle : c.handler = .idle
  · right
    rw [if_pos hidle]
    refine ⟨f c.peerId.toText,rfl,?_⟩
    rw [show c.seat.handler = .idle from hidle]
    exact hf _ _
  · left
    rw [if_neg hidle]

theorem advanceKick_change (cfg : WebServerConfig) (s : Server) (H : HashOrder Unit Text)
    (i : Nat) : Change cfg s (.kick i H) (s.advanceKick H i).registry := by
  unfold advanceKick
  cases hi : s.kicks[i]? with
  | none => exact .stay _
  | some kick =>
    cases kick with
    | done => exact .stay _
    | blocked p => exact .evict H hi
    | evicted p toNotify =>
      have hsame := registry_sendAll s (.peerLeave p) (toNotify.flatMap Prod.snd)
      have hkick : ({ s.sendAll (.peerLeave p) (toNotify.flatMap Prod.snd) with
          kicks := s.kicks.set i (.notified p) } : Server).registry = s.registry := hsame
      dsimp only
      rw [hkick]
      exact .stay _
    | notified p =>
      dsimp only
      split_ifs with hheld
      · exact .stay _
      · exact .mute H hi hheld

/-- The inversion of `step`: every invariant of the registry is proved by cases on this. -/
theorem step_change (cfg : WebServerConfig) (s : Server) (e : ServerEvent) :
    Change cfg s e (s.step cfg e).registry := by
  cases e with
  | connect u =>
    simp only [step]
    split_ifs
    · exact .stay _
    · have hseats : ({ s with
          peerSenders := s.peerSenders.insert u.toText s.connections.length
          connections := s.connections++[⟨u,none,.idle,true,[],[]⟩] } : Server).seats =
            s.seats++[⟨u.toText,none,.idle⟩] := by
        simp [seats,Connection.seat]
      unfold registry
      rw [hseats]
      exact .connect u
  | receive k m => exact begin_change cfg s _ k (fun _ _ => .receive m)
  | invalid k message => exact begin_change cfg s _ k (fun _ _ => .invalid _)
  | advance k => exact advance_change cfg s k
  | forward k => exact modifyConnection_change cfg s _ k (fun _ => Or.inl rfl)
  | deliver k => exact modifyConnection_change cfg s _ k (fun _ => Or.inl rfl)
  | forwarderEnds k => exact modifyConnection_change cfg s _ k (fun _ => Or.inl rfl)
  | disconnect k =>
    apply modifyConnection_change
    intro c
    by_cases hidle : c.handler = .idle
    · right
      rw [if_pos hidle]
      refine ⟨.leaving true,rfl,?_⟩
      rw [show c.seat.handler = .idle from hidle]
      exact .disconnect
    · left
      rw [if_neg hidle]
  | block p =>
    simp only [step]
    split <;> exact .stay _
  | kick i H => exact advanceKick_change cfg s H i
  | unblock p => exact .stay _
  | whitelist p => exact .stay _
  | removeWhitelist p => exact .stay _
  | tick n => exact .stay _
  | cleanupTick =>
    simp only [step]
    split_ifs <;> exact .stay _
  | cleanup =>
    simp only [step]
    cases hnow : s.cleanupNow with
    | none => exact .stay _
    | some now => exact .sweep hnow

end Steps

section Control

/-- The rest of the state: what the moderator, the kicks and the cleanup task work with. -/
structure Control where
  moderation : Option ModerationManager
  kicks : List Kick
  clock : Nat
  cleanupNow : Option Nat

def control (s : Server) : Control := ⟨s.moderation,s.kicks,s.clock,s.cleanupNow⟩

theorem control_send (s : Server) (m : SignalingMessage) (p : Text) :
    (s.send m p).control = s.control := by
  unfold send
  split <;> rfl

theorem control_sendAll (s : Server) (m : SignalingMessage) (ps : List Text) :
    (s.sendAll m ps).control = s.control := by
  unfold sendAll
  induction ps generalizing s with
  | nil => rfl
  | cons p ps ih => rw [List.foldl_cons,ih,control_send]

/-- No handler touches the rest of the state. -/
theorem control_advance (cfg : WebServerConfig) (s : Server) (k : Nat) :
    (s.advance cfg k).control = s.control := by
  unfold advance
  cases s.connections[k]? with
  | none => rfl
  | some c =>
    dsimp only
    cases c.handler with
    | joining sid pub => dsimp only; split_ifs <;> rfl
    | refused message => exact control_send s _ _
    | allowed sid pub =>
      simp only [enterRoom]
      split_ifs
      · exact control_send s _ _
      · exact control_send s _ _
      · rfl
    | listed sid pub peers => exact control_send s _ _
    | notifying sid pub =>
      simp only [notifyJoin]
      split
      · exact control_sendAll s _ _
      · rfl
    | offering target sdp => dsimp only; split <;> rfl
    | relaying t m => exact control_send s _ _
    | updating pub relay =>
      simp only [updateRoom]
      split
      · rfl
      · split <;> rfl
    | broadcasting ps m => exact control_sendAll s _ _
    | leaving closing => dsimp only; split_ifs <;> rfl
    | leavingRoom closing =>
      have left : (s.leaveRoom c.peerId.toText c.currentStreamId).control = s.control := by
        simp only [leaveRoom]
        split
        · rfl
        · split
          · rfl
          · split_ifs
            · exact control_sendAll _ _ _
            · exact control_sendAll _ _ _
      exact left
    | _ => rfl

theorem clock_le_step (cfg : WebServerConfig) (s : Server) (e : ServerEvent) :
    s.clock ≤ (s.step cfg e).clock := by
  have same {s' : Server} (h : s'.control = s.control) : s.clock ≤ s'.clock :=
    (congrArg Control.clock h).ge
  cases e with
  | advance k => exact same (control_advance cfg s k)
  | connect u =>
    simp only [step]
    split_ifs <;> exact le_rfl
  | block p =>
    simp only [step]
    split <;> exact le_rfl
  | kick i H =>
    simp only [step,advanceKick]
    split
    · exact le_rfl
    · exact le_rfl
    · exact le_rfl
    · next p toNotify _ =>
      exact (congrArg Control.clock
        (control_sendAll s (.peerLeave p) (toNotify.flatMap Prod.snd))).ge
    · split_ifs <;> exact le_rfl
  | tick n => exact Nat.le_add_right _ _
  | cleanupTick =>
    simp only [step]
    split_ifs <;> exact le_rfl
  | cleanup =>
    simp only [step]
    split <;> exact le_rfl
  | _ => exact le_rfl

end Control

section Rooms

variable (streams : HashMap Text (List SignalingPeer)) (p q sid x : Text)

theorem mem_peerIds_others {peers : List SignalingPeer} :
    q ∈ peerIds (others peers p) ↔ q ∈ peerIds peers ∧ q ≠ p := by
  simp only [mem_peerIds,others,List.mem_filter,decide_eq_true_eq]
  constructor
  · intro hyp
    obtain ⟨y,⟨hy,hne⟩,rfl⟩ := hyp
    exact ⟨⟨y,hy,rfl⟩,hne⟩
  · intro hyp
    obtain ⟨⟨y,hy,rfl⟩,hne⟩ := hyp
    exact ⟨y,⟨hy,hne⟩,rfl⟩

theorem peerIds_updatePeer (pub relay : Bool) (peers : List SignalingPeer) :
    peerIds (updatePeer p pub relay peers) = peerIds peers := by
  induction peers with
  | nil => rfl
  | cons y peers ih =>
    unfold updatePeer
    split_ifs with hy
    · rfl
    · simp only [peerIds,List.map_cons] at ih ⊢
      rw [ih]

theorem lookup_withoutPeer (current : Option Text) :
    (withoutPeer streams p current).lookup x =
      if current = some x then
        ((streams.lookup x).map (fun peers => others peers p)).filter (fun peers => !peers.isEmpty)
      else streams.lookup x := by
  unfold withoutPeer
  cases current with
  | none => rfl
  | some sid =>
    dsimp only
    by_cases hx : x = sid
    · subst hx
      rw [if_pos rfl]
      cases hl : streams.lookup x with
      | none => exact hl
      | some peers =>
        dsimp only
        by_cases hempty : (others peers p).isEmpty
        · rw [if_pos hempty,Finmap.lookup_erase]
          simp [Option.filter,hempty]
        · rw [if_neg hempty,Finmap.lookup_insert]
          simp [Option.filter,hempty]
    · rw [if_neg (by intro h; exact hx (Option.some.inj h).symm)]
      split
      · rfl
      · split_ifs
        · rw [Finmap.lookup_erase_ne hx,Finmap.lookup_insert_of_ne _ hx]
        · rw [Finmap.lookup_insert_of_ne _ hx]

theorem lookup_evicted :
    (evicted streams p).lookup x =
      ((streams.lookup x).map (fun peers => others peers p)).filter
        (fun peers => !peers.isEmpty) := by
  rw [evicted,HashMap.lookup_retain,HashMap.lookup_mapValues]

theorem listed_insert (peers : List SignalingPeer) :
    Listed (streams.insert sid peers) q x ↔
      (x = sid ∧ q ∈ peerIds peers) ∨ (x ≠ sid ∧ Listed streams q x) := by
  unfold Listed
  by_cases hx : x = sid
  · subst hx
    simp [Finmap.lookup_insert]
  · simp [hx,Finmap.lookup_insert_of_ne]

theorem listed_enter (pub : Bool) :
    Listed (streams.insert sid
      (others ((streams.lookup sid).getD []) p++[SignalingPeer.mk p pub false])) q x ↔
      Listed streams q x ∨ (q = p ∧ x = sid) := by
  have hroom : q ∈ peerIds ((streams.lookup sid).getD []) ↔ Listed streams q sid := by
    unfold Listed
    cases streams.lookup sid <;> simp [peerIds]
  have hnew : q ∈ peerIds (others ((streams.lookup sid).getD []) p++[SignalingPeer.mk p pub false]) ↔
      Listed streams q sid ∨ q = p := by
    have happend : peerIds (others ((streams.lookup sid).getD []) p++[SignalingPeer.mk p pub false]) =
        peerIds (others ((streams.lookup sid).getD []) p)++[p] := by
      simp [peerIds]
    rw [happend,List.mem_append,mem_peerIds_others,List.mem_singleton,hroom]
    by_cases hq : q = p <;> simp [hq]
  rw [listed_insert,hnew]
  by_cases hx : x = sid
  · subst hx
    simp
  · simp [hx]

theorem listed_update {peers : List SignalingPeer} (hsid : streams.lookup sid = some peers)
    (pub relay : Bool) :
    Listed (streams.insert sid (updatePeer p pub relay peers)) q x ↔ Listed streams q x := by
  rw [listed_insert,peerIds_updatePeer]
  by_cases hx : x = sid
  · subst hx
    simp [Listed,hsid]
  · simp [hx]

/-- Dropping a peer from a room that is deleted if it is then empty. -/
theorem mem_peerIds_filter {room : Option (List SignalingPeer)} :
    (∃ peers, (room.map (fun peers => others peers p)).filter (fun peers => !peers.isEmpty) =
      some peers ∧ q ∈ peerIds peers) ↔ (∃ peers, room = some peers ∧ q ∈ peerIds peers) ∧ q ≠ p := by
  constructor
  · intro hyp
    obtain ⟨peers,hpeers,hq⟩ := hyp
    obtain ⟨hmap,_⟩ := Option.filter_eq_some_iff.mp hpeers
    obtain ⟨old,hold,rfl⟩ := Option.map_eq_some_iff.mp hmap
    obtain ⟨hin,hne⟩ := (mem_peerIds_others p q).mp hq
    exact ⟨⟨old,hold,hin⟩,hne⟩
  · intro hyp
    obtain ⟨⟨peers,rfl,hq⟩,hne⟩ := hyp
    have hin := (mem_peerIds_others p q).mpr ⟨hq,hne⟩
    refine ⟨others peers p,?_,hin⟩
    have hnonempty : (others peers p).isEmpty = false := by
      cases hothers : others peers p with
      | nil => rw [hothers] at hin; simp [peerIds] at hin
      | cons => rfl
    simp [Option.filter,hnonempty]

theorem listed_withoutPeer (current : Option Text) :
    Listed (withoutPeer streams p current) q x ↔
      Listed streams q x ∧ ¬ (q = p ∧ current = some x) := by
  unfold Listed
  rw [lookup_withoutPeer]
  by_cases hcurrent : current = some x
  · rw [if_pos hcurrent,mem_peerIds_filter]
    simp [hcurrent]
  · rw [if_neg hcurrent]
    simp [hcurrent]

theorem listed_evicted : Listed (evicted streams p) q x ↔ Listed streams q x ∧ q ≠ p := by
  unfold Listed
  rw [lookup_evicted,mem_peerIds_filter]

theorem lookup_idleCleanup (cfg : WebServerConfig) (s : Server) (now : Nat) :
    (s.idleCleanup cfg now).streams.lookup x =
      (s.streams.lookup x).filter (fun peers => !s.isStale cfg now x peers) := by
  rw [idleCleanup,HashMap.lookup_retain]

theorem listed_idleCleanup (cfg : WebServerConfig) (s : Server) (now : Nat)
    (h : Listed (s.idleCleanup cfg now).streams q x) : Listed s.streams q x := by
  obtain ⟨peers,hpeers,hq⟩ := h
  rw [lookup_idleCleanup] at hpeers
  exact ⟨peers,(Option.filter_eq_some_iff.mp hpeers).1,hq⟩

/-- A peer gets listed by a join that is let in, and by nothing else. -/
theorem listed_step {cfg : WebServerConfig} {s : Server} {e : ServerEvent}
    (h : Listed (s.step cfg e).streams q x) :
    Listed s.streams q x ∨ ∃ k c, e = .advance k ∧ s.seats[k]? = some c ∧ c.peerId = q ∧
      ∃ pub, c.handler = .allowed x pub ∧ Admits cfg s.streams q x := by
  have hchange := step_change cfg s e
  change Listed (s.step cfg e).registry.streams q x at h
  generalize (s.step cfg e).registry = r at hchange h
  cases hchange with
  | @enter k c sid pub hk hh room =>
    rcases (listed_enter s.streams c.peerId q sid x pub).mp h with h | ⟨rfl,rfl⟩
    · exact Or.inl h
    · exact Or.inr ⟨k,c,rfl,hk,rfl,pub,hh,room⟩
  | @update k c sid peers pub relay _ _ _ _ hsid _ =>
    exact Or.inl ((listed_update s.streams c.peerId q sid x hsid pub relay).mp h)
  | @leave k c _ _ _ _ _ =>
    exact Or.inl ((listed_withoutPeer s.streams c.peerId q x c.currentStreamId).mp h).1
  | @evict i p _ _ => exact Or.inl ((listed_evicted s.streams p q x).mp h).1
  | sweep => exact Or.inl (listed_idleCleanup q x cfg s _ h)
  | _ => exact Or.inl h

/-- Nobody makes a room but a join. -/
theorem mem_of_mem_withoutPeer (current : Option Text) (h : x ∈ withoutPeer streams p current) :
    x ∈ streams := by
  obtain ⟨peers,hpeers⟩ := Finmap.mem_iff.mp h
  rw [lookup_withoutPeer] at hpeers
  split_ifs at hpeers
  · obtain ⟨old,hold,_⟩ := Option.map_eq_some_iff.mp (Option.filter_eq_some_iff.mp hpeers).1
    exact Finmap.mem_of_lookup_eq_some hold
  · exact Finmap.mem_of_lookup_eq_some hpeers

theorem mem_of_mem_evicted (h : x ∈ evicted streams p) : x ∈ streams := by
  obtain ⟨peers,hpeers⟩ := Finmap.mem_iff.mp h
  rw [lookup_evicted] at hpeers
  obtain ⟨old,hold,_⟩ := Option.map_eq_some_iff.mp (Option.filter_eq_some_iff.mp hpeers).1
  exact Finmap.mem_of_lookup_eq_some hold

theorem mem_of_mem_idleCleanup (cfg : WebServerConfig) (s : Server) (now : Nat)
    (h : x ∈ (s.idleCleanup cfg now).streams) : x ∈ s.streams := by
  obtain ⟨peers,hpeers⟩ := Finmap.mem_iff.mp h
  rw [lookup_idleCleanup] at hpeers
  exact Finmap.mem_of_lookup_eq_some (Option.filter_eq_some_iff.mp hpeers).1

end Rooms

/-- A run of the signaling server. -/
def run (cfg : WebServerConfig) (moderation : Option ModerationManager) (es : List ServerEvent) :
    Server :=
  es.foldl (step cfg) (new moderation)

end Server

end OpenBroadcast.Signaling
