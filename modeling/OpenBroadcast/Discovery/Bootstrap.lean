import OpenBroadcast.Discovery.PeerAddresses
import OpenBroadcast.Framework.Since

namespace OpenBroadcast.Discovery.Bootstrap

open Addresses

inductive ConnectionStatus where
  | disconnected
  | connecting
  | connected
  | failed
  deriving DecidableEq, Repr

/-- Times are those of the system's clock. -/
structure PeerInfo where
  id : List UInt8
  addresses : List SocketAddr
  protocols : List String
  metadata : List (String × List UInt8)
  firstSeen : Option Nat
  lastSeen : Option Nat
  connectionStatus : ConnectionStatus
  deriving DecidableEq, Repr

inductive DiscoveryEvent where
  | peerDiscovered (info : PeerInfo)
  | peerExpired (id : List UInt8)
  | error (text : String)
  deriving DecidableEq, Repr

structure BootstrapDiscoveryConfig where
  bootstrapNodes : List Multiaddr
  bootstrapNodesLegacy : List SocketAddr
  eventBufferSize : Nat
  peerExpiration : Nat
  protocolName : String
  connectTimeout : Nat
  refreshInterval : Nat

def BootstrapDiscoveryConfig.default : BootstrapDiscoveryConfig where
  bootstrapNodes := []
  bootstrapNodesLegacy := []
  eventBufferSize := 32
  peerExpiration := 3600
  protocolName := "OpenBroadcastNetwork/1.0.0"
  connectTimeout := 10
  refreshInterval := 300

/-- What the swarm reports while a node is dialled. -/
inductive SwarmEvent where
  | connectionEstablished (peer : List UInt8) (remote : Multiaddr)
  | identifyReceived (peer : List UInt8) (listenAddrs : List Multiaddr) (protocols : List String)
  | outgoingConnectionError (peer : Option String) (error : String)
  | other

/-- One turn of the loop that waits for the connection: the time since its start, in milliseconds,
the clock, and the event, if one comes within the turn. -/
structure Turn where
  elapsed : Nat
  now : Nat
  event : Option SwarmEvent

/-- How a node answers: the error of the dial itself, or the turns that follow. -/
abbrev Answer := Except String (List Turn)

def found (peer : List UInt8) (addresses : List SocketAddr) (protocols : List String) (now : Nat) :
    PeerInfo where
  id := peer
  addresses := addresses
  protocols := protocols
  metadata := []
  firstSeen := some now
  lastSeen := some now
  connectionStatus := .connected

section Connecting

variable (node : String) (connectTimeout : Nat)

/-- The loop of `connect_to_bootstrap`, with what it has found so far. The other half of the result
is what it announces on the way. -/
def awaitConnection : List Turn → List PeerInfo → Except String (List PeerInfo)
  | [],_ => .error s!"Bootstrap error: Timeout connecting to bootstrap node: {node}"
  | turn::turns,discovered =>
    if connectTimeout*1000 ≤ turn.elapsed then
      .error s!"Bootstrap error: Timeout connecting to bootstrap node: {node}"
    else
      match turn.event with
      | some (.connectionEstablished peer remote) =>
        .ok (discovered++[found peer (extractSocketAddr remote).toList [] turn.now])
      | some (.identifyReceived peer listenAddrs protocols) =>
        awaitConnection turns
          (discovered++[found peer (listenAddrs.filterMap extractSocketAddr) protocols turn.now])
      | some (.outgoingConnectionError peer error) =>
        let name := peer.getD "unknown"
        .error s!"Bootstrap error: Connection failed to {name}: {error}"
      | some .other => awaitConnection turns discovered
      | none => awaitConnection turns discovered

/-- The peers that the loop meets before it ends, found or not. -/
def met : List Turn → List PeerInfo
  | [] => []
  | turn::turns =>
    if connectTimeout*1000 ≤ turn.elapsed then []
    else
      match turn.event with
      | some (.connectionEstablished peer remote) =>
        [found peer (extractSocketAddr remote).toList [] turn.now]
      | some (.identifyReceived peer listenAddrs protocols) =>
        found peer (listenAddrs.filterMap extractSocketAddr) protocols turn.now::met turns
      | some (.outgoingConnectionError _ _) => []
      | some .other => met turns
      | none => met turns

/-- A node that answers gives all the peers that are met on the way, and the last of them is the one
that it is connected to, of which no protocols are known yet. -/
theorem awaitConnection_ok {turns : List Turn} {discovered peers : List PeerInfo}
    (h : awaitConnection node connectTimeout turns discovered = .ok peers) :
    peers = discovered++met connectTimeout turns ∧ ∃ before peer remote now,
      peers = before++[found peer (extractSocketAddr remote).toList [] now] := by
  induction turns generalizing discovered with
  | nil => simp [awaitConnection] at h
  | cons turn turns ih =>
    unfold awaitConnection at h
    unfold met
    by_cases hlate : connectTimeout*1000 ≤ turn.elapsed
    · simp [hlate] at h
    · rw [if_neg hlate] at h ⊢
      cases hevent : turn.event with
      | none => exact ih (by simpa [hevent] using h)
      | some event =>
        cases event with
        | connectionEstablished peer remote =>
          obtain rfl : _ = peers := by simpa [hevent] using h
          exact ⟨rfl,discovered,peer,remote,turn.now,rfl⟩
        | identifyReceived peer listenAddrs protocols =>
          obtain ⟨hpeers,hlast⟩ := ih (by simpa [hevent] using h)
          exact ⟨by simpa using hpeers,hlast⟩
        | outgoingConnectionError peer error => simp [hevent] at h
        | other => exact ih (by simpa [hevent] using h)

def connectToBootstrap : Answer → Except String (List PeerInfo)
  | .error e => .error s!"Bootstrap error: Failed to dial bootstrap node {node}: {e}"
  | .ok turns => awaitConnection node connectTimeout turns []

end Connecting

/-- Time is in seconds. Of the background task there are the peers that it has found too old and
not yet removed, with the times that they were stored, and all the events that it has sent. -/
structure BootstrapDiscovery where
  config : BootstrapDiscoveryConfig
  peers : HashMap (List UInt8) (PeerInfo × Nat)
  running : Bool
  localPeerId : Option (List UInt8)
  expired : List (List UInt8 × Nat)
  sent : List DiscoveryEvent

namespace BootstrapDiscovery

/-- `/ip4/…` does not parse with an address of the other kind, and the result is unwrapped. -/
def parseLegacy (addr : SocketAddr) : Option Multiaddr :=
  match addr.ip with
  | .v4 ip => some [.ip4 ip,.tcp addr.port]
  | .v6 _ => none

/-- Without a result there is a panic. -/
def withConfig (config : BootstrapDiscoveryConfig) : Option BootstrapDiscovery := do
  let legacy ← config.bootstrapNodesLegacy.mapM parseLegacy
  return {
    config := { config with bootstrapNodes := config.bootstrapNodes++legacy }
    peers := ∅
    running := false
    localPeerId := none
    expired := []
    sent := [] }

def start (s : BootstrapDiscovery) (peer : List UInt8) (swarm : Except String Unit) :
    Except String Unit × BootstrapDiscovery :=
  if s.running then (.ok (),s)
  else
    match swarm with
    | .error e => (.error e,{ s with localPeerId := some peer })
    | .ok () => (.ok (),{ s with localPeerId := some peer, running := true })

def stop (s : BootstrapDiscovery) : Except String Unit × BootstrapDiscovery :=
  (.ok (),{ s with running := false })

def announce (s : BootstrapDiscovery) (info : PeerInfo) (now : Nat) : BootstrapDiscovery :=
  { s with peers := s.peers.insert info.id (info,now) }

def lookupPeer (s : BootstrapDiscovery) (id : List UInt8) : Option PeerInfo :=
  (s.peers.lookup id).map Prod.fst

def notExpired (s : BootstrapDiscovery) (lastSeen now : Nat) : Bool :=
  now-lastSeen < s.config.peerExpiration

def findPeers (order : HashOrder Unit (List UInt8)) (s : BootstrapDiscovery) (now : Nat)
    (criteria : String) : List PeerInfo :=
  (((order.iter () s.peers).map Prod.snd).filter (fun x => s.notExpired x.2 now &&
    (criteria.isEmpty || x.1.protocols.any (fun p => criteria.toList <:+: p.toList)))).map Prod.fst

/-- One node of a round of the background task. -/
def dial (s : BootstrapDiscovery) (node : String) (answer : Answer) (now : Nat) :
    BootstrapDiscovery :=
  let sent := s.sent++(answer.toOption.elim [] (met s.config.connectTimeout)).map .peerDiscovered
  match connectToBootstrap node s.config.connectTimeout answer with
  | .ok foundPeers => { s with
      peers := foundPeers.foldl (fun peers info => peers.insert info.id (info,now)) s.peers
      sent := sent }
  | .error e => { s with sent := sent++[.error e] }

/-- The end of a round, up to where the lock is given back. -/
def scanExpired (order : HashOrder Unit (List UInt8)) (s : BootstrapDiscovery) (now : Nat) :
    BootstrapDiscovery :=
  { s with expired := ((order.iter () s.peers).filter
      (fun e => s.config.peerExpiration < now-e.2.2)).map (fun e => (e.1,e.2.2)) }

/-- The rest of it. As many events are sent as there is room for. -/
def removeExpired (s : BootstrapDiscovery) (room : Nat) : BootstrapDiscovery :=
  { s with
    peers := (s.expired.map Prod.fst).foldl (fun peers id => peers.erase id) s.peers
    expired := []
    sent := s.sent++((s.expired.map Prod.fst).take room).map .peerExpired }

end BootstrapDiscovery

/-- The task may be anywhere in its round when a call comes. -/
inductive Call where
  | start (peer : List UInt8) (swarm : Except String Unit)
  | stop
  | announce (info : PeerInfo)
  | dial (node : String) (answer : Answer)
  | scanExpired (order : HashOrder Unit (List UInt8))
  | removeExpired (room : Nat)

namespace BootstrapDiscovery

def step (s : BootstrapDiscovery) (e : Nat × Call) : BootstrapDiscovery :=
  match e.2 with
  | .start peer swarm => (s.start peer swarm).2
  | .stop => s.stop.2
  | .announce info => s.announce info e.1
  | .dial node answer => s.dial node answer e.1
  | .scanExpired order => s.scanExpired order e.1
  | .removeExpired room => s.removeExpired room

section Cache

/-- The peers that a step puts into the cache, one after the other. -/
def stored (s : BootstrapDiscovery) (e : Nat × Call) : List PeerInfo :=
  match e.2 with
  | .announce info => [info]
  | .dial node answer =>
    (connectToBootstrap node s.config.connectTimeout answer).toOption.getD []
  | _ => []

def Stores (info : PeerInfo) (t : Nat) (s : BootstrapDiscovery) (e : Nat × Call) : Prop :=
  e.1 = t ∧ ∃ pre post, s.stored e = pre++info::post ∧ ∀ x ∈ post, x.id ≠ info.id

/-- Something newer of the peer is stored, or a peer is removed of which the task has found an entry
of another time too old. -/
def Overtakes (id : List UInt8) (t : Nat) (s : BootstrapDiscovery) (e : Nat × Call) : Prop :=
  (∃ x ∈ s.stored e, x.id = id) ∨
    ∃ room, e.2 = .removeExpired room ∧ ∃ t', t' ≠ t ∧ (id,t') ∈ s.expired

/-- The same, whatever the time. -/
def Displaces (id : List UInt8) (s : BootstrapDiscovery) (e : Nat × Call) : Prop :=
  (∃ x ∈ s.stored e, x.id = id) ∨
    ∃ room, e.2 = .removeExpired room ∧ id ∈ s.expired.map Prod.fst

theorem lookup_insertAll (l : List PeerInfo) (now : Nat)
    (m : HashMap (List UInt8) (PeerInfo × Nat)) (info : PeerInfo) (t : Nat) :
    (l.foldl (fun m x => m.insert x.id (x,now)) m).lookup info.id = some (info,t) ↔
      (now = t ∧ ∃ pre post, l = pre++info::post ∧ ∀ x ∈ post, x.id ≠ info.id) ∨
        m.lookup info.id = some (info,t) ∧ ¬ ∃ x ∈ l, x.id = info.id := by
  induction l using List.reverseRecOn with
  | nil => simp
  | append_singleton l x ih =>
    rw [List.foldl_append,List.foldl_cons,List.foldl_nil]
    by_cases hid : info.id = x.id
    · rw [hid,Finmap.lookup_insert,Option.some.injEq,Prod.mk.injEq,← hid]
      constructor
      · rintro ⟨rfl,rfl⟩
        exact .inl ⟨rfl,l,[],rfl,by simp⟩
      · rintro (⟨rfl,pre,post,hsplit,hlater⟩ | ⟨_,hnone⟩)
        · rcases List.eq_nil_or_concat post with rfl | ⟨post,last,rfl⟩
          · obtain ⟨_,hlast⟩ := List.append_inj' hsplit rfl
            exact ⟨by simpa using hlast,rfl⟩
          · rw [List.concat_eq_append,← List.cons_append,← List.append_assoc] at hsplit
            obtain ⟨_,hlast⟩ := List.append_inj' hsplit rfl
            have hx : x = last := by simpa using hlast
            exact absurd (hx ▸ hid.symm) (hlater last (by simp))
        · exact absurd ⟨x,by simp,hid.symm⟩ hnone
    · rw [Finmap.lookup_insert_of_ne _ hid,ih]
      have hkept : (∃ y ∈ l++[x], y.id = info.id) ↔ ∃ y ∈ l, y.id = info.id := by
        simp [List.mem_append,or_and_right,exists_or,Ne.symm hid]
      have hsplit : (∃ pre post, l++[x] = pre++info::post ∧ ∀ y ∈ post, y.id ≠ info.id) ↔
          ∃ pre post, l = pre++info::post ∧ ∀ y ∈ post, y.id ≠ info.id := by
        constructor
        · rintro ⟨pre,post,heq,hlater⟩
          rcases List.eq_nil_or_concat post with rfl | ⟨post,last,rfl⟩
          · obtain ⟨_,hlast⟩ := List.append_inj' heq rfl
            have hx : x = info := by simpa using hlast
            exact absurd (congrArg PeerInfo.id hx.symm) hid
          · rw [List.concat_eq_append,← List.cons_append,← List.append_assoc] at heq
            obtain ⟨hl,_⟩ := List.append_inj' heq rfl
            exact ⟨pre,post,hl,fun y hy => hlater y (by simp [hy])⟩
        · rintro ⟨pre,post,rfl,hlater⟩
          refine ⟨pre,post++[x],by simp,?_⟩
          intro y hy
          rcases List.mem_append.mp hy with hy | hy
          · exact hlater y hy
          · rw [List.mem_singleton.mp hy]
            exact Ne.symm hid
      rw [hkept,hsplit]

theorem lookup_eraseAll (ids : List (List UInt8)) (m : HashMap (List UInt8) (PeerInfo × Nat))
    (id : List UInt8) (x : PeerInfo × Nat) :
    (ids.foldl (fun m id => m.erase id) m).lookup id = some x ↔
      m.lookup id = some x ∧ id ∉ ids := by
  induction ids generalizing m with
  | nil => simp
  | cons first ids ih =>
    rw [List.foldl_cons,ih]
    by_cases hid : id = first
    · subst hid
      simp
    · rw [Finmap.lookup_erase_ne hid]
      simp [hid]

theorem lookup_step (info : PeerInfo) (t : Nat) (s : BootstrapDiscovery) (e : Nat × Call) :
    (s.step e).peers.lookup info.id = some (info,t) ↔
      Stores info t s e ∨ s.peers.lookup info.id = some (info,t) ∧ ¬ Displaces info.id s e := by
  obtain ⟨now,call⟩ := e
  have hidle : ∀ s' : BootstrapDiscovery, s'.peers = s.peers → s.stored (now,call) = [] →
      (∀ room, call ≠ .removeExpired room) → (s'.peers.lookup info.id = some (info,t) ↔
        Stores info t s (now,call) ∨
          s.peers.lookup info.id = some (info,t) ∧ ¬ Displaces info.id s (now,call)) := by
    intro s' hpeers hnone hother
    simp [hpeers,Stores,Displaces,hnone,hother]
  cases call with
  | start peer swarm =>
    apply hidle _ _ rfl (by simp)
    show (s.start peer swarm).2.peers = s.peers
    unfold start
    split_ifs
    · rfl
    · cases swarm <;> rfl
  | stop => exact hidle s.stop.2 rfl rfl (by simp)
  | announce info' =>
    have hinsert := lookup_insertAll [info'] now s.peers info t
    simpa [Stores,Displaces,stored,step,announce] using hinsert
  | dial node answer =>
    cases hanswer : connectToBootstrap node s.config.connectTimeout answer with
    | error e =>
      have hnone : s.stored (now,.dial node answer) = [] := by simp [stored,hanswer,Except.toOption]
      apply hidle _ _ hnone (by simp)
      simp [step,dial,hanswer]
    | ok foundPeers =>
      have hinsert := lookup_insertAll foundPeers now s.peers info t
      simpa [Stores,Displaces,stored,step,dial,hanswer,Except.toOption] using hinsert
  | scanExpired order => exact hidle (s.scanExpired order now) rfl rfl (by simp)
  | removeExpired room =>
    have herase := lookup_eraseAll (s.expired.map Prod.fst) s.peers info.id (info,t)
    simpa [Stores,Displaces,stored,step,removeExpired] using herase

/-- What the task has found too old was stored longer ago than the limit. -/
def Sound (config : BootstrapDiscoveryConfig) (now : Nat) (s : BootstrapDiscovery) : Prop :=
  s.config.peerExpiration = config.peerExpiration ∧
    ∀ x ∈ s.expired, config.peerExpiration < now-x.2

theorem sound_step {config : BootstrapDiscoveryConfig} {now : Nat} {s : BootstrapDiscovery}
    (h : Sound config now s) {e : Nat × Call} (hpast : e.1 ≤ now) : Sound config now (s.step e) := by
  obtain ⟨hconfig,hexpired⟩ := h
  obtain ⟨time,call⟩ := e
  cases call with
  | start peer swarm =>
    show Sound config now (s.start peer swarm).2
    unfold start
    split_ifs
    · exact ⟨hconfig,hexpired⟩
    · cases swarm <;> exact ⟨hconfig,hexpired⟩
  | stop => exact ⟨hconfig,hexpired⟩
  | announce info => exact ⟨hconfig,hexpired⟩
  | dial node answer =>
    show Sound config now (s.dial node answer time)
    have hkept : ∀ s' : BootstrapDiscovery, s'.config = s.config → s'.expired = s.expired →
        Sound config now s' := by
      intro s' hsame hlist
      exact ⟨by rw [hsame,hconfig],by rw [hlist]; exact hexpired⟩
    cases hanswer : connectToBootstrap node s.config.connectTimeout answer <;>
      exact hkept _ (by simp [dial,hanswer]) (by simp [dial,hanswer])
  | scanExpired order =>
    refine ⟨hconfig,?_⟩
    intro x hx
    obtain ⟨entry,hentry,rfl⟩ := List.mem_map.mp hx
    have hage := (List.mem_filter.mp hentry).2
    rw [decide_eq_true_eq,hconfig] at hage
    have htime : time ≤ now := hpast
    show config.peerExpiration < now-entry.2.2
    omega
  | removeExpired room => exact ⟨hconfig,by simp [step,removeExpired]⟩

theorem expiration_of_new {config : BootstrapDiscoveryConfig} {s : BootstrapDiscovery}
    (h : withConfig config = some s) :
    s.config.peerExpiration = config.peerExpiration ∧ s.peers = ∅ ∧ s.expired = [] := by
  unfold withConfig at h
  cases hlegacy : config.bootstrapNodesLegacy.mapM parseLegacy with
  | none => simp [hlegacy] at h
  | some legacy =>
    obtain rfl : _ = s := by simpa [hlegacy] using h
    exact ⟨rfl,rfl,rfl⟩

theorem mem_findPeers (order : HashOrder Unit (List UInt8)) (s : BootstrapDiscovery) (now : Nat)
    (criteria : String) (info : PeerInfo) :
    info ∈ s.findPeers order now criteria ↔
      (criteria = "" ∨ ∃ p ∈ info.protocols, criteria.toList <:+: p.toList) ∧
        ∃ id t, now-t < s.config.peerExpiration ∧ s.peers.lookup id = some (info,t) := by
  constructor
  · intro h
    obtain ⟨⟨x,t⟩,hx,rfl⟩ := List.mem_map.mp h
    obtain ⟨hx,hkept⟩ := List.mem_filter.mp hx
    obtain ⟨⟨id,y⟩,hentry,rfl⟩ := List.mem_map.mp hx
    have hlookup := (order.mem_iter () s.peers _).mp hentry
    simp only [notExpired,Bool.and_eq_true,Bool.or_eq_true,String.isEmpty_iff,List.any_eq_true,
      decide_eq_true_eq] at hkept
    exact ⟨hkept.2,id,t,hkept.1,hlookup⟩
  · rintro ⟨hcriteria,id,t,hyoung,hlookup⟩
    have hentry := (order.mem_iter () s.peers (id,(info,t))).mpr hlookup
    refine List.mem_map.mpr ⟨(info,t),List.mem_filter.mpr
      ⟨List.mem_map.mpr ⟨_,hentry,rfl⟩,?_⟩,rfl⟩
    simp only [notExpired,Bool.and_eq_true,Bool.or_eq_true,String.isEmpty_iff,List.any_eq_true,
      decide_eq_true_eq]
    exact ⟨hyoung,hcriteria⟩

/-- Every entry is under its own id. -/
def Keyed (m : HashMap (List UInt8) (PeerInfo × Nat)) : Prop :=
  ∀ id x, m.lookup id = some x → x.1.id = id

theorem keyed_insertAll (l : List PeerInfo) (now : Nat)
    {m : HashMap (List UInt8) (PeerInfo × Nat)} (h : Keyed m) :
    Keyed (l.foldl (fun m x => m.insert x.id (x,now)) m) := by
  induction l generalizing m with
  | nil => exact h
  | cons x l ih =>
    apply ih
    intro id y hy
    by_cases hid : id = x.id
    · rw [hid,Finmap.lookup_insert,Option.some.injEq] at hy
      rw [← hy,hid]
    · rw [Finmap.lookup_insert_of_ne _ hid] at hy
      exact h id y hy

theorem keyed_step {s : BootstrapDiscovery} (h : Keyed s.peers) (e : Nat × Call) :
    Keyed (s.step e).peers := by
  obtain ⟨now,call⟩ := e
  cases call with
  | start peer swarm =>
    show Keyed (s.start peer swarm).2.peers
    unfold start
    split_ifs
    · exact h
    · cases swarm <;> exact h
  | stop => exact h
  | announce info => exact keyed_insertAll [info] now h
  | dial node answer =>
    show Keyed (s.dial node answer now).peers
    cases hanswer : connectToBootstrap node s.config.connectTimeout answer with
    | error e => simpa [dial,hanswer] using h
    | ok foundPeers => simpa [dial,hanswer] using keyed_insertAll foundPeers now h
  | scanExpired order => exact h
  | removeExpired room =>
    intro id x hx
    exact h id x ((lookup_eraseAll (s.expired.map Prod.fst) s.peers id x).mp hx).1

/-- Whatever the calls and the task do, and in whatever order, a peer is found exactly if what was
stored of it last is younger than the limit, has the criteria in one of its protocols, and has not
been removed in place of an older entry that the task had found before. That the task removes what
is too old never changes what is found. -/
theorem findPeers_iff {config : BootstrapDiscoveryConfig} {s₀ : BootstrapDiscovery}
    (hnew : withConfig config = some s₀) {es : List (Nat × Call)} {now : Nat}
    (hclock : ∀ e ∈ es, e.1 ≤ now) (order : HashOrder Unit (List UInt8)) (criteria : String)
    (info : PeerInfo) :
    info ∈ (es.foldl step s₀).findPeers order now criteria ↔
      (criteria = "" ∨ ∃ p ∈ info.protocols, criteria.toList <:+: p.toList) ∧
        ∃ t, now-t < config.peerExpiration ∧
          Since step (Stores info t) (Overtakes info.id t) s₀ es := by
  obtain ⟨hconfig,hempty,hnone⟩ := expiration_of_new hnew
  have hpast : Along step (fun _ e => e.1 ≤ now) s₀ es := along_of_forall step s₀ hclock
  have hsound : Sound config now s₀ := ⟨hconfig,by simp [hnone]⟩
  have hend : Sound config now (es.foldl step s₀) :=
    hpast.invariant (Sound config now) hsound (fun s e h htime => sound_step h htime)
  have hkeyed : Keyed (es.foldl step s₀).peers :=
    (along_true step s₀ es).invariant (fun s => Keyed s.peers) (by simp [Keyed,hempty])
      (fun s e h _ => keyed_step h e)
  have hsince : ∀ t, (es.foldl step s₀).peers.lookup info.id = some (info,t) ↔
      Since step (Stores info t) (Displaces info.id) s₀ es := by
    intro t
    exact holds_iff_since_of_not
      (P := fun s : BootstrapDiscovery => s.peers.lookup info.id = some (info,t))
      (lookup_step info t) (by simp [hempty]) es
  rw [mem_findPeers,hend.1]
  refine and_congr_right (fun _ => ?_)
  constructor
  · rintro ⟨id,t,hyoung,hlookup⟩
    obtain rfl : info.id = id := hkeyed id _ hlookup
    refine ⟨t,hyoung,((hsince t).mp hlookup).weaken ?_⟩
    apply (along_true step s₀ es).imp (fun _ => True) trivial (fun _ _ _ _ => trivial)
    rintro s e _ _ (hstored | ⟨room,hremove,t',_,hmem⟩)
    · exact .inl hstored
    · exact .inr ⟨room,hremove,List.mem_map.mpr ⟨_,hmem,rfl⟩⟩
  · rintro ⟨t,hyoung,hstored⟩
    refine ⟨info.id,t,hyoung,(hsince t).mpr (hstored.weaken ?_)⟩
    apply hpast.imp (Sound config now) hsound (fun s e h htime => sound_step h htime)
    rintro s e ⟨_,hexpired⟩ _ (hnewer | ⟨room,hremove,hmem⟩)
    · exact .inl hnewer
    · obtain ⟨⟨id,t'⟩,hmem,rfl⟩ := List.mem_map.mp hmem
      refine .inr ⟨room,hremove,t',?_,hmem⟩
      -- An entry of the same time would be too old to be found.
      rintro rfl
      have hage := hexpired _ hmem
      simp only at hage
      omega

def sampleInfo : PeerInfo := ⟨[1],[],["/obn/1.0.0"],[],none,none,.disconnected⟩

/-- A node that is reached at once, as the peer `[3]`. -/
def reachedNode : Answer := .ok [⟨0,100,some (.connectionEstablished [3] [])⟩]

theorem reachedNode_found : connectToBootstrap "node"
    BootstrapDiscoveryConfig.default.connectTimeout reachedNode = .ok [found [3] [] [] 100] := by
  simp [connectToBootstrap,awaitConnection,reachedNode,BootstrapDiscoveryConfig.default,
    extractSocketAddr]

/-- A peer is announced before the others and found too old, when one that was announced later and
one that was reached are not. -/
def announcedInTurn (order : HashOrder Unit (List UInt8)) : List (Nat × Call) :=
  [(1,.announce { sampleInfo with id := [2] }),(100,.announce sampleInfo),
    (100,.dial "node" reachedNode),(3602,.scanExpired order),(3602,.removeExpired 1)]

theorem findPeers_iff_announced : ∃ order : HashOrder Unit (List UInt8),
    sampleInfo ∈ ((announcedInTurn order).foldl step ⟨.default,∅,false,none,[],[]⟩).findPeers
      order 3602 "obn" := by
  obtain ⟨order⟩ : Nonempty (HashOrder Unit (List UInt8)) := inferInstance
  have hnew : withConfig .default = some ⟨.default,∅,false,none,[],[]⟩ := rfl
  refine ⟨order,(findPeers_iff hnew (by simp [announcedInTurn]) order "obn" sampleInfo).mpr ?_⟩
  have hyoung : 3602-100 < BootstrapDiscoveryConfig.default.peerExpiration := by
    show 3502 < 3600
    omega
  refine ⟨.inr ⟨_,List.mem_singleton_self _,by decide⟩,100,hyoung,
    [(1,.announce { sampleInfo with id := [2] })],_,[(100,.dial "node" reachedNode),
      (3602,.scanExpired order),(3602,.removeExpired 1)],rfl,⟨rfl,[],[],rfl,by simp⟩,?_,?_,?_,trivial⟩
  · rintro (⟨x,hx,hid⟩ | ⟨room,hremove,_⟩)
    · change x ∈ (connectToBootstrap "node" BootstrapDiscoveryConfig.default.connectTimeout
        reachedNode).toOption.getD [] at hx
      rw [reachedNode_found] at hx
      obtain rfl := List.mem_singleton.mp hx
      exact absurd hid (by decide)
    · cases hremove
  · rintro (⟨x,hx,_⟩ | ⟨room,hremove,_⟩)
    · cases hx
    · cases hremove
  · rintro (⟨x,hx,_⟩ | ⟨room,_,t',hother,hmem⟩)
    · cases hx
    · -- the entry that the scan has found is that of the announcement
      obtain ⟨⟨id,info,t⟩,hentry,heq⟩ := List.mem_map.mp hmem
      cases heq
      have hlookup := (HashOrder.mem_iter _ _ _ _).mp (List.mem_filter.mp hentry).1
      have hfound : some (sampleInfo,100) = some (info,t) := hlookup
      exact hother (Prod.mk.inj (Option.some.inj hfound)).2.symm

end Cache

end BootstrapDiscovery

end OpenBroadcast.Discovery.Bootstrap
