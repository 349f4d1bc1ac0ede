import OpenBroadcast.Framework.Run
import OpenBroadcast.Signaling.Client

namespace OpenBroadcast.Signaling

/-- What a client gets: a message of the server or a call of the browser. -/
inductive ClientInput where
  | message (m : SignalingMessage)
  | event (e : ClientEvent)

def ClientTask.isOffering : ClientTask → Bool
  | .offering _ _ => true
  | _ => false

namespace Client

def receive (c : Client) : ClientInput → Client
  | .message m => c.handleSignalingMessage m
  | .event e => (c.step e).1

/-- Whether the loop over `sources` comes to a call to `initiateConnection`. -/
def initiatesAmong (c : Client) (sources : List Text) : Bool :=
  !sources.isEmpty && c.getConnectedPeerCount < maxPeerConnections

/-- Whether a message makes the client call `initiateConnection`. -/
def initiatesOn (c : Client) : SignalingMessage → Bool
  | .peerList peers => !c.isPublisher && c.initiatesAmong (sourcesOf peers)
  | .peerJoin p _ pub =>
    p ≠ c.localPeerId ∧ !c.isPublisher ∧ pub ∧ c.getConnectedPeerCount < maxPeerConnections
  | .peerUpdate p _ _ relay =>
    p ≠ c.localPeerId ∧ !c.isPublisher ∧ relay ∧ p ∉ c.peerConnections ∧
      c.getConnectedPeerCount < maxPeerConnections
  | _ => false

/-- Whether the client calls `initiateConnection` after an awaited operation. -/
def initiatesAfter (c : Client) : ClientTask → Option String → Bool
  | .offering _ sources,some _ => c.initiatesAmong sources
  | .offering remote sources,none => (c.closePeerConnection remote).initiatesAmong sources
  | _,_ => false

def initiates (c : Client) : ClientInput → Bool
  | .message m => c.initiatesOn m
  | .event (.resume i outcome) => c.tasks[i]?.any (fun t => c.initiatesAfter t outcome)
  | .event _ => false

/-- What `closePeerConnection` calls `close` on. -/
def connectionTo (c : Client) (remote : Text) : Finset Nat :=
  (c.peerConnections.lookup remote).toFinset

/-- The connections that the client calls `close` on. -/
def closes (c : Client) : ClientInput → Finset Nat
  | .message (.peerLeave p) => if p ≠ c.localPeerId then c.connectionTo p else ∅
  | .event (.resume i none) =>
    match c.tasks[i]? with
    | some (.offering remote _) | some (.describingOffer _ remote) | some (.answering remote) =>
      c.connectionTo remote
    | _ => ∅
  | .event (.connectionLost remote) => c.connectionTo remote
  | .event .disconnect => c.peerConnections.keys.biUnion c.connectionTo
  | _ => ∅

/-- How many offers the client is still to make. Only `initiateConnection` adds to them. -/
def offerings (c : Client) : Nat := c.tasks.countP ClientTask.isOffering

theorem await_offerings (c : Client) {t : ClientTask} (h : t.isOffering = false) :
    (c.await t).offerings = c.offerings := by
  simp [offerings,await,List.countP_append,h]

theorem connectSources_cases (c : Client) (sources : List Text) :
    (c.initiatesAmong sources = true ∧
      ∃ p rest, c.connectSources sources = c.initiateConnection p rest) ∨
    (c.initiatesAmong sources = false ∧ c.connectSources sources = c) := by
  cases sources with
  | nil => exact .inr ⟨rfl,rfl⟩
  | cons p rest =>
    by_cases hfull : maxPeerConnections ≤ c.getConnectedPeerCount
    · exact .inr ⟨by simp [initiatesAmong,hfull],by rw [connectSources,if_pos hfull]⟩
    · have hroom : c.getConnectedPeerCount < maxPeerConnections := Nat.not_le.mp hfull
      exact .inl ⟨by simp [initiatesAmong,hroom],p,rest,by rw [connectSources,if_neg hfull]⟩

/-- All that a message can do to the connections: to initiate one, to close one, to answer an
offer, or nothing. -/
theorem handleSignalingMessage_cases (c : Client) (m : SignalingMessage) :
    (c.initiatesOn m = true ∧
      ∃ p rest, c.handleSignalingMessage m = c.initiateConnection p rest) ∨
    (c.initiatesOn m = false ∧
      ((∃ p, c.handleSignalingMessage m = c.closePeerConnection p) ∨
        (∃ p, c.handleSignalingMessage m = c.handleOffer p) ∨
        ((c.handleSignalingMessage m).created = c.created ∧
          (c.handleSignalingMessage m).peerConnections = c.peerConnections ∧
          (c.handleSignalingMessage m).offerings = c.offerings))) := by
  cases m with
  | peerList peers =>
    simp only [handleSignalingMessage,initiatesOn]
    cases c.isPublisher with
    | true => exact .inr ⟨rfl,.inr (.inr ⟨rfl,rfl,rfl⟩)⟩
    | false =>
      obtain hcall | ⟨hcall,heq⟩ := connectSources_cases c (sourcesOf peers)
      · exact .inl hcall
      · refine .inr ⟨hcall,.inr (.inr ?_)⟩
        simp [heq]
  | peerJoin p sid pub =>
    simp only [handleSignalingMessage,initiatesOn]
    split_ifs with h
    · exact .inl ⟨decide_eq_true h,p,[],rfl⟩
    · exact .inr ⟨decide_eq_false h,.inr (.inr ⟨rfl,rfl,rfl⟩)⟩
  | peerUpdate p sid pub relay =>
    simp only [handleSignalingMessage,initiatesOn]
    split_ifs with h
    · exact .inl ⟨decide_eq_true h,p,[],rfl⟩
    · exact .inr ⟨decide_eq_false h,.inr (.inr ⟨rfl,rfl,rfl⟩)⟩
  | peerLeave p =>
    refine .inr ⟨rfl,?_⟩
    simp only [handleSignalingMessage]
    split_ifs with h
    · exact .inl ⟨p,rfl⟩
    · exact .inr (.inr ⟨rfl,rfl,rfl⟩)
  | offer p target sdp =>
    refine .inr ⟨rfl,?_⟩
    simp only [handleSignalingMessage]
    split_ifs with h
    · exact .inr (.inl ⟨p,rfl⟩)
    · exact .inr (.inr ⟨rfl,rfl,rfl⟩)
  | answer p target sdp =>
    refine .inr ⟨rfl,.inr (.inr ?_)⟩
    simp only [handleSignalingMessage,handleAnswer]
    split_ifs with h
    · cases c.peerConnections.lookup p with
      | none => exact ⟨rfl,rfl,rfl⟩
      | some pc => exact ⟨rfl,rfl,await_offerings c rfl⟩
    · exact ⟨rfl,rfl,rfl⟩
  | iceCandidate p target candidate mid index =>
    refine .inr ⟨rfl,.inr (.inr ?_)⟩
    simp only [handleSignalingMessage,handleIceCandidate]
    split_ifs <;> exact ⟨rfl,rfl,rfl⟩
  | error text => exact .inr ⟨rfl,.inr (.inr ⟨rfl,rfl,rfl⟩)⟩

/-- The map names connections that exist. -/
def Numbered (c : Client) : Prop :=
  ∀ remote pc, c.peerConnections.lookup remote = some pc → pc < c.created

/-- `c'` comes after `c`, with at least `n` new connections. -/
structure Grows (c c' : Client) (n : Nat) : Prop where
  created : c.created+n ≤ c'.created
  numbered : c.Numbered → c'.Numbered

section Growth

variable {c : Client}

theorem grows_of_eq {c' : Client} (hcreated : c'.created = c.created)
    (hmap : c'.peerConnections = c.peerConnections) : Grows c c' 0 := by
  refine ⟨by rw [hcreated]; exact Nat.le_refl _,?_⟩
  intro h remote pc hpc
  rw [hmap] at hpc
  rw [hcreated]
  exact h remote pc hpc

theorem createPeerConnection_grows (remote : Text) :
    Grows c (c.createPeerConnection remote) 1 := by
  refine ⟨Nat.le_refl _,?_⟩
  intro h p pc hpc
  show pc < c.created+1
  simp only [createPeerConnection] at hpc
  by_cases hp : p = remote
  · subst p
    rw [Finmap.lookup_insert,Option.some.injEq] at hpc
    omega
  · rw [Finmap.lookup_insert_of_ne _ hp] at hpc
    have hold := h p pc hpc
    omega

theorem closePeerConnection_grows (remote : Text) :
    Grows c (c.closePeerConnection remote) 0 := by
  refine ⟨Nat.le_refl _,?_⟩
  intro h p pc hpc
  simp only [closePeerConnection] at hpc
  by_cases hp : p = remote
  · subst p
    rw [Finmap.lookup_erase] at hpc
    cases hpc
  · rw [Finmap.lookup_erase_ne hp] at hpc
    exact h p pc hpc

theorem Grows.weaken {c' : Client} {m n : Nat} (h : Grows c c' n) (hle : m ≤ n) :
    Grows c c' m := by
  have hcreated := h.created
  exact ⟨by omega,h.numbered⟩

theorem Grows.trans {c' c'' : Client} {n : Nat} (h : Grows c c' 0) (h' : Grows c' c'' n) :
    Grows c c'' n := by
  have hcreated := h.created
  have hcreated' := h'.created
  exact ⟨by omega,fun hnum => h'.numbered (h.numbered hnum)⟩

theorem initiateConnection_grows (remote : Text) (sources : List Text) :
    Grows c (c.initiateConnection remote sources) 1 :=
  ⟨(createPeerConnection_grows remote).created,(createPeerConnection_grows remote).numbered⟩

theorem handleOffer_grows (remote : Text) : Grows c (c.handleOffer remote) 0 := by
  unfold handleOffer
  cases c.peerConnections.lookup remote with
  | none =>
    have hnew : Grows c (c.createPeerConnection remote) 0 :=
      (createPeerConnection_grows remote).weaken (Nat.zero_le _)
    exact ⟨hnew.created,hnew.numbered⟩
  | some pc => exact grows_of_eq rfl rfl

theorem connectSources_grows (sources : List Text) :
    Grows c (c.connectSources sources) (c.initiatesAmong sources).toNat := by
  obtain ⟨hcall,p,rest,heq⟩ | ⟨hcall,heq⟩ := connectSources_cases c sources
  · rw [hcall,heq]
    exact initiateConnection_grows p rest
  · rw [hcall,heq]
    exact grows_of_eq rfl rfl

theorem handleSignalingMessage_grows (m : SignalingMessage) :
    Grows c (c.handleSignalingMessage m) (c.initiatesOn m).toNat := by
  obtain ⟨hcall,p,rest,heq⟩ | ⟨hcall,⟨p,heq⟩ | ⟨p,heq⟩ | ⟨hcreated,hmap,_⟩⟩ :=
    handleSignalingMessage_cases c m
  · rw [hcall,heq]
    exact initiateConnection_grows p rest
  · rw [hcall,heq]
    exact closePeerConnection_grows p
  · rw [hcall,heq]
    exact handleOffer_grows p
  · rw [hcall]
    exact grows_of_eq hcreated hmap

theorem finish_grows (t : ClientTask) (outcome : Option String) :
    Grows c (c.finish t outcome).1 (c.initiatesAfter t outcome).toNat := by
  cases t with
  | offering remote sources =>
    cases outcome with
    | some sdp => exact connectSources_grows sources
    | none => exact (closePeerConnection_grows remote).trans (connectSources_grows sources)
  | describingOffer pc remote =>
    cases outcome with
    | some sdp => exact grows_of_eq rfl rfl
    | none => exact closePeerConnection_grows remote
  | answering remote =>
    cases outcome with
    | some sdp => exact grows_of_eq rfl rfl
    | none => exact closePeerConnection_grows remote
  | describingAnswer pc remote =>
    cases outcome with
    | some sdp => exact grows_of_eq rfl rfl
    | none => exact grows_of_eq rfl rfl

theorem step_grows (e : ClientEvent) :
    Grows c (c.step e).1 (c.initiates (.event e)).toNat := by
  cases e with
  | resume i outcome =>
    simp only [step,initiates]
    cases c.tasks[i]? with
    | none => exact grows_of_eq rfl rfl
    | some t =>
      have hfinish := finish_grows (c := { c with tasks := c.tasks.eraseIdx i }) t outcome
      have hsame : { c with tasks := c.tasks.eraseIdx i }.initiatesAfter t outcome =
          c.initiatesAfter t outcome := by
        cases t <;> cases outcome <;> rfl
      rw [hsame] at hfinish
      have hpopped : Grows c { c with tasks := c.tasks.eraseIdx i } 0 := grows_of_eq rfl rfl
      exact hpopped.trans hfinish
  | connectionLost remote => exact closePeerConnection_grows remote
  | disconnect =>
    refine ⟨Nat.le_refl _,?_⟩
    intro _ p pc hpc
    simp [step] at hpc
  | opened | closed | channelReceived | channelOpened | channelClosed => exact grows_of_eq rfl rfl
  | candidateFound | relayReady | becomePublisher =>
    simp only [step]
    split_ifs <;> exact grows_of_eq rfl rfl

/-- What one input does to the connections: it creates one where it initiates one, and the map
goes on naming connections that exist. -/
theorem receive_grows (x : ClientInput) : Grows c (c.receive x) (c.initiates x).toNat := by
  cases x with
  | message m => exact handleSignalingMessage_grows m
  | event e => exact step_grows e

theorem connectionTo_lt (h : c.Numbered) (remote : Text) : ∀ pc ∈ c.connectionTo remote,
    pc < c.created := by
  intro pc hpc
  exact h remote pc (by simpa [connectionTo] using hpc)

theorem closes_lt (h : c.Numbered) (x : ClientInput) : ∀ pc ∈ c.closes x, pc < c.created := by
  intro pc hpc
  unfold closes at hpc
  split at hpc
  · split_ifs at hpc
    · exact connectionTo_lt h _ pc hpc
    · simp at hpc
  · split at hpc
    · exact connectionTo_lt h _ pc hpc
    · exact connectionTo_lt h _ pc hpc
    · exact connectionTo_lt h _ pc hpc
    · simp at hpc
  · exact connectionTo_lt h _ pc hpc
  · obtain ⟨remote,_,hremote⟩ := Finset.mem_biUnion.mp hpc
    exact connectionTo_lt h remote pc hremote
  · simp at hpc

end Growth

section Offers

variable {c : Client}

theorem initiateConnection_offerings (remote : Text) (sources : List Text) :
    (c.initiateConnection remote sources).offerings = c.offerings+1 := by
  simp [offerings,initiateConnection,await,createPeerConnection,List.countP_append,
    ClientTask.isOffering]

theorem connectSources_offerings (sources : List Text) :
    (c.connectSources sources).offerings = c.offerings+(c.initiatesAmong sources).toNat := by
  obtain ⟨hcall,p,rest,heq⟩ | ⟨hcall,heq⟩ := connectSources_cases c sources
  · rw [hcall,heq]
    exact initiateConnection_offerings p rest
  · rw [hcall,heq]
    rfl

theorem handleOffer_offerings (remote : Text) :
    (c.handleOffer remote).offerings = c.offerings := by
  unfold handleOffer
  cases c.peerConnections.lookup remote with
  | none => exact await_offerings (c.createPeerConnection remote) rfl
  | some pc => exact await_offerings c rfl

/-- `initiatesOn` says exactly whether `initiateConnection` is called. -/
theorem handleSignalingMessage_offerings (m : SignalingMessage) :
    (c.handleSignalingMessage m).offerings = c.offerings+(c.initiatesOn m).toNat := by
  obtain ⟨hcall,p,rest,heq⟩ | ⟨hcall,⟨p,heq⟩ | ⟨p,heq⟩ | ⟨_,_,hsame⟩⟩ :=
    handleSignalingMessage_cases c m
  · rw [hcall,heq]
    exact initiateConnection_offerings p rest
  · rw [hcall,heq]
    rfl
  · rw [hcall,heq]
    exact handleOffer_offerings p
  · rw [hcall,hsame]
    rfl

/-- `initiatesAfter` says exactly whether `initiateConnection` is called. -/
theorem finish_offerings (t : ClientTask) (outcome : Option String) :
    (c.finish t outcome).1.offerings = c.offerings+(c.initiatesAfter t outcome).toNat := by
  cases t with
  | offering remote sources =>
    cases outcome with
    | some sdp => exact connectSources_offerings sources
    | none => exact connectSources_offerings (c := c.closePeerConnection remote) sources
  | describingOffer pc remote =>
    cases outcome with
    | some sdp => exact await_offerings (c.setRemoteDescription pc remote) rfl
    | none => rfl
  | answering remote => cases outcome <;> rfl
  | describingAnswer pc remote => cases outcome <;> rfl

end Offers

end Client

end OpenBroadcast.Signaling
