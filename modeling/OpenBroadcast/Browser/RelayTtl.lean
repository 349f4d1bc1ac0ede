import OpenBroadcast.Browser.StreamMesh
import OpenBroadcast.Framework.Run

namespace OpenBroadcast.Browser

open ArrayBuffer StreamClient

variable {PeerId ι : Type}

/-- A copy has come at most three channels far, and, if its hops to live have never been renewed,
they are not more than what is left. -/
def Item.Bounded : Item PeerId ι (Copy PeerId) → Prop
  | .segment h b => (b.hops : Int) ≤ maxRelayTTL ∧
    (h.typed → b.renewed = false → ∃ ttl, h.ttl = some ttl ∧ (b.hops : Int)+ttl ≤ maxRelayTTL+1)
  | _ => True

namespace StreamClient

/-- The segments with a type that a client keeps are its own. -/
def OwnTyped (c : StreamClient PeerId ι (Copy PeerId)) : Prop :=
  ∀ seg ∈ c.cachedKeyframe.toList++c.segmentQueue, seg.1.typed →
    seg.1.ttl = some maxRelayTTL ∧ seg.2.path = [] ∧ seg.2.renewed = false

/-- The copies that `sendCachedDataToPeer` sends. -/
def cachedCopies (c : StreamClient PeerId ι (Copy PeerId)) : List (Copy PeerId) :=
  c.cachedInitSegment.toList++(c.cachedKeyframe.toList++c.laterSegments).map Prod.snd

/-- What a client sends keeps the bounds when it is under way. -/
def SendsBounded (p : PeerId) (effects : List (ClientEffect PeerId ι (Copy PeerId))) : Prop :=
  ∀ q item, .send q item ∈ effects → (item.leave p).Bounded

section Clients

variable {c : StreamClient PeerId ι (Copy PeerId)} {p : PeerId}

theorem laterSegments_subset : c.laterSegments ⊆ c.segmentQueue := by
  unfold laterSegments
  cases c.cachedKeyframe with
  | none => simp
  | some k => exact List.filter_subset_self _

theorem cachedItems_bounded (hown : OwnTyped c)
    (hshort : ∀ b ∈ c.cachedCopies, (b.hops : Int) < maxRelayTTL) (now : Nat) :
    ∀ item ∈ c.cachedItems now, (item.leave p).Bounded := by
  intro item hitem
  simp only [cachedItems,List.mem_append,Option.mem_toList,Option.map_eq_some_iff,List.mem_map]
    at hitem
  rcases hitem with (⟨data,_,rfl⟩ | ⟨b,hb,rfl⟩) | ⟨seg,hseg,rfl⟩
  · trivial
  · have hhops := hshort b (by simp [cachedCopies,hb])
    refine ⟨?_,?_⟩
    · simp only [Copy.hops,List.length_append,List.length_singleton] at hhops ⊢
      omega
    · intro _ hrenewed
      simp [initHeader] at hrenewed
  · have hmem : seg ∈ c.cachedKeyframe.toList++c.laterSegments := by simpa using hseg
    have hhops := hshort seg.2
      (by rw [cachedCopies]; exact List.mem_append_right _ (List.mem_map_of_mem hmem))
    refine ⟨?_,?_⟩
    · simp only [Copy.hops,List.length_append,List.length_singleton] at hhops ⊢
      omega
    · intro ht _
      have hkept : seg ∈ c.cachedKeyframe.toList++c.segmentQueue := by
        rcases List.mem_append.mp hmem with hkeyframe | hlater
        · exact List.mem_append_left _ hkeyframe
        · exact List.mem_append_right _ (laterSegments_subset hlater)
      obtain ⟨httl,hpath,_⟩ := hown seg hkept ht
      refine ⟨maxRelayTTL,httl,?_⟩
      simp only [Copy.hops,hpath,List.nil_append,List.length_singleton]
      omega

theorem checkRelayReady_caches :
    c.checkRelayReady.1.cachedKeyframe = c.cachedKeyframe ∧
    c.checkRelayReady.1.segmentQueue = c.segmentQueue ∧
    ∀ q item, .send q item ∉ c.checkRelayReady.2 := by
  unfold checkRelayReady
  split_ifs
  · exact ⟨rfl,rfl,by simp⟩
  · exact ⟨rfl,rfl,by simp⟩

/-- A received segment may become the cached keyframe, and nothing is sent for that. -/
theorem cacheReceived_caches (h : SegmentHeader PeerId) (b : Copy PeerId) :
    ((c.cacheReceived h b).1.cachedKeyframe = c.cachedKeyframe ∨
      (c.cacheReceived h b).1.cachedKeyframe = some (h,b)) ∧
    (c.cacheReceived h b).1.segmentQueue = c.segmentQueue ∧
    ∀ q item, .send q item ∉ (c.cacheReceived h b).2 := by
  obtain ⟨hkeyframe,hqueue,hsends⟩ :=
    checkRelayReady_caches (c := { c with cachedInitSegment := some b })
  unfold cacheReceived
  dsimp only
  split_ifs
  · exact ⟨.inr rfl,hqueue,hsends⟩
  · exact ⟨.inr rfl,rfl,by simp⟩
  · exact ⟨.inl hkeyframe,hqueue,hsends⟩
  · exact ⟨.inl rfl,rfl,by simp⟩

/-- Segments without a type change nothing about the client's own. -/
theorem OwnTyped.extend {c' : StreamClient PeerId ι (Copy PeerId)} (h : OwnTyped c)
    {l : List (SegmentHeader PeerId × Copy PeerId)}
    (hnew : ∀ seg ∈ l, seg.1.typed → seg.1.ttl = some maxRelayTTL ∧ seg.2.path = [] ∧
      seg.2.renewed = false)
    (hsub : ∀ seg ∈ c'.cachedKeyframe.toList++c'.segmentQueue,
      seg ∈ c.cachedKeyframe.toList++c.segmentQueue ∨ seg ∈ l) : OwnTyped c' := by
  intro seg hseg ht
  rcases hsub seg hseg with hold | hadded
  · exact h seg hold ht
  · exact hnew seg hadded ht

variable [DecidableEq PeerId]

omit [DecidableEq PeerId] in
theorem cacheReceived_ownTyped {h : SegmentHeader PeerId} (ht : h.typed = false)
    (b : Copy PeerId) (hown : OwnTyped c) : OwnTyped (c.cacheReceived h b).1 := by
  obtain ⟨hkeyframe,hqueue,_⟩ := cacheReceived_caches (c := c) h b
  apply hown.extend (l := [(h,b)])
  · intro seg hseg htyped
    have heq : seg = (h,b) := by simpa using hseg
    rw [heq,ht] at htyped
    cases htyped
  · intro seg hseg
    rw [hqueue] at hseg
    rcases hkeyframe with hkeyframe | hkeyframe
    · rw [hkeyframe] at hseg
      exact .inl hseg
    · rw [hkeyframe] at hseg
      simp only [Option.toList_some,List.singleton_append,List.mem_cons] at hseg
      rcases hseg with rfl | hseg
      · exact .inr (by simp)
      · exact .inl (List.mem_append_right _ hseg)

theorem relayReceived_ownTyped {h : SegmentHeader PeerId} (ht : h.typed = false)
    (b : Copy PeerId) (source : PeerId) (hown : OwnTyped c) :
    OwnTyped (c.relayReceived h b source).1 := by
  apply hown.extend (l := [(h,b)])
  · intro seg hseg htyped
    have heq : seg = (h,b) := by simpa using hseg
    rw [heq,ht] at htyped
    cases htyped
  · intro seg hseg
    unfold relayReceived at hseg
    split_ifs at hseg
    · simp only [pushSegment,addSeenSequence,List.mem_append] at hseg
      rcases hseg with hkeyframe | hqueue
      · exact .inl (List.mem_append_left _ hkeyframe)
      · rcases List.mem_append.mp (rtake_subset hqueue) with hold | hadded
        · exact .inl (List.mem_append_right _ hold)
        · exact .inr hadded
    · exact .inl hseg

/-- What is relayed of a received segment. -/
theorem relayReceived_sends {h : SegmentHeader PeerId} {b : Copy PeerId} {source q : PeerId}
    {item : Item PeerId ι (Copy PeerId)}
    (hsend : .send q item ∈ (c.relayReceived h b source).2) :
    c.relays h = true ∧ 1 < h.ttl.getD maxRelayTTL ∧
      q ∈ c.openPeers.filter (fun peer => peer ≠ source) ∧
      item = .segment (h.relayHeader (byteLength b) (h.ttl.getD maxRelayTTL-1)) b := by
  unfold relayReceived at hsend
  split_ifs at hsend with hrelays
  · simp only [relaySegmentToPeers] at hsend
    split_ifs at hsend with httl
    · simp at hsend
    · obtain ⟨peer,hpeer,heq⟩ := List.mem_map.mp hsend
      cases heq
      have hpeers : ((c.addSeenSequence (c.dedupKey h)).pushSegment h b).openPeers =
          c.openPeers := by
        simp [openPeers,pushSegment,addSeenSequence]
      rw [hpeers] at hpeer
      exact ⟨hrelays,by omega,hpeer,rfl⟩
  · simp at hsend

theorem Silent.idle {r : StreamClient PeerId ι (Copy PeerId) ×
    List (ClientEffect PeerId ι (Copy PeerId))} (h : Silent c r) (hidle : Idle c) : Idle r.1 :=
  ⟨h.pending.trans hidle.pending,h.chunks.trans hidle.chunks⟩

/-- A copy that a client passes on under a header of the live path. -/
def PassesOn (c : StreamClient PeerId ι (Copy PeerId)) (source : PeerId)
    (h : SegmentHeader PeerId) (b : Copy PeerId) : Bool :=
  h.typed && (c.cacheReceived (h.pending source) b).1.relays (h.pending source) &&
    decide (1 < h.ttl.getD maxRelayTTL) &&
    !((c.cacheReceived (h.pending source) b).1.openPeers.filter (fun q => q ≠ source)).isEmpty

omit [DecidableEq PeerId] in
/-- One channel more and one hop less to live. -/
theorem relayed_bounded {h h' : SegmentHeader PeerId} {b : Copy PeerId} (ht : h.typed = true)
    (httl : 1 < h.ttl.getD maxRelayTTL)
    (hbounded : (Item.segment h b : Item PeerId ι _).Bounded)
    (hshort : b.renewed → (b.hops : Int) < maxRelayTTL) (size : Nat) :
    ((Item.segment (h'.relayHeader size (h.ttl.getD maxRelayTTL-1)) b : Item PeerId ι _).leave
      p).Bounded := by
  have hhops : ((b.path++[p]).length : Int) = b.hops+1 := by simp [Copy.hops]
  cases hrenewed : b.renewed with
  | true =>
    have hless := hshort hrenewed
    refine ⟨?_,?_⟩
    · simp only [Copy.hops] at hhops hless ⊢
      omega
    · intro _ hnot
      simp [hrenewed] at hnot
  | false =>
    obtain ⟨ttl,hsome,hsum⟩ := hbounded.2 ht hrenewed
    have hget : h.ttl.getD maxRelayTTL = ttl := by simp [hsome]
    rw [hget] at httl ⊢
    refine ⟨?_,?_⟩
    · simp only [Copy.hops] at hhops hsum ⊢
      omega
    · intro _ _
      refine ⟨ttl-1,rfl,?_⟩
      simp only [Copy.hops] at hhops hsum ⊢
      omega

theorem receiveSegment_kept (source : PeerId) (h : SegmentHeader PeerId) (b : Copy PeerId)
    (hidle : Idle c) (hown : OwnTyped c) (hbounded : (Item.segment h b : Item PeerId ι _).Bounded)
    (hshort : c.PassesOn source h b → b.renewed → (b.hops : Int) < maxRelayTTL) :
    Idle (c.receiveSegment source h b).1 ∧ OwnTyped (c.receiveSegment source h b).1 ∧
      SendsBounded p (c.receiveSegment source h b).2 := by
  unfold receiveSegment
  by_cases ht : h.typed = true
  · rw [if_pos ht]
    have hpending : (h.pending source).typed = false := rfl
    have hcached := (cacheReceived_silent (h.pending source) b).idle hidle
    have hcachedOwn := cacheReceived_ownTyped hpending b hown
    refine ⟨(relayReceived_silent (h.pending source) b source).idle hcached,
      relayReceived_ownTyped hpending b source hcachedOwn,?_⟩
    intro q item hsend
    rcases List.mem_append.mp hsend with hready | hsend
    · exact absurd hready ((cacheReceived_caches (h.pending source) b).2.2 q item)
    · rcases List.mem_cons.mp hsend with hreceived | hrelayed
      · cases hreceived
      · obtain ⟨hrelays,httl,hq,rfl⟩ := relayReceived_sends hrelayed
        have hdefault : (h.pending source).ttl.getD maxRelayTTL = h.ttl.getD maxRelayTTL := rfl
        rw [hdefault] at httl ⊢
        have hpasses : c.PassesOn source h b = true := by
          have hne : ((c.cacheReceived (h.pending source) b).1.openPeers.filter
              (fun q => q ≠ source)).isEmpty = false := by
            rw [List.isEmpty_eq_false_iff]
            exact List.ne_nil_of_mem hq
          rw [PassesOn,ht,hrelays,hne]
          simp [httl]
        exact relayed_bounded ht httl hbounded (hshort hpasses) _
  · rw [if_neg ht]
    refine ⟨hidle,hown,?_⟩
    intro q item hsend
    simp at hsend

theorem channelOpened_bounded (hown : OwnTyped c) (peer : PeerId) (now : Nat)
    (hshort : (c.isPublisher || c.canRelay) = true → c.cachedStreamInfo.isSome = true →
      ∀ b ∈ c.cachedCopies, (b.hops : Int) < maxRelayTTL) :
    SendsBounded p (c.channelOpened peer now).2 := by
  intro q item hsend
  simp only [channelOpened] at hsend
  rcases List.mem_append.mp hsend with hcached | hrequest
  · split_ifs at hcached with hserves
    · obtain ⟨hrole,hinfo⟩ := Bool.and_eq_true_iff.mp hserves
      simp only [sendCachedDataToPeer] at hcached
      split_ifs at hcached
      · simp at hcached
      · obtain ⟨item',hitem,heq⟩ := List.mem_map.mp hcached
        cases heq
        exact cachedItems_bounded (c := c) hown (hshort hrole hinfo) now item hitem
    · simp at hcached
  · split_ifs at hrequest
    · have heq := List.mem_singleton.mp hrequest
      cases heq
      trivial
    · simp at hrequest

omit [DecidableEq PeerId] in
/-- What is kept and sent of a segment that the client forwards. -/
theorem forwardSegmentToPeers_serves (hserves : ¬ (!c.isPublisher && !c.canRelay) = true)
    (b : Copy PeerId) (chunkType : String) (isKeyframe : Bool) (now : Nat) :
    (c.forwardSegmentToPeers b chunkType isKeyframe now).1.cachedKeyframe =
      (if isKeyframe then some (c.createHeader b chunkType isKeyframe now,b)
        else c.cachedKeyframe) ∧
    (c.forwardSegmentToPeers b chunkType isKeyframe now).1.segmentQueue =
      (c.segmentQueue++[(c.createHeader b chunkType isKeyframe now,b)]).rtake
        maxSegmentQueueSize ∧
    (c.forwardSegmentToPeers b chunkType isKeyframe now).2 = c.openPeers.map
      (fun peer => .send peer (.segment (c.createHeader b chunkType isKeyframe now) b)) := by
  simp only [forwardSegmentToPeers,if_neg hserves]
  cases isKeyframe <;> cases hinit : isInitType chunkType <;>
    simp [pushSegment,openPeers]

omit [DecidableEq PeerId] in
theorem forward_kept (bytes : Bytes) (chunkType : String) (isKeyframe : Bool) (now : Nat)
    (hown : OwnTyped c) :
    OwnTyped (c.forwardSegmentToPeers (.fresh bytes) chunkType isKeyframe now).1 ∧
      SendsBounded p (c.forwardSegmentToPeers (.fresh bytes) chunkType isKeyframe now).2 := by
  by_cases hrole : (!c.isPublisher && !c.canRelay) = true
  · have hnothing : c.forwardSegmentToPeers (.fresh bytes) chunkType isKeyframe now = (c,[]) :=
      if_pos hrole
    rw [hnothing]
    exact ⟨hown,fun q item hsend => absurd hsend List.not_mem_nil⟩
  · let header := c.createHeader (Copy.fresh bytes) chunkType isKeyframe now
    obtain ⟨hkeyframe,hqueue,hsends⟩ :=
      forwardSegmentToPeers_serves hrole (Copy.fresh bytes) chunkType isKeyframe now
    refine ⟨hown.extend (l := [(header,Copy.fresh bytes)]) ?_ ?_,?_⟩
    · intro seg hseg _
      rw [List.mem_singleton.mp hseg]
      exact ⟨rfl,rfl,rfl⟩
    · intro seg hseg
      rw [hkeyframe,hqueue] at hseg
      rcases List.mem_append.mp hseg with hkeyframe | hqueue
      · split_ifs at hkeyframe
        · exact .inr (by simpa [eq_comm] using hkeyframe)
        · exact .inl (List.mem_append_left _ hkeyframe)
      · rcases List.mem_append.mp (rtake_subset hqueue) with hold | hadded
        · exact .inl (List.mem_append_right _ hold)
        · exact .inr hadded
    · intro q item hsend
      rw [hsends] at hsend
      obtain ⟨peer,_,heq⟩ := List.mem_map.mp hsend
      cases heq
      have hone : (1 : Int) ≤ maxRelayTTL := by decide
      have hsum : (1 : Int)+maxRelayTTL ≤ maxRelayTTL+1 := by decide
      exact ⟨hone,fun _ _ => ⟨maxRelayTTL,rfl,hsum⟩⟩

/-- What a client does by itself. -/
theorem act_kept {e : StreamEvent PeerId ι Bytes} {e' : StreamEvent PeerId ι (Copy PeerId)}
    (he : e.fresh? = some e') (now : Nat) (hidle : Idle c) (hown : OwnTyped c)
    (hshort : ∀ peer, e = .channelOpened peer → (c.isPublisher || c.canRelay) = true →
      c.cachedStreamInfo.isSome = true → ∀ b ∈ c.cachedCopies, (b.hops : Int) < maxRelayTTL) :
    Idle (c.step now e').1 ∧ OwnTyped (c.step now e').1 ∧ SendsBounded p (c.step now e').2 := by
  have hnothing : SendsBounded p ([] : List (ClientEffect PeerId ι (Copy PeerId))) := by
    intro q item hsend
    simp at hsend
  cases e with
  | setupDataChannel peer =>
    cases he
    exact ⟨⟨hidle.pending,hidle.chunks⟩,hown,hnothing⟩
  | channelOpened peer =>
    cases he
    exact ⟨(channelOpened_silent peer now).idle hidle,hown,
      channelOpened_bounded hown peer now (hshort peer rfl)⟩
  | channelClosed peer =>
    cases he
    refine ⟨⟨?_,hidle.chunks⟩,hown,hnothing⟩
    simp only [step,channelClosed]
    rw [hidle.pending,erase_empty]
  | closePeerConnection peer =>
    cases he
    refine ⟨⟨hidle.pending,?_⟩,hown,hnothing⟩
    simp only [step,closePeerConnection]
    rw [hidle.chunks,erase_empty]
  | message peer data => cases he
  | forward buffer chunkType isKeyframe =>
    cases he
    obtain ⟨hkept,hsends⟩ := forward_kept (c := c) (p := p) buffer chunkType isKeyframe now hown
    exact ⟨(forwardSegmentToPeers_silent _ chunkType isKeyframe now).idle hidle,hkept,hsends⟩
  | cacheStreamInfo data =>
    cases he
    exact ⟨⟨hidle.pending,hidle.chunks⟩,hown,hnothing⟩
  | cacheInitSegment buffer =>
    cases he
    exact ⟨⟨hidle.pending,hidle.chunks⟩,hown,hnothing⟩
  | becomePublisher =>
    cases he
    exact ⟨⟨hidle.pending,hidle.chunks⟩,hown,hnothing⟩
  | disconnect =>
    cases he
    exact ⟨⟨hidle.pending,hidle.chunks⟩,hown,hnothing⟩

/-- What a client does with the first item of a channel. -/
theorem deliver_kept (source : PeerId) (now : Nat) (item : Item PeerId ι (Copy PeerId))
    (hidle : Idle c) (hown : OwnTyped c) (hbounded : item.Bounded)
    (hrequest : item = .requestInit → c.dataChannels.get source = some true →
      (c.isPublisher || c.canRelay) = true → ∀ b ∈ c.cachedCopies, (b.hops : Int) < maxRelayTTL)
    (hrelay : ∀ h b, item = .segment h b → c.PassesOn source h b → b.renewed →
      (b.hops : Int) < maxRelayTTL) :
    Idle (c.run (messagesOf source now [item])).1 ∧
    OwnTyped (c.run (messagesOf source now [item])).1 ∧
    SendsBounded p (c.run (messagesOf source now [item])).2 := by
  cases item with
  | streamInfo data =>
    have hmessages : messagesOf source now [(.streamInfo data : Item PeerId ι (Copy PeerId))] =
        [(now,.message source (.text (.streamInfo data)))] := rfl
    rw [hmessages,run_one,step_message]
    simp only [handleDataChannelMessage,handleControlMessage]
    have hsilent := checkRelayReady_silent (c := { c with cachedStreamInfo := some data })
    obtain ⟨hkeyframe,hqueue,hsends⟩ :=
      checkRelayReady_caches (c := { c with cachedStreamInfo := some data })
    refine ⟨hsilent.idle ⟨hidle.pending,hidle.chunks⟩,?_,?_⟩
    · intro seg hseg
      rw [hkeyframe,hqueue] at hseg
      exact hown seg hseg
    · intro q item hsend
      rcases List.mem_cons.mp hsend with hinfo | hsend
      · cases hinfo
      · exact absurd hsend (hsends q item)
  | requestInit =>
    have hmessages : messagesOf source now [(.requestInit : Item PeerId ι (Copy PeerId))] =
        [(now,.message source (.text .requestInit))] := rfl
    rw [hmessages,run_one,step_message]
    simp only [handleDataChannelMessage,handleControlMessage]
    split_ifs with hopen
    · refine ⟨hidle,hown,?_⟩
      intro q item hsend
      simp only [sendCachedDataToPeer] at hsend
      split_ifs at hsend with hrefuses
      · simp at hsend
      · have hserves : (c.isPublisher || c.canRelay) = true := by
          cases hpublisher : c.isPublisher with
          | true => rfl
          | false => simpa [hpublisher] using hrefuses
        obtain ⟨item',hitem,heq⟩ := List.mem_map.mp hsend
        cases heq
        exact cachedItems_bounded hown (hrequest rfl hopen hserves) now item hitem
    · exact ⟨hidle,hown,fun q item hsend => absurd hsend List.not_mem_nil⟩
  | segment h b =>
    rw [run_segment hidle]
    exact receiveSegment_kept source h b hidle hown hbounded (hrelay h b rfl)

end Clients

end StreamClient

namespace Mesh

variable [DecidableEq PeerId]

/-- The copies that an event makes a client send from its caches. -/
def cacheSends (m : Mesh PeerId ι) : MeshEvent PeerId ι → List (Copy PeerId)
  | .act p _ (.channelOpened _) =>
    let c := m.clients p
    if (c.isPublisher || c.canRelay) && c.cachedStreamInfo.isSome then c.cachedCopies else []
  | .deliver source target _ =>
    let c := m.clients target
    match m.wires source target with
    | .requestInit::_ =>
      if c.dataChannels.get source = some true ∧ (c.isPublisher || c.canRelay) then c.cachedCopies
      else []
    | _ => []
  | _ => []

/-- The copy that an event makes a client relay although its hops to live have been renewed. -/
def renewedRelays (m : Mesh PeerId ι) : MeshEvent PeerId ι → List (Copy PeerId)
  | .deliver source target _ =>
    match m.wires source target with
    | .segment h b::_ => if b.renewed && (m.clients target).PassesOn source h b then [b] else []
    | _ => []
  | _ => []

/-- Neither of these has come three channels far. -/
def TtlSafe (m : Mesh PeerId ι) (e : MeshEvent PeerId ι) : Prop :=
  ∀ b ∈ m.cacheSends e++m.renewedRelays e, (b.hops : Int) < maxRelayTTL

instance (m : Mesh PeerId ι) (e : MeshEvent PeerId ι) : Decidable (TtlSafe m e) :=
  inferInstanceAs (Decidable (∀ b ∈ m.cacheSends e++m.renewedRelays e, (b.hops : Int) < maxRelayTTL))

structure Inv (m : Mesh PeerId ι) : Prop where
  idle : ∀ p, Idle (m.clients p)
  own : ∀ p, OwnTyped (m.clients p)
  wires : ∀ source target, ∀ item ∈ m.wires source target, item.Bounded
  reached : ∀ r ∈ m.reached, (r.2.hops : Int) ≤ maxRelayTTL

section Steps

variable {m : Mesh PeerId ι}

theorem post_inv (h : Inv m) {p : PeerId}
    {r : StreamClient PeerId ι (Copy PeerId) × List (ClientEffect PeerId ι (Copy PeerId))}
    (hkept : Idle r.1 ∧ OwnTyped r.1 ∧ SendsBounded p r.2) : Inv (m.post p r) := by
  obtain ⟨hidle,hown,hsends⟩ := hkept
  constructor
  · intro q
    by_cases hq : q = p
    · subst hq
      simpa [post] using hidle
    · simpa [post,hq] using h.idle q
  · intro q
    by_cases hq : q = p
    · subst hq
      simpa [post] using hown
    · simpa [post,hq] using h.own q
  · intro source target item hitem
    simp only [post] at hitem
    split_ifs at hitem with hsource
    · rcases List.mem_append.mp hitem with hold | hnew
      · exact h.wires source target item hold
      · obtain ⟨item',hitem',rfl⟩ := List.mem_map.mp hnew
        exact hsends target item' (mem_of_itemsTo hitem')
    · exact h.wires source target item hitem
  · exact h.reached

theorem takeFirst_inv (h : Inv m) {source target : PeerId}
    {rest : List (Item PeerId ι (Copy PeerId))}
    (hrest : ∀ item ∈ rest, item ∈ m.wires source target) :
    Inv (m.takeFirst source target rest) := by
  refine ⟨h.idle,h.own,?_,h.reached⟩
  intro s t item hitem
  simp only [takeFirst] at hitem
  split_ifs at hitem with hst
  · obtain ⟨rfl,rfl⟩ := hst
    exact h.wires s t item (hrest item hitem)
  · exact h.wires s t item hitem

omit [DecidableEq PeerId] in
theorem record_inv (h : Inv m) (target : PeerId) {item : Item PeerId ι (Copy PeerId)}
    (hbounded : item.Bounded) : Inv (m.record target item) := by
  cases item with
  | streamInfo data => exact h
  | requestInit => exact h
  | segment header b =>
    refine ⟨h.idle,h.own,h.wires,?_⟩
    intro r hr
    rcases List.mem_append.mp hr with hold | hnew
    · exact h.reached r hold
    · rw [List.mem_singleton.mp hnew]
      exact hbounded.1

theorem step_inv (e : MeshEvent PeerId ι) (h : Inv m) (safe : TtlSafe m e) : Inv (m.step e) := by
  cases e with
  | act p now e =>
    simp only [step]
    cases he : e.fresh? with
    | none => exact h
    | some e' =>
      apply post_inv h
      apply act_kept he now (h.idle p) (h.own p)
      intro peer hopened hserves hinfo b hb
      apply safe
      subst hopened
      simp [cacheSends,hserves,hinfo,hb]
  | deliver source target now =>
    simp only [step]
    cases hwire : m.wires source target with
    | nil => exact h
    | cons item rest =>
      have hbounded : item.Bounded := h.wires source target item (by simp [hwire])
      have htaken : Inv (m.takeFirst source target rest) :=
        takeFirst_inv h (fun item hitem => by simp [hwire,hitem])
      apply post_inv (record_inv htaken target hbounded)
      apply deliver_kept source now item (h.idle target) (h.own target) hbounded
      · rintro rfl hopen hserves b hb
        apply safe
        simp [cacheSends,hwire,hopen,hserves,hb]
      · rintro header b rfl hpasses hrenewed
        apply safe
        simp [renewedRelays,hwire,hpasses,hrenewed]
  | lose source target => exact takeFirst_inv h (fun item hitem => absurd hitem List.not_mem_nil)

end Steps

/-- In a run in which no copy leaves a cache or is renewed after three channels, none reaches a
client over more than three. -/
theorem run_ttl_bounded (streamId : String) (publishers : PeerId → Bool)
    (es : List (MeshEvent PeerId ι)) (safe : Along step TtlSafe (new streamId publishers) es) :
    ∀ done, done <+: es → ∀ r ∈ (run streamId publishers done).reached,
      (r.2.hops : Int) ≤ maxRelayTTL := by
  intro done hdone
  have start : Inv (new streamId publishers : Mesh PeerId ι) := by
    constructor
    · exact fun p => ⟨rfl,rfl⟩
    · intro p seg hseg
      simp [new,StreamClient.new] at hseg
    · intro source target item hitem
      simp [new] at hitem
    · intro r hr
      simp [new] at hr
  have hinv := (safe.of_prefix hdone).invariant Inv start (fun m e h hok => step_inv e h hok)
  exact hinv.reached

/-- A publisher 0 that has what a relayer needs. -/
def publishes : List (MeshEvent Nat Nat) :=
  [.act 0 0 (.cacheStreamInfo 7),.act 0 0 (.cacheInitSegment [1])]

/-- `target` opens a channel to `source`, and gets what `source` sends at the opening. -/
def joins (source target : Nat) : List (MeshEvent Nat Nat) :=
  [.act source 0 (.channelOpened target),.act target 0 (.channelOpened source),
    .deliver source target 0,.deliver source target 0]

/-- A live keyframe goes from 0 over 1 to 2. -/
def liveKeyframe : List (MeshEvent Nat Nat) :=
  publishes++joins 0 1++joins 1 2++
    [.act 0 0 (.forward [2] "video" true),.deliver 0 1 0,.deliver 1 2 0]

set_option maxRecDepth 20000 in
theorem run_ttl_bounded_liveKeyframe :
    (2,⟨[2],[0,1],false⟩) ∈ (run "stream" (· == 0) liveKeyframe).reached ∧
    ∀ r ∈ (run "stream" (· == 0) liveKeyframe).reached, (r.2.hops : Int) ≤ maxRelayTTL := by
  have safe : Along step TtlSafe (new "stream" (· == 0)) liveKeyframe := by decide +kernel
  exact ⟨by decide +kernel,
    run_ttl_bounded "stream" (· == 0) liveKeyframe safe liveKeyframe (List.prefix_refl _)⟩

/-- In a line of late joiners, each gets the init segment from the cache of the one before. -/
def lineOfJoiners : List (MeshEvent Nat Nat) :=
  publishes++joins 0 1++joins 1 2++joins 2 3++joins 3 4

set_option maxRecDepth 20000 in
theorem init_reaches_over_four :
    (4,⟨[1],[0,1,2,3],true⟩) ∈ (run "stream" (· == 0) lineOfJoiners).reached ∧
    ¬ ∀ r ∈ (run "stream" (· == 0) lineOfJoiners).reached, (r.2.hops : Int) ≤ maxRelayTTL := by
  have hreached : (4,⟨[1],[0,1,2,3],true⟩) ∈ (run "stream" (· == 0) lineOfJoiners).reached := by
    decide +kernel
  refine ⟨hreached,fun hall => ?_⟩
  have hthree := hall _ hreached
  exact absurd hthree (by decide)

end Mesh

end OpenBroadcast.Browser
