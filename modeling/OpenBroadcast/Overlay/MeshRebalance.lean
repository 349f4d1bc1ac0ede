import OpenBroadcast.Overlay.MeshAdjacency

namespace OpenBroadcast.Overlay.StreamMesh

variable {PeerId : Type} [DecidableEq PeerId]

/-- The same nodes, and no node has lost a peer. -/
structure Grows (m m' : StreamMesh PeerId) : Prop where
  nodes : ∀ p, p ∈ m'.nodes ↔ p ∈ m.nodes
  peers : ∀ p, m.peersOf p ⊆ m'.peersOf p

theorem Grows.refl (m : StreamMesh PeerId) : Grows m m :=
  ⟨fun _ => Iff.rfl,fun _ => Finset.Subset.refl _⟩

theorem Grows.trans {m m' m'' : StreamMesh PeerId} (first : Grows m m') (second : Grows m' m'') :
    Grows m m'' :=
  ⟨fun p => (second.nodes p).trans (first.nodes p),fun p => (first.peers p).trans (second.peers p)⟩

/-- Who has room afterwards has had it all along. -/
theorem Grows.room {m m' : StreamMesh PeerId} (h : Grows m m') {p : PeerId}
    (hp : HasRoom m' p) : HasRoom m p :=
  ⟨(h.nodes p).mp hp.1,(Finset.card_le_card (h.peers p)).trans_lt hp.2⟩

theorem grows_addPeer (m : StreamMesh PeerId) (p q : PeerId) :
    Grows m (m.update p (fun n => (n.addPeer q).1)) := by
  refine ⟨fun x => mem_update m p x _,?_⟩
  intro x
  by_cases h : HasRoom m p
  · rw [peersOf_addPeer m p q h]
    by_cases hx : x = p
    · subst hx
      rw [Function.update_self]
      exact Finset.subset_insert _ _
    · rw [Function.update_of_ne hx]
  · rw [peersOf_addPeer_full m p q h]

theorem connectToSource_grows (m : StreamMesh PeerId) (p : PeerId) :
    Grows m (m.connectToSource p).1 := by
  unfold connectToSource
  cases m.source with
  | none => exact .refl m
  | some s =>
    dsimp only
    by_cases hsp : s = p
    · rw [if_pos hsp]
      exact .refl m
    · rw [if_neg hsp]
      cases m.nodes.lookup s with
      | none => exact .refl m
      | some sourceNode =>
        dsimp only
        split_ifs
        · exact (grows_addPeer m s p).trans (grows_addPeer _ p s)
        · exact grows_addPeer m s p
        · exact .refl m

theorem connectEach_grows (p : PeerId) (r : StreamMesh PeerId × Bool)
    (cs : List (PeerId × UInt64)) : Grows r.1 (connectEach p r cs).1 := by
  induction cs generalizing r with
  | nil => exact .refl r.1
  | cons c cs ih =>
    rw [connectEach]
    cases r.1.nodes.lookup p with
    | none => exact ih r
    | some node =>
      dsimp only
      split_ifs with hfull hmem hlive
      · exact .refl r.1
      · exact ih r
      · exact ((grows_addPeer r.1 p c.1).trans (grows_addPeer _ c.1 p)).trans (ih (_,true))
      · exact (grows_addPeer r.1 p c.1).trans (ih (_,r.2))

theorem connect_grows (H : MeshOrder PeerId) (m : StreamMesh PeerId) (p : PeerId) :
    Grows m (connectPeerToMesh H m p).1 := by
  unfold connectPeerToMesh
  split_ifs with hp
  · exact (connectToSource_grows m p).trans (connectEach_grows p _ _)
  · exact .refl m

theorem rebalanceEach_grows (H : MeshOrder PeerId) (r : StreamMesh PeerId × Bool)
    (ps : List PeerId) : Grows r.1 (ps.foldl (rebalanceOne H) r).1 := by
  induction ps generalizing r with
  | nil => exact .refl r.1
  | cons p ps ih => exact (connect_grows H r.1 p).trans (ih (rebalanceOne H r p))

/-- A peer that still has room after the candidate loop is linked with every candidate. -/
theorem connectEach_reaches (p : PeerId) (r : StreamMesh PeerId × Bool)
    (cs : List (PeerId × UInt64)) (hp : HasRoom (connectEach p r cs).1 p) :
    ∀ c ∈ cs, c.1 ∈ (connectEach p r cs).1.peersOf p := by
  induction cs generalizing r with
  | nil => simp
  | cons c cs ih =>
    have room : HasRoom r.1 p := (connectEach_grows p r (c::cs)).room hp
    obtain ⟨node,hl⟩ := Finmap.mem_iff.mp room.1
    have accepts : node.canAcceptConnections := (accepts_iff r.1 hl).mpr room
    have linked : c.1 ∈ (r.1.update p (fun n => (n.addPeer c.1).1)).peersOf p := by
      rw [peersOf_addPeer r.1 p c.1 room,Function.update_self]
      exact Finset.mem_insert_self _ _
    rw [connectEach,hl] at hp ⊢
    simp only [accepts,Bool.not_true,Bool.false_eq_true,if_false] at hp ⊢
    intro x hx
    split_ifs at hp ⊢ with hmem hlive
    · rcases List.mem_cons.mp hx with rfl | hx
      · rw [← peersOf_of_lookup r.1 hl] at hmem
        exact (connectEach_grows p r cs).peers p hmem
      · exact ih r hp x hx
    · rcases List.mem_cons.mp hx with rfl | hx
      · exact ((grows_addPeer _ x.1 p).trans (connectEach_grows p (_,true) cs)).peers p linked
      · exact ih _ hp x hx
    · rcases List.mem_cons.mp hx with rfl | hx
      · exact (connectEach_grows p (_,r.2) cs).peers p linked
      · exact ih _ hp x hx

theorem mem_connectCandidates_of_room (H : MeshOrder PeerId) (m : StreamMesh PeerId)
    {p c : PeerId} (hne : c ≠ p) (hc : HasRoom m c) :
    ∃ bandwidth, (c,bandwidth) ∈ m.connectCandidates H p := by
  obtain ⟨n,hl⟩ := Finmap.mem_iff.mp hc.1
  refine ⟨n.bandwidth,?_⟩
  simp only [connectCandidates,List.mem_insertionSort,List.mem_map,List.mem_filter,
    HashOrder.mem_iter,Bool.and_eq_true,decide_eq_true_eq]
  exact ⟨(c,n),⟨hl,hne,(accepts_iff m hl).mpr hc⟩,rfl⟩

/-- The turn of `p`: afterwards it knows every other node with room, if it has room itself. -/
theorem connect_reaches (H : MeshOrder PeerId) (m : StreamMesh PeerId) {p c : PeerId}
    (hne : c ≠ p) (hp : HasRoom (connectPeerToMesh H m p).1 p)
    (hc : HasRoom (connectPeerToMesh H m p).1 c) : c ∈ (connectPeerToMesh H m p).1.peersOf p := by
  have hm : p ∈ m.nodes := ((connect_grows H m p).room hp).1
  obtain ⟨bandwidth,hcand⟩ := mem_connectCandidates_of_room H m hne ((connect_grows H m p).room hc)
  simp only [connectPeerToMesh,if_pos hm] at hp ⊢
  exact connectEach_reaches p _ _ hp _ hcand

theorem rebalanceEach_reaches (H : MeshOrder PeerId) (r : StreamMesh PeerId × Bool)
    (ps : List PeerId) {p c : PeerId} (hmem : p ∈ ps) (hne : c ≠ p)
    (hp : HasRoom (ps.foldl (rebalanceOne H) r).1 p)
    (hc : HasRoom (ps.foldl (rebalanceOne H) r).1 c) :
    c ∈ (ps.foldl (rebalanceOne H) r).1.peersOf p := by
  induction ps generalizing r with
  | nil => simp at hmem
  | cons x ps ih =>
    rw [List.foldl_cons] at hp hc ⊢
    rcases List.mem_cons.mp hmem with rfl | hmem
    · have rest := rebalanceEach_grows H (rebalanceOne H r p) ps
      exact rest.peers p (connect_reaches H r.1 hne (rest.room hp) (rest.room hc))
    · exact ih _ hmem hp hc

theorem mem_peersNeedingConnections (H : MeshOrder PeerId) (m : StreamMesh PeerId) (p : PeerId) :
    p ∈ m.peersNeedingConnections H ↔ HasRoom m p := by
  simp only [peersNeedingConnections,List.mem_map,List.mem_filter,HashOrder.mem_iter]
  constructor
  · rintro ⟨e,⟨hl,ha⟩,rfl⟩
    exact (accepts_iff m hl).mp ha
  · intro h
    obtain ⟨n,hl⟩ := Finmap.mem_iff.mp h.1
    exact ⟨(p,n),⟨hl,(accepts_iff m hl).mpr h⟩,rfl⟩

/-- No link can be added any more: nodes with room know each other. -/
def Saturated (m : StreamMesh PeerId) : Prop :=
  ∀ p q, p ≠ q → HasRoom m p → HasRoom m q → q ∈ m.peersOf p ∧ p ∈ m.peersOf q

theorem rebalance_saturated (H : MeshOrder PeerId) (m : StreamMesh PeerId) :
    Saturated (rebalance H m).1 := by
  -- Each of the two has had room from the start, so each has had its turn.
  have known : ∀ p q, q ≠ p → HasRoom (rebalance H m).1 p → HasRoom (rebalance H m).1 q →
      q ∈ (rebalance H m).1.peersOf p := by
    intro p q hne hp hq
    have grows : Grows m (rebalance H m).1 := rebalanceEach_grows H (m,false) _
    have visited := (mem_peersNeedingConnections H m p).mpr (grows.room hp)
    exact rebalanceEach_reaches H (m,false) _ visited hne hp hq
  intro p q hne hp hq
  exact ⟨known p q (Ne.symm hne) hp hq,known q p hne hq hp⟩

/-- Adding a peer that is there already changes nothing. -/
theorem update_addPeer_self (m : StreamMesh PeerId) {p q : PeerId} (h : q ∈ m.peersOf p) :
    m.update p (fun n => (n.addPeer q).1) = m := by
  have nodes : HashMap.modify m.nodes p (fun n => (n.addPeer q).1) = m.nodes := by
    apply Finmap.ext_lookup
    intro x
    rw [HashMap.lookup_modify]
    by_cases hx : x = p
    · subst hx
      rw [if_pos rfl]
      cases hl : m.nodes.lookup x with
      | none => rfl
      | some n =>
        have hq : q ∈ n.peers := by rwa [peersOf_of_lookup m hl] at h
        have same : (n.addPeer q).1 = n := by
          rw [MeshNode.addPeer]
          split_ifs
          · simp [Finset.insert_eq_of_mem hq]
          · rfl
        rw [Option.map_some,same]
    · rw [if_neg hx]
  rw [update,nodes]

theorem connectToSource_saturated (m : StreamMesh PeerId) (h : Saturated m) {p : PeerId}
    (hp : HasRoom m p) : (m.connectToSource p).1 = m := by
  unfold connectToSource
  cases m.source with
  | none => rfl
  | some s =>
    dsimp only
    by_cases hsp : s = p
    · rw [if_pos hsp]
    · rw [if_neg hsp]
      cases hl : m.nodes.lookup s with
      | none => rfl
      | some sourceNode =>
        dsimp only
        by_cases hroom : sourceNode.canAcceptConnections
        · obtain ⟨hps,hsp'⟩ := h s p hsp ((accepts_iff m hl).mp hroom) hp
          rw [if_pos hroom,update_addPeer_self m hps,if_pos hp.1,update_addPeer_self m hsp']
        · rw [if_neg hroom]

theorem connectEach_known (p : PeerId) (r : StreamMesh PeerId × Bool)
    (cs : List (PeerId × UInt64)) (h : ∀ c ∈ cs, c.1 ∈ r.1.peersOf p) :
    (connectEach p r cs).1 = r.1 := by
  induction cs with
  | nil => rfl
  | cons c cs ih =>
    have rest := ih (fun x hx => h x (List.mem_cons_of_mem _ hx))
    rw [connectEach]
    cases hl : r.1.nodes.lookup p with
    | none => exact rest
    | some node =>
      have hc : c.1 ∈ node.peers := by
        rw [← peersOf_of_lookup r.1 hl]
        exact h c (by simp)
      dsimp only
      split_ifs
      · rfl
      · exact rest

theorem connect_saturated (H : MeshOrder PeerId) (m : StreamMesh PeerId) (h : Saturated m)
    {p : PeerId} (hp : HasRoom m p) : (connectPeerToMesh H m p).1 = m := by
  have first := connectToSource_saturated m h hp
  rw [connectPeerToMesh,if_pos hp.1]
  refine (connectEach_known p _ _ ?_).trans first
  intro c hc
  obtain ⟨hne,hroom⟩ := mem_connectCandidates H m p c hc
  rw [first]
  exact (h p c.1 (Ne.symm hne) hp hroom).1

theorem rebalance_of_saturated (H : MeshOrder PeerId) (m : StreamMesh PeerId)
    (h : Saturated m) : (rebalance H m).1 = m := by
  have turns : ∀ (ps : List PeerId) (changes : Bool), (∀ p ∈ ps, HasRoom m p) →
      (ps.foldl (rebalanceOne H) (m,changes)).1 = m := by
    intro ps
    induction ps with
    | nil => exact fun _ _ => rfl
    | cons p ps ih =>
      intro changes hps
      have one : (rebalanceOne H (m,changes) p).1 = m := connect_saturated H m h (hps p (by simp))
      rw [List.foldl_cons,← Prod.eta (rebalanceOne H (m,changes) p),one]
      exact ih _ (fun x hx => hps x (List.mem_cons_of_mem _ hx))
  exact turns _ false (fun p hp => (mem_peersNeedingConnections H m p).mp hp)

/-- After a rebalance two nodes that still have room are linked on both sides, and another
rebalance, in any order, changes nothing. This needs nothing of the mesh before. -/
theorem rebalance_maximal_idempotent (H H' : MeshOrder PeerId) (m : StreamMesh PeerId) :
    (∀ p q, p ≠ q → HasRoom (rebalance H m).1 p → HasRoom (rebalance H m).1 q →
      q ∈ (rebalance H m).1.peersOf p ∧ p ∈ (rebalance H m).1.peersOf q) ∧
    (∀ p, (rebalance H' (rebalance H m).1).1.peersOf p = (rebalance H m).1.peersOf p) := by
  have saturated := rebalance_saturated H m
  refine ⟨saturated,?_⟩
  intro p
  rw [rebalance_of_saturated H' _ saturated]

end OpenBroadcast.Overlay.StreamMesh
