import OpenBroadcast.Overlay.MeshRebalance

namespace OpenBroadcast.Overlay

/-- The meshes of all streams. -/
structure MeshNetwork (StreamId PeerId : Type) where
  localPeerId : PeerId
  streamMeshes : HashMap StreamId (StreamMesh PeerId)

/-- The order of the meshes, and for each of them the orders of its tables. -/
structure NetworkOrder (StreamId PeerId : Type) where
  streams : HashOrder Unit StreamId
  mesh : StreamId → MeshOrder PeerId

inductive NetworkOp (StreamId PeerId : Type) where
  | addStream (id : StreamId)
  | removeStream (id : StreamId)
  | addPeerToStream (id : StreamId) (p : PeerId) (role : PeerRole)
  | removePeerFromStream (id : StreamId) (p : PeerId)
  | rebalanceAll

namespace MeshNetwork

variable {StreamId PeerId : Type} [DecidableEq StreamId] [DecidableEq PeerId]

def new (localPeerId : PeerId) : MeshNetwork StreamId PeerId := ⟨localPeerId,∅⟩

def defaultBandwidth : UInt64 := 1000000

def addStream (n : MeshNetwork StreamId PeerId) (id : StreamId) :
    MeshNetwork StreamId PeerId × Bool :=
  if id ∈ n.streamMeshes then (n,false)
  else ({ n with streamMeshes := n.streamMeshes.insert id .new },true)

def removeStream (n : MeshNetwork StreamId PeerId) (id : StreamId) :
    MeshNetwork StreamId PeerId × Bool :=
  ({ n with streamMeshes := n.streamMeshes.erase id },decide (id ∈ n.streamMeshes))

/-- `if let Some(mesh) = stream_meshes.get_mut(id)`, with what `f` makes of the mesh. -/
def onMesh (n : MeshNetwork StreamId PeerId) (id : StreamId)
    (f : StreamMesh PeerId → StreamMesh PeerId × Bool) : MeshNetwork StreamId PeerId × Bool :=
  match n.streamMeshes.lookup id with
  | some mesh => ({ n with streamMeshes := n.streamMeshes.insert id (f mesh).1 },(f mesh).2)
  | none => (n,false)

def addPeerToStream (H : NetworkOrder StreamId PeerId) (n : MeshNetwork StreamId PeerId)
    (id : StreamId) (p : PeerId) (role : PeerRole) : MeshNetwork StreamId PeerId × Bool :=
  n.onMesh id (fun mesh => StreamMesh.addPeer (H.mesh id) mesh p role defaultBandwidth)

def removePeerFromStream (H : NetworkOrder StreamId PeerId) (n : MeshNetwork StreamId PeerId)
    (id : StreamId) (p : PeerId) : MeshNetwork StreamId PeerId × Bool :=
  n.onMesh id (fun mesh => StreamMesh.removePeer (H.mesh id) mesh p)

/-- A turn of the loop over the meshes, with the number of meshes that have changed. -/
def rebalanceMesh (H : NetworkOrder StreamId PeerId) (r : MeshNetwork StreamId PeerId × Nat)
    (e : StreamId × StreamMesh PeerId) : MeshNetwork StreamId PeerId × Nat :=
  let rebalanced := StreamMesh.rebalance (H.mesh e.1) e.2
  ({ r.1 with streamMeshes := r.1.streamMeshes.insert e.1 rebalanced.1 },
    if rebalanced.2 then r.2+1 else r.2)

def rebalanceAll (H : NetworkOrder StreamId PeerId) (n : MeshNetwork StreamId PeerId) :
    MeshNetwork StreamId PeerId × Nat :=
  (H.streams.iter () n.streamMeshes).foldl (rebalanceMesh H) (n,0)

def step (n : MeshNetwork StreamId PeerId)
    (e : NetworkOrder StreamId PeerId × NetworkOp StreamId PeerId) :
    MeshNetwork StreamId PeerId :=
  match e.2 with
  | .addStream id => (n.addStream id).1
  | .removeStream id => (n.removeStream id).1
  | .addPeerToStream id p role => (addPeerToStream e.1 n id p role).1
  | .removePeerFromStream id p => (removePeerFromStream e.1 n id p).1
  | .rebalanceAll => (rebalanceAll e.1 n).1

end MeshNetwork

namespace StreamMesh

variable {PeerId : Type} [DecidableEq PeerId]

/-- A mesh without a source in which no link can be added and none is one-sided. -/
structure Settled (m : StreamMesh PeerId) : Prop where
  source : m.source = none
  adjacent : Adjacent m
  saturated : Saturated m

theorem connectEach_source (p : PeerId) (r : StreamMesh PeerId × Bool)
    (cs : List (PeerId × UInt64)) : (connectEach p r cs).1.source = r.1.source := by
  induction cs generalizing r with
  | nil => rfl
  | cons c cs ih =>
    rw [connectEach]
    cases r.1.nodes.lookup p with
    | none => exact ih r
    | some node =>
      dsimp only
      split_ifs
      · rfl
      · exact ih r
      · exact ih _
      · exact ih _

theorem connectToSource_of_none {m : StreamMesh PeerId} (h : m.source = none) (p : PeerId) :
    m.connectToSource p = (m,false) := by
  simp [connectToSource,h]

theorem connect_source (H : MeshOrder PeerId) {m : StreamMesh PeerId} (h : m.source = none)
    (p : PeerId) : (connectPeerToMesh H m p).1.source = none := by
  unfold connectPeerToMesh
  split_ifs
  · rw [connectToSource_of_none h,connectEach_source]
    exact h
  · exact h

theorem rebalance_source (H : MeshOrder PeerId) {m : StreamMesh PeerId} (h : m.source = none) :
    (rebalance H m).1.source = none := by
  have hrun := along_true (rebalanceOne H) (m,false) (m.peersNeedingConnections H)
  exact hrun.invariant (fun r : StreamMesh PeerId × Bool => r.1.source = none) h
    (fun r p hr _ => connect_source H hr p)

theorem connectSafe_of_none {m : StreamMesh PeerId} (h : m.source = none) (p : PeerId) :
    ConnectSafe m p := by
  intro s hs
  rw [h] at hs
  cases hs

theorem settled_new : Settled (new : StreamMesh PeerId) := by
  refine ⟨rfl,⟨by simp [Mutual,peersOf,new],by simp [peersOf,new]⟩,?_⟩
  intro p q _ hp
  exact absurd hp.1 Finmap.notMem_empty

/-- A peer that is not there begins without links. -/
theorem addPeer_absent (H : MeshOrder PeerId) (m : StreamMesh PeerId) {p : PeerId}
    (hp : p ∉ m.nodes) (role : PeerRole) (bandwidth : UInt64) :
    ∃ node : MeshNode PeerId, node.peers = ∅ ∧
      addPeer H m p role bandwidth = connectPeerToMesh H (m.insertNode p node) p := by
  refine ⟨_,?_,by rw [addPeer,if_neg hp]⟩
  rfl

/-- A new peer is linked with every peer that has room until it has none itself. -/
theorem settled_addPeer (H : MeshOrder PeerId) {m : StreamMesh PeerId} (h : Settled m)
    (p : PeerId) (role : PeerRole) (bandwidth : UInt64) :
    Settled (addPeer H m p role bandwidth).1 := by
  by_cases hp : p ∈ m.nodes
  · rw [addPeer,if_pos hp]
    exact h
  · obtain ⟨node,hnode,hadd⟩ := addPeer_absent H m hp role bandwidth
    rw [hadd]
    let joined := m.insertNode p node
    have hsource : joined.source = none := h.source
    have hadjacent : Adjacent joined :=
      insert_adjacent m p node h.adjacent (peersOf_absent m p hp) hnode
    have hlinked : Adjacent (connectPeerToMesh H joined p).1 :=
      connect_adjacent H joined p hadjacent (connectSafe_of_none hsource p)
    have hgrows := connect_grows H joined p
    refine ⟨connect_source H hsource p,hlinked,?_⟩
    -- Two other peers with room have had room before, and were linked then.
    have hothers : ∀ a b, a ≠ p → b ≠ p → a ≠ b → HasRoom (connectPeerToMesh H joined p).1 a →
        HasRoom (connectPeerToMesh H joined p).1 b →
        b ∈ (connectPeerToMesh H joined p).1.peersOf a := by
      intro a b hap hbp hab ha hb
      have hbefore : ∀ x, x ≠ p → HasRoom (connectPeerToMesh H joined p).1 x → HasRoom m x := by
        intro x hx hroom
        obtain ⟨hmem,hcard⟩ := hgrows.room hroom
        refine ⟨?_,?_⟩
        · exact (Finmap.mem_insert.mp hmem).resolve_left hx
        · rwa [peersOf_insertNode,Function.update_of_ne hx] at hcard
      have hknown := (h.saturated a b hab (hbefore a hap ha) (hbefore b hbp hb)).1
      apply hgrows.peers a
      rwa [peersOf_insertNode,Function.update_of_ne hap]
    have hone : ∀ a b, a ≠ b → HasRoom (connectPeerToMesh H joined p).1 a →
        HasRoom (connectPeerToMesh H joined p).1 b →
        b ∈ (connectPeerToMesh H joined p).1.peersOf a := by
      intro a b hab ha hb
      by_cases hap : a = p
      · subst hap
        exact connect_reaches H joined (Ne.symm hab) ha hb
      · by_cases hbp : b = p
        · subst hbp
          exact (hlinked.paired b a (connect_reaches H joined hab hb ha)).1
        · exact hothers a b hap hbp hab ha hb
    exact fun a b hab ha hb => ⟨hone a b hab ha hb,hone b a (Ne.symm hab) hb ha⟩

theorem settled_rebalance (H : MeshOrder PeerId) {m : StreamMesh PeerId} (hsource : m.source = none)
    (hadjacent : Adjacent m) : Settled (rebalance H m).1 := by
  refine ⟨rebalance_source H hsource,?_,rebalance_saturated H m⟩
  apply rebalance_adjacent H m hadjacent
  have hrun := along_true (rebalanceOne H) (m,false) (m.peersNeedingConnections H)
  exact hrun.imp (fun r : StreamMesh PeerId × Bool => r.1.source = none) hsource
    (fun r p hr _ => connect_source H hr p) (fun r p hr _ => connectSafe_of_none hr p)

theorem disconnect_source (H : MeshOrder PeerId) (m : StreamMesh PeerId) (p : PeerId)
    (connected : Finset PeerId) : (m.disconnect H p connected).source = m.source := by
  have hloop : ∀ (cs : List PeerId) (m : StreamMesh PeerId),
      (cs.foldl (fun m c => m.update c (fun n => (n.removePeer p).1)) m).source = m.source := by
    intro cs
    induction cs with
    | nil => exact fun m => rfl
    | cons c cs ih => exact fun m => ih _
  exact hloop _ m

theorem settled_removePeer (H : MeshOrder PeerId) {m : StreamMesh PeerId} (h : Settled m)
    (p : PeerId) : Settled (removePeer H m p).1 := by
  unfold removePeer
  cases hp : m.nodes.lookup p with
  | none => exact h
  | some node =>
    dsimp only
    split_ifs
    · exact h
    · apply settled_rebalance
      · rw [disconnect_source]
        exact h.source
      · exact disconnect_adjacent H m p node h.adjacent hp

/-- The candidate loop adds nothing where every candidate is known. -/
theorem connectEach_unchanged (p : PeerId) (r : StreamMesh PeerId × Bool)
    (cs : List (PeerId × UInt64)) (h : ∀ c ∈ cs, c.1 ∈ r.1.peersOf p) : connectEach p r cs = r := by
  induction cs with
  | nil => rfl
  | cons c cs ih =>
    have rest := ih (fun x hx => h x (List.mem_cons_of_mem _ hx))
    have hc := h c List.mem_cons_self
    rw [connectEach]
    cases hl : r.1.nodes.lookup p with
    | none => exact rest
    | some node =>
      rw [peersOf_of_lookup r.1 hl] at hc
      simp only [hc,if_true,rest,ite_self]

/-- A rebalance of a settled mesh changes nothing and says so. -/
theorem rebalance_settled (H : MeshOrder PeerId) {m : StreamMesh PeerId} (h : Settled m) :
    rebalance H m = (m,false) := by
  have hturns : ∀ ps : List PeerId, (∀ p ∈ ps, HasRoom m p) →
      ps.foldl (rebalanceOne H) (m,false) = (m,false) := by
    intro ps hps
    induction ps with
    | nil => rfl
    | cons p ps ih =>
      have hroom := hps p List.mem_cons_self
      have hknown : ∀ c ∈ m.connectCandidates H p, c.1 ∈ m.peersOf p := by
        intro c hc
        obtain ⟨hne,hcroom⟩ := mem_connectCandidates H m p c hc
        exact (h.saturated p c.1 (Ne.symm hne) hroom hcroom).1
      have hone : rebalanceOne H (m,false) p = (m,false) := by
        simp [rebalanceOne,connectPeerToMesh,hroom.1,connectToSource_of_none h.source,
          connectEach_unchanged p (m,false) _ hknown]
      rw [List.foldl_cons,hone]
      exact ih (fun x hx => hps x (List.mem_cons_of_mem _ hx))
  exact hturns _ (fun p hp => (mem_peersNeedingConnections H m p).mp hp)

/-- Two peers that are not linked with each other have at most four links each in a mesh of six. -/
theorem settled_complete {m : StreamMesh PeerId} (h : Settled m)
    (hsmall : m.nodes.keys.card ≤ maxMeshPeers+1) {a b : PeerId} (ha : a ∈ m.nodes)
    (hb : b ∈ m.nodes) (hab : a ≠ b) : b ∈ m.peersOf a := by
  by_contra hmissing
  have hroom : ∀ x y, x ≠ y → x ∈ m.nodes → y ∈ m.nodes → y ∉ m.peersOf x → HasRoom m x := by
    intro x y hxy hx hy hnone
    refine ⟨hx,?_⟩
    have hsub : m.peersOf x ⊆ (m.nodes.keys.erase x).erase y := by
      intro z hz
      obtain ⟨hback,hne⟩ := h.adjacent.paired x z hz
      have hzy : z ≠ y := by
        rintro rfl
        exact hnone hz
      exact Finset.mem_erase.mpr ⟨hzy,Finset.mem_erase.mpr
        ⟨Ne.symm hne,Finmap.mem_keys.mpr (mem_of_peersOf m hback)⟩⟩
    have hcard := Finset.card_le_card hsub
    have hy' : y ∈ m.nodes.keys.erase x :=
      Finset.mem_erase.mpr ⟨Ne.symm hxy,Finmap.mem_keys.mpr hy⟩
    rw [Finset.card_erase_of_mem hy',Finset.card_erase_of_mem (Finmap.mem_keys.mpr hx)] at hcard
    have hpositive : 0 < m.nodes.keys.card :=
      Finset.card_pos.mpr ⟨x,Finmap.mem_keys.mpr hx⟩
    simp only [maxMeshPeers] at hsmall ⊢
    omega
  have hback : a ∉ m.peersOf b := fun hmem => hmissing (h.adjacent.paired b a hmem).1
  have hlinked := h.saturated a b hab (hroom a b hab ha hb hmissing)
    (hroom b a (Ne.symm hab) hb ha hback)
  exact hmissing hlinked.1

end StreamMesh

namespace MeshNetwork

variable {StreamId PeerId : Type} [DecidableEq StreamId] [DecidableEq PeerId]

/-- All meshes are settled. -/
def Settled (n : MeshNetwork StreamId PeerId) : Prop :=
  ∀ id mesh, n.streamMeshes.lookup id = some mesh → mesh.Settled

theorem insert_settled {n : MeshNetwork StreamId PeerId} (h : n.Settled) (id : StreamId)
    {mesh : StreamMesh PeerId} (hmesh : mesh.Settled) :
    Settled { n with streamMeshes := n.streamMeshes.insert id mesh } := by
  intro id' mesh' hlookup
  by_cases hid : id' = id
  · subst hid
    rw [Finmap.lookup_insert] at hlookup
    cases hlookup
    exact hmesh
  · rw [Finmap.lookup_insert_of_ne _ hid] at hlookup
    exact h id' mesh' hlookup

theorem onMesh_settled {n : MeshNetwork StreamId PeerId} (h : n.Settled) (id : StreamId)
    {f : StreamMesh PeerId → StreamMesh PeerId × Bool}
    (hf : ∀ mesh, mesh.Settled → (f mesh).1.Settled) : (n.onMesh id f).1.Settled := by
  unfold onMesh
  cases hmesh : n.streamMeshes.lookup id with
  | none => exact h
  | some mesh => exact insert_settled h id (hf mesh (h id mesh hmesh))

theorem insert_lookup {α β : Type} [DecidableEq α] {m : HashMap α β} {a : α} {b : β}
    (h : m.lookup a = some b) : m.insert a b = m := by
  apply Finmap.ext_lookup
  intro x
  by_cases hx : x = a
  · subst hx
    rw [Finmap.lookup_insert,h]
  · rw [Finmap.lookup_insert_of_ne _ hx]

/-- There is nothing to rebalance. -/
theorem rebalanceAll_settled (H : NetworkOrder StreamId PeerId) {n : MeshNetwork StreamId PeerId}
    (h : n.Settled) : rebalanceAll H n = (n,0) := by
  have hturns : ∀ entries : List (StreamId × StreamMesh PeerId),
      (∀ e ∈ entries, n.streamMeshes.lookup e.1 = some e.2) →
      entries.foldl (rebalanceMesh H) (n,0) = (n,0) := by
    intro entries hentries
    induction entries with
    | nil => rfl
    | cons e entries ih =>
      have hlookup := hentries e List.mem_cons_self
      have hone : rebalanceMesh H (n,0) e = (n,0) := by
        simp [rebalanceMesh,StreamMesh.rebalance_settled (H.mesh e.1) (h e.1 e.2 hlookup),
          insert_lookup hlookup]
      rw [List.foldl_cons,hone]
      exact ih (fun x hx => hentries x (List.mem_cons_of_mem _ hx))
  exact hturns _ (fun e he => (HashOrder.mem_iter H.streams () n.streamMeshes e).mp he)

theorem step_settled {n : MeshNetwork StreamId PeerId} (h : n.Settled)
    (e : NetworkOrder StreamId PeerId × NetworkOp StreamId PeerId) : (n.step e).Settled := by
  obtain ⟨H,op⟩ := e
  cases op with
  | addStream id =>
    simp only [step,addStream]
    split_ifs
    · exact h
    · exact insert_settled h id StreamMesh.settled_new
  | removeStream id =>
    intro id' mesh hlookup
    simp only [step,removeStream] at hlookup
    by_cases hid : id' = id
    · subst hid
      simp at hlookup
    · rw [Finmap.lookup_erase_ne hid] at hlookup
      exact h id' mesh hlookup
  | addPeerToStream id p role =>
    exact onMesh_settled h id (fun mesh hmesh => StreamMesh.settled_addPeer _ hmesh p role _)
  | removePeerFromStream id p =>
    exact onMesh_settled h id (fun mesh hmesh => StreamMesh.settled_removePeer _ hmesh p)
  | rebalanceAll =>
    simp only [step]
    rw [rebalanceAll_settled H h]
    exact h

/-- The meshes of a network have no source, so all links are known at both ends, between peers of
the mesh and at most five at each; two peers with room are linked, so that up to six peers are all
linked with each other. A rebalance of all meshes never changes anything. -/
theorem run_settled (localPeerId : PeerId)
    (es : List (NetworkOrder StreamId PeerId × NetworkOp StreamId PeerId)) :
    let n := es.foldl step (new localPeerId)
    (∀ id mesh, n.streamMeshes.lookup id = some mesh →
      (∀ a b, b ∈ mesh.peersOf a → b ∈ mesh.nodes ∧ a ∈ mesh.peersOf b ∧ a ≠ b) ∧
      (∀ a, (mesh.peersOf a).card ≤ maxMeshPeers) ∧
      (∀ a b, a ≠ b → mesh.HasRoom a → mesh.HasRoom b → b ∈ mesh.peersOf a) ∧
      (mesh.nodes.keys.card ≤ 6 → ∀ a b, a ∈ mesh.nodes → b ∈ mesh.nodes → a ≠ b →
        b ∈ mesh.peersOf a)) ∧
    ∀ H, rebalanceAll H n = (n,0) := by
  intro n
  have hsettled : n.Settled := by
    have hrun := along_true step (new localPeerId : MeshNetwork StreamId PeerId) es
    apply hrun.invariant Settled
    · intro id mesh hlookup
      simp [new] at hlookup
    · exact fun n e h _ => step_settled h e
  refine ⟨?_,fun H => rebalanceAll_settled H hsettled⟩
  intro id mesh hlookup
  have h := hsettled id mesh hlookup
  refine ⟨?_,h.adjacent.bounded,fun a b hab ha hb => (h.saturated a b hab ha hb).1,
    fun hsmall a b ha hb hab => StreamMesh.settled_complete h hsmall ha hb hab⟩
  intro a b hb
  obtain ⟨hback,hne⟩ := h.adjacent.paired a b hb
  exact ⟨StreamMesh.mem_of_peersOf mesh hback,hback,hne⟩

end MeshNetwork

end OpenBroadcast.Overlay
