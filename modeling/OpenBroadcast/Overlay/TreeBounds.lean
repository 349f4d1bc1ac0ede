import OpenBroadcast.Overlay.TopologyManager
import OpenBroadcast.Overlay.TreeSource

namespace OpenBroadcast.Overlay.StreamTree

variable {PeerId : Type} [DecidableEq PeerId]

section Nodes

/-- What holds of a node by itself: it is neither its own parent nor its own child, a consumer has
no children, and nobody has more than seven. -/
structure NodeBounds (p : PeerId) (n : TreeNode PeerId) : Prop where
  parent : n.parent ≠ some p
  children : p ∉ n.children
  consumer : n.role = .consumer → n.children = ∅
  card : n.children.card ≤ absoluteMaxChildren
  limit : n.maxChildren ≤ absoluteMaxChildren

omit [DecidableEq PeerId] in
/-- A node without links. -/
theorem nodeBounds_fresh {p : PeerId} {n : TreeNode PeerId} (hparent : n.parent = none)
    (hchildren : n.children = ∅) (hlimit : n.maxChildren ≤ absoluteMaxChildren) :
    NodeBounds p n := by
  refine ⟨by simp [hparent],by simp [hchildren],fun _ => hchildren,by simp [hchildren],hlimit⟩

omit [DecidableEq PeerId] in
/-- Other fields than the links and the role do not matter. -/
theorem NodeBounds.congr {p : PeerId} {n m : TreeNode PeerId} (h : NodeBounds p n)
    (hrole : m.role = n.role) (hparent : m.parent = n.parent) (hchildren : m.children = n.children)
    (hlimit : m.maxChildren ≤ absoluteMaxChildren) : NodeBounds p m := by
  constructor
  · rw [hparent]
    exact h.parent
  · rw [hchildren]
    exact h.children
  · rw [hrole,hchildren]
    exact h.consumer
  · rw [hchildren]
    exact h.card
  · exact hlimit

theorem addChild_bounds {p q : PeerId} {n : TreeNode PeerId} (h : NodeBounds q n) (hne : q ≠ p) :
    NodeBounds q (n.addChild p).1 := by
  unfold TreeNode.addChild
  split_ifs with haccepts
  · obtain ⟨hrole,hcard,_⟩ := (canAcceptChildren_iff n).mp haccepts
    have hinsert : (insert p n.children).card ≤ n.children.card+1 := Finset.card_insert_le _ _
    have hlimit := h.limit
    refine ⟨h.parent,?_,fun hconsumer => absurd hconsumer hrole,?_,hlimit⟩
    · simp [hne,h.children]
    · show (insert p n.children).card ≤ absoluteMaxChildren
      omega
  · exact h

theorem removeChild_bounds {p q : PeerId} {n : TreeNode PeerId} (h : NodeBounds q n) :
    NodeBounds q (n.removeChild p).1 := by
  have hcard : (n.children.erase p).card ≤ n.children.card :=
    Finset.card_le_card (Finset.erase_subset p n.children)
  refine ⟨h.parent,?_,?_,hcard.trans h.card,h.limit⟩
  · exact fun hmem => h.children (Finset.mem_of_mem_erase hmem)
  · intro hconsumer
    simp [TreeNode.removeChild,h.consumer hconsumer]

omit [DecidableEq PeerId] in
theorem redirect_bounds {p q : PeerId} {n : TreeNode PeerId} (h : NodeBounds p n) (hne : q ≠ p)
    (depth : Nat) : NodeBounds p { n with parent := some q, depth := depth } :=
  ⟨by simpa using hne,h.children,h.consumer,h.card,h.limit⟩

end Nodes

section Tables

def AllBounded (t : StreamTree PeerId) : Prop :=
  ∀ p n, t.nodes.lookup p = some n → NodeBounds p n

/-- What holds of all nodes, and of the one that changes after the change too. -/
theorem forall_update {t : StreamTree PeerId} {P : PeerId → TreeNode PeerId → Prop} {q : PeerId}
    {f : TreeNode PeerId → TreeNode PeerId} (h : ∀ p n, t.nodes.lookup p = some n → P p n)
    (hf : ∀ n, P q n → P q (f n)) :
    ∀ p n, (t.update q f).nodes.lookup p = some n → P p n := by
  intro p n hn
  unfold update at hn
  rw [HashMap.lookup_modify] at hn
  by_cases hp : p = q
  · subst hp
    rw [if_pos rfl] at hn
    obtain ⟨m,hm,rfl⟩ := Option.map_eq_some_iff.mp hn
    exact hf m (h p m hm)
  · rw [if_neg hp] at hn
    exact h p n hn

theorem update_bounded {t : StreamTree PeerId} {q : PeerId}
    {f : TreeNode PeerId → TreeNode PeerId} (h : AllBounded t)
    (hf : ∀ n, NodeBounds q n → NodeBounds q (f n)) : AllBounded (t.update q f) :=
  forall_update h hf

theorem insert_bounded {t : StreamTree PeerId} {q : PeerId} {m : TreeNode PeerId}
    (h : AllBounded t) (hm : NodeBounds q m) : AllBounded (t.insertNode q m) := by
  intro p n hn
  by_cases hp : p = q
  · subst hp
    have heq : m = n := by simpa [insertNode] using hn
    exact heq ▸ hm
  · have hold : t.nodes.lookup p = some n := by simpa [insertNode,hp] using hn
    exact h p n hold

theorem erase_bounded {t : StreamTree PeerId} (q : PeerId) (h : AllBounded t) :
    AllBounded { t with nodes := t.nodes.erase q } := by
  intro p n hn
  by_cases hp : p = q
  · subst hp
    simp at hn
  · have hold : t.nodes.lookup p = some n := by simpa [hp] using hn
    exact h p n hold

end Tables

section Operations

variable {t : StreamTree PeerId}

theorem attach_bounded (h : AllBounded t) {p q : PeerId} (hne : q ≠ p) (depth : Nat) :
    AllBounded (t.attach p q depth) := by
  have hadded := update_bounded h (fun n hn => addChild_bounds (p := p) hn hne)
  exact update_bounded hadded (fun n hn => redirect_bounds hn hne _)

theorem findParent_bounded (H : TreeOrder PeerId) (p : PeerId) (h : AllBounded t) :
    AllBounded (findParentForPeer H t p).1 := by
  rcases findParent_cases H t p with ⟨hr,_⟩ | ⟨_,hr⟩ | ⟨q,n,_,_,hc,_,hr⟩
  · rw [hr]
    exact h
  · rw [hr]
    exact h
  · rw [hr]
    exact attach_bounded h hc.ne _

theorem reattach_bounded (H : TreeOrder PeerId) (cs : List PeerId) (h : AllBounded t) :
    AllBounded (cs.foldl (reattach H) t) := by
  apply (along_true (reattach H) t cs).invariant AllBounded h
  intro t c ht _
  apply findParent_bounded
  exact update_bounded ht (fun n hn => ⟨by simp,hn.children,hn.consumer,hn.card,hn.limit⟩)

theorem detach_bounded (p : PeerId) (r : Option PeerId) (h : AllBounded t) :
    AllBounded (t.detach p r) := by
  cases r with
  | none => exact erase_bounded p h
  | some q =>
    have hremoved : AllBounded (t.update q (fun parent => (parent.removeChild p).1)) :=
      update_bounded h (fun n hn => removeChild_bounds hn)
    exact erase_bounded p hremoved

theorem moveChild_bounded (candidates : List PeerId) (overloaded child : PeerId)
    (r : StreamTree PeerId × Bool) (h : AllBounded r.1) :
    AllBounded (moveChild candidates overloaded r child).1 := by
  rcases moveChild_cases candidates overloaded r child with hr |
    ⟨childNode,best,depth,_,hm,_,_,hr⟩
  · rw [hr]
    exact h
  · obtain ⟨_,hne,_,_⟩ := (mem_moveCandidates r.1 child candidates best).mp hm
    rw [hr]
    have hremoved : AllBounded (r.1.update overloaded (fun n => (n.removeChild child).1)) :=
      update_bounded h (fun n hn => removeChild_bounds hn)
    have hadded := update_bounded hremoved (fun n hn => addChild_bounds (p := child) hn hne)
    exact update_bounded hadded (fun n hn => redirect_bounds hn hne _)

theorem relieve_bounded (H : TreeOrder PeerId) (candidates : List PeerId)
    (r : StreamTree PeerId × Bool) (overloaded : PeerId) (h : AllBounded r.1) :
    AllBounded (relieve H candidates r overloaded).1 := by
  unfold relieve
  cases hl : r.1.nodes.lookup overloaded with
  | none => exact h
  | some n =>
    exact (along_true (moveChild candidates overloaded) r _).invariant
      (fun r : StreamTree PeerId × Bool => AllBounded r.1) h
      (fun r c hr _ => moveChild_bounded candidates overloaded c r hr)

theorem rebalance_bounded (H : TreeOrder PeerId) (h : AllBounded t) :
    AllBounded (rebalance H t).1 := by
  have start : AllBounded t.countRebalance := h
  unfold rebalance
  dsimp only
  split_ifs
  · exact start
  · have hrelieved := (along_true (relieve H (t.countRebalance.rebalanceCandidates H))
      (t.countRebalance,false) (t.countRebalance.overloadedNodes H)).invariant
      (fun r : StreamTree PeerId × Bool => AllBounded r.1) start
      (fun r o hr _ => relieve_bounded H _ r o hr)
    exact (along_true (adopt H) _ _).invariant
      (fun r : StreamTree PeerId × Bool => AllBounded r.1) hrelieved
      (fun r o hr _ => findParent_bounded H o hr)

theorem addPeer_bounded (H : TreeOrder PeerId) (p : PeerId) (role : PeerRole) (bandwidth : UInt64)
    (h : AllBounded t) : AllBounded (addPeer H t p role bandwidth).1 := by
  unfold addPeer
  split_ifs
  · exact h
  · apply findParent_bounded
    exact insert_bounded h (nodeBounds_fresh rfl rfl (by decide : defaultMaxChildren ≤ _))

theorem step_bounded (e : TreeOrder PeerId × TreeOp PeerId) (h : AllBounded t) :
    AllBounded (t.step e) := by
  obtain ⟨H,op⟩ := e
  have outcome := step_outcome H t op
  generalize t.step (H,op) = t' at outcome ⊢
  cases outcome with
  | unchanged => exact h
  | sourced _ =>
    have hlimit : defaultMaxChildren+1 ≤ absoluteMaxChildren := by decide
    exact insert_bounded h (nodeBounds_fresh rfl rfl hlimit)
  | joined _ =>
    have hlimit : defaultMaxChildren ≤ absoluteMaxChildren := by decide
    exact findParent_bounded H _ (insert_bounded h (nodeBounds_fresh rfl rfl hlimit))
  | @removed p _ _ _ => exact reattach_bounded H _ (detach_bounded p _ h)
  | @disconnected p _ now _ node _ _ =>
    have hsaved : AllBounded (t.saveNode p node now) := h
    exact reattach_bounded H (H.order (.children p) node.children)
      (detach_bounded p node.parent hsaved)
  | @reconnected p node _ _ =>
    have hforgotten : AllBounded (t.forgetNode p) := h
    exact findParent_bounded H _ (insert_bounded hforgotten
      (nodeBounds_fresh (parent_revived node) (children_revived node) (maxChildren_revived node)))
  | rebalanced => exact rebalance_bounded H h
  | remeasured hf =>
    apply update_bounded h
    intro n hn
    exact hn.congr (hf.role n) (hf.parent n) (hf.children n) (hf.limit n)

end Operations

section Rooted

variable {t : StreamTree PeerId}

/-- Before there is a source, nobody has a parent. -/
def Rooted (t : StreamTree PeerId) : Prop := t.source = none → ∀ p, t.up p = none

/-- Parents that go or stay as they are. -/
theorem Rooted.mono {t' : StreamTree PeerId} (h : Rooted t) (hsource : t'.source = t.source)
    (hup : ∀ p, t.up p = none → t'.up p = none) : Rooted t' := by
  intro hnone p
  exact hup p (h (hsource.symm.trans hnone) p)

theorem insert_rooted {p : PeerId} {n : TreeNode PeerId} (h : Rooted t) (hn : n.parent = none) :
    Rooted (t.insertNode p n) := by
  have hsource : (t.insertNode p n).source = t.source := rfl
  apply h.mono hsource
  intro x hx
  rw [up_insert t p n hn]
  by_cases hp : x = p
  · simp [hp]
  · simp [hp,hx]

theorem findParent_rooted (H : TreeOrder PeerId) (p : PeerId) (h : Rooted t) :
    Rooted (findParentForPeer H t p).1 := by
  rcases findParent_cases H t p with ⟨hr,_⟩ | ⟨_,hr⟩ | ⟨q,n,hs,_,_,_,hr⟩
  · rw [hr]
    exact h
  · rw [hr]
    exact h
  · rw [hr]
    intro hnone
    exact absurd hnone hs

theorem reattach_rooted (H : TreeOrder PeerId) (cs : List PeerId) (h : Rooted t) :
    Rooted (cs.foldl (reattach H) t) := by
  apply (along_true (reattach H) t cs).invariant Rooted h
  intro t c ht _
  apply findParent_rooted
  have hsource : (t.clearParent c).source = t.source := rfl
  apply ht.mono hsource
  intro x hx
  rw [up_clearParent]
  by_cases hc : x = c
  · simp [hc]
  · simp [hc,hx]

theorem detach_rooted (p : PeerId) (r : Option PeerId) (h : Rooted t) :
    Rooted (t.detach p r) := by
  have hsource : (t.detach p r).source = t.source := by
    cases r <;> rfl
  apply h.mono hsource
  intro x hx
  rw [up_detach]
  by_cases hp : x = p
  · simp [hp]
  · simp [hp,hx]

/-- Without a source there are no children to move. -/
theorem relieve_unrooted (H : TreeOrder PeerId) (candidates : List PeerId)
    (r : StreamTree PeerId × Bool) (overloaded : PeerId) (hfree : SourceFree r.1)
    (hnone : r.1.source = none) : relieve H candidates r overloaded = r := by
  unfold relieve
  cases hl : r.1.nodes.lookup overloaded with
  | none => rfl
  | some n =>
    have hchildren : childrenToMove H overloaded n = [] := by
      apply List.eq_nil_iff_forall_not_mem.mpr
      intro c hc
      have hmem : c ∈ r.1.childrenOf overloaded := by
        rw [childrenOf_of_lookup r.1 hl]
        exact (H.mem_order _ _ c).mp (List.mem_of_mem_take hc)
      exact (hfree.unclaimed c overloaded hmem).1 hnone
    simp [hchildren]

theorem relieve_rooted (H : TreeOrder PeerId) (candidates : List PeerId)
    (r : StreamTree PeerId × Bool) (overloaded : PeerId) (hfree : SourceFree r.1)
    (h : Rooted r.1) : Rooted (relieve H candidates r overloaded).1 := by
  cases hs : r.1.source with
  | none =>
    rw [relieve_unrooted H candidates r overloaded hfree hs]
    exact h
  | some s =>
    have hsource : (relieve H candidates r overloaded).1.source = some s := by
      unfold relieve
      cases r.1.nodes.lookup overloaded with
      | none => exact hs
      | some n =>
        exact (along_true (moveChild candidates overloaded) r _).invariant
          (fun r : StreamTree PeerId × Bool => r.1.source = some s) hs
          (fun r c hr _ => (source_moveChild candidates overloaded r c).trans hr)
    intro hnone
    simp [hsource] at hnone

theorem rebalance_rooted (H : TreeOrder PeerId) (hfree : SourceFree t) (h : Rooted t) :
    Rooted (rebalance H t).1 := by
  have start : SourceFree t.countRebalance ∧ Rooted t.countRebalance :=
    ⟨⟨hfree.live,hfree.top,hfree.unclaimed⟩,h⟩
  unfold rebalance
  dsimp only
  split_ifs
  · exact start.2
  · have hrelieved := (along_true (relieve H (t.countRebalance.rebalanceCandidates H))
      (t.countRebalance,false) (t.countRebalance.overloadedNodes H)).invariant
      (fun r : StreamTree PeerId × Bool => SourceFree r.1 ∧ Rooted r.1) start
      (fun r o hr _ => ⟨relieve_sourceFree H _ r o hr.1,relieve_rooted H _ r o hr.1 hr.2⟩)
    exact (along_true (adopt H) _ _).invariant
      (fun r : StreamTree PeerId × Bool => Rooted r.1) hrelieved.2
      (fun r o hr _ => findParent_rooted H o hr)

theorem addPeer_rooted (H : TreeOrder PeerId) (p : PeerId) (role : PeerRole) (bandwidth : UInt64)
    (h : Rooted t) : Rooted (addPeer H t p role bandwidth).1 := by
  unfold addPeer
  split_ifs
  · exact h
  · exact findParent_rooted H p (insert_rooted h rfl)

theorem update_rooted {p : PeerId} {f : TreeNode PeerId → TreeNode PeerId} (h : Rooted t)
    (hf : ∀ n, (f n).parent = n.parent) : Rooted (t.update p f) := by
  apply h.mono (source_update t p f)
  intro x hx
  rw [up_update t p f hf]
  exact hx

theorem step_rooted (e : TreeOrder PeerId × TreeOp PeerId) (hfree : SourceFree t)
    (h : Rooted t) : Rooted (t.step e) := by
  obtain ⟨H,op⟩ := e
  have outcome := step_outcome H t op
  generalize t.step (H,op) = t' at outcome ⊢
  cases outcome with
  | unchanged => exact h
  | sourced _ =>
    intro hnone
    cases hnone
  | @joined p _ _ _ => exact findParent_rooted H p (insert_rooted h rfl)
  | @removed p _ _ _ => exact reattach_rooted H _ (detach_rooted p _ h)
  | @disconnected p _ now _ node _ _ =>
    have hsaved : Rooted (t.saveNode p node now) := h
    exact reattach_rooted H (H.order (.children p) node.children)
      (detach_rooted p node.parent hsaved)
  | @reconnected p node _ _ =>
    have hforgotten : Rooted (t.forgetNode p) := h
    exact findParent_rooted H p (insert_rooted hforgotten (parent_revived node))
  | rebalanced => exact rebalance_rooted H hfree h
  | remeasured hf => exact update_rooted h hf.parent

end Rooted

section Bounds

/-- The source is in the tree, without a parent and nobody's child; no node is its own parent or
child; a consumer has no children, and nobody has more than seven. -/
structure Bounded (t : StreamTree PeerId) : Prop where
  source : ∀ s, t.source = some s → (∃ n, t.nodes.lookup s = some n ∧ n.parent = none) ∧
    ∀ p n, t.nodes.lookup p = some n → s ∉ n.children
  noSelf : ∀ p n, t.nodes.lookup p = some n → n.parent ≠ some p ∧ p ∉ n.children
  consumer : ∀ p n, t.nodes.lookup p = some n → n.role = .consumer → n.children = ∅
  atMostSeven : ∀ p n, t.nodes.lookup p = some n → n.children.card ≤ 7

/-- What every operation keeps. -/
structure BoundsInv (t : StreamTree PeerId) : Prop where
  free : SourceFree t
  rooted : Rooted t
  nodes : AllBounded t

theorem BoundsInv.bounded {t : StreamTree PeerId} (h : BoundsInv t) : Bounded t := by
  constructor
  · intro s hs
    constructor
    · obtain ⟨n,hn⟩ := Finmap.mem_iff.mp (h.free.live s hs)
      have htop := h.free.top s hs
      rw [up_of_lookup t hn] at htop
      exact ⟨n,hn,htop⟩
    · intro p n hn hmem
      have hchild : s ∈ t.childrenOf p := by
        rw [childrenOf_of_lookup t hn]
        exact hmem
      exact (h.free.unclaimed s p hchild).2 hs
  · intro p n hn
    exact ⟨(h.nodes p n hn).parent,(h.nodes p n hn).children⟩
  · intro p n hn
    exact (h.nodes p n hn).consumer
  · intro p n hn
    exact (h.nodes p n hn).card

theorem new_boundsInv (config : TopologyConfig) : BoundsInv (new config : StreamTree PeerId) := by
  refine ⟨⟨by simp [new],by simp [new],by simp [childrenOf,new]⟩,?_,?_⟩
  · intro _ p
    simp [up,parents,parentField,new]
  · intro p n hn
    simp [new] at hn

theorem step_boundsInv {t : StreamTree PeerId} (e : TreeOrder PeerId × TreeOp PeerId)
    (h : BoundsInv t) : BoundsInv (t.step e) :=
  ⟨step_sourceFree t e h.free,step_rooted e h.free h.rooted,step_bounded e h.nodes⟩

theorem run_bounded (config : TopologyConfig) (es : List (TreeOrder PeerId × TreeOp PeerId)) :
    Bounded (run config es) :=
  ((along_true step (new config) es).invariant BoundsInv (new_boundsInv config)
    (fun _ e h _ => step_boundsInv e h)).bounded

end Bounds

end OpenBroadcast.Overlay.StreamTree

namespace OpenBroadcast.Overlay.TopologyManager

open StreamTree

variable {StreamId PeerId : Type} [DecidableEq StreamId] [DecidableEq PeerId]

/-- A publisher becomes the source before it is in the tree, and is in it when the call is over. -/
theorem addPublisher_boundsInv (H : TreeOrder PeerId) {t : StreamTree PeerId} (p : PeerId)
    (role : PeerRole) (bandwidth : UInt64) (h : BoundsInv t) (hnone : t.source = none) :
    BoundsInv (addPeer H { t with source := some p } p role bandwidth).1 := by
  have hrooted : Rooted { t with source := some p } := by
    intro hno
    cases hno
  have hnodes : AllBounded { t with source := some p } := h.nodes
  refine ⟨?_,addPeer_rooted H p role bandwidth hrooted,addPeer_bounded H p role bandwidth hnodes⟩
  have hchildless : ∀ c q, c ∉ t.childrenOf q :=
    fun c q hc => (h.free.unclaimed c q hc).1 hnone
  have hsource : ∀ x : StreamTree PeerId, x.source = some p → findParentForPeer H x p = (x,true) := by
    intro x hx
    simp [findParentForPeer,hx]
  unfold addPeer
  split_ifs with hmem
  · constructor
    · intro s hs
      cases hs
      exact hmem
    · intro s hs
      exact h.rooted hnone s
    · intro c q hc
      exact absurd hc (hchildless c q)
  · rw [hsource _ rfl]
    constructor
    · intro s hs
      cases hs
      simp [insertNode]
    · intro s hs
      cases hs
      rw [up_insert { t with source := some p } p _ rfl]
      simp
    · intro c q hc
      rw [childrenOf_insertNode] at hc
      by_cases hq : q = p
      · simp [hq,TreeNode.new] at hc
      · rw [Function.update_of_ne hq] at hc
        exact absurd hc (hchildless c q)

theorem addPeer_boundsInv (H : TreeOrder PeerId) {t : StreamTree PeerId} (p : PeerId)
    (role : PeerRole) (bandwidth : UInt64) (h : BoundsInv t) :
    BoundsInv (addPeer H (claimSource t p role) p role bandwidth).1 := by
  unfold claimSource
  split_ifs with hclaim
  · exact addPublisher_boundsInv H p role bandwidth h (by simpa using hclaim.2)
  · exact step_boundsInv (H,.addPeer p role bandwidth) h

def AllTrees (m : TopologyManager StreamId PeerId) : Prop :=
  ∀ s t, m.trees.lookup s = some t → BoundsInv t

theorem insertTree_allTrees {m : TopologyManager StreamId PeerId} {s : StreamId}
    {t : StreamTree PeerId} (h : AllTrees m) (ht : BoundsInv t) :
    AllTrees { m with trees := m.trees.insert s t } := by
  intro s' t' ht'
  by_cases hs : s' = s
  · subst hs
    have heq : t = t' := by simpa using ht'
    exact heq ▸ ht
  · have hold : m.trees.lookup s' = some t' := by simpa [hs] using ht'
    exact h s' t' hold

theorem step_allTrees (debug : StreamId → String) {m : TopologyManager StreamId PeerId}
    (e : ManagerEvent StreamId PeerId) (h : AllTrees m) : AllTrees (m.step debug e) := by
  obtain ⟨op,first,second⟩ := e
  cases op with
  | addPeerToStream s p role =>
    have htree : BoundsInv ((m.trees.lookup s).getD (.new m.config.tree)) := by
      cases hl : m.trees.lookup s with
      | none => exact new_boundsInv _
      | some t => exact h s t hl
    have hadded := addPeer_boundsInv (first s) p role m.config.defaultBandwidth htree
    apply insertTree_allTrees h
    split_ifs
    · exact step_boundsInv (second s,.rebalance) hadded
    · exact hadded
  | removePeerFromStream s p =>
    simp only [step,removePeerFromStream]
    cases hl : m.trees.lookup s with
    | none => exact h
    | some t =>
      have hremoved := step_boundsInv (first s,.removePeer p) (h s t hl)
      dsimp only
      split_ifs
      · intro s' t' ht'
        by_cases hs : s' = s
        · subst hs
          simp at ht'
        · have hold : m.trees.lookup s' = some t' := by simpa [hs] using ht'
          exact h s' t' hold
      · exact insertTree_allTrees h (step_boundsInv (second s,.rebalance) hremoved)
  | updatePeer p => exact h
  | removePeer p =>
    intro s t ht
    simp only [step,removePeer,HashMap.lookup_mapEntries,Option.map_eq_some_iff] at ht
    obtain ⟨t₀,ht₀,rfl⟩ := ht
    split_ifs
    · exact step_boundsInv (first s,.removePeer p) (h s t₀ ht₀)
    · exact h s t₀ ht₀
  | updateConfig config => exact h
  | tree s op =>
    intro s' t ht
    simp only [step,HashMap.lookup_modify] at ht
    split_ifs at ht with hs
    · obtain ⟨t₀,ht₀,rfl⟩ := Option.map_eq_some_iff.mp ht
      exact step_boundsInv (first s,op) (h s t₀ ht₀)
    · exact h s' t ht

theorem run_allTrees (debug : StreamId → String) (config : ManagerConfig)
    (es : List (ManagerEvent StreamId PeerId)) : AllTrees (run debug config es) := by
  have start : AllTrees (new config : TopologyManager StreamId PeerId) := by
    intro s t ht
    simp [new] at ht
  exact (along_true (step debug) (new config) es).invariant AllTrees start
    (fun _ e h _ => step_allTrees debug e h)

/-- Every tree stays within its bounds: one by itself, and all those that a manager holds. -/
theorem trees_bounded :
    (∀ (config : TopologyConfig) (es : List (TreeOrder PeerId × TreeOp PeerId)),
      Bounded (StreamTree.run config es)) ∧
    ∀ (debug : StreamId → String) (config : ManagerConfig)
      (es : List (ManagerEvent StreamId PeerId)) (s : StreamId) (t : StreamTree PeerId),
      (run debug config es).trees.lookup s = some t → Bounded t := by
  constructor
  · exact run_bounded
  · intro debug config es s t ht
    exact (run_allTrees debug config es s t ht).bounded

/-- A viewer comes before the publisher of its stream, and a relay after both. -/
def viewerFirst : List (ManagerEvent Nat Nat) :=
  [ManagerOp.addPeerToStream 0 2 .consumer,.addPeerToStream 0 1 .publisher,
    .addPeerToStream 0 3 .relay].map (fun op => ⟨op,fun _ => .ascending,fun _ => .ascending⟩)

set_option maxRecDepth 20000 in
theorem trees_bounded_viewerFirst :
    ∃ t, (run (fun _ => "") ⟨.default,5000000,10⟩ viewerFirst).trees.lookup 0 = some t ∧
      t.source = some 1 ∧ Bounded t := by
  have hsource : ((run (fun _ => "") ⟨.default,5000000,10⟩ viewerFirst).trees.lookup 0).map
      StreamTree.source = some (some 1) := by decide +kernel
  obtain ⟨t,ht,hsome⟩ := Option.map_eq_some_iff.mp hsource
  exact ⟨t,ht,hsome,trees_bounded.2 _ _ viewerFirst 0 t ht⟩

end OpenBroadcast.Overlay.TopologyManager
