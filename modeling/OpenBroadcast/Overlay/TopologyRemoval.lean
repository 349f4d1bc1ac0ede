import OpenBroadcast.Overlay.TreeBounds
import OpenBroadcast.Overlay.TreeFrame

namespace OpenBroadcast.Overlay.StreamTree

variable {PeerId : Type} [DecidableEq PeerId] {t : StreamTree PeerId} {p : PeerId}

/-- The peer `p` is neither in the tree nor its source, and only the peers `cs` still point to
it. -/
structure GoneBut (t : StreamTree PeerId) (p : PeerId) (cs : List PeerId) : Prop where
  absent : p ∉ t.nodes
  source : t.source ≠ some p
  pointers : ∀ x, t.up x = some p → x ∈ cs

/-- The peer `p` is not in the tree, nor its source, nor anyone's parent. -/
def Gone (t : StreamTree PeerId) (p : PeerId) : Prop := GoneBut t p []

theorem findParent_goneBut (H : TreeOrder PeerId) (x : PeerId) {cs : List PeerId}
    (h : GoneBut t p cs) : GoneBut (findParentForPeer H t x).1 p cs := by
  refine ⟨fun hm => h.absent ((mem_findParent H t x p).mp hm),?_,?_⟩
  · rw [source_findParent]
    exact h.source
  · intro y hy
    by_cases hyx : y = x
    · subst hyx
      rcases findParent_cases H t y with ⟨hr,_⟩ | ⟨_,hr⟩ | ⟨q,n,_,_,hc,_,hr⟩
      · rw [hr] at hy
        exact h.pointers y hy
      · rw [hr] at hy
        exact h.pointers y hy
      · have hm : y ∈ t.nodes := by
          by_contra hm
          rw [hr,up_attach_absent t y q n.depth hm] at hy
          exact hm (mem_of_up t hy)
        rw [hr,up_attach t y q n.depth hm,Function.update_self] at hy
        obtain rfl := Option.some.inj hy
        exact absurd (Finmap.mem_of_lookup_eq_some hc.found) h.absent
    · rw [up_findParent H t x hyx] at hy
      exact h.pointers y hy

/-- The loop over the children that `p` has left behind. -/
theorem reattachEach_gone (H : TreeOrder PeerId) (cs : List PeerId) (h : GoneBut t p cs) :
    Gone (cs.foldl (reattach H) t) p := by
  induction cs generalizing t with
  | nil => exact h
  | cons c cs ih =>
    apply ih
    apply findParent_goneBut
    refine ⟨fun hm => h.absent ((mem_update t c p _).mp hm),h.source,?_⟩
    intro x hx
    rw [up_clearParent] at hx
    by_cases hxc : x = c
    · subst hxc
      simp at hx
    · rw [Function.update_of_ne hxc] at hx
      exact (List.mem_cons.mp (h.pointers x hx)).resolve_left hxc

theorem moveChild_gone (candidates : List PeerId) (overloaded : PeerId)
    (r : StreamTree PeerId × Bool) (child : PeerId) (h : Gone r.1 p) :
    Gone (moveChild candidates overloaded r child).1 p := by
  refine ⟨fun hm => h.absent ((mem_moveChild candidates overloaded r child p).mp hm),?_,?_⟩
  · rw [source_moveChild]
    exact h.source
  · intro x hx
    rcases up_moveChild candidates overloaded r child with ups | ⟨best,_,hbest,ups⟩
    · rw [ups] at hx
      exact h.pointers x hx
    · rw [ups] at hx
      by_cases hxc : x = child
      · subst hxc
        rw [Function.update_self] at hx
        obtain rfl := Option.some.inj hx
        exact absurd hbest h.absent
      · rw [Function.update_of_ne hxc] at hx
        exact h.pointers x hx

theorem rebalance_gone (H : TreeOrder PeerId) (h : Gone t p) : Gone (rebalance H t).1 p := by
  have start : Gone t.countRebalance p := ⟨h.absent,h.source,h.pointers⟩
  rw [rebalance]
  dsimp only
  split_ifs
  · exact start
  · have relieved := (along_true (relieve H (t.countRebalance.rebalanceCandidates H))
      (t.countRebalance,false) (t.countRebalance.overloadedNodes H)).invariant
      (fun r : StreamTree PeerId × Bool => Gone r.1 p) start (by
        intro r o hr _
        rw [relieve]
        cases r.1.nodes.lookup o with
        | none => exact hr
        | some n =>
          exact (along_true (moveChild _ o) r _).invariant
            (fun r : StreamTree PeerId × Bool => Gone r.1 p) hr
            (fun r c hr _ => moveChild_gone _ o r c hr))
    exact (along_true (adopt H) _ _).invariant
      (fun r : StreamTree PeerId × Bool => Gone r.1 p) relieved
      (fun r o hr _ => findParent_goneBut H o hr)

/-- Every node whose parent is `p` is among the children of `p`. -/
def KnownChildren (t : StreamTree PeerId) (p : PeerId) : Prop :=
  ∀ x n, t.nodes.lookup x = some n → n.parent = some p → x ∈ t.childrenOf p

theorem removePeer_gone (H : TreeOrder PeerId) (hs : t.source ≠ some p)
    (known : KnownChildren t p) : Gone (removePeer H t p).1 p := by
  have pointers : ∀ x, t.up x = some p → x ∈ t.childrenOf p := by
    intro x hx
    obtain ⟨n,hn⟩ := Finmap.mem_iff.mp (mem_of_up t hx)
    rw [up_of_lookup t hn] at hx
    exact known x n hn hx
  cases hl : t.nodes.lookup p with
  | none =>
    have absent : p ∉ t.nodes := Finmap.lookup_eq_none.mp hl
    rw [removePeer_of_absent H hl]
    refine ⟨absent,hs,?_⟩
    intro x hx
    have hchild := pointers x hx
    rw [childrenOf_absent t absent] at hchild
    exact absurd hchild (Finset.notMem_empty x)
  | some node =>
    rw [removePeer_of_lookup H hl hs]
    apply reattachEach_gone
    refine ⟨by simp [mem_detach],?_,?_⟩
    · have hsource : (t.detach p node.parent).source = t.source := by
        cases node.parent <;> rfl
      rwa [hsource]
    · intro x hx
      rw [up_detach] at hx
      by_cases hxp : x = p
      · subst hxp
        simp at hx
      · rw [Function.update_of_ne hxp] at hx
        rw [H.mem_order,← childrenOf_of_lookup t hl]
        exact pointers x hx

/-- Only the source stays in the tree. -/
theorem mem_removePeer (H : TreeOrder PeerId) (t : StreamTree PeerId) (p : PeerId) :
    p ∈ (removePeer H t p).1.nodes ↔ p ∈ t.nodes ∧ t.source = some p := by
  cases hl : t.nodes.lookup p with
  | none =>
    rw [removePeer_of_absent H hl]
    simp [Finmap.lookup_eq_none.mp hl]
  | some node =>
    have live : p ∈ t.nodes := Finmap.mem_of_lookup_eq_some hl
    by_cases hs : t.source = some p
    · rw [removePeer_of_source H hl hs]
      simp [live,hs]
    · rw [removePeer_of_lookup H hl hs,mem_reattachEach,mem_detach]
      simp [hs]

theorem source_reattachEach (H : TreeOrder PeerId) (t : StreamTree PeerId) (cs : List PeerId) :
    (cs.foldl (reattach H) t).source = t.source :=
  (along_true (reattach H) t cs).invariant (fun t' => t'.source = t.source) rfl
    (fun t' c ht _ => (source_findParent H (t'.clearParent c) c).trans ht)

theorem source_removePeer (H : TreeOrder PeerId) (t : StreamTree PeerId) (p : PeerId) :
    (removePeer H t p).1.source = t.source := by
  obtain hsame | ⟨node,_,_,hmoved⟩ := removePeer_cases H t p
  · rw [hsame]
  · rw [hmoved,source_reattachEach]
    cases node.parent <;> rfl

/-- What a rebalance leaves alone in every tree. -/
theorem rebalance_nodes_source (H : TreeOrder PeerId) (t : StreamTree PeerId) :
    (∀ x, x ∈ (rebalance H t).1.nodes ↔ x ∈ t.nodes) ∧ (rebalance H t).1.source = t.source := by
  rw [rebalance]
  dsimp only
  split_ifs
  · exact ⟨fun _ => Iff.rfl,rfl⟩
  · let Same := fun r : StreamTree PeerId × Bool =>
      (∀ x, x ∈ r.1.nodes ↔ x ∈ t.nodes) ∧ r.1.source = t.source
    have start : Same (t.countRebalance,false) := ⟨fun _ => Iff.rfl,rfl⟩
    have relieved := (along_true (relieve H (t.countRebalance.rebalanceCandidates H))
      (t.countRebalance,false) (t.countRebalance.overloadedNodes H)).invariant Same start (by
        intro r o hr _
        rw [relieve]
        cases r.1.nodes.lookup o with
        | none => exact hr
        | some n =>
          exact (along_true (moveChild _ o) r _).invariant Same hr (fun r c hr _ =>
            ⟨fun x => (mem_moveChild _ o r c x).trans (hr.1 x),
              (source_moveChild _ o r c).trans hr.2⟩))
    exact (along_true (adopt H) _ _).invariant Same relieved (fun r o hr _ =>
      ⟨fun x => (mem_findParent H r.1 o x).trans (hr.1 x),
        (source_findParent H r.1 o).trans hr.2⟩)

end OpenBroadcast.Overlay.StreamTree

namespace OpenBroadcast.Overlay.TopologyManager

open StreamTree

variable {StreamId PeerId : Type} [DecidableEq StreamId] [DecidableEq PeerId]

/-- A peer is taken out of all trees exactly if it is the source of none. -/
theorem removePeer_absent_iff (orders : StreamId → TreeOrder PeerId)
    (m : TopologyManager StreamId PeerId) (p : PeerId) (h : AllTrees m) :
    (∀ s t, (removePeer orders m p).trees.lookup s = some t → p ∉ t.nodes) ↔
      ∀ s t, m.trees.lookup s = some t → t.source ≠ some p := by
  have tree : ∀ s (t : StreamTree PeerId), p ∈
      (if p ∈ t.nodes then (StreamTree.removePeer (orders s) t p).1 else t).nodes ↔
        p ∈ t.nodes ∧ t.source = some p := by
    intro s t
    split_ifs with hp
    · exact mem_removePeer (orders s) t p
    · simp [hp]
  have after : ∀ s, (removePeer orders m p).trees.lookup s = (m.trees.lookup s).map
      (fun t => if p ∈ t.nodes then (StreamTree.removePeer (orders s) t p).1 else t) :=
    fun s => HashMap.lookup_mapEntries m.trees _ s
  constructor
  · intro gone s t ht hs
    have live : p ∈ t.nodes := (h s t ht).free.live p hs
    exact gone s _ (by rw [after,ht]; rfl) ((tree s t).mpr ⟨live,hs⟩)
  · intro hs s t' ht' hp
    rw [after] at ht'
    obtain ⟨t,ht,rfl⟩ := Option.map_eq_some_iff.mp ht'
    exact hs s t ht ((tree s t).mp hp).2

section Stream

variable (debug : StreamId → String) (first second : TreeOrder PeerId)
  (m : TopologyManager StreamId PeerId) (s : StreamId) (p : PeerId)

/-- The tree of the stream after the call: the one without the peer, rebalanced, unless it is
empty. -/
theorem lookup_removePeerFromStream (t' : StreamTree PeerId) :
    (removePeerFromStream debug first second m s p).1.trees.lookup s = some t' ↔
      ∃ t, m.trees.lookup s = some t ∧ (StreamTree.removePeer first t p).1.nodes.keys ≠ ∅ ∧
        t' = (StreamTree.rebalance second (StreamTree.removePeer first t p).1).1 := by
  rw [removePeerFromStream]
  cases hl : m.trees.lookup s with
  | none => simp [hl]
  | some t =>
    dsimp only
    by_cases hempty : (StreamTree.removePeer first t p).1.nodes.keys = ∅
    · rw [if_pos hempty]
      simp [hempty]
    · rw [if_neg hempty]
      simp only [Finmap.lookup_insert,Option.some.injEq,exists_eq_left',ne_eq,hempty,
        not_false_eq_true,true_and]
      exact eq_comm

theorem removePeerFromStream_absent_iff (h : AllTrees m) :
    (∀ t, (removePeerFromStream debug first second m s p).1.trees.lookup s = some t →
      p ∉ t.nodes ∧ t.source ≠ some p) ↔
      ∀ t, m.trees.lookup s = some t → t.source ≠ some p := by
  constructor
  · intro gone t ht hs
    have live : p ∈ (StreamTree.removePeer first t p).1.nodes :=
      (mem_removePeer first t p).mpr ⟨(h s t ht).free.live p hs,hs⟩
    have nonempty : (StreamTree.removePeer first t p).1.nodes.keys ≠ ∅ :=
      Finset.ne_empty_of_mem (Finmap.mem_keys.mpr live)
    have after := gone _ ((lookup_removePeerFromStream debug first second m s p _).mpr
      ⟨t,ht,nonempty,rfl⟩)
    exact after.1 (((rebalance_nodes_source second _).1 p).mpr live)
  · intro hs t' ht'
    obtain ⟨t,ht,_,rfl⟩ := (lookup_removePeerFromStream debug first second m s p t').mp ht'
    obtain ⟨nodes,source⟩ := rebalance_nodes_source second (StreamTree.removePeer first t p).1
    rw [nodes,mem_removePeer,source,source_removePeer]
    exact ⟨fun hp => hs t ht hp.2,hs t ht⟩

theorem removePeerFromStream_gone
    (hs : ∀ t, m.trees.lookup s = some t → t.source ≠ some p ∧ KnownChildren t p) :
    ∀ t, (removePeerFromStream debug first second m s p).1.trees.lookup s = some t →
      Gone t p := by
  intro t' ht'
  obtain ⟨t,ht,_,rfl⟩ := (lookup_removePeerFromStream debug first second m s p t').mp ht'
  exact rebalance_gone second (removePeer_gone first (hs t ht).1 (hs t ht).2)

end Stream

/-- In every state of a manager: a peer that is the source of no tree is taken out of all of them,
and one that is not the source of a stream out of the tree of the stream; a publisher stays. Nor
does anyone point to the peer then, if it has known all that did. -/
theorem run_removal (debug : StreamId → String) (config : ManagerConfig)
    (es : List (ManagerEvent StreamId PeerId)) (p : PeerId) :
    (∀ orders, (∀ s t, (removePeer orders (run debug config es) p).trees.lookup s = some t →
        p ∉ t.nodes) ↔
      ∀ s t, (run debug config es).trees.lookup s = some t → t.source ≠ some p) ∧
    (∀ first second s,
      ((∀ t, (removePeerFromStream debug first second (run debug config es) s p).1.trees.lookup
          s = some t → p ∉ t.nodes ∧ t.source ≠ some p) ↔
        ∀ t, (run debug config es).trees.lookup s = some t → t.source ≠ some p) ∧
      ((∀ t, (run debug config es).trees.lookup s = some t →
          t.source ≠ some p ∧ KnownChildren t p) →
        ∀ t, (removePeerFromStream debug first second (run debug config es) s p).1.trees.lookup
          s = some t →
            p ∉ t.nodes ∧ t.source ≠ some p ∧
            ∀ x n, t.nodes.lookup x = some n → n.parent ≠ some p)) := by
  have all := run_allTrees debug config es
  refine ⟨fun orders => removePeer_absent_iff orders _ p all,fun first second s =>
    ⟨removePeerFromStream_absent_iff debug first second _ s p all,?_⟩⟩
  intro hs t ht
  have gone := removePeerFromStream_gone debug first second _ s p hs t ht
  refine ⟨gone.absent,gone.source,?_⟩
  intro x n hn hparent
  rw [← up_of_lookup t hn] at hparent
  exact absurd (gone.pointers x hparent) (List.not_mem_nil)

/-- A publisher and a viewer. -/
def broadcast : List (ManagerEvent Nat Nat) :=
  [ManagerOp.addPeerToStream 0 1 .publisher,.addPeerToStream 0 2 .consumer].map
    (fun op => ⟨op,fun _ => .ascending,fun _ => .ascending⟩)

set_option maxRecDepth 20000 in
/-- The publisher is removed from the stream and from the topology, and is still in the tree, as
its source and as the parent of the viewer. -/
theorem publisher_stays :
    let m := run (fun _ => "") ⟨.default,5000000,10⟩ broadcast
    let left := removePeerFromStream (fun _ => "") .ascending .ascending m 0 1
    left.2.toOption = some () ∧
    (∃ t, left.1.trees.lookup 0 = some t ∧ 1 ∈ t.nodes ∧ t.source = some 1 ∧ t.up 2 = some 1) ∧
    ∃ t, (removePeer (fun _ => .ascending) m 1).trees.lookup 0 = some t ∧ 1 ∈ t.nodes := by
  intro m left
  have stream : (left.1.trees.lookup 0).map
      (fun t => (decide (1 ∈ t.nodes),t.source,t.up 2)) = some (true,some 1,some 1) := by
    decide +kernel
  have topology : ((removePeer (fun _ => .ascending) m 1).trees.lookup 0).map
      (fun t => decide (1 ∈ t.nodes)) = some true := by
    decide +kernel
  obtain ⟨t,ht,hstream⟩ := Option.map_eq_some_iff.mp stream
  obtain ⟨t',ht',htopology⟩ := Option.map_eq_some_iff.mp topology
  simp only [Prod.mk.injEq,decide_eq_true_eq] at hstream
  exact ⟨by decide +kernel,⟨t,ht,hstream⟩,t',ht',by simpa using htopology⟩

end OpenBroadcast.Overlay.TopologyManager
