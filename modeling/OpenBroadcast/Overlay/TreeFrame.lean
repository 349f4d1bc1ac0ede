import OpenBroadcast.Overlay.TreeSource

namespace OpenBroadcast.Overlay.StreamTree

variable {PeerId : Type} [DecidableEq PeerId]

theorem mem_reattach (H : TreeOrder PeerId) (t : StreamTree PeerId) (c x : PeerId) :
    x ∈ (reattach H t c).nodes ↔ x ∈ t.nodes := by
  rw [reattach,mem_findParent]
  exact mem_update t c x _

theorem mem_reattachEach (H : TreeOrder PeerId) (t : StreamTree PeerId) (cs : List PeerId)
    (x : PeerId) : x ∈ (cs.foldl (reattach H) t).nodes ↔ x ∈ t.nodes := by
  induction cs generalizing t with
  | nil => rfl
  | cons c cs ih => rw [List.foldl_cons,ih,mem_reattach]

/-- The peers that are not looked after keep their parents. -/
theorem up_reattachEach (H : TreeOrder PeerId) (t : StreamTree PeerId) (cs : List PeerId)
    {x : PeerId} (hx : x ∉ cs) : (cs.foldl (reattach H) t).up x = t.up x := by
  induction cs generalizing t with
  | nil => rfl
  | cons c cs ih =>
    have hxc : x ≠ c := fun h => hx (by simp [h])
    have hx : x ∉ cs := fun h => hx (by simp [h])
    rw [List.foldl_cons,ih _ hx,reattach,up_findParent H _ c hxc,up_clearParent,
      Function.update_of_ne hxc]

theorem reattach_matched (H : TreeOrder PeerId) (t : StreamTree PeerId) (gone : PeerId)
    (cs : List PeerId) (hn : cs.Nodup) (hg : gone ∉ t.nodes)
    (h : MatchedBut t.up t.childrenOf gone cs) :
    Matched (cs.foldl (reattach H) t).up (cs.foldl (reattach H) t).childrenOf := by
  induction cs generalizing t with
  | nil => exact matchedBut_nil.mp h
  | cons c cs ih =>
    obtain ⟨hc,hn⟩ := List.nodup_cons.mp hn
    have hup : t.up c = some gone := (h c gone).mpr (Or.inr ⟨rfl,by simp⟩)
    have hm : c ∈ (t.clearParent c).nodes := (mem_update t c c _).mpr (mem_of_up t hup)
    have hnone : (t.clearParent c).up c = none := by
      rw [up_clearParent,Function.update_self]
    apply ih _ hn
    · rwa [mem_reattach]
    · exact findParent_matchedBut H _ c gone cs (clearParent_matchedBut t gone c cs hc hg h)
        hm hnone

theorem mem_detach (t : StreamTree PeerId) (p : PeerId) (r : Option PeerId) (x : PeerId) :
    x ∈ (t.detach p r).nodes ↔ x ≠ p ∧ x ∈ t.nodes := by
  cases r with
  | none => exact Finmap.mem_erase
  | some q =>
    have erased : x ∈ (t.detach p (some q)).nodes ↔
        x ≠ p ∧ x ∈ (t.update q (fun parent => (parent.removeChild p).1)).nodes :=
      Finmap.mem_erase
    rw [erased,mem_update]

/-- What is left when a peer has been taken out that is neither the source nor its own
parent. -/
structure Removed (t t' : StreamTree PeerId) (p : PeerId) : Prop where
  keys : t'.nodes.keys = t.nodes.keys.erase p
  unnamed : ∀ x n, t'.nodes.lookup x = some n → n.parent ≠ some p ∧ p ∉ n.children
  consistent : LinksConsistent t'
  frame : ∀ x n, x ≠ p → t.nodes.lookup x = some n → n.parent ≠ some p →
    ∃ n', t'.nodes.lookup x = some n' ∧ n'.parent = n.parent

theorem removePeer_removed (H : TreeOrder PeerId) (t : StreamTree PeerId) (h : LinksConsistent t)
    {p : PeerId} {node : TreeNode PeerId} (hl : t.nodes.lookup p = some node)
    (hs : t.source ≠ some p) (hself : node.parent ≠ some p) :
    Removed t (removePeer H t p).1 p := by
  rw [linksConsistent_iff] at h
  rw [removePeer_of_lookup H hl hs]
  have hup : t.up p = node.parent := up_of_lookup t hl
  have hcs : ∀ c, c ∈ H.order (.children p) node.children ↔ c ∈ t.childrenOf p := by
    intro c
    rw [H.mem_order,childrenOf_of_lookup t hl]
  have live : ∀ x, x ∈ ((H.order (.children p) node.children).foldl (reattach H)
      (t.detach p node.parent)).nodes ↔ x ≠ p ∧ x ∈ t.nodes := by
    intro x
    rw [mem_reattachEach,mem_detach]
  have left : MatchedBut (t.detach p node.parent).up (t.detach p node.parent).childrenOf p
      (H.order (.children p) node.children) := by
    rw [up_detach,childrenOf_detach,← hup]
    exact h.detach (by rwa [hup]) _ hcs
  have matched := reattach_matched H (t.detach p node.parent) p _ (H.nodup _ _)
    (by simp [mem_detach]) left
  have absent : p ∉ ((H.order (.children p) node.children).foldl (reattach H)
      (t.detach p node.parent)).nodes := by
    rw [live]
    exact fun h => h.1 rfl
  constructor
  · ext x
    rw [Finmap.mem_keys,live,Finset.mem_erase,Finmap.mem_keys]
  · intro x n hn
    constructor
    · intro hparent
      -- A pointer to `p` would be recorded with `p`, which is gone.
      rw [← up_of_lookup _ hn,matched,childrenOf_absent _ absent] at hparent
      exact absurd hparent (Finset.notMem_empty x)
    · intro hchild
      rw [← childrenOf_of_lookup _ hn,← matched] at hchild
      exact absent (mem_of_up _ hchild)
  · exact (linksConsistent_iff _).mpr matched
  · intro x n hxp hn hparent
    have stays : x ∉ H.order (.children p) node.children := by
      rw [hcs,← h x p,up_of_lookup t hn]
      exact hparent
    obtain ⟨n',hn'⟩ := Finmap.mem_iff.mp
      ((live x).mpr ⟨hxp,Finmap.mem_of_lookup_eq_some hn⟩)
    refine ⟨n',hn',?_⟩
    rw [← up_of_lookup _ hn',up_reattachEach H _ _ stays,up_detach,Function.update_of_ne hxp,
      up_of_lookup t hn]

/-- What a rebalance keeps. -/
structure Rebalanced (t t' : StreamTree PeerId) : Prop where
  keys : t'.nodes.keys = t.nodes.keys
  consistent : LinksConsistent t'
  parented : ∀ x n, t.nodes.lookup x = some n → n.parent ≠ none →
    ∃ n', t'.nodes.lookup x = some n' ∧ n'.parent ≠ none

/-- The invariant of both loops of a rebalance. -/
structure RebalanceInv (t t' : StreamTree PeerId) : Prop where
  live : ∀ x, x ∈ t'.nodes ↔ x ∈ t.nodes
  matched : Matched t'.up t'.childrenOf
  parented : ∀ x, t.up x ≠ none → t'.up x ≠ none

theorem mem_moveChild (candidates : List PeerId) (overloaded : PeerId)
    (r : StreamTree PeerId × Bool) (child x : PeerId) :
    x ∈ (moveChild candidates overloaded r child).1.nodes ↔ x ∈ r.1.nodes := by
  rcases moveChild_cases candidates overloaded r child with hr | ⟨_,_,_,_,_,_,_,hr⟩
  · rw [hr]
  · rw [hr]
    dsimp only [transfer]
    rw [mem_update,mem_update,mem_update]

variable {t : StreamTree PeerId}

theorem moveChild_rebalanceInv (candidates : List PeerId) (overloaded : PeerId)
    (r : StreamTree PeerId × Bool) (child : PeerId) (h : RebalanceInv t r.1)
    (hc : r.1.up child = some overloaded) :
    RebalanceInv t (moveChild candidates overloaded r child).1 := by
  refine ⟨?_,moveChild_matched candidates overloaded r child h.matched hc,?_⟩
  · intro x
    rw [mem_moveChild,h.live]
  · intro x hx
    have hx := h.parented x hx
    rcases up_moveChild candidates overloaded r child with ups | ⟨best,_,_,ups⟩
    · rwa [ups]
    · rw [ups]
      by_cases hxc : x = child
      · simp [hxc]
      · rwa [Function.update_of_ne hxc]

theorem moveChildren_rebalanceInv (candidates : List PeerId) (overloaded : PeerId)
    (r : StreamTree PeerId × Bool) (cs : List PeerId) (hn : cs.Nodup) (h : RebalanceInv t r.1)
    (hcs : ∀ c ∈ cs, r.1.up c = some overloaded) :
    RebalanceInv t (cs.foldl (moveChild candidates overloaded) r).1 := by
  induction cs generalizing r with
  | nil => exact h
  | cons c cs ih =>
    obtain ⟨hc,hn⟩ := List.nodup_cons.mp hn
    apply ih _ hn (moveChild_rebalanceInv candidates overloaded r c h (hcs c (by simp)))
    intro x hx
    have hxc : x ≠ c := fun hxc => hc (hxc ▸ hx)
    rcases up_moveChild candidates overloaded r c with ups | ⟨best,_,_,ups⟩
    · rw [ups]
      exact hcs x (by simp [hx])
    · rw [ups,Function.update_of_ne hxc]
      exact hcs x (by simp [hx])

theorem relieve_rebalanceInv (H : TreeOrder PeerId) (candidates : List PeerId)
    (r : StreamTree PeerId × Bool) (overloaded : PeerId) (h : RebalanceInv t r.1) :
    RebalanceInv t (relieve H candidates r overloaded).1 := by
  rw [relieve]
  cases hl : r.1.nodes.lookup overloaded with
  | none => exact h
  | some n =>
    apply moveChildren_rebalanceInv
    · exact (H.nodup _ _).sublist (List.take_sublist _ _)
    · exact h
    · intro c hc
      rw [h.matched c overloaded,childrenOf_of_lookup _ hl]
      exact (H.mem_order _ _ c).mp (List.mem_of_mem_take hc)

theorem adoptEach_rebalanceInv (H : TreeOrder PeerId) (r : StreamTree PeerId × Bool)
    (os : List PeerId) (hn : os.Nodup) (h : RebalanceInv t r.1)
    (hos : ∀ o ∈ os, o ∈ r.1.nodes ∧ r.1.up o = none) :
    RebalanceInv t (os.foldl (adopt H) r).1 := by
  induction os generalizing r with
  | nil => exact h
  | cons o os ih =>
    obtain ⟨ho,hn⟩ := List.nodup_cons.mp hn
    obtain ⟨hm,hup⟩ := hos o (by simp)
    have adopted : RebalanceInv t (adopt H r o).1 := by
      refine ⟨?_,?_,?_⟩
      · intro x
        exact (mem_findParent H r.1 o x).trans (h.live x)
      · exact matchedBut_nil.mp (findParent_matchedBut H r.1 o o []
          (matchedBut_nil.mpr h.matched) hm hup)
      · intro x hx
        have hxo : x ≠ o := by
          intro hxo
          exact h.parented x hx (hxo ▸ hup)
        have same : (adopt H r o).1.up x = r.1.up x := up_findParent H r.1 o hxo
        rw [same]
        exact h.parented x hx
    apply ih (adopt H r o) hn adopted
    intro x hx
    have hxo : x ≠ o := fun hxo => ho (hxo ▸ hx)
    exact ⟨(mem_findParent H r.1 o x).mpr (hos x (by simp [hx])).1,
      (up_findParent H r.1 o hxo).trans (hos x (by simp [hx])).2⟩

theorem rebalance_rebalanced (H : TreeOrder PeerId) (h : LinksConsistent t) :
    Rebalanced t (rebalance H t).1 := by
  rw [linksConsistent_iff] at h
  have start : RebalanceInv t t.countRebalance := ⟨fun _ => Iff.rfl,h,fun _ hx => hx⟩
  have kept : RebalanceInv t (rebalance H t).1 := by
    rw [rebalance]
    dsimp only
    split_ifs
    · exact start
    · have moved := (along_true (relieve H (t.countRebalance.rebalanceCandidates H))
        (t.countRebalance,false) (t.countRebalance.overloadedNodes H)).invariant
        (fun r : StreamTree PeerId × Bool => RebalanceInv t r.1) start
        (fun r o hr _ => relieve_rebalanceInv H _ r o hr)
      exact adoptEach_rebalanceInv H _ _ (nodup_orphans H _) moved
        (fun o ho => mem_orphans H _ ho)
  refine ⟨?_,(linksConsistent_iff _).mpr kept.matched,?_⟩
  · ext x
    rw [Finmap.mem_keys,Finmap.mem_keys,kept.live]
  · intro x n hn hparent
    obtain ⟨n',hn'⟩ := Finmap.mem_iff.mp
      ((kept.live x).mpr (Finmap.mem_of_lookup_eq_some hn))
    refine ⟨n',hn',?_⟩
    have stays := kept.parented x (by rwa [up_of_lookup t hn])
    rwa [up_of_lookup _ hn'] at stays

/-- Taking a peer out and rebalancing, in every order of the hash tables. -/
theorem removal_rebalance_frame (H : TreeOrder PeerId) (t : StreamTree PeerId)
    (h : LinksConsistent t) :
    (∀ p node, t.nodes.lookup p = some node → t.source ≠ some p → node.parent ≠ some p →
      Removed t (removePeer H t p).1 p) ∧
    Rebalanced t (rebalance H t).1 :=
  ⟨fun _ _ hl hs hself => removePeer_removed H t h hl hs hself,rebalance_rebalanced H h⟩

/-- A relay and four viewers join a stream; there is no place left for the last one at the source. -/
def viewerJoins : List (TreeOrder Nat × TreeOp Nat) :=
  [.setSource 0,.addPeer 1 .relay 9,.addPeer 2 .consumer 0,.addPeer 3 .consumer 0,
    .addPeer 4 .consumer 0,.addPeer 5 .consumer 0].map (fun op => (.ascending,op))

theorem removal_rebalance_frame_viewerJoins :
    (run .default viewerJoins).childrenOf 1 = {5} ∧
    Removed (run .default viewerJoins) (removePeer .ascending (run .default viewerJoins) 1).1 1 ∧
    Rebalanced (run .default viewerJoins) (rebalance .ascending (run .default viewerJoins)).1 := by
  have ok : Along step ReconnectsUnlinked (new .default) viewerJoins :=
    ⟨trivial,trivial,trivial,trivial,trivial,trivial,trivial⟩
  have linked : Linked (run .default viewerJoins) :=
    ok.invariant Linked (new_linked .default) step_linked
  have live : 1 ∈ (run .default viewerJoins).nodes := by decide +kernel
  obtain ⟨node,hl⟩ := Finmap.mem_iff.mp live
  have frame := removal_rebalance_frame .ascending (run .default viewerJoins)
    ((linksConsistent_iff _).mpr linked.matched)
  refine ⟨by decide +kernel,frame.1 1 node hl (by decide +kernel) ?_,frame.2⟩
  rw [← up_of_lookup _ hl]
  exact linked.noSelf 1

/-- A relay that is its own parent and its own child, beside the source. -/
def selfParent : StreamTree Nat :=
  { nodes := ((∅ : HashMap Nat (TreeNode Nat)).insert 0 (.source 0)).insert 1
      { TreeNode.new 1 .relay with parent := some 1, children := {1} }
    source := some 0
    disconnectedNodes := ∅
    rebalanceCount := 0
    config := .default }

/-- The two records agree, but after the removal the source has a child that is not there. -/
theorem selfParent_leaves_child :
    LinksConsistent selfParent ∧ 1 ∈ selfParent.nodes ∧ selfParent.source ≠ some 1 ∧
    1 ∈ (removePeer .ascending selfParent 1).1.childrenOf 0 ∧
    ¬ LinksConsistent (removePeer .ascending selfParent 1).1 := by
  have ups : selfParent.up = fun x => if x = 1 then some 1 else none := by
    funext x
    rcases x with _ | _ | x <;> simp [up,parents,parentField,selfParent,TreeNode.source]
  have kids : selfParent.childrenOf = fun x => if x = 1 then {1} else ∅ := by
    funext x
    rcases x with _ | _ | x <;> simp [childrenOf,selfParent,TreeNode.source]
  have consistent : LinksConsistent selfParent := by
    rw [linksConsistent_iff,ups,kids]
    intro a b
    by_cases hb : b = 1
    · by_cases ha : a = 1 <;> simp [ha,hb]
    · simp [hb,Ne.symm hb]
  have child : 1 ∈ (removePeer .ascending selfParent 1).1.childrenOf 0 := by decide +kernel
  have absent : 1 ∉ (removePeer .ascending selfParent 1).1.nodes := by decide +kernel
  refine ⟨consistent,by decide +kernel,by decide +kernel,child,?_⟩
  intro h
  exact absent (mem_of_up _ (((linksConsistent_iff _).mp h 1 0).mpr child))

end OpenBroadcast.Overlay.StreamTree
