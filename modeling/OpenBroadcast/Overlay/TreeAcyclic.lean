import OpenBroadcast.Overlay.TreeAttach

namespace OpenBroadcast.Overlay.StreamTree

open Relation

variable {PeerId : Type} [DecidableEq PeerId]

/-- The chain of parents of `d` passes through `p`. -/
def Below (t : StreamTree PeerId) (d p : PeerId) : Prop := TransGen (Up t.up) d p

/-- A search for a parent of `p` is safe: every candidate below `p` is outranked by a
candidate that is not below `p`. -/
def AttachSafe (t : StreamTree PeerId) (p : PeerId) : Prop :=
  t.source ≠ none → t.source ≠ some p → p ∈ t.nodes →
    ∀ d nd, Candidate t p d nd → Below t d p →
      ∃ q nq, Candidate t p q nq ∧ ¬ Below t q p ∧ outranks (rank (q,nq)) (rank (d,nd))

/-- Moving `child` in step 3 of `rebalance` is safe: every candidate below the child that
could win has a lower score than a candidate that is not below it. -/
def MoveSafe (candidates : List PeerId) (t : StreamTree PeerId) (child : PeerId) : Prop :=
  ∀ childNode, t.nodes.lookup child = some childNode →
    ∀ d ∈ t.moveCandidates child candidates, Below t d.1 child →
      t.candidateScore childNode d > f32NegInfinity →
        ∃ q ∈ t.moveCandidates child candidates, ¬ Below t q.1 child ∧
          t.candidateScore childNode q > t.candidateScore childNode d

/-- The loop over the children that a removed node leaves behind is safe at every turn. -/
def ReattachSafe (H : TreeOrder PeerId) (t : StreamTree PeerId) (cs : List PeerId) : Prop :=
  Along (reattach H) (fun t c => AttachSafe (t.clearParent c) c) t cs

def RelieveSafe (H : TreeOrder PeerId) (candidates : List PeerId)
    (r : StreamTree PeerId × Bool) (overloaded : PeerId) : Prop :=
  ∀ n, r.1.nodes.lookup overloaded = some n →
    Along (moveChild candidates overloaded) (fun r c => MoveSafe candidates r.1 c) r
      (childrenToMove H overloaded n)

/-- Both loops of `rebalance` are safe at every turn. -/
def RebalanceSafe (H : TreeOrder PeerId) (t : StreamTree PeerId) : Prop :=
  let candidates := t.rebalanceCandidates H
  let overloaded := t.overloadedNodes H
  candidates ≠ [] → overloaded ≠ [] →
    Along (relieve H candidates) (RelieveSafe H candidates) (t,false) overloaded ∧
    let r := overloaded.foldl (relieve H candidates) (t,false)
    Along (adopt H) (fun r o => AttachSafe r.1 o) r (r.1.orphans H)

/-- Every re-attachment that the operation makes is safe in the tree as it then is. -/
def StepSafe (t : StreamTree PeerId) (e : TreeOrder PeerId × TreeOp PeerId) : Prop :=
  match e.2 with
  | .addPeer p role bandwidth => p ∉ t.nodes →
    AttachSafe (t.insertNode p { TreeNode.new p role with bandwidth := bandwidth }) p
  | .removePeer p => ∀ node, t.nodes.lookup p = some node → t.source ≠ some p →
    ReattachSafe e.1 (t.detach p node.parent) (e.1.order (.children p) node.children)
  | .temporaryDisconnect p _ now _ => ∀ node, t.nodes.lookup p = some node →
    t.source ≠ some p →
      ReattachSafe e.1 ((t.saveNode p node now).detach p node.parent)
        (e.1.order (.children p) node.children)
  | .reconnection p => ∀ node time, t.disconnectedNodes.lookup p = some (node,time) →
    AttachSafe ((t.forgetNode p).insertNode p node.revived) p
  | .rebalance => RebalanceSafe e.1 t.countRebalance
  | _ => True

theorem findParent_acyclic (H : TreeOrder PeerId) (t : StreamTree PeerId) (p : PeerId)
    (h : Acyclic t.up) (safe : AttachSafe t p) : Acyclic (findParentForPeer H t p).1.up := by
  rcases findParent_cases H t p with ⟨hr,_⟩ | ⟨_,hr⟩ | ⟨q,n,hs,hp,hc,hmax,hr⟩
  · rw [hr]; exact h
  · rw [hr]; exact h
  · rw [hr]
    by_cases hm : p ∈ t.nodes
    · rw [up_attach t p q n.depth hm]
      apply h.redirect
      intro hq
      rcases reflTransGen_iff_eq_or_transGen.mp hq with heq | hbelow
      · exact hc.ne heq.symm
      · obtain ⟨q',n',hc',_,hbeat⟩ := safe hs hp hm q n hc hbelow
        exact hmax q' n' hc' hbeat
    · rw [up_attach_absent t p q n.depth hm]
      exact h

theorem reattach_acyclic (H : TreeOrder PeerId) (t : StreamTree PeerId) (cs : List PeerId)
    (h : Acyclic t.up) (safe : ReattachSafe H t cs) :
    Acyclic (cs.foldl (reattach H) t).up := by
  apply Along.invariant (fun t : StreamTree PeerId => Acyclic t.up) safe h
  intro t c hac hok
  apply findParent_acyclic H _ c _ hok
  rw [up_clearParent]
  exact hac.clear c

theorem mem_moveCandidates (t : StreamTree PeerId) (child : PeerId) (candidates : List PeerId)
    (e : PeerId × TreeNode PeerId) :
    e ∈ t.moveCandidates child candidates ↔
      e.1 ∈ candidates ∧ e.1 ≠ child ∧ t.nodes.lookup e.1 = some e.2 ∧
        e.2.canAcceptChildren := by
  obtain ⟨c,n⟩ := e
  simp only [moveCandidates,List.mem_filterMap]
  constructor
  · intro hyp
    obtain ⟨x,hx,h⟩ := hyp
    split_ifs at h with hxc
    cases hl : t.nodes.lookup x with
    | none => simp [hl] at h
    | some m =>
      simp only [hl] at h
      split_ifs at h with ha
      cases h
      exact ⟨hx,hxc,hl,ha⟩
  · intro hyp
    obtain ⟨hx,hne,hl,ha⟩ := hyp
    exact ⟨c,hx,by simp only [hne,if_false,hl]; rw [if_pos ha]⟩

private theorem score_gt_trans (a b c : Float32) (hab : decide (a > b) = true)
    (hbc : decide (b > c) = true) : decide (a > c) = true := by
  rw [decide_eq_true_eq] at hab hbc ⊢
  exact f32_lt_trans hbc hab

/-- The writes of `moveChild`, with the depth of the new parent. -/
def transfer (t : StreamTree PeerId) (overloaded best child : PeerId) (depth : Nat) :
    StreamTree PeerId :=
  ((t.update overloaded (fun n => (n.removeChild child).1)).update best
    (fun n => (n.addChild child).1)).update child
      (fun n => { n with parent := some best, depth := depth+1 })

theorem up_transfer (t : StreamTree PeerId) (overloaded best child : PeerId) (depth : Nat)
    (hc : child ∈ t.nodes) :
    (t.transfer overloaded best child depth).up = Function.update t.up child (some best) := by
  unfold transfer
  rw [up_redirect _ child (some best) _ (fun _ => rfl) (by rwa [mem_update,mem_update]),
    up_update _ best _ (fun n => parent_addChild n child),
    up_update t overloaded (fun n => (n.removeChild child).1) (fun _ => rfl)]

/-- Everything that trying to move one child can do. -/
theorem moveChild_cases (candidates : List PeerId) (overloaded : PeerId)
    (r : StreamTree PeerId × Bool) (child : PeerId) :
    moveChild candidates overloaded r child = r ∨
    ∃ childNode best depth, r.1.nodes.lookup child = some childNode ∧
      best ∈ r.1.moveCandidates child candidates ∧
      r.1.candidateScore childNode best > f32NegInfinity ∧
      (∀ q ∈ r.1.moveCandidates child candidates,
        ¬ r.1.candidateScore childNode q > r.1.candidateScore childNode best) ∧
      moveChild candidates overloaded r child =
        (r.1.transfer overloaded best.1 child depth,true) := by
  unfold moveChild
  cases hl : r.1.nodes.lookup child with
  | none => exact Or.inl rfl
  | some childNode =>
    dsimp only
    have some' := scan_some (fun a b => decide (a > b)) (r.1.candidateScore childNode)
      score_gt_trans f32NegInfinity (r.1.moveCandidates child candidates)
    have max' := scan_max (fun a b => decide (a > b)) (r.1.candidateScore childNode)
      (fun a => by simpa using f32_lt_irrefl a) score_gt_trans
      f32NegInfinity (r.1.moveCandidates child candidates)
    cases hr : scan (fun a b => decide (a > b)) (r.1.candidateScore childNode) f32NegInfinity
        (r.1.moveCandidates child candidates) with
    | mk best key =>
      rw [hr] at some' max'
      cases best with
      | none => exact Or.inl rfl
      | some e =>
        obtain ⟨hm,hk,hi⟩ := some' e rfl
        have hk : key = r.1.candidateScore childNode e := hk
        refine Or.inr ⟨childNode,e,_,rfl,hm,by simpa using hi,?_,rfl⟩
        intro q hq
        have h := max' q hq
        rw [decide_eq_true_eq] at h
        rw [← hk]
        exact h

theorem moveChild_acyclic (candidates : List PeerId) (overloaded : PeerId)
    (r : StreamTree PeerId × Bool) (child : PeerId) (h : Acyclic r.1.up)
    (safe : MoveSafe candidates r.1 child) :
    Acyclic (moveChild candidates overloaded r child).1.up := by
  rcases moveChild_cases candidates overloaded r child with hr |
    ⟨childNode,best,depth,hl,hm,hi,hmax,hr⟩
  · rw [hr]; exact h
  · rw [hr]
    dsimp only
    rw [up_transfer r.1 overloaded best.1 child depth (Finmap.mem_of_lookup_eq_some hl)]
    apply h.redirect
    intro hq
    rcases reflTransGen_iff_eq_or_transGen.mp hq with heq | hbelow
    · exact ((mem_moveCandidates r.1 child candidates best).mp hm).2.1 heq.symm
    · obtain ⟨q,hqm,_,hgt⟩ := safe childNode hl best hm hbelow hi
      exact hmax q hqm hgt

theorem rebalance_acyclic (H : TreeOrder PeerId) (t : StreamTree PeerId) (h : Acyclic t.up)
    (safe : RebalanceSafe H t.countRebalance) : Acyclic (rebalance H t).1.up := by
  unfold rebalance
  dsimp only
  have start : Acyclic t.countRebalance.up := h
  split_ifs with hempty
  · exact start
  · simp only [Bool.or_eq_true,List.isEmpty_iff,not_or] at hempty
    obtain ⟨moves,adoptions⟩ := safe hempty.1 hempty.2
    have moved := moves.invariant (fun r : StreamTree PeerId × Bool => Acyclic r.1.up)
      start (by
        intro r o hac hok
        unfold relieve
        cases hl : r.1.nodes.lookup o with
        | none => exact hac
        | some n =>
          exact (hok n hl).invariant
            (fun r : StreamTree PeerId × Bool => Acyclic r.1.up) hac
            (fun r c hac hok => moveChild_acyclic _ o r c hac hok))
    exact adoptions.invariant (fun r : StreamTree PeerId × Bool => Acyclic r.1.up) moved
      (fun r o hac hok => findParent_acyclic H r.1 o hac hok)

theorem step_acyclic (t : StreamTree PeerId) (e : TreeOrder PeerId × TreeOp PeerId)
    (h : Acyclic t.up) (safe : StepSafe t e) : Acyclic (t.step e).up := by
  obtain ⟨H,op⟩ := e
  have outcome := step_outcome H t op
  generalize t.step (H,op) = t' at outcome ⊢
  cases outcome with
  | unchanged => exact h
  | @sourced p _ =>
    change Acyclic (t.insertNode p (TreeNode.source p)).up
    rw [up_insert t p _ rfl]
    exact h.clear p
  | @joined p _ _ hp =>
    apply findParent_acyclic H _ p _ (safe hp)
    rw [up_insert t p _ rfl]
    exact h.clear p
  | @removed p node hl hs =>
    apply reattach_acyclic H _ _ _ (safe node hl hs)
    rw [up_detach]
    exact h.clear p
  | @disconnected p _ now _ node hl hs =>
    have detached : Acyclic ((t.saveNode p node now).detach p node.parent).up := by
      rw [up_detach]
      exact h.clear p
    exact reattach_acyclic H _ _ detached (safe node hl hs)
  | @reconnected p node time hl =>
    apply findParent_acyclic H _ p _ (safe node time hl)
    rw [up_insert (t.forgetNode p) p _ (parent_revived node)]
    exact h.clear p
  | rebalanced => exact rebalance_acyclic H t h safe
  | remeasured hf =>
    rw [up_update t _ _ hf.parent]
    exact h

/-- In an acyclic tree the path loop ends for every peer, with a duplicate-free path. -/
theorem getPathToPeer_terminates (t : StreamTree PeerId) (h : Acyclic t.up) (p : PeerId) :
    ∃ fuel path, t.getPathToPeer fuel p = some path ∧ ∀ l, path = some l → l.Nodup := by
  by_cases hp : p ∈ t.nodes
  · have keys : ∀ a, (t.parentField a).isSome → a ∈ t.nodes.keys := by
      intro a ha
      rw [Finmap.mem_keys,← Finmap.lookup_isSome]
      simpa [parentField] using ha
    obtain ⟨res,hr,hn⟩ := climb_terminates t.nodes.keys keys h p
    refine ⟨_,_,by rw [getPathToPeer,if_pos hp,hr,Option.map_some],?_⟩
    intro l hl
    split_ifs at hl
    cases hl
    exact List.nodup_reverse.mpr hn
  · exact ⟨0,none,by rw [getPathToPeer,if_neg hp],by simp⟩

/-- In a run whose re-attachments are all safe, no state has a cycle of parent pointers
and every path can be computed. -/
theorem run_acyclic (config : TopologyConfig) (es : List (TreeOrder PeerId × TreeOp PeerId))
    (safe : Along step StepSafe (new config) es) :
    Acyclic (run config es).up ∧
    ∀ p, ∃ fuel path, (run config es).getPathToPeer fuel p = some path ∧
      ∀ l, path = some l → l.Nodup := by
  have start : Acyclic (new config : StreamTree PeerId).up := by
    intro a ha
    obtain ⟨b,hab,_⟩ := TransGen.head'_iff.mp ha
    simp [Up,up,parents,parentField,new] at hab
  have acyclic : Acyclic (run config es).up :=
    safe.invariant (fun t : StreamTree PeerId => Acyclic t.up) start step_acyclic
  exact ⟨acyclic,getPathToPeer_terminates _ acyclic⟩

/-- A peer that is nobody's parent can be attached anywhere. -/
theorem attachSafe_of_leaf (t : StreamTree PeerId) (p : PeerId)
    (h : ∀ d ∈ t.nodes.keys, t.parentField d ≠ some (some p)) : AttachSafe t p := by
  intro _ _ _ d nd _ hbelow
  obtain ⟨c,_,hc⟩ := TransGen.tail'_iff.mp hbelow
  have hc := up_parents.mp hc
  refine absurd hc (h c ?_)
  rw [Finmap.mem_keys,← Finmap.lookup_isSome]
  cases hl : t.nodes.lookup c with
  | none => simp [parentField,hl] at hc
  | some n => rfl

/-- A full source, a viewer below one of its four relays, and that relay leaves. -/
def relayLeaves : List (TreeOrder Nat × TreeOp Nat) :=
  [.setSource 0,.addPeer 1 .relay 9,.addPeer 2 .relay 0,.addPeer 3 .relay 0,
    .addPeer 4 .relay 0,.addPeer 5 .consumer 0,.removePeer 1].map (fun op => (.ascending,op))

set_option maxRecDepth 20000 in
theorem run_acyclic_relayLeaves :
    (run .default relayLeaves).parentField 5 = some (some 0) ∧
    Acyclic (run .default relayLeaves).up ∧
    ∀ p, ∃ fuel path, (run .default relayLeaves).getPathToPeer fuel p = some path ∧
      ∀ l, path = some l → l.Nodup := by
  refine ⟨by decide +kernel,run_acyclic .default relayLeaves ?_⟩
  refine ⟨trivial,?_,?_,?_,?_,?_,?_,trivial⟩
  · exact fun _ => attachSafe_of_leaf _ _ (by decide +kernel)
  · exact fun _ => attachSafe_of_leaf _ _ (by decide +kernel)
  · exact fun _ => attachSafe_of_leaf _ _ (by decide +kernel)
  · exact fun _ => attachSafe_of_leaf _ _ (by decide +kernel)
  · exact fun _ => attachSafe_of_leaf _ _ (by decide +kernel)
  · intro node hnode _
    have fields := congrArg (Option.map (fun n : TreeNode Nat => (n.parent,n.children))) hnode
    have hnode : (node.parent,node.children) = (some 0,{5}) :=
      Option.some.inj (fields.symm.trans (by decide +kernel))
    rw [(Prod.mk.inj hnode).1,(Prod.mk.inj hnode).2]
    exact ⟨attachSafe_of_leaf _ _ (by decide +kernel),trivial⟩

/-- The relay 1 is removed while 5, 6 and 7 hang below it and 8 below 7: 5 takes the last
place at the source, 6 goes below 7, and the only candidate left for 7 is 8. -/
def relayCycle : List (TreeOrder Nat × TreeOp Nat) :=
  [.setSource 0,.addPeer 1 .relay 0,.addPeer 2 .consumer 0,.addPeer 3 .consumer 0,
    .addPeer 4 .consumer 0,.addPeer 5 .consumer 0,.addPeer 6 .consumer 0,.addPeer 7 .relay 0,
    .addPeer 8 .relay 0,.removePeer 1].map (fun op => (.ascending,op))

set_option maxRecDepth 20000 in
theorem removePeer_closes_cycle :
    ¬ Acyclic (run .default relayCycle).up ∧
    7 ∈ (run .default relayCycle).nodes ∧
    ∀ fuel, (run .default relayCycle).getPathToPeer fuel 7 = none := by
  have h78 : Up (run .default relayCycle).up 7 8 := up_parents.mpr (by decide +kernel)
  have h87 : Up (run .default relayCycle).up 8 7 := up_parents.mpr (by decide +kernel)
  have cycle : TransGen (Up (run .default relayCycle).up) 7 7 := .tail (.single h78) h87
  have hm : 7 ∈ (run .default relayCycle).nodes := by decide +kernel
  refine ⟨fun h => h 7 cycle,hm,?_⟩
  intro fuel
  rw [getPathToPeer,if_pos hm,climb_diverges cycle,Option.map_none]

end OpenBroadcast.Overlay.StreamTree
