import OpenBroadcast.Framework.FloatOrder
import OpenBroadcast.Overlay.Tree

namespace OpenBroadcast.Overlay.StreamTree

variable {PeerId : Type} [DecidableEq PeerId]

theorem outranks_iff (a b : Nat × UInt64) :
    outranks a b ↔ a.1 < b.1 ∨ (a.1 = b.1 ∧ b.2 < a.2) := by
  simp [outranks]

theorem outranks_irrefl (a : Nat × UInt64) : ¬ outranks a a := by
  simp [outranks_iff]

theorem outranks_trans (a b c : Nat × UInt64) (hab : outranks a b) (hbc : outranks b c) :
    outranks a c := by
  rw [outranks_iff] at hab hbc ⊢
  rcases hab with hab | ⟨hab,h⟩ <;> rcases hbc with hbc | ⟨hbc,k⟩
  · exact Or.inl (hab.trans hbc)
  · exact Or.inl (hbc ▸ hab)
  · exact Or.inl (hab ▸ hbc)
  · exact Or.inr ⟨hab.trans hbc,UInt64.lt_trans k h⟩

/-- `q` may be picked as the parent of `p`: it is another node that accepts children, and
its rank beats the sentinel the search starts from. -/
structure Candidate (t : StreamTree PeerId) (p q : PeerId) (n : TreeNode PeerId) : Prop where
  found : t.nodes.lookup q = some n
  accepts : n.canAcceptChildren
  ne : q ≠ p
  ranked : outranks (rank (q,n)) (usizeMax,0)

theorem mem_parentCandidates (H : TreeOrder PeerId) (t : StreamTree PeerId) (p : PeerId)
    (e : PeerId × TreeNode PeerId) :
    e ∈ parentCandidates H t p ↔
      t.nodes.lookup e.1 = some e.2 ∧ e.2.canAcceptChildren ∧ e.1 ≠ p := by
  simp [parentCandidates]

/-- Everything a search for a parent can do. -/
theorem findParent_cases (H : TreeOrder PeerId) (t : StreamTree PeerId) (p : PeerId) :
    (findParentForPeer H t p = (t,false) ∧
      (t.source = none ∨ t.source ≠ some p ∧ ∀ q n, ¬ Candidate t p q n)) ∨
    (t.source = some p ∧ findParentForPeer H t p = (t,true)) ∨
    ∃ q n, t.source ≠ none ∧ t.source ≠ some p ∧ Candidate t p q n ∧
      (∀ q' n', Candidate t p q' n' → ¬ outranks (rank (q',n')) (rank (q,n))) ∧
      findParentForPeer H t p = (t.attach p q n.depth,true) := by
  unfold findParentForPeer
  cases hs : t.source with
  | none => exact Or.inl ⟨rfl,Or.inl rfl⟩
  | some s =>
    by_cases hp : p = s
    · subst hp
      exact Or.inr (Or.inl ⟨rfl,by simp⟩)
    · have hps : some s ≠ some p := fun h => hp (Option.some.inj h).symm
      simp only [hp,if_false]
      have some' := scan_some outranks rank outranks_trans (usizeMax,0) (parentCandidates H t p)
      have none' := scan_none outranks rank (usizeMax,0) (parentCandidates H t p)
      have max' := scan_max outranks rank outranks_irrefl outranks_trans
        (usizeMax,0) (parentCandidates H t p)
      cases hr : scan outranks rank (usizeMax,0) (parentCandidates H t p) with
      | mk best key =>
        rw [hr] at some' none' max'
        cases best with
        | none =>
          refine Or.inl ⟨rfl,Or.inr ⟨hps,?_⟩⟩
          intro q n hc
          exact none' rfl (q,n)
            ((mem_parentCandidates H t p _).mpr ⟨hc.found,hc.accepts,hc.ne⟩) hc.ranked
        | some e =>
          obtain ⟨hm,hk,hi⟩ := some' e rfl
          have he := (mem_parentCandidates H t p e).mp hm
          have hk : key = rank e := hk
          subst hk
          refine Or.inr (Or.inr ⟨e.1,e.2,by simp,hps,⟨he.1,he.2.1,he.2.2,hi⟩,?_,rfl⟩)
          intro q' n' hc
          exact max' (q',n') ((mem_parentCandidates H t p _).mpr ⟨hc.found,hc.accepts,hc.ne⟩)

/-- A candidate that no other outranks is the one picked under some iteration order. -/
theorem findParent_pick (t : StreamTree PeerId) (p q : PeerId) (n : TreeNode PeerId)
    (hs : t.source ≠ none) (hp : t.source ≠ some p) (hc : Candidate t p q n)
    (hmax : ∀ q' n', Candidate t p q' n' → ¬ outranks (rank (q',n')) (rank (q,n))) :
    ∃ H, findParentForPeer H t p = (t.attach p q n.depth,true) := by
  obtain ⟨H⟩ : Nonempty (TreeOrder PeerId) := inferInstance
  refine ⟨H.promote q,?_⟩
  obtain ⟨rest,hrest⟩ := H.promote_iter .nodes t.nodes q n hc.found
  have hlist : parentCandidates (H.promote q) t p =
      (q,n)::rest.filter (fun e => e.2.canAcceptChildren && e.1 ≠ p) := by
    simp [parentCandidates,hrest,hc.accepts,hc.ne]
  have hscan : scan outranks rank (usizeMax,0) (parentCandidates (H.promote q) t p) =
      (some (q,n),rank (q,n)) := by
    rw [hlist]
    apply scan_first outranks rank hc.ranked
    intro x hx hbeat
    have hx' : x ∈ parentCandidates (H.promote q) t p := by
      rw [hlist]
      exact List.mem_cons_of_mem _ hx
    have h := (mem_parentCandidates _ t p x).mp hx'
    exact hmax x.1 x.2 ⟨h.1,h.2.1,h.2.2,outranks_trans _ _ _ hbeat hc.ranked⟩ hbeat
  unfold findParentForPeer
  cases hsrc : t.source with
  | none => exact absurd hsrc hs
  | some s =>
    have hne : p ≠ s := fun h => hp (by rw [hsrc,h])
    simp only [hne,if_false,hscan]
    rfl

/-- A peer that is not in the tree, or its source, is not taken out. -/
theorem removePeer_of_absent (H : TreeOrder PeerId) {t : StreamTree PeerId} {p : PeerId}
    (hl : t.nodes.lookup p = none) : (removePeer H t p).1 = t := by
  simp [removePeer,hl]

theorem removePeer_of_source (H : TreeOrder PeerId) {t : StreamTree PeerId} {p : PeerId}
    {node : TreeNode PeerId} (hl : t.nodes.lookup p = some node) (hs : t.source = some p) :
    (removePeer H t p).1 = t := by
  simp [removePeer,hl,hs]

theorem removePeer_of_lookup (H : TreeOrder PeerId) {t : StreamTree PeerId} {p : PeerId}
    {node : TreeNode PeerId} (hl : t.nodes.lookup p = some node) (hs : t.source ≠ some p) :
    (removePeer H t p).1 =
      (H.order (.children p) node.children).foldl (reattach H) (t.detach p node.parent) := by
  simp [removePeer,hl,hs]

/-- Everything that taking a peer out can do. -/
theorem removePeer_cases (H : TreeOrder PeerId) (t : StreamTree PeerId) (p : PeerId) :
    (removePeer H t p).1 = t ∨
    ∃ node, t.nodes.lookup p = some node ∧ t.source ≠ some p ∧
      (removePeer H t p).1 =
        (H.order (.children p) node.children).foldl (reattach H) (t.detach p node.parent) := by
  cases hl : t.nodes.lookup p with
  | none => exact .inl (removePeer_of_absent H hl)
  | some node =>
    by_cases hs : t.source = some p
    · exact .inl (removePeer_of_source H hl hs)
    · exact .inr ⟨node,rfl,hs,removePeer_of_lookup H hl hs⟩

section Outcomes

omit [DecidableEq PeerId] in
@[simp] theorem parent_adjustFanOut (n : TreeNode PeerId) :
    n.adjustFanOut.parent = n.parent := by
  unfold TreeNode.adjustFanOut
  dsimp only
  split_ifs <;> rfl

omit [DecidableEq PeerId] in
@[simp] theorem children_adjustFanOut (n : TreeNode PeerId) :
    n.adjustFanOut.children = n.children := by
  unfold TreeNode.adjustFanOut
  dsimp only
  split_ifs <;> rfl

omit [DecidableEq PeerId] in
@[simp] theorem role_adjustFanOut (n : TreeNode PeerId) : n.adjustFanOut.role = n.role := by
  unfold TreeNode.adjustFanOut
  dsimp only
  split_ifs <;> rfl

omit [DecidableEq PeerId] in
@[simp] theorem depth_adjustFanOut (n : TreeNode PeerId) : n.adjustFanOut.depth = n.depth := by
  unfold TreeNode.adjustFanOut
  dsimp only
  split_ifs <;> rfl

omit [DecidableEq PeerId] in
theorem maxChildren_adjustFanOut (n : TreeNode PeerId) :
    n.adjustFanOut.maxChildren ≤ absoluteMaxChildren := by
  have hdefault : defaultMaxChildren ≤ absoluteMaxChildren := by decide
  unfold TreeNode.adjustFanOut
  split_ifs
  · simp [hdefault]
  · simp

omit [DecidableEq PeerId] in
@[simp] theorem parent_revived (n : TreeNode PeerId) : n.revived.parent = none := by
  simp [TreeNode.revived,TreeNode.recordSuccess]

omit [DecidableEq PeerId] in
@[simp] theorem children_revived (n : TreeNode PeerId) : n.revived.children = ∅ := by
  simp [TreeNode.revived,TreeNode.recordSuccess]

omit [DecidableEq PeerId] in
theorem maxChildren_revived (n : TreeNode PeerId) :
    n.revived.maxChildren ≤ absoluteMaxChildren :=
  maxChildren_adjustFanOut _

/-- New measurements of a node change neither its links nor its role nor its depth. -/
structure Remeasures (f : TreeNode PeerId → TreeNode PeerId) : Prop where
  parent : ∀ n, (f n).parent = n.parent
  children : ∀ n, (f n).children = n.children
  role : ∀ n, (f n).role = n.role
  depth : ∀ n, (f n).depth = n.depth
  limit : ∀ n, (f n).maxChildren ≤ absoluteMaxChildren

omit [DecidableEq PeerId] in
theorem updateMetrics_remeasures (bandwidth latency : UInt64) (successRate : Float32) :
    Remeasures (fun n : TreeNode PeerId => n.updateMetrics bandwidth latency successRate) := by
  refine ⟨?_,?_,?_,?_,fun n => maxChildren_adjustFanOut _⟩ <;> simp [TreeNode.updateMetrics]

omit [DecidableEq PeerId] in
theorem recordFailure_remeasures :
    Remeasures (TreeNode.recordFailure : TreeNode PeerId → TreeNode PeerId) := by
  refine ⟨?_,?_,?_,?_,fun n => maxChildren_adjustFanOut _⟩ <;> simp [TreeNode.recordFailure]

omit [DecidableEq PeerId] in
theorem recordSuccess_remeasures :
    Remeasures (TreeNode.recordSuccess : TreeNode PeerId → TreeNode PeerId) := by
  refine ⟨?_,?_,?_,?_,fun n => maxChildren_adjustFanOut _⟩ <;> simp [TreeNode.recordSuccess]

/-- What an operation can do to the tree. -/
inductive Outcome (H : TreeOrder PeerId) (t : StreamTree PeerId) :
    TreeOp PeerId → StreamTree PeerId → Prop where
  | unchanged {op} : Outcome H t op t
  | sourced {p} (hsource : t.source = none) :
    Outcome H t (.setSource p) { t.insertNode p (TreeNode.source p) with source := some p }
  | joined {p role bandwidth} (hp : p ∉ t.nodes) :
    Outcome H t (.addPeer p role bandwidth) (findParentForPeer H
      (t.insertNode p { TreeNode.new p role with bandwidth := bandwidth }) p).1
  | removed {p node} (hl : t.nodes.lookup p = some node) (hs : t.source ≠ some p) :
    Outcome H t (.removePeer p)
      ((H.order (.children p) node.children).foldl (reattach H) (t.detach p node.parent))
  | disconnected {p gracePeriod now later node} (hl : t.nodes.lookup p = some node)
      (hs : t.source ≠ some p) :
    Outcome H t (.temporaryDisconnect p gracePeriod now later)
      (((H.order (.children p) node.children).foldl (reattach H)
        ((t.saveNode p node now).detach p node.parent)).cleanupDisconnectedNodes H gracePeriod
          later)
  | reconnected {p node time} (hl : t.disconnectedNodes.lookup p = some (node,time)) :
    Outcome H t (.reconnection p)
      (findParentForPeer H ((t.forgetNode p).insertNode p node.revived) p).1
  | rebalanced : Outcome H t .rebalance (rebalance H t).1
  | remeasured {op p f} (hf : Remeasures f) : Outcome H t op (t.update p f)

theorem step_outcome (H : TreeOrder PeerId) (t : StreamTree PeerId) (op : TreeOp PeerId) :
    Outcome H t op (t.step (H,op)) := by
  cases op with
  | setSource p =>
    simp only [step,setSource]
    split_ifs with hsource
    · exact .unchanged
    · exact .sourced (by simpa using hsource)
  | addPeer p role bandwidth =>
    simp only [step,addPeer]
    split_ifs with hp
    · exact .unchanged
    · exact .joined hp
  | removePeer p =>
    simp only [step]
    obtain hsame | ⟨node,hl,hs,hmoved⟩ := removePeer_cases H t p
    · rw [hsame]
      exact .unchanged
    · rw [hmoved]
      exact .removed hl hs
  | temporaryDisconnect p gracePeriod now later =>
    simp only [step,handleTemporaryDisconnect]
    cases hl : t.nodes.lookup p with
    | none => exact .unchanged
    | some node =>
      by_cases hs : t.source = some p
      · simp only [hs,if_true]
        exact .unchanged
      · simp only [hs,if_false]
        exact .disconnected hl hs
  | reconnection p =>
    simp only [step,handleReconnection]
    cases hl : t.disconnectedNodes.lookup p with
    | none => exact .unchanged
    | some saved => exact .reconnected hl
  | rebalance => exact .rebalanced
  | updateMetrics p bandwidth latency successRate =>
    exact .remeasured (updateMetrics_remeasures bandwidth latency successRate)
  | recordFailure p => exact .remeasured recordFailure_remeasures
  | recordSuccess p => exact .remeasured recordSuccess_remeasures

end Outcomes

@[simp] theorem source_update (t : StreamTree PeerId) (p : PeerId)
    (f : TreeNode PeerId → TreeNode PeerId) : (t.update p f).source = t.source := rfl

@[simp] theorem source_attach (t : StreamTree PeerId) (p q : PeerId) (d : Nat) :
    (t.attach p q d).source = t.source := rfl

theorem parentField_update (t : StreamTree PeerId) (p : PeerId)
    (f : TreeNode PeerId → TreeNode PeerId) (hf : ∀ n, (f n).parent = n.parent) :
    (t.update p f).parentField = t.parentField := by
  funext x
  unfold parentField update
  rw [HashMap.lookup_modify]
  split_ifs with hx
  · subst hx
    cases t.nodes.lookup x <;> simp [hf]
  · rfl

@[simp] theorem parent_addChild (n : TreeNode PeerId) (p : PeerId) :
    (n.addChild p).1.parent = n.parent := by
  unfold TreeNode.addChild
  split_ifs <;> rfl

/-- The parent pointers of the nodes that are in the tree. -/
abbrev up (t : StreamTree PeerId) : PeerId → Option PeerId := parents t.parentField

theorem up_of_lookup (t : StreamTree PeerId) {p : PeerId} {n : TreeNode PeerId}
    (h : t.nodes.lookup p = some n) : t.up p = n.parent := by
  simp [parents,parentField,h]

theorem up_update (t : StreamTree PeerId) (p : PeerId) (f : TreeNode PeerId → TreeNode PeerId)
    (hf : ∀ n, (f n).parent = n.parent) : (t.update p f).up = t.up := by
  unfold up
  rw [parentField_update t p f hf]

theorem up_redirect (t : StreamTree PeerId) (p : PeerId) (r : Option PeerId)
    (f : TreeNode PeerId → TreeNode PeerId) (hf : ∀ n, (f n).parent = r) (hp : p ∈ t.nodes) :
    (t.update p f).up = Function.update t.up p r := by
  funext x
  obtain ⟨n,hn⟩ := Finmap.mem_iff.mp hp
  by_cases hx : x = p
  · subst hx
    simp [up,parents,parentField,update,hn,hf]
  · simp [up,parents,parentField,update,hx]

theorem up_update_absent (t : StreamTree PeerId) (p : PeerId)
    (f : TreeNode PeerId → TreeNode PeerId) (hp : p ∉ t.nodes) : (t.update p f).up = t.up := by
  have h := Finmap.lookup_eq_none.mpr hp
  simp [update,HashMap.modify,h]

theorem up_insert (t : StreamTree PeerId) (p : PeerId) (n : TreeNode PeerId)
    (hn : n.parent = none) : (t.insertNode p n).up = Function.update t.up p none := by
  funext x
  by_cases hx : x = p
  · subst hx
    simp [up,parents,parentField,insertNode,hn]
  · simp [up,parents,parentField,insertNode,hx]

theorem up_erase (t : StreamTree PeerId) (p : PeerId) :
    ({ t with nodes := t.nodes.erase p } : StreamTree PeerId).up =
      Function.update t.up p none := by
  funext x
  by_cases hx : x = p
  · subst hx
    simp [up,parents,parentField]
  · simp [up,parents,parentField,hx]

theorem up_clearParent (t : StreamTree PeerId) (c : PeerId) :
    (t.clearParent c).up = Function.update t.up c none := by
  by_cases hc : c ∈ t.nodes
  · exact up_redirect t c none _ (fun _ => rfl) hc
  · unfold clearParent
    rw [up_update_absent t c _ hc]
    funext x
    by_cases hx : x = c
    · subst hx
      simp [up,parents,parentField,Finmap.lookup_eq_none.mpr hc]
    · simp [hx]

theorem up_detach (t : StreamTree PeerId) (p : PeerId) (r : Option PeerId) :
    (t.detach p r).up = Function.update t.up p none := by
  unfold detach
  cases r with
  | none => exact up_erase t p
  | some q =>
    rw [up_erase]
    exact congrArg (fun f => Function.update f p none)
      (up_update t q (fun parent => (parent.removeChild p).1) (fun _ => rfl))

theorem mem_update (t : StreamTree PeerId) (p x : PeerId)
    (f : TreeNode PeerId → TreeNode PeerId) : x ∈ (t.update p f).nodes ↔ x ∈ t.nodes :=
  HashMap.mem_modify t.nodes p x f

theorem up_attach (t : StreamTree PeerId) (p q : PeerId) (d : Nat) (hp : p ∈ t.nodes) :
    (t.attach p q d).up = Function.update t.up p (some q) := by
  unfold attach
  rw [up_redirect _ p (some q) _ (fun _ => rfl) ((mem_update t q p _).mpr hp),
    up_update t q _ (fun n => parent_addChild n p)]

theorem up_attach_absent (t : StreamTree PeerId) (p q : PeerId) (d : Nat) (hp : p ∉ t.nodes) :
    (t.attach p q d).up = t.up := by
  unfold attach
  rw [up_update_absent _ p _ (fun h => hp ((mem_update t q p _).mp h)),
    up_update t q _ (fun n => parent_addChild n p)]

end OpenBroadcast.Overlay.StreamTree
