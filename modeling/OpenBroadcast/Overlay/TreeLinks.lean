import OpenBroadcast.Framework.DoubleLink
import OpenBroadcast.Overlay.TreeAcyclic

namespace OpenBroadcast.Overlay.StreamTree

variable {PeerId : Type} [DecidableEq PeerId]

/-- The children set that the tree stores for `p`. -/
def childrenOf (t : StreamTree PeerId) (p : PeerId) : Finset PeerId :=
  match t.nodes.lookup p with
  | some n => n.children
  | none => ∅

theorem childrenOf_of_lookup (t : StreamTree PeerId) {p : PeerId} {n : TreeNode PeerId}
    (h : t.nodes.lookup p = some n) : t.childrenOf p = n.children := by
  simp [childrenOf,h]

theorem childrenOf_absent (t : StreamTree PeerId) {p : PeerId} (h : p ∉ t.nodes) :
    t.childrenOf p = ∅ := by
  simp [childrenOf,Finmap.lookup_eq_none.mpr h]

theorem childrenOf_update (t : StreamTree PeerId) (p : PeerId)
    (f : TreeNode PeerId → TreeNode PeerId) (hf : ∀ n, (f n).children = n.children) :
    (t.update p f).childrenOf = t.childrenOf := by
  funext x
  by_cases hx : x = p
  · subst hx
    cases hl : t.nodes.lookup x <;> simp [childrenOf,update,hl,hf]
  · simp [childrenOf,update,hx]

theorem childrenOf_addChild (t : StreamTree PeerId) (p q : PeerId) (n : TreeNode PeerId)
    (hq : t.nodes.lookup q = some n) (hn : n.canAcceptChildren) :
    (t.update q (fun parent => (parent.addChild p).1)).childrenOf =
      Function.update t.childrenOf q (insert p (t.childrenOf q)) := by
  funext x
  by_cases hx : x = q
  · subst hx
    simp [childrenOf,update,hq,TreeNode.addChild,hn]
  · simp [childrenOf,update,hx]

theorem childrenOf_removeChild (t : StreamTree PeerId) (p q : PeerId) :
    (t.update q (fun parent => (parent.removeChild p).1)).childrenOf =
      Function.update t.childrenOf q ((t.childrenOf q).erase p) := by
  funext x
  by_cases hx : x = q
  · subst hx
    cases hl : t.nodes.lookup x <;> simp [childrenOf,update,hl,TreeNode.removeChild]
  · simp [childrenOf,update,hx]

theorem childrenOf_insertNode (t : StreamTree PeerId) (p : PeerId) (n : TreeNode PeerId) :
    (t.insertNode p n).childrenOf = Function.update t.childrenOf p n.children := by
  funext x
  by_cases hx : x = p
  · subst hx; simp [childrenOf,insertNode]
  · simp [childrenOf,insertNode,hx]

theorem childrenOf_erase (t : StreamTree PeerId) (p : PeerId) :
    ({ t with nodes := t.nodes.erase p } : StreamTree PeerId).childrenOf =
      Function.update t.childrenOf p ∅ := by
  funext x
  by_cases hx : x = p
  · subst hx; simp [childrenOf]
  · simp [childrenOf,hx]

theorem childrenOf_attach (t : StreamTree PeerId) (p q : PeerId) (n : TreeNode PeerId) (d : Nat)
    (hq : t.nodes.lookup q = some n) (hn : n.canAcceptChildren) :
    (t.attach p q d).childrenOf =
      Function.update t.childrenOf q (insert p (t.childrenOf q)) := by
  unfold attach
  rw [childrenOf_update,childrenOf_addChild t p q n hq hn]
  exact fun _ => rfl

theorem childrenOf_detach (t : StreamTree PeerId) (p : PeerId) (r : Option PeerId) :
    (t.detach p r).childrenOf =
      Function.update (match r with
        | some q => Function.update t.childrenOf q ((t.childrenOf q).erase p)
        | none => t.childrenOf) p ∅ := by
  unfold detach
  cases r with
  | none => exact childrenOf_erase t p
  | some q =>
    rw [childrenOf_erase]
    exact congrArg (fun f => Function.update f p ∅) (childrenOf_removeChild t p q)

theorem mem_of_up (t : StreamTree PeerId) {p q : PeerId} (h : t.up p = some q) :
    p ∈ t.nodes := by
  by_contra hp
  simp [up,parents,parentField,Finmap.lookup_eq_none.mpr hp] at h

/-- The tree is linked but for the children `cs` of a node `gone` that has been taken out:
both records of the links agree, no node is its own parent, and there are no links
before there is a source. -/
structure LinkedBut (t : StreamTree PeerId) (gone : PeerId) (cs : List PeerId) : Prop where
  matched : MatchedBut t.up t.childrenOf gone cs
  noSelf : ∀ n, t.up n ≠ some n
  rooted : ∀ n p, t.up n = some p → t.source ≠ none

structure Linked (t : StreamTree PeerId) : Prop where
  matched : Matched t.up t.childrenOf
  noSelf : ∀ n, t.up n ≠ some n
  rooted : ∀ n p, t.up n = some p → t.source ≠ none

theorem linkedBut_nil (t : StreamTree PeerId) (gone : PeerId) :
    LinkedBut t gone [] ↔ Linked t :=
  ⟨fun h => ⟨matchedBut_nil.mp h.matched,h.noSelf,h.rooted⟩,
    fun h => ⟨matchedBut_nil.mpr h.matched,h.noSelf,h.rooted⟩⟩

/-- A node that is linked with nobody. -/
def Unlinked (t : StreamTree PeerId) (p : PeerId) : Prop :=
  t.up p = none ∧ t.childrenOf p = ∅

/-- A search gives at most the peer it is made for another parent. -/
theorem up_findParent (H : TreeOrder PeerId) (t : StreamTree PeerId) (p : PeerId) {x : PeerId}
    (hx : x ≠ p) : (findParentForPeer H t p).1.up x = t.up x := by
  rcases findParent_cases H t p with ⟨hr,_⟩ | ⟨_,hr⟩ | ⟨q,n,_,_,_,_,hr⟩
  · rw [hr]
  · rw [hr]
  · rw [hr]
    by_cases hp : p ∈ t.nodes
    · rw [up_attach t p q n.depth hp,Function.update_of_ne hx]
    · rw [up_attach_absent t p q n.depth hp]

theorem source_findParent (H : TreeOrder PeerId) (t : StreamTree PeerId) (p : PeerId) :
    (findParentForPeer H t p).1.source = t.source := by
  rcases findParent_cases H t p with ⟨hr,_⟩ | ⟨_,hr⟩ | ⟨q,n,_,_,_,_,hr⟩
  · rw [hr]
  · rw [hr]
  · rw [hr,source_attach]

theorem findParent_matchedBut (H : TreeOrder PeerId) (t : StreamTree PeerId) (p gone : PeerId)
    (cs : List PeerId) (h : MatchedBut t.up t.childrenOf gone cs) (hp : p ∈ t.nodes)
    (hup : t.up p = none) :
    MatchedBut (findParentForPeer H t p).1.up (findParentForPeer H t p).1.childrenOf gone cs := by
  rcases findParent_cases H t p with ⟨hr,_⟩ | ⟨_,hr⟩ | ⟨q,n,_,_,hc,_,hr⟩
  · rw [hr]; exact h
  · rw [hr]; exact h
  · rw [hr]
    have ups : (t.attach p q n.depth).up = _ := up_attach t p q n.depth hp
    rw [ups,childrenOf_attach t p q n n.depth hc.found hc.accepts]
    exact h.link hup

theorem findParent_linkedBut (H : TreeOrder PeerId) (t : StreamTree PeerId) (p gone : PeerId)
    (cs : List PeerId) (h : LinkedBut t gone cs) (hp : p ∈ t.nodes) (hup : t.up p = none) :
    LinkedBut (findParentForPeer H t p).1 gone cs := by
  refine ⟨findParent_matchedBut H t p gone cs h.matched hp hup,?_,?_⟩
  · intro x
    by_cases hx : x = p
    · subst hx
      rcases findParent_cases H t x with ⟨hr,_⟩ | ⟨_,hr⟩ | ⟨q,n,_,_,hc,_,hr⟩
      · rw [hr]; exact h.noSelf x
      · rw [hr]; exact h.noSelf x
      · rw [hr,up_attach t x q n.depth hp]
        simpa using hc.ne
    · rw [up_findParent H t p hx]
      exact h.noSelf x
  · rcases findParent_cases H t p with ⟨hr,_⟩ | ⟨_,hr⟩ | ⟨q,n,hs,_,_,_,hr⟩
    · rw [hr]; exact h.rooted
    · rw [hr]; exact h.rooted
    · rw [hr]
      intro _ _ _
      simpa using hs

theorem findParent_linked (H : TreeOrder PeerId) (t : StreamTree PeerId) (p : PeerId)
    (h : Linked t) (hp : p ∈ t.nodes) (hup : t.up p = none) :
    Linked (findParentForPeer H t p).1 :=
  (linkedBut_nil _ p).mp (findParent_linkedBut H t p p [] ((linkedBut_nil t p).mpr h) hp hup)

theorem mem_findParent (H : TreeOrder PeerId) (t : StreamTree PeerId) (p x : PeerId) :
    x ∈ (findParentForPeer H t p).1.nodes ↔ x ∈ t.nodes := by
  rcases findParent_cases H t p with ⟨hr,_⟩ | ⟨_,hr⟩ | ⟨q,n,_,_,_,_,hr⟩
  · rw [hr]
  · rw [hr]
  · rw [hr]
    unfold attach
    rw [mem_update,mem_update]

theorem clearParent_matchedBut (t : StreamTree PeerId) (gone c : PeerId) (cs : List PeerId)
    (hc : c ∉ cs) (hg : gone ∉ t.nodes) (h : MatchedBut t.up t.childrenOf gone (c::cs)) :
    MatchedBut (t.clearParent c).up (t.clearParent c).childrenOf gone cs := by
  have kids : (t.clearParent c).childrenOf = t.childrenOf :=
    childrenOf_update t c _ (fun _ => rfl)
  rw [up_clearParent,kids]
  exact h.clear hc (childrenOf_absent t hg)

theorem reattach_linked (H : TreeOrder PeerId) (t : StreamTree PeerId) (gone : PeerId)
    (cs : List PeerId) (hn : cs.Nodup) (hg : gone ∉ t.nodes) (h : LinkedBut t gone cs) :
    Linked (cs.foldl (reattach H) t) := by
  induction cs generalizing t with
  | nil => exact (linkedBut_nil t gone).mp h
  | cons c cs ih =>
    obtain ⟨hc,hn⟩ := List.nodup_cons.mp hn
    have hup : t.up c = some gone := (h.matched c gone).mpr (Or.inr ⟨rfl,by simp⟩)
    have hm : c ∈ (t.clearParent c).nodes := (mem_update t c c _).mpr (mem_of_up t hup)
    have ups := up_clearParent t c
    have cleared : LinkedBut (t.clearParent c) gone cs := by
      constructor
      · exact clearParent_matchedBut t gone c cs hc hg h.matched
      · intro x
        rw [ups]
        by_cases hx : x = c
        · subst hx; simp
        · rw [Function.update_of_ne hx]
          exact h.noSelf x
      · intro x p hxp
        rw [ups] at hxp
        by_cases hx : x = c
        · subst hx; simp at hxp
        · rw [Function.update_of_ne hx] at hxp
          exact h.rooted x p hxp
    apply ih _ hn
    · rw [reattach,mem_findParent]
      exact fun hm => hg ((mem_update t c gone _).mp hm)
    · exact findParent_linkedBut H _ c gone cs cleared hm (by rw [ups]; simp)

theorem detach_linked (t : StreamTree PeerId) (p : PeerId) (node : TreeNode PeerId)
    (cs : List PeerId) (h : Linked t) (hl : t.nodes.lookup p = some node)
    (hcs : ∀ c, c ∈ cs ↔ c ∈ node.children) : LinkedBut (t.detach p node.parent) p cs := by
  have ups := up_detach t p node.parent
  constructor
  · rw [ups,childrenOf_detach,← up_of_lookup t hl]
    apply h.matched.detach (h.noSelf p) cs
    intro c
    rw [hcs,childrenOf_of_lookup t hl]
  · intro x
    rw [ups]
    by_cases hx : x = p
    · subst hx; simp
    · rw [Function.update_of_ne hx]
      exact h.noSelf x
  · intro x q hxq
    rw [ups] at hxq
    have hs : (t.detach p node.parent).source = t.source := by
      unfold detach
      cases node.parent <;> rfl
    rw [hs]
    by_cases hx : x = p
    · subst hx; simp at hxq
    · rw [Function.update_of_ne hx] at hxq
      exact h.rooted x q hxq

/-- Taking a node out and finding new parents for its children. -/
theorem removal_linked (H : TreeOrder PeerId) (t : StreamTree PeerId) (p : PeerId)
    (node : TreeNode PeerId) (h : Linked t) (hl : t.nodes.lookup p = some node) :
    Linked ((H.order (.children p) node.children).foldl (reattach H)
      (t.detach p node.parent)) := by
  apply reattach_linked H _ p _ (H.nodup _ _)
  · unfold detach
    exact Finmap.notMem_erase_self
  · exact detach_linked t p node _ h hl (H.mem_order _ _)

/-- Writing a fresh node over a peer that is linked with nobody. -/
theorem insert_linked (t : StreamTree PeerId) (p : PeerId) (n : TreeNode PeerId) (h : Linked t)
    (hp : Unlinked t p) (hn : n.parent = none) (hk : n.children = ∅) :
    Linked (t.insertNode p n) := by
  have ups : (t.insertNode p n).up = t.up := by
    rw [up_insert t p n hn,← hp.1,Function.update_eq_self]
  have kids : (t.insertNode p n).childrenOf = t.childrenOf := by
    rw [childrenOf_insertNode,hk,← hp.2,Function.update_eq_self]
  exact ⟨by rw [ups,kids]; exact h.matched,by rw [ups]; exact h.noSelf,
    by rw [ups]; exact h.rooted⟩

theorem unlinked_absent (t : StreamTree PeerId) (p : PeerId) (hp : p ∉ t.nodes) :
    Unlinked t p := by
  refine ⟨?_,childrenOf_absent t hp⟩
  cases hu : t.up p with
  | none => rfl
  | some q => exact absurd (mem_of_up t hu) hp

theorem unlinked_unrooted (t : StreamTree PeerId) (p : PeerId) (h : Linked t)
    (hs : t.source = none) : Unlinked t p := by
  constructor
  · cases hu : t.up p with
    | none => rfl
    | some q => exact absurd hs (h.rooted p q hu)
  · rw [Finset.eq_empty_iff_forall_notMem]
    intro c hc
    exact h.rooted c p ((h.matched c p).mpr hc) hs

/-- A peer inserted without links and then attached. -/
theorem insert_findParent_linked (H : TreeOrder PeerId) (t : StreamTree PeerId) (p : PeerId)
    (n : TreeNode PeerId) (h : Linked t) (hp : Unlinked t p) (hn : n.parent = none)
    (hk : n.children = ∅) : Linked (findParentForPeer H (t.insertNode p n) p).1 := by
  apply findParent_linked H _ p (insert_linked t p n h hp hn hk)
  · simp [insertNode]
  · rw [up_insert t p n hn,Function.update_self]

theorem update_linked (t : StreamTree PeerId) (p : PeerId)
    (f : TreeNode PeerId → TreeNode PeerId) (h : Linked t)
    (hf : ∀ n, (f n).parent = n.parent) (hk : ∀ n, (f n).children = n.children) :
    Linked (t.update p f) := by
  have ups := up_update t p f hf
  have kids := childrenOf_update t p f hk
  exact ⟨by rw [ups,kids]; exact h.matched,by rw [ups]; exact h.noSelf,
    by rw [ups]; exact h.rooted⟩

omit [DecidableEq PeerId] in
theorem canAcceptChildren_iff (n : TreeNode PeerId) :
    n.canAcceptChildren ↔ n.role ≠ .consumer ∧ n.children.card < n.maxChildren ∧
      minConnectionQuality ≤ n.connectionQuality := by
  simp [TreeNode.canAcceptChildren,and_assoc]

theorem removeChild_accepts (n : TreeNode PeerId) (c : PeerId) (h : n.canAcceptChildren) :
    (n.removeChild c).1.canAcceptChildren := by
  rw [canAcceptChildren_iff] at h ⊢
  have hle : (n.children.erase c).card ≤ n.children.card :=
    Finset.card_le_card (Finset.erase_subset c n.children)
  exact ⟨h.1,lt_of_le_of_lt hle h.2.1,h.2.2⟩

theorem childrenOf_transfer (t : StreamTree PeerId) (overloaded best child : PeerId)
    (depth : Nat) (n : TreeNode PeerId) (hb : t.nodes.lookup best = some n)
    (hn : n.canAcceptChildren) :
    (t.transfer overloaded best child depth).childrenOf =
      Function.update
        (Function.update t.childrenOf overloaded ((t.childrenOf overloaded).erase child)) best
        (insert child
          (Function.update t.childrenOf overloaded ((t.childrenOf overloaded).erase child) best)) := by
  have accepts : ∃ m, (t.update overloaded (fun n => (n.removeChild child).1)).nodes.lookup best =
      some m ∧ m.canAcceptChildren := by
    by_cases ho : best = overloaded
    · subst ho
      exact ⟨_,by simp [update,hb],removeChild_accepts n child hn⟩
    · exact ⟨n,by simp [update,ho,hb],hn⟩
  obtain ⟨m,hm,ha⟩ := accepts
  unfold transfer
  rw [childrenOf_update,childrenOf_addChild _ child best m hm ha,childrenOf_removeChild]
  exact fun _ => rfl

/-- Moving one child gives at most this child another parent, and leaves it with one. -/
theorem up_moveChild (candidates : List PeerId) (overloaded : PeerId)
    (r : StreamTree PeerId × Bool) (child : PeerId) :
    (moveChild candidates overloaded r child).1.up = r.1.up ∨
    ∃ best, best ≠ child ∧ best ∈ r.1.nodes ∧
      (moveChild candidates overloaded r child).1.up =
        Function.update r.1.up child (some best) := by
  rcases moveChild_cases candidates overloaded r child with hr |
    ⟨childNode,best,depth,hl,hm,_,_,hr⟩
  · rw [hr]
    exact Or.inl rfl
  · rw [hr]
    obtain ⟨_,hne,hb,_⟩ := (mem_moveCandidates r.1 child candidates best).mp hm
    exact Or.inr ⟨best.1,hne,Finmap.mem_of_lookup_eq_some hb,
      up_transfer r.1 overloaded best.1 child depth (Finmap.mem_of_lookup_eq_some hl)⟩

theorem moveChild_matched (candidates : List PeerId) (overloaded : PeerId)
    (r : StreamTree PeerId × Bool) (child : PeerId) (h : Matched r.1.up r.1.childrenOf)
    (hc : r.1.up child = some overloaded) :
    Matched (moveChild candidates overloaded r child).1.up
      (moveChild candidates overloaded r child).1.childrenOf := by
  rcases moveChild_cases candidates overloaded r child with hr |
    ⟨childNode,best,depth,hl,hm,_,_,hr⟩
  · rw [hr]; exact h
  · rw [hr]
    obtain ⟨_,_,hb,ha⟩ := (mem_moveCandidates r.1 child candidates best).mp hm
    have ups := up_transfer r.1 overloaded best.1 child depth (Finmap.mem_of_lookup_eq_some hl)
    rw [ups,childrenOf_transfer r.1 overloaded best.1 child depth best.2 hb ha]
    exact h.move hc

theorem source_moveChild (candidates : List PeerId) (overloaded : PeerId)
    (r : StreamTree PeerId × Bool) (child : PeerId) :
    (moveChild candidates overloaded r child).1.source = r.1.source := by
  rcases moveChild_cases candidates overloaded r child with hr | ⟨_,_,_,_,_,_,_,hr⟩
  · rw [hr]
  · rw [hr]
    rfl

/-- Moving one child: the child is linked under a candidate, and the other children of the
overloaded node stay where they are. -/
theorem moveChild_linked (candidates : List PeerId) (overloaded : PeerId)
    (r : StreamTree PeerId × Bool) (child : PeerId) (h : Linked r.1)
    (hc : r.1.up child = some overloaded) :
    Linked (moveChild candidates overloaded r child).1 ∧
    ∀ c, c ≠ child → (moveChild candidates overloaded r child).1.up c = r.1.up c := by
  have matched := moveChild_matched candidates overloaded r child h.matched hc
  have rooted : ∀ n p, (moveChild candidates overloaded r child).1.up n = some p →
      (moveChild candidates overloaded r child).1.source ≠ none := by
    intro _ _ _
    rw [source_moveChild]
    exact h.rooted child overloaded hc
  rcases up_moveChild candidates overloaded r child with ups | ⟨best,hne,_,ups⟩
  · exact ⟨⟨matched,by rw [ups]; exact h.noSelf,rooted⟩,fun _ _ => by rw [ups]⟩
  · refine ⟨⟨matched,?_,rooted⟩,fun c hcc => by rw [ups,Function.update_of_ne hcc]⟩
    intro x
    rw [ups]
    by_cases hx : x = child
    · subst hx; simpa using hne
    · rw [Function.update_of_ne hx]
      exact h.noSelf x

theorem moveChildren_linked (candidates : List PeerId) (overloaded : PeerId)
    (r : StreamTree PeerId × Bool) (cs : List PeerId) (hn : cs.Nodup) (h : Linked r.1)
    (hcs : ∀ c ∈ cs, r.1.up c = some overloaded) :
    Linked (cs.foldl (moveChild candidates overloaded) r).1 := by
  induction cs generalizing r with
  | nil => exact h
  | cons c cs ih =>
    obtain ⟨hc,hn⟩ := List.nodup_cons.mp hn
    obtain ⟨moved,frame⟩ := moveChild_linked candidates overloaded r c h (hcs c (by simp))
    apply ih _ hn moved
    intro x hx
    rw [frame x (fun hxc => hc (hxc ▸ hx))]
    exact hcs x (by simp [hx])

theorem relieve_linked (H : TreeOrder PeerId) (candidates : List PeerId)
    (r : StreamTree PeerId × Bool) (overloaded : PeerId) (h : Linked r.1) :
    Linked (relieve H candidates r overloaded).1 := by
  unfold relieve
  cases hl : r.1.nodes.lookup overloaded with
  | none => exact h
  | some n =>
    apply moveChildren_linked
    · exact (H.nodup _ _).sublist (List.take_sublist _ _)
    · exact h
    · intro c hc
      rw [h.matched c overloaded,childrenOf_of_lookup _ hl]
      exact (H.mem_order _ _ c).mp (List.mem_of_mem_take hc)

theorem adopt_linked (H : TreeOrder PeerId) (r : StreamTree PeerId × Bool) (os : List PeerId)
    (hn : os.Nodup) (h : Linked r.1) (hos : ∀ o ∈ os, o ∈ r.1.nodes ∧ r.1.up o = none) :
    Linked (os.foldl (adopt H) r).1 := by
  induction os generalizing r with
  | nil => exact h
  | cons o os ih =>
    obtain ⟨ho,hn⟩ := List.nodup_cons.mp hn
    obtain ⟨hm,hup⟩ := hos o (by simp)
    apply ih (adopt H r o) hn (findParent_linked H r.1 o h hm hup)
    intro x hx
    refine ⟨(mem_findParent H r.1 o x).mpr (hos x (by simp [hx])).1,?_⟩
    have hxo : x ≠ o := fun hxo => ho (hxo ▸ hx)
    exact (up_findParent H r.1 o hxo).trans (hos x (by simp [hx])).2

theorem nodup_orphans (H : TreeOrder PeerId) (t : StreamTree PeerId) : (t.orphans H).Nodup := by
  have keys := H.nodup .nodes t.nodes.keys
  rw [← H.iter_keys] at keys
  exact keys.sublist (List.filter_sublist.map Prod.fst)

theorem mem_orphans (H : TreeOrder PeerId) (t : StreamTree PeerId) {o : PeerId}
    (ho : o ∈ t.orphans H) : o ∈ t.nodes ∧ t.up o = none := by
  simp only [orphans,List.mem_map,List.mem_filter,HashOrder.mem_iter] at ho
  obtain ⟨e,⟨hl,hcond⟩,rfl⟩ := ho
  simp only [Bool.and_eq_true,Option.isNone_iff_eq_none] at hcond
  exact ⟨Finmap.mem_of_lookup_eq_some hl,by rw [up_of_lookup _ hl,hcond.1]⟩

theorem rebalance_linked (H : TreeOrder PeerId) (t : StreamTree PeerId) (h : Linked t) :
    Linked (rebalance H t).1 := by
  have start : Linked t.countRebalance := ⟨h.matched,h.noSelf,h.rooted⟩
  unfold rebalance
  dsimp only
  split_ifs
  · exact start
  · have moved := (along_true (relieve H (t.countRebalance.rebalanceCandidates H))
      (t.countRebalance,false) (t.countRebalance.overloadedNodes H)).invariant
      (fun r : StreamTree PeerId × Bool => Linked r.1) start
      (fun r o hr _ => relieve_linked H _ r o hr)
    exact adopt_linked H _ _ (nodup_orphans H _) moved (fun o ho => mem_orphans H _ ho)

/-- The two records of every link agree. -/
def LinksConsistent (t : StreamTree PeerId) : Prop :=
  ∀ n p, (∃ node, t.nodes.lookup n = some node ∧ node.parent = some p) ↔
    ∃ parent, t.nodes.lookup p = some parent ∧ n ∈ parent.children

theorem linksConsistent_iff (t : StreamTree PeerId) :
    LinksConsistent t ↔ Matched t.up t.childrenOf := by
  have hp : ∀ n p, (∃ node, t.nodes.lookup n = some node ∧ node.parent = some p) ↔
      t.up n = some p := by
    intro n p
    cases hl : t.nodes.lookup n <;> simp [up,parents,parentField,hl]
  have hc : ∀ n p, (∃ parent, t.nodes.lookup p = some parent ∧ n ∈ parent.children) ↔
      n ∈ t.childrenOf p := by
    intro n p
    cases hl : t.nodes.lookup p <;> simp [childrenOf,hl]
  unfold LinksConsistent Matched
  simp only [hp,hc]

/-- A peer that comes back from the cache is not linked in the tree at that moment. -/
def ReconnectsUnlinked (t : StreamTree PeerId) (e : TreeOrder PeerId × TreeOp PeerId) : Prop :=
  match e.2 with
  | .reconnection p => p ∈ t.disconnectedNodes →
    ∀ node, t.nodes.lookup p = some node → node.parent = none ∧ node.children = ∅
  | _ => True

theorem step_linked (t : StreamTree PeerId) (e : TreeOrder PeerId × TreeOp PeerId)
    (h : Linked t) (ok : ReconnectsUnlinked t e) : Linked (t.step e) := by
  obtain ⟨H,op⟩ := e
  have outcome := step_outcome H t op
  generalize t.step (H,op) = t' at outcome ⊢
  cases outcome with
  | unchanged => exact h
  | @sourced p hsource =>
    have inserted := insert_linked t p (TreeNode.source p) h (unlinked_unrooted t p h hsource)
      rfl rfl
    exact ⟨inserted.matched,inserted.noSelf,fun _ _ _ => by simp⟩
  | @joined p _ _ hp => exact insert_findParent_linked H t p _ h (unlinked_absent t p hp) rfl rfl
  | @removed p node hl _ => exact removal_linked H t p node h hl
  | @disconnected p _ now _ node hl _ =>
    have saved : Linked (t.saveNode p node now) := ⟨h.matched,h.noSelf,h.rooted⟩
    have moved := removal_linked H (t.saveNode p node now) p node saved hl
    exact ⟨moved.matched,moved.noSelf,moved.rooted⟩
  | @reconnected p node time hl =>
    have unlinked : Unlinked t p := by
      by_cases hp : p ∈ t.nodes
      · obtain ⟨n,hn⟩ := Finmap.mem_iff.mp hp
        obtain ⟨hpar,hkids⟩ := ok (Finmap.mem_of_lookup_eq_some hl) n hn
        exact ⟨by rw [up_of_lookup t hn,hpar],by rw [childrenOf_of_lookup t hn,hkids]⟩
      · exact unlinked_absent t p hp
    have forgotten : Linked (t.forgetNode p) := ⟨h.matched,h.noSelf,h.rooted⟩
    exact insert_findParent_linked H (t.forgetNode p) p _ forgotten unlinked (parent_revived node)
      (children_revived node)
  | rebalanced => exact rebalance_linked H t h
  | remeasured hf => exact update_linked t _ _ h hf.parent hf.children

theorem new_linked (config : TopologyConfig) : Linked (new config : StreamTree PeerId) :=
  ⟨by simp [Matched,up,parents,parentField,childrenOf,new],
    by simp [up,parents,parentField,new],by simp [up,parents,parentField,new]⟩

/-- In a run that never writes a cached node over a linked one, the links are consistent in
every state; so every child is in the tree, in one children set. -/
theorem run_links_consistent (config : TopologyConfig)
    (es : List (TreeOrder PeerId × TreeOp PeerId))
    (ok : Along step ReconnectsUnlinked (new config) es) :
    LinksConsistent (run config es) ∧
    (∀ n p, n ∈ (run config es).childrenOf p → n ∈ (run config es).nodes) ∧
    ∀ n p q, n ∈ (run config es).childrenOf p → n ∈ (run config es).childrenOf q → p = q := by
  have linked : Linked (run config es) := ok.invariant Linked (new_linked config) step_linked
  refine ⟨(linksConsistent_iff _).mpr linked.matched,?_,?_⟩
  · intro n p hn
    exact mem_of_up _ ((linked.matched n p).mpr hn)
  · intro n p q hp hq
    exact Option.some.inj (((linked.matched n p).mpr hp).symm.trans ((linked.matched n q).mpr hq))

/-- The relay 1 drops out and reconnects. -/
def relayReconnects : List (TreeOrder Nat × TreeOp Nat) :=
  [.setSource 0,.addPeer 1 .relay 9,.addPeer 2 .consumer 0,.temporaryDisconnect 1 30 0 0,
    .reconnection 1].map (fun op => (.ascending,op))

set_option maxRecDepth 20000 in
theorem run_links_consistent_relayReconnects :
    (run .default relayReconnects).childrenOf 0 = {1,2} ∧
    LinksConsistent (run .default relayReconnects) := by
  refine ⟨by decide +kernel,(run_links_consistent .default relayReconnects ?_).1⟩
  refine ⟨trivial,trivial,trivial,trivial,?_,trivial⟩
  intro _ node hl
  exact absurd (Finmap.mem_of_lookup_eq_some hl) (by decide +kernel)

/-- The relay 1 drops out, comes back as a new peer and gets a viewer; then its cached node
is written over the live one. -/
def lateReconnection : List (TreeOrder Nat × TreeOp Nat) :=
  [.setSource 0,.addPeer 1 .relay 9,.addPeer 2 .relay 0,.addPeer 3 .relay 0,
    .addPeer 4 .relay 0,.temporaryDisconnect 1 30 0 0,.addPeer 1 .relay 9,
    .addPeer 5 .consumer 0,.reconnection 1].map (fun op => (.ascending,op))

set_option maxRecDepth 20000 in
theorem reconnection_breaks_links :
    (run .default lateReconnection).up 5 = some 1 ∧
    (run .default lateReconnection).childrenOf 1 = ∅ ∧
    ¬ LinksConsistent (run .default lateReconnection) := by
  have hup : (run .default lateReconnection).up 5 = some 1 := by decide +kernel
  have hkids : (run .default lateReconnection).childrenOf 1 = ∅ := by decide +kernel
  refine ⟨hup,hkids,?_⟩
  intro h
  have hm := ((linksConsistent_iff _).mp h 5 1).mp hup
  rw [hkids] at hm
  exact absurd hm (Finset.notMem_empty 5)

end OpenBroadcast.Overlay.StreamTree
