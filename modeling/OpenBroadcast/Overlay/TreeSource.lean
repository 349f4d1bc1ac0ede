import OpenBroadcast.Overlay.TreeLinks

namespace OpenBroadcast.Overlay.StreamTree

open Relation

variable {PeerId : Type} [DecidableEq PeerId]

/-- The source stays in the tree, without a parent and in nobody's children set, and there
are no children before there is a source. -/
structure SourceFree (t : StreamTree PeerId) : Prop where
  live : ∀ s, t.source = some s → s ∈ t.nodes
  top : ∀ s, t.source = some s → t.up s = none
  unclaimed : ∀ c p, c ∈ t.childrenOf p → t.source ≠ none ∧ t.source ≠ some c

/-- Operations that keep the source and its node, and neither link it nor, without a
source, anyone else. -/
theorem SourceFree.frame {t t' : StreamTree PeerId} (h : SourceFree t)
    (hsrc : t'.source = t.source)
    (hlive : ∀ s, t.source = some s → s ∈ t.nodes → s ∈ t'.nodes)
    (htop : ∀ s, t.source = some s → t.up s = none → t'.up s = none)
    (hkids : ∀ c p, c ∈ t'.childrenOf p → (∃ q, c ∈ t.childrenOf q) ∨
      (t.source ≠ none ∧ t.source ≠ some c)) : SourceFree t' := by
  constructor
  · intro s hs
    rw [hsrc] at hs
    exact hlive s hs (h.live s hs)
  · intro s hs
    rw [hsrc] at hs
    exact htop s hs (h.top s hs)
  · intro c p hc
    rw [hsrc]
    rcases hkids c p hc with ⟨q,hq⟩ | hc
    · exact h.unclaimed c q hq
    · exact hc

theorem update_sourceFree (t : StreamTree PeerId) (p : PeerId)
    (f : TreeNode PeerId → TreeNode PeerId) (h : SourceFree t)
    (hf : ∀ n, (f n).parent = n.parent ∨ (f n).parent = none)
    (hk : ∀ n, (f n).children = n.children) : SourceFree (t.update p f) := by
  refine h.frame (source_update t p f) ?_ ?_ ?_
  · intro s _ hs
    exact (mem_update t p s f).mpr hs
  · intro s _ hs
    by_cases hx : s = p
    · subst hx
      cases hl : t.nodes.lookup s with
      | none => simp [up,parents,parentField,update,hl]
      | some n =>
        have hn : n.parent = none := by rwa [up_of_lookup t hl] at hs
        have hl' : (t.update s f).nodes.lookup s = some (f n) := by simp [update,hl]
        rw [up_of_lookup _ hl']
        rcases hf n with hfn | hfn
        · rw [hfn,hn]
        · exact hfn
    · simpa [up,parents,parentField,update,hx] using hs
  · intro c q hc
    rw [childrenOf_update t p f hk] at hc
    exact Or.inl ⟨q,hc⟩

theorem insert_sourceFree (t : StreamTree PeerId) (p : PeerId) (n : TreeNode PeerId)
    (h : SourceFree t) (hn : n.parent = none) (hk : n.children = ∅) :
    SourceFree (t.insertNode p n) := by
  refine h.frame (show (t.insertNode p n).source = t.source from rfl) ?_ ?_ ?_
  · intro s _ hs
    simp [insertNode,hs]
  · intro s _ hs
    rw [up_insert t p n hn]
    by_cases hx : s = p
    · subst hx; simp
    · rw [Function.update_of_ne hx]
      exact hs
  · intro c q hc
    rw [childrenOf_insertNode,hk] at hc
    by_cases hq : q = p
    · subst hq; simp at hc
    · rw [Function.update_of_ne hq] at hc
      exact Or.inl ⟨q,hc⟩

theorem findParent_sourceFree (H : TreeOrder PeerId) (t : StreamTree PeerId) (p : PeerId)
    (h : SourceFree t) : SourceFree (findParentForPeer H t p).1 := by
  rcases findParent_cases H t p with ⟨hr,_⟩ | ⟨_,hr⟩ | ⟨q,n,hs,hp,hc,_,hr⟩
  · rw [hr]; exact h
  · rw [hr]; exact h
  · rw [hr]
    apply h.frame (source_attach t p q n.depth)
    · intro s _ hm
      unfold attach
      rwa [mem_update,mem_update]
    · intro s hsrc htop
      have hsp : s ≠ p := fun hsp => hp (hsp ▸ hsrc)
      by_cases hm : p ∈ t.nodes
      · rw [up_attach t p q n.depth hm,Function.update_of_ne hsp]
        exact htop
      · rw [up_attach_absent t p q n.depth hm]
        exact htop
    · intro c x hx
      rw [childrenOf_attach t p q n n.depth hc.found hc.accepts] at hx
      by_cases hxq : x = q
      · subst hxq
        rw [Function.update_self,Finset.mem_insert] at hx
        rcases hx with rfl | hx
        · exact Or.inr ⟨hs,hp⟩
        · exact Or.inl ⟨x,hx⟩
      · rw [Function.update_of_ne hxq] at hx
        exact Or.inl ⟨x,hx⟩

theorem reattach_sourceFree (H : TreeOrder PeerId) (t : StreamTree PeerId) (cs : List PeerId)
    (h : SourceFree t) : SourceFree (cs.foldl (reattach H) t) := by
  apply (along_true (reattach H) t cs).invariant SourceFree h
  intro t c ht _
  exact findParent_sourceFree H _ c
    (update_sourceFree t c _ ht (fun _ => Or.inr rfl) (fun _ => rfl))

theorem detach_sourceFree (t : StreamTree PeerId) (p : PeerId) (r : Option PeerId)
    (h : SourceFree t) (hp : t.source ≠ some p) : SourceFree (t.detach p r) := by
  have hsrc : (t.detach p r).source = t.source := by
    unfold detach
    cases r <;> rfl
  apply h.frame hsrc
  · intro s hs hm
    have hsp : s ≠ p := fun hsp => hp (hsp ▸ hs)
    unfold detach
    cases r with
    | none => exact Finmap.mem_erase.mpr ⟨hsp,hm⟩
    | some q => exact Finmap.mem_erase.mpr ⟨hsp,(mem_update t q s _).mpr hm⟩
  · intro s hs htop
    have hsp : s ≠ p := fun hsp => hp (hsp ▸ hs)
    rw [up_detach,Function.update_of_ne hsp]
    exact htop
  · intro c x hx
    rw [childrenOf_detach] at hx
    by_cases hxp : x = p
    · subst hxp; simp at hx
    · rw [Function.update_of_ne hxp] at hx
      cases r with
      | none => exact Or.inl ⟨x,hx⟩
      | some q =>
        by_cases hxq : x = q
        · subst hxq
          simp only [Function.update_self] at hx
          exact Or.inl ⟨x,Finset.mem_of_mem_erase hx⟩
        · simp only [Function.update_of_ne hxq] at hx
          exact Or.inl ⟨x,hx⟩

theorem moveChild_sourceFree (candidates : List PeerId) (overloaded : PeerId)
    (r : StreamTree PeerId × Bool) (child : PeerId) (h : SourceFree r.1)
    (hc : r.1.source ≠ none ∧ r.1.source ≠ some child) :
    SourceFree (moveChild candidates overloaded r child).1 ∧
    (moveChild candidates overloaded r child).1.source = r.1.source := by
  rcases moveChild_cases candidates overloaded r child with hr |
    ⟨childNode,best,depth,hl,hm,_,_,hr⟩
  · rw [hr]; exact ⟨h,rfl⟩
  · rw [hr]
    dsimp only
    have hsrc : (r.1.transfer overloaded best.1 child depth).source = r.1.source := rfl
    refine ⟨?_,hsrc⟩
    obtain ⟨_,_,hb,ha⟩ := (mem_moveCandidates r.1 child candidates best).mp hm
    refine h.frame hsrc ?_ ?_ ?_
    · intro s _ hs
      unfold transfer
      rwa [mem_update,mem_update,mem_update]
    · intro s hs htop
      have hsc : s ≠ child := fun hsc => hc.2 (hsc ▸ hs)
      rw [up_transfer _ _ _ _ _ (Finmap.mem_of_lookup_eq_some hl),Function.update_of_ne hsc]
      exact htop
    · intro c x hx
      rw [childrenOf_transfer r.1 overloaded best.1 child depth best.2 hb ha] at hx
      have removed : ∀ y, c ∈ Function.update r.1.childrenOf overloaded
          ((r.1.childrenOf overloaded).erase child) y → c ∈ r.1.childrenOf y := by
        intro y hy
        by_cases hyo : y = overloaded
        · subst hyo
          rw [Function.update_self] at hy
          exact Finset.mem_of_mem_erase hy
        · rwa [Function.update_of_ne hyo] at hy
      by_cases hxb : x = best.1
      · subst hxb
        rw [Function.update_self,Finset.mem_insert] at hx
        rcases hx with rfl | hx
        · exact Or.inr hc
        · exact Or.inl ⟨best.1,removed _ hx⟩
      · rw [Function.update_of_ne hxb] at hx
        exact Or.inl ⟨x,removed x hx⟩

theorem relieve_sourceFree (H : TreeOrder PeerId) (candidates : List PeerId)
    (r : StreamTree PeerId × Bool) (overloaded : PeerId) (h : SourceFree r.1) :
    SourceFree (relieve H candidates r overloaded).1 := by
  unfold relieve
  cases hl : r.1.nodes.lookup overloaded with
  | none => exact h
  | some n =>
    dsimp only
    have free : ∀ c ∈ childrenToMove H overloaded n, r.1.source ≠ none ∧ r.1.source ≠ some c := by
      intro c hc
      apply h.unclaimed c overloaded
      rw [childrenOf_of_lookup _ hl]
      exact (H.mem_order _ _ c).mp (List.mem_of_mem_take hc)
    generalize childrenToMove H overloaded n = cs at free
    clear hl
    induction cs generalizing r with
    | nil => exact h
    | cons c cs ih =>
      obtain ⟨moved,hsrc⟩ := moveChild_sourceFree candidates overloaded r c h (free c (by simp))
      apply ih _ moved
      intro x hx
      rw [hsrc]
      exact free x (by simp [hx])

theorem relief_sourceFree (H : TreeOrder PeerId) (t : StreamTree PeerId)
    (candidates overloaded : List PeerId) (h : SourceFree t) :
    SourceFree (overloaded.foldl (relieve H candidates) (t,false)).1 :=
  (along_true (relieve H candidates) (t,false) overloaded).invariant
    (fun r : StreamTree PeerId × Bool => SourceFree r.1) h
    (fun r o hr _ => relieve_sourceFree H candidates r o hr)

theorem adopt_sourceFree (H : TreeOrder PeerId) (r : StreamTree PeerId × Bool)
    (os : List PeerId) (h : SourceFree r.1) : SourceFree (os.foldl (adopt H) r).1 :=
  (along_true (adopt H) r os).invariant (fun r : StreamTree PeerId × Bool => SourceFree r.1) h
    (fun r o hr _ => findParent_sourceFree H r.1 o hr)

theorem step_sourceFree (t : StreamTree PeerId) (e : TreeOrder PeerId × TreeOp PeerId)
    (h : SourceFree t) : SourceFree (t.step e) := by
  obtain ⟨H,op⟩ := e
  have outcome := step_outcome H t op
  generalize t.step (H,op) = t' at outcome ⊢
  cases outcome with
  | unchanged => exact h
  | @sourced p hsource =>
    have inserted := insert_sourceFree t p (TreeNode.source p) h rfl rfl
    constructor
    · intro s hsrc
      cases hsrc
      simp [insertNode]
    · intro s hsrc
      cases hsrc
      change (t.insertNode p (TreeNode.source p)).up p = none
      rw [up_insert t p _ rfl,Function.update_self]
    · intro c q hc
      exact absurd hsource (inserted.unclaimed c q hc).1
  | @joined p _ _ _ => exact findParent_sourceFree H _ p (insert_sourceFree t p _ h rfl rfl)
  | @removed p node _ hs => exact reattach_sourceFree H _ _ (detach_sourceFree t p node.parent h hs)
  | @disconnected p _ now _ node _ hs =>
    have saved : SourceFree (t.saveNode p node now) := ⟨h.live,h.top,h.unclaimed⟩
    have moved := reattach_sourceFree H _ (H.order (.children p) node.children)
      (detach_sourceFree (t.saveNode p node now) p node.parent saved hs)
    exact ⟨moved.live,moved.top,moved.unclaimed⟩
  | @reconnected p node _ _ =>
    have forgotten : SourceFree (t.forgetNode p) := ⟨h.live,h.top,h.unclaimed⟩
    exact findParent_sourceFree H _ p (insert_sourceFree _ p _ forgotten (parent_revived node)
      (children_revived node))
  | rebalanced =>
    have start : SourceFree t.countRebalance := ⟨h.live,h.top,h.unclaimed⟩
    simp only [rebalance]
    split_ifs
    · exact start
    · exact adopt_sourceFree H _ _ (relief_sourceFree H _ _ _ start)
  | remeasured hf => exact update_sourceFree t _ _ h (fun n => Or.inl (hf.parent n)) hf.children

theorem run_sourceFree (config : TopologyConfig) (es : List (TreeOrder PeerId × TreeOp PeerId)) :
    SourceFree (run config es) := by
  have start : SourceFree (new config : StreamTree PeerId) :=
    ⟨by simp [new],by simp [new],by simp [childrenOf,new]⟩
  exact (along_true step (new config) es).invariant SourceFree start
    (fun t e h _ => step_sourceFree t e h)

/-- The states in which the program searches for a parent of a peer: for a new peer, for one
that comes back, for the children that a node leaves behind, and for the orphans that
`rebalance` finds. -/
inductive Searched (config : TopologyConfig) : StreamTree PeerId → PeerId → Prop
  | addPeer (es : List (TreeOrder PeerId × TreeOp PeerId)) (p : PeerId) (role : PeerRole)
      (bandwidth : UInt64) (hp : p ∉ (run config es).nodes) :
      Searched config ((run config es).insertNode p
        { TreeNode.new p role with bandwidth := bandwidth }) p
  | reconnection (es : List (TreeOrder PeerId × TreeOp PeerId)) (p : PeerId)
      (node : TreeNode PeerId) (time : Nat)
      (hl : (run config es).disconnectedNodes.lookup p = some (node,time)) :
      Searched config (((run config es).forgetNode p).insertNode p node.revived) p
  | removePeer (es : List (TreeOrder PeerId × TreeOp PeerId)) (H : TreeOrder PeerId)
      (p : PeerId) (node : TreeNode PeerId) (done rest : List PeerId) (c : PeerId)
      (hl : (run config es).nodes.lookup p = some node) (hs : (run config es).source ≠ some p)
      (hcs : H.order (.children p) node.children = done++c::rest) :
      Searched config
        ((done.foldl (reattach H) ((run config es).detach p node.parent)).clearParent c) c
  | temporaryDisconnect (es : List (TreeOrder PeerId × TreeOp PeerId)) (H : TreeOrder PeerId)
      (p : PeerId) (now : Nat) (node : TreeNode PeerId) (done rest : List PeerId) (c : PeerId)
      (hl : (run config es).nodes.lookup p = some node) (hs : (run config es).source ≠ some p)
      (hcs : H.order (.children p) node.children = done++c::rest) :
      Searched config ((done.foldl (reattach H)
        (((run config es).saveNode p node now).detach p node.parent)).clearParent c) c
  | rebalance (es : List (TreeOrder PeerId × TreeOp PeerId)) (H : TreeOrder PeerId)
      (done rest : List PeerId) (o : PeerId) (r : StreamTree PeerId × Bool)
      (hr : r = ((run config es).countRebalance.overloadedNodes H).foldl
        (relieve H ((run config es).countRebalance.rebalanceCandidates H))
        ((run config es).countRebalance,false))
      (hos : r.1.orphans H = done++o::rest) :
      Searched config (done.foldl (adopt H) r).1 o

theorem searched_sourceFree {config : TopologyConfig} {t : StreamTree PeerId} {p : PeerId}
    (h : Searched config t p) : SourceFree t := by
  cases h with
  | addPeer es p role bandwidth _ =>
    exact insert_sourceFree _ p _ (run_sourceFree config es) rfl rfl
  | reconnection es p node time _ =>
    have free := run_sourceFree config es
    have forgotten : SourceFree ((run config es).forgetNode p) :=
      ⟨free.live,free.top,free.unclaimed⟩
    exact insert_sourceFree _ p _ forgotten
      (by simp [TreeNode.revived,TreeNode.recordSuccess])
      (by simp [TreeNode.revived,TreeNode.recordSuccess])
  | removePeer es H q node done rest c _ hs _ =>
    have detached := detach_sourceFree _ q node.parent (run_sourceFree config es) hs
    exact update_sourceFree _ _ _ (reattach_sourceFree H _ done detached)
      (fun _ => Or.inr rfl) (fun _ => rfl)
  | temporaryDisconnect es H q now node done rest c _ hs _ =>
    have free := run_sourceFree config es
    have saved : SourceFree ((run config es).saveNode q node now) :=
      ⟨free.live,free.top,free.unclaimed⟩
    have detached := detach_sourceFree _ q node.parent saved hs
    exact update_sourceFree _ _ _ (reattach_sourceFree H _ done detached)
      (fun _ => Or.inr rfl) (fun _ => rfl)
  | rebalance es H done rest o r hr _ =>
    have free := run_sourceFree config es
    have start : SourceFree (run config es).countRebalance :=
      ⟨free.live,free.top,free.unclaimed⟩
    subst hr
    exact adopt_sourceFree H _ done (relief_sourceFree H _ _ _ start)

/-- The path to `p` can be computed and starts at `s`. -/
def PathFrom (t : StreamTree PeerId) (s p : PeerId) : Prop :=
  ∃ fuel path, t.getPathToPeer fuel p = some (some path) ∧ path.head? = some s

/-- Every candidate that no other one outranks hangs below the source, by a chain that
does not pass through `p`. -/
def BestBelowSource (t : StreamTree PeerId) (s p : PeerId) : Prop :=
  ∀ q n, Candidate t p q n →
    (∀ q' n', Candidate t p q' n' → ¬ outranks (rank (q',n')) (rank (q,n))) →
      ReflTransGen (Up t.up) q s ∧ ¬ ReflTransGen (Up t.up) q p

theorem pathFrom_iff (t : StreamTree PeerId) (s p : PeerId) (hs : t.parentField s = some none)
    (hp : p ∈ t.nodes) : PathFrom t s p ↔ ReflTransGen (Up t.up) p s := by
  constructor
  · intro hyp
    obtain ⟨fuel,path,hpath,hhead⟩ := hyp
    rw [getPathToPeer,if_pos hp] at hpath
    obtain ⟨res,hres,hpath⟩ := Option.map_eq_some_iff.mp hpath
    split_ifs at hpath
    cases hpath
    rw [List.head?_reverse] at hhead
    rcases climb_last hres with ⟨_,rfl⟩ | ⟨r,hl,hr⟩
    · simp at hhead
    · rw [hl] at hhead
      exact Option.some.inj hhead ▸ hr
  · intro h
    obtain ⟨fuel,res,hres,hl⟩ := climb_reaches h hs []
    have hne : res.reverse.isEmpty = false := by
      cases res with
      | nil => simp at hl
      | cons a l => simp
    refine ⟨fuel,res.reverse,?_,by rw [List.head?_reverse,hl]⟩
    rw [getPathToPeer,if_pos hp,hres,Option.map_some,hne]
    rfl

theorem parentField_none_iff (t : StreamTree PeerId) (p : PeerId) :
    t.parentField p = some none ↔ p ∈ t.nodes ∧ t.up p = none := by
  rw [← Finmap.lookup_isSome]
  cases hl : t.nodes.lookup p <;> simp [up,parents,parentField,hl]

/-- After `p` is attached below `q`, its path starts at the source exactly when `q` hangs
below the source by a chain that does not pass through `p`. -/
theorem attach_pathFrom_iff (t : StreamTree PeerId) (s p q : PeerId) (d : Nat)
    (hs : t.parentField s = some none) (hp : p ∈ t.nodes) (hps : p ≠ s) :
    PathFrom (t.attach p q d) s p ↔
      ReflTransGen (Up t.up) q s ∧ ¬ ReflTransGen (Up t.up) q p := by
  obtain ⟨hm,htop⟩ := (parentField_none_iff t s).mp hs
  have ups := up_attach t p q d hp
  have hmem : ∀ x, x ∈ (t.attach p q d).nodes ↔ x ∈ t.nodes := by
    intro x
    unfold attach
    rw [mem_update,mem_update]
  have hs' : (t.attach p q d).parentField s = some none := by
    refine (parentField_none_iff _ s).mpr ⟨(hmem s).mpr hm,?_⟩
    rw [ups,Function.update_of_ne (Ne.symm hps)]
    exact htop
  rw [pathFrom_iff _ s p hs' ((hmem p).mpr hp),ups]
  exact redirect_ends_iff hps htop

/-- The peer is the source itself, or it is in the tree (if anyone can take it at all) and
every best candidate hangs below the source. -/
def SearchSafe (t : StreamTree PeerId) (s p : PeerId) : Prop :=
  p = s ∨ ((∀ q n, Candidate t p q n → p ∈ t.nodes) ∧ BestBelowSource t s p)

theorem search_pathFrom_iff (t : StreamTree PeerId) (s p : PeerId) (free : SourceFree t)
    (hs : t.source = some s) :
    (∀ H, (findParentForPeer H t p).2 = true → PathFrom (findParentForPeer H t p).1 s p) ↔
      SearchSafe t s p := by
  have hfield : t.parentField s = some none :=
    (parentField_none_iff t s).mpr ⟨free.live s hs,free.top s hs⟩
  have hne : t.source ≠ none := by simp [hs]
  constructor
  · intro h
    by_cases hps : p = s
    · exact Or.inl hps
    · have hp : t.source ≠ some p := by
        rw [hs]
        exact fun hsp => hps (Option.some.inj hsp).symm
      have live : ∀ q n, Candidate t p q n → p ∈ t.nodes := by
        intro q n hc
        obtain ⟨H⟩ : Nonempty (TreeOrder PeerId) := inferInstance
        rcases findParent_cases H t p with ⟨_,hno⟩ | ⟨hsp,_⟩ | ⟨q',n',_,_,_,_,hr⟩
        · rcases hno with hno | ⟨_,hno⟩
          · exact absurd hno hne
          · exact absurd hc (hno q n)
        · exact absurd hsp hp
        · obtain ⟨fuel,path,hpath,_⟩ := h H (by rw [hr])
          by_contra hm
          have hm' : p ∉ (findParentForPeer H t p).1.nodes := by rwa [mem_findParent]
          rw [getPathToPeer,if_neg hm'] at hpath
          simp at hpath
      refine Or.inr ⟨live,?_⟩
      intro q n hc hmax
      obtain ⟨H,hr⟩ := findParent_pick t p q n hne hp hc hmax
      have found := h H (by rw [hr])
      rw [hr] at found
      exact (attach_pathFrom_iff t s p q n.depth hfield (live q n hc) hps).mp found
  · intro safe H hok
    rcases findParent_cases H t p with ⟨hr,_⟩ | ⟨hsp,hr⟩ | ⟨q,n,_,hp,hc,hmax,hr⟩
    · rw [hr] at hok
      cases hok
    · have hps : p = s := Option.some.inj (hsp.symm.trans hs)
      subst hps
      rw [hr]
      exact (pathFrom_iff t p p hfield (free.live p hs)).mpr .refl
    · have hps : p ≠ s := fun hps => hp (by rw [hs,hps])
      obtain ⟨live,best⟩ := safe.resolve_left hps
      rw [hr]
      exact (attach_pathFrom_iff t s p q n.depth hfield (live q n hc) hps).mpr (best q n hc hmax)

/-- A new peer does not change what the search for its parent looks at. -/
theorem insert_searchSafe_iff (t : StreamTree PeerId) (s p : PeerId) (n : TreeNode PeerId)
    (hp : p ∉ t.nodes) (hs : s ∈ t.nodes) (hn : n.parent = none) :
    SearchSafe (t.insertNode p n) s p ↔ BestBelowSource t s p := by
  have hps : p ≠ s := fun hps => hp (hps ▸ hs)
  have ups : (t.insertNode p n).up = t.up := by
    rw [up_insert t p n hn,← (unlinked_absent t p hp).1,Function.update_eq_self]
  have cands : ∀ q m, Candidate (t.insertNode p n) p q m ↔ Candidate t p q m := by
    intro q m
    have found : q ≠ p → (t.insertNode p n).nodes.lookup q = t.nodes.lookup q := by
      intro hq
      simp [insertNode,hq]
    exact ⟨fun h => ⟨found h.ne ▸ h.found,h.accepts,h.ne,h.ranked⟩,
      fun h => ⟨(found h.ne).trans h.found,h.accepts,h.ne,h.ranked⟩⟩
  have hin : p ∈ (t.insertNode p n).nodes := by simp [insertNode]
  simp [SearchSafe,BestBelowSource,cands,ups,hps,hin]

/-- For every reachable tree with a source: under every iteration order a successful
`addPeer` puts the peer on a path from the source, exactly when every best candidate hangs
below the source; and the same for every search for a parent that the program makes. -/
theorem attachment_reaches_source_iff (config : TopologyConfig) :
    (∀ (es : List (TreeOrder PeerId × TreeOp PeerId)) (s p : PeerId) (role : PeerRole)
        (bandwidth : UInt64), (run config es).source = some s →
      ((∀ H, (addPeer H (run config es) p role bandwidth).2 = true →
          PathFrom (addPeer H (run config es) p role bandwidth).1 s p) ↔
        p ∈ (run config es).nodes ∨ BestBelowSource (run config es) s p)) ∧
    ∀ (t : StreamTree PeerId) (s p : PeerId), Searched config t p → t.source = some s →
      ((∀ H, (findParentForPeer H t p).2 = true → PathFrom (findParentForPeer H t p).1 s p) ↔
        SearchSafe t s p) := by
  constructor
  · intro es s p role bandwidth hs
    have free := run_sourceFree config es
    by_cases hp : p ∈ (run config es).nodes
    · simp [addPeer,hp]
    · have inserted := insert_sourceFree (run config es) p
        { TreeNode.new p role with bandwidth := bandwidth } free rfl rfl
      have search := search_pathFrom_iff _ s p inserted hs
      rw [insert_searchSafe_iff _ s p _ hp (free.live s hs) rfl] at search
      simpa only [addPeer,hp,if_false,false_or] using search
  · intro t s p h hs
    exact search_pathFrom_iff t s p (searched_sourceFree h) hs

/-- A relay below the source, before a viewer joins. -/
def lateRelay : List (TreeOrder Nat × TreeOp Nat) :=
  [.setSource 0,.addPeer 1 .relay 5].map (fun op => (.ascending,op))

set_option maxRecDepth 20000 in
theorem attachment_reaches_source_lateRelay :
    (∀ H, (addPeer H (run .default lateRelay) 2 .consumer 0).2 = true →
      PathFrom (addPeer H (run .default lateRelay) 2 .consumer 0).1 0 2) := by
  refine ((attachment_reaches_source_iff .default).1 lateRelay 0 2 .consumer 0
    (by decide +kernel)).mpr (Or.inr ?_)
  have h0 : (run .default lateRelay).up 0 = none := by decide +kernel
  have h1 : (run .default lateRelay).up 1 = some 0 := by decide +kernel
  have top : ¬ ReflTransGen (Up (run .default lateRelay).up) 0 2 := by
    intro h
    rcases ReflTransGen.cases_head h with h | ⟨c,hc,_⟩
    · cases h
    · simp [Up,h0] at hc
  have keys : ∀ q ∈ (run .default lateRelay).nodes.keys, q = 0 ∨ q = 1 := by decide +kernel
  intro q n hc _
  rcases keys q (Finmap.mem_keys.mpr (Finmap.mem_of_lookup_eq_some hc.found)) with rfl | rfl
  · exact ⟨.refl,top⟩
  · refine ⟨.single h1,fun h => ?_⟩
    rcases ReflTransGen.cases_head h with h | ⟨c,hc,hc2⟩
    · cases h
    · have h0c : 0 = c := Option.some.inj (h1.symm.trans hc)
      exact top (h0c ▸ hc2)

/-- A relay that came before the source and has the higher bandwidth. -/
def earlyRelay : List (TreeOrder Nat × TreeOp Nat) :=
  [.addPeer 1 .relay 5,.setSource 0].map (fun op => (.ascending,op))

set_option maxRecDepth 20000 in
theorem addPeer_misses_source :
    (run .default earlyRelay).source = some 0 ∧
    (addPeer .ascending (run .default earlyRelay) 2 .consumer 0).2 = true ∧
    (addPeer .ascending (run .default earlyRelay) 2 .consumer 0).1.getPathToPeer 3 2 =
      some (some [1,2]) ∧
    ¬ PathFrom (addPeer .ascending (run .default earlyRelay) 2 .consumer 0).1 0 2 := by
  refine ⟨by decide +kernel,by decide +kernel,by decide +kernel,?_⟩
  have hs : (addPeer .ascending (run .default earlyRelay) 2 .consumer 0).1.parentField 0 =
    some none := by decide +kernel
  have h1 : (addPeer .ascending (run .default earlyRelay) 2 .consumer 0).1.up 1 = none := by
    decide +kernel
  have h2 : (addPeer .ascending (run .default earlyRelay) 2 .consumer 0).1.up 2 = some 1 := by
    decide +kernel
  rw [pathFrom_iff _ 0 2 hs (by decide +kernel)]
  intro h
  rcases ReflTransGen.cases_head h with h | ⟨c,hc,hc0⟩
  · cases h
  · have h1c : 1 = c := Option.some.inj (h2.symm.trans hc)
    subst h1c
    rcases ReflTransGen.cases_head hc0 with h | ⟨d,hd,_⟩
    · cases h
    · simp [Up,h1] at hd

end OpenBroadcast.Overlay.StreamTree
