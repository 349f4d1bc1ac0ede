import OpenBroadcast.Overlay.TreeDepth
import OpenBroadcast.Overlay.TreeFrame

namespace OpenBroadcast.Overlay.StreamTree

variable {PeerId : Type} [DecidableEq PeerId]

section Depths

variable {t : StreamTree PeerId} {d : Nat}

def DepthBelow (t : StreamTree PeerId) (d : Nat) : Prop :=
  ∀ q n, t.nodes.lookup q = some n → n.depth ≤ d

theorem DepthBelow.mono {d' : Nat} (h : DepthBelow t d) (hd : d ≤ d') : DepthBelow t d' :=
  fun q n hn => (h q n hn).trans hd

theorem findParent_depthBelow (H : TreeOrder PeerId) (p : PeerId) (h : DepthBelow t d) :
    DepthBelow (findParentForPeer H t p).1 (d+1) := by
  have wider : DepthBelow t (d+1) := h.mono (by omega)
  rcases findParent_cases H t p with ⟨hr,_⟩ | ⟨_,hr⟩ | ⟨q,n,_,_,hc,_,hr⟩
  · rw [hr]
    exact wider
  · rw [hr]
    exact wider
  · rw [hr]
    have linked : DepthBelow (t.update q (fun parent => (parent.addChild p).1)) (d+1) :=
      forall_update wider (fun m hm => by simpa using hm)
    have hdepth := h q n hc.found
    exact forall_update linked (fun _ _ => Nat.succ_le_succ hdepth)

theorem moveChild_depthBelow (candidates : List PeerId) (overloaded : PeerId)
    (r : StreamTree PeerId × Bool) (child : PeerId) (h : DepthBelow r.1 d) :
    DepthBelow (moveChild candidates overloaded r child).1 (d+1) := by
  have wider : DepthBelow r.1 (d+1) := h.mono (by omega)
  rcases moveChild_eq candidates overloaded r child with hr | ⟨_,best,_,_,hmem,hr⟩
  · rw [hr]
    exact wider
  · rw [hr]
    obtain ⟨_,_,hbest,_⟩ := (mem_moveCandidates r.1 child candidates best).mp hmem
    have removed : DepthBelow (r.1.update overloaded (fun n => (n.removeChild child).1)) (d+1) :=
      forall_update wider (fun m hm => hm)
    have added := forall_update (q := best.1) (f := fun n => (n.addChild child).1) removed
      (fun m hm => by simpa using hm)
    have hdepth := h best.1 best.2 hbest
    exact forall_update added (fun _ _ => Nat.succ_le_succ hdepth)

/-- The depths in a rebalance before the orphans are looked at: an overloaded node has at most
seven children to move. -/
theorem relieve_depthBelow (H : TreeOrder PeerId) (candidates : List PeerId)
    (r : StreamTree PeerId × Bool) (overloaded : PeerId) (hbounds : AllBounded r.1)
    (h : DepthBelow r.1 d) :
    DepthBelow (relieve H candidates r overloaded).1 (d+absoluteMaxChildren) := by
  rw [relieve]
  cases hl : r.1.nodes.lookup overloaded with
  | none => exact h.mono (by omega)
  | some n =>
    have few : (childrenToMove H overloaded n).length ≤ absoluteMaxChildren := by
      have taken : (childrenToMove H overloaded n).length ≤
          (H.order (.children overloaded) n.children).length := List.length_take_le' _ _
      rw [H.length_order] at taken
      exact taken.trans (hbounds overloaded n hl).card
    have moved := foldl_raises (P := fun (r : StreamTree PeerId × Bool) d => DepthBelow r.1 d)
      (fun r c d hr => moveChild_depthBelow candidates overloaded r c hr) h
      (childrenToMove H overloaded n)
    exact moved.mono (by omega)

end Depths

section Settling

variable {t : StreamTree PeerId}

/-- The node `o` has a parent, or no other node accepts children. -/
def Settled (t : StreamTree PeerId) (o : PeerId) : Prop :=
  t.up o ≠ none ∨ ∀ q n, t.nodes.lookup q = some n → q ≠ o → ¬ n.canAcceptChildren

theorem accepts_of_addChild {n : TreeNode PeerId} {p : PeerId}
    (h : (n.addChild p).1.canAcceptChildren) : n.canAcceptChildren := by
  by_contra hn
  simp [TreeNode.addChild,hn] at h

/-- Who accepts children after a search has accepted them before. -/
theorem accepts_findParent (H : TreeOrder PeerId) (t : StreamTree PeerId) (p : PeerId)
    {q : PeerId} {n' : TreeNode PeerId} (hn' : (findParentForPeer H t p).1.nodes.lookup q = some n')
    (ha : n'.canAcceptChildren) : ∃ n, t.nodes.lookup q = some n ∧ n.canAcceptChildren := by
  have before : ∀ x m, t.nodes.lookup x = some m → m.canAcceptChildren →
      ∃ n, t.nodes.lookup x = some n ∧ n.canAcceptChildren := fun x m hm hm' => ⟨m,hm,hm'⟩
  rcases findParent_cases H t p with ⟨hr,_⟩ | ⟨_,hr⟩ | ⟨parent,m,_,_,_,_,hr⟩
  · rw [hr] at hn'
    exact ⟨n',hn',ha⟩
  · rw [hr] at hn'
    exact ⟨n',hn',ha⟩
  · rw [hr] at hn'
    have added := forall_update (q := parent) (f := fun parent => (parent.addChild p).1) before
      (fun m hm hacc => hm (accepts_of_addChild hacc))
    exact forall_update (q := p)
      (f := fun node => { node with parent := some parent, depth := m.depth+1 }) added
      (fun _ hm hacc => hm hacc) q n' hn' ha

theorem settled_findParent (H : TreeOrder PeerId) (p : PeerId) {o : PeerId} (h : Settled t o) :
    Settled (findParentForPeer H t p).1 o := by
  rcases h with hup | hfull
  · left
    by_cases hop : o = p
    · subst hop
      rcases findParent_cases H t o with ⟨hr,_⟩ | ⟨_,hr⟩ | ⟨q,n,_,_,_,_,hr⟩
      · rwa [hr]
      · rwa [hr]
      · have hm : o ∈ t.nodes := by
          obtain ⟨parent,hparent⟩ := Option.ne_none_iff_exists'.mp hup
          exact mem_of_up t hparent
        rw [hr,up_attach t o q n.depth hm,Function.update_self]
        simp
    · rwa [up_findParent H t p hop]
  · right
    intro q n' hn' hqo ha
    obtain ⟨n,hn,hacc⟩ := accepts_findParent H t p hn' ha
    exact hfull q n hn hqo hacc

/-- The turn of an orphan: it gets a parent unless nobody else accepts children. -/
theorem findParent_settles (H : TreeOrder PeerId) {o : PeerId} {d : Nat} (hm : o ∈ t.nodes)
    (hsource : t.source ≠ none) (ho : t.source ≠ some o) (hdepth : DepthBelow t d)
    (hd : d < usizeMax) : Settled (findParentForPeer H t o).1 o := by
  rcases findParent_cases H t o with ⟨hr,hnone⟩ | ⟨hs,_⟩ | ⟨q,n,_,_,_,_,hr⟩
  · rw [hr]
    right
    intro q n hn hqo ha
    have deep := hdepth q n hn
    have ranked : outranks (rank (q,n)) (usizeMax,0) := by
      rw [outranks_iff]
      left
      show n.depth < usizeMax
      omega
    exact (hnone.resolve_left hsource).2 q n ⟨hn,ha,hqo,ranked⟩
  · exact absurd hs ho
  · left
    rw [hr,up_attach t o q n.depth hm,Function.update_self]
    simp

theorem adoptEach_settled (H : TreeOrder PeerId) (r : StreamTree PeerId × Bool)
    (os : List PeerId) {o : PeerId} (h : Settled r.1 o) :
    Settled (os.foldl (adopt H) r).1 o :=
  (along_true (adopt H) r os).invariant (fun r : StreamTree PeerId × Bool => Settled r.1 o) h
    (fun _ p hr _ => settled_findParent H p hr)

theorem adoptEach_settles (H : TreeOrder PeerId) (r : StreamTree PeerId × Bool)
    (os : List PeerId) {d : Nat} (hsource : r.1.source ≠ none)
    (hos : ∀ o ∈ os, o ∈ r.1.nodes ∧ r.1.source ≠ some o) (hdepth : DepthBelow r.1 d)
    (hd : d+os.length ≤ usizeMax) : ∀ o ∈ os, Settled (os.foldl (adopt H) r).1 o := by
  induction os generalizing r d with
  | nil => simp
  | cons o os ih =>
    rw [List.length_cons] at hd
    have hsrc : (adopt H r o).1.source = r.1.source := source_findParent H r.1 o
    have settled : Settled (adopt H r o).1 o :=
      findParent_settles H (hos o (by simp)).1 hsource (hos o (by simp)).2 hdepth (by omega)
    have rest := ih (adopt H r o) (by rwa [hsrc]) (d := d+1)
      (by
        intro x hx
        obtain ⟨hm,hne⟩ := hos x (by simp [hx])
        rw [hsrc]
        exact ⟨(mem_findParent H r.1 o x).mpr hm,hne⟩)
      (findParent_depthBelow H o hdepth) (by omega)
    intro x hx
    rcases List.mem_cons.mp hx with rfl | hx
    · exact adoptEach_settled H (adopt H r x) os settled
    · exact rest x hx

end Settling

section Rebalance

variable {t : StreamTree PeerId}

/-- There is an overloaded node and one with capacity to spare: `rebalance` goes on. -/
def Rebalances (t : StreamTree PeerId) : Prop :=
  (∃ q n, t.nodes.lookup q = some n ∧ isOverloaded n) ∧
  ∃ q n, t.nodes.lookup q = some n ∧ hasSpareCapacity n

/-- A node without a parent, other than the source, has none because nobody else accepts
children. -/
def OrphansPlaced (t : StreamTree PeerId) : Prop :=
  ∀ o n, t.nodes.lookup o = some n → t.source ≠ some o → n.parent = none →
    ∀ q m, t.nodes.lookup q = some m → q ≠ o → ¬ m.canAcceptChildren

/-- No depth gets near the sentinel of the search while the tree is rebalanced. -/
def DepthRoom (t : StreamTree PeerId) : Prop :=
  ∀ q n, t.nodes.lookup q = some n →
    n.depth+(absoluteMaxChildren+1)*t.nodes.keys.card < usizeMax

theorem exists_node_iff (p : TreeNode PeerId → Bool) :
    (∃ q ∈ t.nodes.keys, (t.nodes.lookup q).any p) ↔
      ∃ q n, t.nodes.lookup q = some n ∧ p n := by
  simp only [Option.any_eq_true]
  constructor
  · rintro ⟨q,_,n,hn,hp⟩
    exact ⟨q,n,hn,hp⟩
  · rintro ⟨q,n,hn,hp⟩
    exact ⟨q,Finmap.mem_keys.mpr (Finmap.mem_of_lookup_eq_some hn),n,hn,hp⟩

instance : Decidable (Rebalances t) :=
  decidable_of_iff
    ((∃ q ∈ t.nodes.keys, (t.nodes.lookup q).any isOverloaded) ∧
      ∃ q ∈ t.nodes.keys, (t.nodes.lookup q).any hasSpareCapacity)
    (and_congr (exists_node_iff isOverloaded) (exists_node_iff hasSpareCapacity))

theorem depthRoom_iff : DepthRoom t ↔ ∀ q ∈ t.nodes.keys, (t.nodes.lookup q).all (fun n =>
    n.depth+(absoluteMaxChildren+1)*t.nodes.keys.card < usizeMax) := by
  constructor
  · intro h q _
    cases hn : t.nodes.lookup q with
    | none => rfl
    | some n => simpa using h q n hn
  · intro h q n hn
    have all := h q (Finmap.mem_keys.mpr (Finmap.mem_of_lookup_eq_some hn))
    simpa [hn] using all

instance : Decidable (DepthRoom t) := decidable_of_iff' _ depthRoom_iff

theorem orphansPlaced_iff :
    OrphansPlaced t ↔ ∀ o, o ∈ t.nodes → t.source ≠ some o → Settled t o := by
  constructor
  · intro h o hm ho
    obtain ⟨n,hn⟩ := Finmap.mem_iff.mp hm
    by_cases hup : t.up o = none
    · rw [up_of_lookup t hn] at hup
      exact Or.inr (h o n hn ho hup)
    · exact Or.inl hup
  · intro h o n hn ho hparent
    have settled := h o (Finmap.mem_of_lookup_eq_some hn) ho
    rw [Settled,up_of_lookup t hn] at settled
    exact settled.resolve_left (fun hup => hup hparent)

theorem length_overloadedNodes (H : TreeOrder PeerId) (t : StreamTree PeerId) :
    (t.overloadedNodes H).length ≤ t.nodes.keys.card := by
  rw [overloadedNodes,List.length_map,← H.length_order .nodes t.nodes.keys,← H.iter_keys,
    List.length_map]
  exact List.length_filter_le _ _

theorem length_orphans (H : TreeOrder PeerId) (t : StreamTree PeerId) :
    (t.orphans H).length ≤ t.nodes.keys.card := by
  rw [orphans,List.length_map,← H.length_order .nodes t.nodes.keys,← H.iter_keys,
    List.length_map]
  exact List.length_filter_le _ _

theorem rebalances_iff (H : TreeOrder PeerId) (t : StreamTree PeerId) :
    Rebalances t ↔ ¬ ((t.rebalanceCandidates H).isEmpty || (t.overloadedNodes H).isEmpty) := by
  have listed : ∀ p : TreeNode PeerId → Bool,
      (((H.iter .nodes t.nodes).filter (fun e => p e.2)).map Prod.fst).isEmpty = false ↔
        ∃ q n, t.nodes.lookup q = some n ∧ p n := by
    intro p
    rw [List.isEmpty_eq_false_iff_exists_mem]
    simp only [List.mem_map,List.mem_filter,HashOrder.mem_iter]
    constructor
    · rintro ⟨_,e,⟨hl,hp⟩,rfl⟩
      exact ⟨e.1,e.2,hl,hp⟩
    · rintro ⟨q,n,hl,hp⟩
      exact ⟨q,(q,n),⟨hl,hp⟩,rfl⟩
  rw [Rebalances,← listed isOverloaded,← listed hasSpareCapacity,Bool.or_eq_true,not_or,
    Bool.not_eq_true,Bool.not_eq_true]
  exact and_comm

/-- The early return. -/
theorem rebalance_early (H : TreeOrder PeerId) (h : ¬ Rebalances t) :
    (rebalance H t).1 = t.countRebalance := by
  have empty : (t.countRebalance.rebalanceCandidates H).isEmpty ||
      (t.countRebalance.overloadedNodes H).isEmpty :=
    not_not.mp (fun hgo => h ((rebalances_iff H t).mpr hgo))
  rw [rebalance]
  dsimp only
  rw [if_pos empty]

theorem source_of_orphan (H : TreeOrder PeerId) (t : StreamTree PeerId) {o : PeerId}
    (ho : o ∈ t.orphans H) : t.source ≠ some o := by
  simp only [orphans,List.mem_map,List.mem_filter,HashOrder.mem_iter,Bool.and_eq_true] at ho
  obtain ⟨e,⟨_,_,hsrc⟩,rfl⟩ := ho
  intro hs
  simp [hs] at hsrc

theorem parented_of_not_orphan (H : TreeOrder PeerId) (t : StreamTree PeerId) {o : PeerId}
    (hm : o ∈ t.nodes) (hsource : t.source ≠ none) (hs : t.source ≠ some o)
    (ho : o ∉ t.orphans H) : t.up o ≠ none := by
  intro hup
  obtain ⟨n,hn⟩ := Finmap.mem_iff.mp hm
  obtain ⟨src,hsrc⟩ := Option.ne_none_iff_exists'.mp hsource
  have hne : o ≠ src := fun h => hs (by rw [hsrc,h])
  rw [up_of_lookup t hn] at hup
  apply ho
  simp only [orphans,List.mem_map,List.mem_filter,HashOrder.mem_iter,Bool.and_eq_true]
  exact ⟨(o,n),⟨hn,by simp [hup],by simp [hsrc,hne]⟩,rfl⟩

theorem mem_adoptEach (H : TreeOrder PeerId) (r : StreamTree PeerId × Bool) (os : List PeerId)
    (x : PeerId) : x ∈ (os.foldl (adopt H) r).1.nodes ↔ x ∈ r.1.nodes := by
  induction os generalizing r with
  | nil => rfl
  | cons o os ih =>
    rw [List.foldl_cons,ih]
    exact mem_findParent H r.1 o x

theorem source_adoptEach (H : TreeOrder PeerId) (r : StreamTree PeerId × Bool)
    (os : List PeerId) : (os.foldl (adopt H) r).1.source = r.1.source :=
  (along_true (adopt H) r os).invariant
    (fun r' : StreamTree PeerId × Bool => r'.1.source = r.1.source) rfl
    (fun r' o hr _ => (source_findParent H r'.1 o).trans hr)

/-- What the moves of a rebalance keep: nodes, source and bounds. -/
structure Moved (t : StreamTree PeerId) (r : StreamTree PeerId × Bool) : Prop where
  keys : r.1.nodes.keys = t.nodes.keys
  source : r.1.source = t.source
  bounded : AllBounded r.1

theorem moveChild_moved (candidates : List PeerId) (overloaded : PeerId)
    (r : StreamTree PeerId × Bool) (child : PeerId) (h : Moved t r) :
    Moved t (moveChild candidates overloaded r child) := by
  refine ⟨?_,(source_moveChild candidates overloaded r child).trans h.source,
    moveChild_bounded candidates overloaded child r h.bounded⟩
  rw [← h.keys]
  ext x
  rw [Finmap.mem_keys,Finmap.mem_keys,mem_moveChild]

theorem relieve_moved (H : TreeOrder PeerId) (candidates : List PeerId)
    (r : StreamTree PeerId × Bool) (overloaded : PeerId) (h : Moved t r) :
    Moved t (relieve H candidates r overloaded) := by
  rw [relieve]
  cases r.1.nodes.lookup overloaded with
  | none => exact h
  | some n =>
    exact (along_true (moveChild candidates overloaded) r _).invariant (Moved t) h
      (fun r c hr _ => moveChild_moved candidates overloaded r c hr)

theorem relief_depthBelow (H : TreeOrder PeerId) (candidates : List PeerId)
    (r : StreamTree PeerId × Bool) {d : Nat} (os : List PeerId) (h : Moved t r)
    (hdepth : DepthBelow r.1 d) :
    Moved t (os.foldl (relieve H candidates) r) ∧
    DepthBelow (os.foldl (relieve H candidates) r).1 (d+absoluteMaxChildren*os.length) :=
  foldl_raises (P := fun (r : StreamTree PeerId × Bool) d => Moved t r ∧ DepthBelow r.1 d)
    (fun r o _ hr => ⟨relieve_moved H candidates r o hr.1,
      relieve_depthBelow H candidates r o hr.1.bounded hr.2⟩) ⟨h,hdepth⟩ os

theorem rebalance_settles (H : TreeOrder PeerId) (hbounds : AllBounded t)
    (hsource : t.source ≠ none) (hroom : DepthRoom t) (hgo : Rebalances t) :
    OrphansPlaced (rebalance H t).1 := by
  have hrun : ¬ ((t.countRebalance.rebalanceCandidates H).isEmpty ||
      (t.countRebalance.overloadedNodes H).isEmpty) := (rebalances_iff H t).mp hgo
  obtain ⟨q,n,hn,_⟩ := hgo.1
  have wide := hroom q n hn
  have hdepth : DepthBelow t
      (usizeMax-1-(absoluteMaxChildren+1)*t.nodes.keys.card) := by
    intro x m hm
    have below := hroom x m hm
    omega
  obtain ⟨moved,depths⟩ := relief_depthBelow (t := t) H
    (t.countRebalance.rebalanceCandidates H) (t.countRebalance,false)
    (t.countRebalance.overloadedNodes H) ⟨rfl,rfl,hbounds⟩ hdepth
  have hover := length_overloadedNodes H t.countRebalance
  rw [rebalance]
  dsimp only
  rw [if_neg hrun]
  generalize (t.countRebalance.overloadedNodes H).foldl
    (relieve H (t.countRebalance.rebalanceCandidates H)) (t.countRebalance,false) = r
    at moved depths
  have horphans := length_orphans H r.1
  rw [moved.keys] at horphans
  have total : usizeMax-1-(absoluteMaxChildren+1)*t.nodes.keys.card+
      absoluteMaxChildren*(t.countRebalance.overloadedNodes H).length+
      (r.1.orphans H).length ≤ usizeMax := by
    have hcard : t.countRebalance.nodes.keys.card = t.nodes.keys.card := rfl
    simp only [absoluteMaxChildren] at wide ⊢
    omega
  have hsrc : r.1.source = t.source := moved.source
  have settles := adoptEach_settles H r (r.1.orphans H) (by rwa [hsrc])
    (fun o ho => ⟨(mem_orphans H r.1 ho).1,source_of_orphan H r.1 ho⟩) depths total
  rw [orphansPlaced_iff]
  intro o hm ho
  rw [mem_adoptEach] at hm
  rw [source_adoptEach] at ho
  by_cases horphan : o ∈ r.1.orphans H
  · exact settles o horphan
  · exact adoptEach_settled H r _ (Or.inl (parented_of_not_orphan H r.1 hm (by rwa [hsrc]) ho
      horphan))

end Rebalance

/-- After a rebalance that does not return early a node is without a parent only if nobody else
accepts children, whatever moved before; one that returns early leaves the orphans as they
are. -/
theorem run_rebalance_orphans (config : TopologyConfig)
    (es : List (TreeOrder PeerId × TreeOp PeerId)) (H : TreeOrder PeerId)
    (hsource : (run config es).source ≠ none) :
    ((Rebalances (run config es) ∧ DepthRoom (run config es)) ∨
      (¬ Rebalances (run config es) ∧ OrphansPlaced (run config es)) →
        OrphansPlaced (rebalance H (run config es)).1) ∧
    (OrphansPlaced (rebalance H (run config es)).1 →
      Rebalances (run config es) ∨ OrphansPlaced (run config es)) := by
  have inv : BoundsInv (run config es) := (along_true step (new config) es).invariant BoundsInv
    (new_boundsInv config) (fun _ e h _ => step_boundsInv e h)
  constructor
  · rintro (⟨hgo,hroom⟩ | ⟨hstop,hplaced⟩)
    · exact rebalance_settles H inv.nodes hsource hroom hgo
    · rw [rebalance_early H hstop]
      exact hplaced
  · intro hplaced
    by_cases hgo : Rebalances (run config es)
    · exact Or.inl hgo
    · rw [rebalance_early H hgo] at hplaced
      exact Or.inr hplaced

/-- A relay that came before the source; the others join below it, and it is overloaded. -/
def relayBeforeSource : List (TreeOrder Nat × TreeOp Nat) :=
  [.addPeer 1 .relay 9,.setSource 0,.addPeer 2 .relay 0,.addPeer 3 .relay 0].map
    (fun op => (.ascending,op))

set_option maxRecDepth 20000 in
/-- The rebalance puts it below the source. -/
theorem run_rebalance_orphans_relayBeforeSource :
    (run .default relayBeforeSource).up 1 = none ∧
    OrphansPlaced (rebalance .ascending (run .default relayBeforeSource)).1 :=
  ⟨by decide +kernel,(run_rebalance_orphans .default relayBeforeSource .ascending
    (by decide +kernel)).1 (Or.inl ⟨by decide +kernel,by decide +kernel⟩)⟩

/-- Nobody else is there, so nobody is overloaded. -/
def waitingRelay : List (TreeOrder Nat × TreeOp Nat) :=
  [.addPeer 1 .relay 9,.setSource 0].map (fun op => (.ascending,op))

set_option maxRecDepth 20000 in
/-- The relay stays without a parent although the source accepts children. -/
theorem rebalance_leaves_orphan :
    (run .default waitingRelay).source = some 0 ∧
    (rebalance .ascending (run .default waitingRelay)).1.up 1 = none ∧
    (∃ n, (rebalance .ascending (run .default waitingRelay)).1.nodes.lookup 0 = some n ∧
      n.canAcceptChildren) ∧
    ¬ OrphansPlaced (rebalance .ascending (run .default waitingRelay)).1 := by
  have orphan : (rebalance .ascending (run .default waitingRelay)).1.up 1 = none := by
    decide +kernel
  have accepts : ∃ n, (rebalance .ascending (run .default waitingRelay)).1.nodes.lookup 0 =
      some n ∧ n.canAcceptChildren := by
    have any : ((rebalance .ascending (run .default waitingRelay)).1.nodes.lookup 0).any
        TreeNode.canAcceptChildren := by
      decide +kernel
    exact (Option.any_eq_true _ _).mp any
  refine ⟨by decide +kernel,orphan,accepts,?_⟩
  intro hplaced
  obtain ⟨source,hsource,ha⟩ := accepts
  have settled := orphansPlaced_iff.mp hplaced 1 (by decide +kernel) (by decide +kernel)
  exact (settled.resolve_left (fun hup => hup orphan)) 0 source hsource (by decide) ha

end OpenBroadcast.Overlay.StreamTree
