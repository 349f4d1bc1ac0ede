import OpenBroadcast.Framework.CachedDepth
import OpenBroadcast.Overlay.TreeBounds

namespace OpenBroadcast.Overlay.StreamTree

variable {PeerId : Type} [DecidableEq PeerId]

/-- The parents and depths that the tree keeps. -/
def seats (t : StreamTree PeerId) : Seats PeerId :=
  fun p => (t.nodes.lookup p).map (fun n => (n.parent,n.depth))

section Seats

variable {t : StreamTree PeerId}

theorem seats_of_lookup {p : PeerId} {n : TreeNode PeerId} (h : t.nodes.lookup p = some n) :
    t.seats p = some (n.parent,n.depth) := by
  simp [seats,h]

theorem lookup_of_seats {p : PeerId} {r : Option PeerId} {d : Nat}
    (h : t.seats p = some (r,d)) : ∃ n, t.nodes.lookup p = some n ∧ n.parent = r ∧ n.depth = d := by
  obtain ⟨n,hn,heq⟩ := Option.map_eq_some_iff.mp h
  cases heq
  exact ⟨n,hn,rfl,rfl⟩

theorem seats_update {p : PeerId} {f : TreeNode PeerId → TreeNode PeerId}
    (hparent : ∀ n, (f n).parent = n.parent) (hdepth : ∀ n, (f n).depth = n.depth) :
    (t.update p f).seats = t.seats := by
  funext x
  by_cases hx : x = p
  · subst hx
    cases hl : t.nodes.lookup x <;> simp [seats,update,hl,hparent,hdepth]
  · simp [seats,update,hx]

theorem seats_reseat {p : PeerId} {n : TreeNode PeerId} {f : TreeNode PeerId → TreeNode PeerId}
    (hn : t.nodes.lookup p = some n) :
    (t.update p f).seats = Function.update t.seats p (some ((f n).parent,(f n).depth)) := by
  funext x
  by_cases hx : x = p
  · subst hx
    simp [seats,update,hn]
  · simp [seats,update,hx]

theorem seats_update_absent {p : PeerId} {f : TreeNode PeerId → TreeNode PeerId}
    (hp : t.nodes.lookup p = none) : (t.update p f).seats = t.seats := by
  simp [update,HashMap.modify,hp]

theorem seats_insertNode (p : PeerId) (n : TreeNode PeerId) :
    (t.insertNode p n).seats = Function.update t.seats p (some (n.parent,n.depth)) := by
  funext x
  by_cases hx : x = p
  · subst hx
    simp [seats,insertNode]
  · simp [seats,insertNode,hx]

theorem seats_erase (p : PeerId) :
    ({ t with nodes := t.nodes.erase p } : StreamTree PeerId).seats =
      Function.update t.seats p none := by
  funext x
  by_cases hx : x = p
  · subst hx
    simp [seats]
  · simp [seats,hx]

@[simp] theorem depth_addChild (n : TreeNode PeerId) (p : PeerId) :
    (n.addChild p).1.depth = n.depth := by
  unfold TreeNode.addChild
  split_ifs <;> rfl

theorem seats_addChild (p q : PeerId) :
    (t.update q (fun parent => (parent.addChild p).1)).seats = t.seats :=
  seats_update (fun n => parent_addChild n p) (fun n => depth_addChild n p)

theorem seats_removeChild (p q : PeerId) :
    (t.update q (fun parent => (parent.removeChild p).1)).seats = t.seats :=
  seats_update (fun _ => rfl) (fun _ => rfl)

theorem seats_attach (p q : PeerId) (d : Nat) :
    (t.attach p q d).seats =
      if p ∈ t.nodes then Function.update t.seats p (some (some q,d+1)) else t.seats := by
  unfold attach
  split_ifs with hp
  · obtain ⟨n,hn⟩ := Finmap.mem_iff.mp ((mem_update t q p (fun n => (n.addChild p).1)).mpr hp)
    rw [seats_reseat hn,seats_addChild]
  · have hnone := Finmap.lookup_eq_none.mpr
      (mt (mem_update t q p (fun n => (n.addChild p).1)).mp hp)
    rw [seats_update_absent hnone,seats_addChild]

theorem seats_clearParent {c : PeerId} {n : TreeNode PeerId} (hn : t.nodes.lookup c = some n) :
    (t.clearParent c).seats = Function.update t.seats c (some (none,n.depth)) :=
  seats_reseat hn

theorem seats_detach (p : PeerId) (r : Option PeerId) :
    (t.detach p r).seats = Function.update t.seats p none := by
  cases r with
  | none => exact seats_erase p
  | some q =>
    have hremoved := seats_removeChild (t := t) p q
    rw [← hremoved]
    exact seats_erase p

theorem seats_transfer {child : PeerId} {n : TreeNode PeerId}
    (hn : t.nodes.lookup child = some n) (overloaded best : PeerId) (depth : Nat) :
    (t.transfer overloaded best child depth).seats =
      Function.update t.seats child (some (some best,depth+1)) := by
  unfold transfer
  have hp : child ∈ ((t.update overloaded (fun n => (n.removeChild child).1)).update best
      (fun n => (n.addChild child).1)).nodes := by
    rw [mem_update,mem_update]
    exact Finmap.mem_of_lookup_eq_some hn
  obtain ⟨m,hm⟩ := Finmap.mem_iff.mp hp
  rw [seats_reseat hm,seats_addChild,seats_removeChild]

end Seats

section Conditions

/-- A search for a parent of `p` keeps depths: below the best candidates, the children of `p` are
where they are already, and where there is none, `p` is a root of depth 0. -/
structure DepthSafe (t : StreamTree PeerId) (p : PeerId) : Prop where
  attached : ∀ q nq, t.source ≠ none → t.source ≠ some p → Candidate t p q nq →
    (∀ q' nq', Candidate t p q' nq' → ¬ outranks (rank (q',nq')) (rank (q,nq))) →
    ∀ c nc, t.nodes.lookup c = some nc → nc.parent = some p → nc.depth = nq.depth+2
  kept : (t.source = none ∨ t.source = some p ∨ ∀ q nq, ¬ Candidate t p q nq) →
    ∀ n, t.nodes.lookup p = some n → n.parent = none → n.depth = 0 ∧
      ∀ c nc, t.nodes.lookup c = some nc → nc.parent = some p → nc.depth = 1

/-- The candidate that takes over the child, if there is one. -/
def moveWinner (t : StreamTree PeerId) (child : PeerId) (childNode : TreeNode PeerId)
    (candidates : List PeerId) : Option (PeerId × TreeNode PeerId) :=
  (scan (fun a b => decide (a > b)) (t.candidateScore childNode) f32NegInfinity
    (t.moveCandidates child candidates)).1

/-- Moving `child` keeps depths: its children are already where they are below the winner. -/
def MoveDepthSafe (candidates : List PeerId) (t : StreamTree PeerId) (child : PeerId) : Prop :=
  ∀ childNode best, t.nodes.lookup child = some childNode →
    t.moveWinner child childNode candidates = some best →
    ∀ c nc, t.nodes.lookup c = some nc → nc.parent = some child → nc.depth = best.2.depth+2

/-- All children of a node that goes are known to it, and find new places that keep depths. -/
def RemovalDepthSafe (H : TreeOrder PeerId) (t : StreamTree PeerId) (p : PeerId)
    (node : TreeNode PeerId) : Prop :=
  (∀ c nc, t.nodes.lookup c = some nc → nc.parent = some p → c ∈ node.children) ∧
    Along (reattach H) (fun t c => DepthSafe (t.clearParent c) c) (t.detach p node.parent)
      (H.order (.children p) node.children)

def RebalanceDepthSafe (H : TreeOrder PeerId) (t : StreamTree PeerId) : Prop :=
  let candidates := t.rebalanceCandidates H
  let overloaded := t.overloadedNodes H
  candidates ≠ [] → overloaded ≠ [] →
    Along (relieve H candidates) (fun r o => ∀ n, r.1.nodes.lookup o = some n →
      Along (moveChild candidates o) (fun r c => MoveDepthSafe candidates r.1 c) r
        (childrenToMove H o n)) (t,false) overloaded ∧
    let r := overloaded.foldl (relieve H candidates) (t,false)
    Along (adopt H) (fun r o => DepthSafe r.1 o) r (r.1.orphans H)

/-- Every place that the operation gives to a node keeps depths, in the tree as it then is. -/
def StepDepthSafe (t : StreamTree PeerId) (e : TreeOrder PeerId × TreeOp PeerId) : Prop :=
  match e.2 with
  | .removePeer p => ∀ node, t.nodes.lookup p = some node → t.source ≠ some p →
    RemovalDepthSafe e.1 t p node
  | .temporaryDisconnect p _ now _ => ∀ node, t.nodes.lookup p = some node →
    t.source ≠ some p → RemovalDepthSafe e.1 (t.saveNode p node now) p node
  | .reconnection p => ∀ node time, t.disconnectedNodes.lookup p = some (node,time) →
    DepthSafe ((t.forgetNode p).insertNode p node.revived) p
  | .rebalance => RebalanceDepthSafe e.1 t.countRebalance
  | _ => True

end Conditions

section Searches

variable {t : StreamTree PeerId} {f : Seats PeerId} {loose loose' : PeerId → Prop} {p : PeerId}

theorem findParent_absent (H : TreeOrder PeerId) (hp : p ∉ t.nodes) :
    (findParentForPeer H t p).1.seats = t.seats := by
  rcases findParent_cases H t p with ⟨hr,_⟩ | ⟨_,hr⟩ | ⟨q,n,_,_,_,_,hr⟩
  · rw [hr]
  · rw [hr]
  · rw [hr,seats_attach,if_neg hp]

/-- Seats that agree off `p` are the same up to what `p` has. -/
theorem update_seats_congr (hoff : ∀ x, x ≠ p → t.seats x = f x) (s : Option (Option PeerId × Nat)) :
    Function.update t.seats p s = Function.update f p s := by
  funext x
  by_cases hx : x = p
  · simp [hx]
  · rw [Function.update_of_ne hx,Function.update_of_ne hx]
    exact hoff x hx

theorem seats_eq_update (hoff : ∀ x, x ≠ p → t.seats x = f x) :
    t.seats = Function.update f p (t.seats p) := by
  rw [← update_seats_congr hoff,Function.update_eq_self]

/-- A node that may have been anywhere finds a place. -/
theorem findParent_placed (H : TreeOrder PeerId) (h : f.Placed loose)
    (hloose : ∀ c, loose c → c = p ∨ loose' c) (hoff : ∀ x, x ≠ p → t.seats x = f x)
    (hroot : ∀ r d, t.seats p = some (r,d) → r = none) (habsent : t.seats p = none → f p = none)
    (safe : DepthSafe t p) : (findParentForPeer H t p).1.seats.Placed loose' := by
  cases hs : t.seats p with
  | none =>
    have hp : p ∉ t.nodes := by
      rw [← Finmap.lookup_eq_none]
      simpa [seats] using hs
    have hsame : t.seats = f := by
      rw [seats_eq_update hoff,hs,← habsent hs,Function.update_eq_self]
    rw [findParent_absent H hp,hsame]
    exact h.absent (habsent hs) hloose
  | some seat =>
    obtain ⟨r,d⟩ := seat
    have hr := hroot r d hs
    subst hr
    obtain ⟨n,hn,hparent,hdepth⟩ := lookup_of_seats hs
    have hchild : ∀ c e, c ≠ p → f c = some (some p,e) →
        ∃ nc, t.nodes.lookup c = some nc ∧ nc.parent = some p ∧ nc.depth = e := by
      intro c e hc hfc
      exact lookup_of_seats ((hoff c hc).trans hfc)
    have hkept : (t.source = none ∨ t.source = some p ∨ ∀ q nq, ¬ Candidate t p q nq) →
        t.seats.Placed loose' := by
      intro hnot
      obtain ⟨hzero,hone⟩ := safe.kept hnot n hn hparent
      have hupdate : t.seats = Function.update f p (some (none,0)) := by
        rw [seats_eq_update hoff,hs,← hdepth,hzero]
      have hfits : f.Fits p none 0 := rfl
      rw [hupdate]
      apply h.seat hloose hfits
      intro c e hc hfc
      obtain ⟨nc,hnc,hcp,hce⟩ := hchild c e hc hfc
      rw [← hce]
      exact hone c nc hnc hcp
    rcases findParent_cases H t p with ⟨hr,hnot⟩ | ⟨hsource,hr⟩ |
      ⟨q,nq,hsome,hsource,hc,hbest,hr⟩
    · rw [hr]
      apply hkept
      rcases hnot with hnone | ⟨_,hnone⟩
      · exact .inl hnone
      · exact .inr (.inr hnone)
    · rw [hr]
      exact hkept (.inr (.inl hsource))
    · have hupdate : (t.attach p q nq.depth).seats =
          Function.update f p (some (some q,nq.depth+1)) := by
        rw [seats_attach,if_pos (Finmap.mem_of_lookup_eq_some hn)]
        exact update_seats_congr hoff _
      rw [hr,hupdate]
      apply h.seat hloose
      · exact ⟨hc.ne,nq.parent,nq.depth,by rw [← hoff q hc.ne,seats_of_lookup hc.found],rfl⟩
      · intro c e hcp hfc
        obtain ⟨nc,hnc,hparent,hce⟩ := hchild c e hcp hfc
        rw [← hce]
        exact safe.attached q nq hsome hsource hc hbest c nc hnc hparent

/-- An orphan finds a place or stays. -/
theorem adopt_placed (H : TreeOrder PeerId) (h : t.seats.Placed (fun _ => False))
    (safe : DepthSafe t p) : (findParentForPeer H t p).1.seats.Placed (fun _ => False) := by
  rcases findParent_cases H t p with ⟨hr,_⟩ | ⟨_,hr⟩ | ⟨q,nq,hsome,hsource,hc,hbest,hr⟩
  · rw [hr]
    exact h
  · rw [hr]
    exact h
  · rw [hr,seats_attach]
    split_ifs with hp
    · apply h.seat (fun _ hno => .inr hno)
      · exact ⟨hc.ne,nq.parent,nq.depth,seats_of_lookup hc.found,rfl⟩
      · intro c e _ hce
        obtain ⟨nc,hnc,hparent,rfl⟩ := lookup_of_seats hce
        exact safe.attached q nq hsome hsource hc hbest c nc hnc hparent
    · exact h

/-- The children that a removed node leaves behind, one after the other. -/
theorem reattach_placed (H : TreeOrder PeerId) (cs : List PeerId)
    (h : t.seats.Placed (fun c => c ∈ cs))
    (safe : Along (reattach H) (fun t c => DepthSafe (t.clearParent c) c) t cs) :
    (cs.foldl (reattach H) t).seats.Placed (fun _ => False) := by
  induction cs generalizing t with
  | nil => simpa using h
  | cons c cs ih =>
    apply ih _ safe.2
    apply findParent_placed H h (fun x hx => by simpa using hx) _ _ _ safe.1
    · intro x hx
      simp [seats,clearParent,update,hx]
    · intro r d hr
      cases hl : t.nodes.lookup c with
      | none => simp [seats,clearParent,update,hl] at hr
      | some n =>
        rw [seats_clearParent hl] at hr
        have hseat : none = r ∧ n.depth = d := by simpa using hr
        exact hseat.1.symm
    · intro hnone
      cases hl : t.nodes.lookup c with
      | none => simp [seats,hl]
      | some n =>
        rw [seats_clearParent hl] at hnone
        simp at hnone

theorem removal_placed (H : TreeOrder PeerId) (node : TreeNode PeerId)
    (h : t.seats.Placed (fun _ => False)) (safe : RemovalDepthSafe H t p node) :
    ((H.order (.children p) node.children).foldl (reattach H)
      (t.detach p node.parent)).seats.Placed (fun _ => False) := by
  apply reattach_placed H _ _ safe.2
  rw [seats_detach]
  apply h.remove (fun _ hno => hno.elim)
  intro c d _ hc
  obtain ⟨nc,hnc,hparent,_⟩ := lookup_of_seats hc
  exact (H.mem_order _ _ c).mpr (safe.1 c nc hnc hparent)

end Searches

section Moves

variable {t : StreamTree PeerId}

/-- What moving one child does, with the depth that the child gets. -/
theorem moveChild_eq (candidates : List PeerId) (overloaded : PeerId)
    (r : StreamTree PeerId × Bool) (child : PeerId) :
    moveChild candidates overloaded r child = r ∨
    ∃ childNode best, r.1.nodes.lookup child = some childNode ∧
      r.1.moveWinner child childNode candidates = some best ∧
      best ∈ r.1.moveCandidates child candidates ∧
      moveChild candidates overloaded r child =
        (r.1.transfer overloaded best.1 child best.2.depth,true) := by
  unfold moveChild
  cases hl : r.1.nodes.lookup child with
  | none => exact .inl rfl
  | some childNode =>
    dsimp only
    have hwinner : (scan (fun a b => decide (a > b)) (r.1.candidateScore childNode) f32NegInfinity
        (r.1.moveCandidates child candidates)).1 = r.1.moveWinner child childNode candidates := rfl
    have hfrom := scan_mem (fun a b => decide (a > b)) (r.1.candidateScore childNode)
      f32NegInfinity (r.1.moveCandidates child candidates)
    rw [hwinner] at hfrom
    cases hr : scan (fun a b => decide (a > b)) (r.1.candidateScore childNode) f32NegInfinity
        (r.1.moveCandidates child candidates) with
    | mk best key =>
      rw [hr] at hwinner
      cases best with
      | none => exact .inl rfl
      | some best =>
        have hmem := hfrom best hwinner.symm
        refine .inr ⟨childNode,best,rfl,hwinner.symm,hmem,?_⟩
        obtain ⟨_,_,hbest,_⟩ := (mem_moveCandidates r.1 child candidates best).mp hmem
        have hseat : ((r.1.update overloaded (fun n => (n.removeChild child).1)).update best.1
            (fun n => (n.addChild child).1)).seats best.1 = some (best.2.parent,best.2.depth) := by
          rw [seats_addChild,seats_removeChild]
          exact seats_of_lookup hbest
        obtain ⟨m,hm,_,hdepth⟩ := lookup_of_seats hseat
        dsimp only
        rw [hm]
        dsimp only
        rw [hdepth]
        rfl

theorem moveChild_placed (candidates : List PeerId) (overloaded : PeerId)
    (r : StreamTree PeerId × Bool) (child : PeerId) (h : r.1.seats.Placed (fun _ => False))
    (safe : MoveDepthSafe candidates r.1 child) :
    (moveChild candidates overloaded r child).1.seats.Placed (fun _ => False) := by
  rcases moveChild_eq candidates overloaded r child with hr | ⟨childNode,best,hl,hwin,hmem,hr⟩
  · rw [hr]
    exact h
  · obtain ⟨_,hne,hbest,_⟩ := (mem_moveCandidates r.1 child candidates best).mp hmem
    rw [hr,seats_transfer hl]
    apply h.seat (fun _ hno => .inr hno)
    · exact ⟨hne,best.2.parent,best.2.depth,seats_of_lookup hbest,rfl⟩
    · intro c e _ hc
      obtain ⟨nc,hnc,hparent,rfl⟩ := lookup_of_seats hc
      exact safe childNode best hl hwin c nc hnc hparent

theorem rebalance_placed (H : TreeOrder PeerId) (h : t.seats.Placed (fun _ => False))
    (safe : RebalanceDepthSafe H t.countRebalance) :
    (rebalance H t).1.seats.Placed (fun _ => False) := by
  have start : t.countRebalance.seats.Placed (fun _ => False) := h
  unfold rebalance
  dsimp only
  split_ifs with hempty
  · exact start
  · simp only [Bool.or_eq_true,List.isEmpty_iff,not_or] at hempty
    obtain ⟨moves,adoptions⟩ := safe hempty.1 hempty.2
    have hmoved := moves.invariant
      (fun r : StreamTree PeerId × Bool => r.1.seats.Placed (fun _ => False)) start (by
        intro r o hr hok
        unfold relieve
        cases hl : r.1.nodes.lookup o with
        | none => exact hr
        | some n =>
          exact (hok n hl).invariant
            (fun r : StreamTree PeerId × Bool => r.1.seats.Placed (fun _ => False)) hr
            (fun r c hr hok => moveChild_placed _ o r c hr hok))
    exact adoptions.invariant
      (fun r : StreamTree PeerId × Bool => r.1.seats.Placed (fun _ => False)) hmoved
      (fun r o hr hok => adopt_placed H hr hok)

end Moves

section Steps

variable {t : StreamTree PeerId} {p : PeerId}

/-- A node without links is put in, in the place of one that may have been there. -/
theorem insert_findParent_placed (H : TreeOrder PeerId) {n : TreeNode PeerId}
    (h : t.seats.Placed (fun _ => False)) (hn : n.parent = none)
    (safe : DepthSafe (t.insertNode p n) p) :
    (findParentForPeer H (t.insertNode p n) p).1.seats.Placed (fun _ => False) := by
  apply findParent_placed H h (fun _ hno => .inr hno) _ _ _ safe
  · intro x hx
    simp [seats_insertNode,hx]
  · intro r d hr
    have hseat : n.parent = r ∧ n.depth = d := by simpa [seats_insertNode] using hr
    rw [← hseat.1,hn]
  · intro hnone
    simp [seats_insertNode] at hnone

/-- Nobody has a parent that is not in the tree. -/
theorem parent_mem (h : t.seats.Placed (fun _ => False)) {c : PeerId} {nc : TreeNode PeerId}
    (hc : t.nodes.lookup c = some nc) (hp : nc.parent = some p) : p ∈ t.nodes := by
  have hseat : t.seats c = some (some p,nc.depth) := by
    rw [seats_of_lookup hc,hp]
  obtain ⟨r,e,hpe,_⟩ := (h.link c p nc.depth hseat).resolve_left id
  obtain ⟨m,hm,_⟩ := lookup_of_seats hpe
  exact Finmap.mem_of_lookup_eq_some hm

/-- A new peer has no children. -/
theorem addPeer_depthSafe (h : t.seats.Placed (fun _ => False)) (hp : p ∉ t.nodes)
    {n : TreeNode PeerId} (hparent : n.parent = none) (hdepth : n.depth = 0) :
    DepthSafe (t.insertNode p n) p := by
  have hchildless : ∀ c nc, (t.insertNode p n).nodes.lookup c = some nc → nc.parent ≠ some p := by
    intro c nc hc hcp
    by_cases hx : c = p
    · subst hx
      have heq : n = nc := by simpa [insertNode] using hc
      rw [← heq,hparent] at hcp
      cases hcp
    · have hold : t.nodes.lookup c = some nc := by simpa [insertNode,hx] using hc
      exact hp (parent_mem h hold hcp)
  constructor
  · intro _ _ _ _ _ _ c nc hc hcp
    exact absurd hcp (hchildless c nc hc)
  · intro _ m hm _
    have heq : n = m := by simpa [insertNode] using hm
    refine ⟨heq ▸ hdepth,?_⟩
    intro c nc hc hcp
    exact absurd hcp (hchildless c nc hc)

theorem step_placed (e : TreeOrder PeerId × TreeOp PeerId) (hinv : BoundsInv t)
    (h : t.seats.Placed (fun _ => False)) (safe : StepDepthSafe t e) :
    (t.step e).seats.Placed (fun _ => False) := by
  obtain ⟨H,op⟩ := e
  have outcome := step_outcome H t op
  generalize t.step (H,op) = t' at outcome ⊢
  cases outcome with
  | unchanged => exact h
  | @sourced p hsource =>
    have hfits : t.seats.Fits p none 0 := rfl
    change (t.insertNode p (TreeNode.source p)).seats.Placed (fun _ => False)
    rw [seats_insertNode]
    apply h.seat (fun _ hno => .inr hno) hfits
    intro c d _ hc
    obtain ⟨nc,hnc,hparent,_⟩ := lookup_of_seats hc
    have hup := hinv.rooted hsource c
    rw [up_of_lookup t hnc,hparent] at hup
    cases hup
  | joined hp => exact insert_findParent_placed H h rfl (addPeer_depthSafe h hp rfl rfl)
  | @removed _ node hl hs => exact removal_placed H node h (safe node hl hs)
  | @disconnected p _ now _ node hl hs =>
    have hsaved : (t.saveNode p node now).seats.Placed (fun _ => False) := h
    exact removal_placed H node hsaved (safe node hl hs)
  | @reconnected p node time hl =>
    have hforgotten : (t.forgetNode p).seats.Placed (fun _ => False) := h
    exact insert_findParent_placed H hforgotten (parent_revived node) (safe node time hl)
  | rebalanced => exact rebalance_placed H h safe
  | remeasured hf =>
    rw [seats_update hf.parent hf.depth]
    exact h

end Steps

section Correct

/-- Every node is one below its parent, the source has depth 0, and the path to a node has one peer
more than its depth. -/
structure DepthCorrect (t : StreamTree PeerId) : Prop where
  link : ∀ c nc p, t.nodes.lookup c = some nc → nc.parent = some p →
    ∃ np, t.nodes.lookup p = some np ∧ nc.depth = np.depth+1
  source : ∀ s, t.source = some s → ∃ n, t.nodes.lookup s = some n ∧ n.depth = 0
  path : ∀ p n, t.nodes.lookup p = some n →
    ∃ fuel path, t.getPathToPeer fuel p = some (some path) ∧ path.length = n.depth+1

theorem depthCorrect_of_placed {t : StreamTree PeerId} (hinv : BoundsInv t)
    (h : t.seats.Placed (fun _ => False)) : DepthCorrect t := by
  constructor
  · intro c nc p hc hp
    have hseat : t.seats c = some (some p,nc.depth) := by
      rw [seats_of_lookup hc,hp]
    obtain ⟨r,e,hpe,hd⟩ := (h.link c p nc.depth hseat).resolve_left id
    obtain ⟨np,hnp,_,rfl⟩ := lookup_of_seats hpe
    exact ⟨np,hnp,hd⟩
  · intro s hs
    obtain ⟨⟨n,hn,hparent⟩,_⟩ := hinv.bounded.source s hs
    have hseat : t.seats s = some (none,n.depth) := by
      rw [seats_of_lookup hn,hparent]
    exact ⟨n,hn,(h.root s n.depth hseat).resolve_left id⟩
  · intro p n hn
    obtain ⟨l,hl,hlength⟩ := h.climb (seats_of_lookup hn) []
    have hget : (fun a => (t.seats a).map Prod.fst) = t.parentField := by
      funext a
      simp [seats,parentField,Function.comp_def]
    rw [hget] at hl
    refine ⟨n.depth+1,l.reverse,?_,by simpa using hlength⟩
    have hne : l ≠ [] := by
      intro hnil
      simp [hnil] at hlength
    rw [getPathToPeer,if_pos (Finmap.mem_of_lookup_eq_some hn),hl]
    simp [hne]

/-- In a run whose places all keep depths, the depths are correct in every state. -/
theorem run_depthCorrect (config : TopologyConfig) (es : List (TreeOrder PeerId × TreeOp PeerId))
    (safe : Along step StepDepthSafe (new config) es) :
    ∀ done, done <+: es → DepthCorrect (run config done) := by
  intro done hdone
  have start : BoundsInv (new config : StreamTree PeerId) ∧
      (new config : StreamTree PeerId).seats.Placed (fun _ => False) := by
    refine ⟨new_boundsInv config,?_,?_⟩
    · intro c p d hc
      simp [seats,new] at hc
    · intro c d hc
      simp [seats,new] at hc
  obtain ⟨hinv,hplaced⟩ := (safe.of_prefix hdone).invariant
    (fun t : StreamTree PeerId => BoundsInv t ∧ t.seats.Placed (fun _ => False)) start
    (fun t e ht hok => ⟨step_boundsInv e ht.1,step_placed e ht.1 ht.2 hok⟩)
  exact depthCorrect_of_placed hinv hplaced

/-- A peer that is nobody's parent can be attached anywhere, if there is a place for it. -/
theorem depthSafe_of_leaf {t : StreamTree PeerId} {p : PeerId}
    (hleaf : ∀ c ∈ t.nodes.keys, t.parentField c ≠ some (some p))
    (hplace : t.source ≠ none ∧ t.source ≠ some p ∧ ∃ q nq, Candidate t p q nq) :
    DepthSafe t p := by
  have hleaf : ∀ c nc, t.nodes.lookup c = some nc → nc.parent ≠ some p := by
    intro c nc hc hcp
    apply hleaf c (Finmap.mem_keys.mpr (Finmap.mem_of_lookup_eq_some hc))
    simp [parentField,hc,hcp]
  constructor
  · intro _ _ _ _ _ _ c nc hc hcp
    exact absurd hcp (hleaf c nc hc)
  · intro hnot
    obtain ⟨hsome,hsource,q,nq,hc⟩ := hplace
    rcases hnot with hnone | hself | hempty
    · exact absurd hnone hsome
    · exact absurd hself hsource
    · exact absurd hc (hempty q nq)

/-- A full source and a relay with one child, that leaves: its child comes one level higher. -/
def viewerMovesUp : List (TreeOrder Nat × TreeOp Nat) :=
  [.setSource 0,.addPeer 1 .relay 9,.addPeer 2 .relay 0,.addPeer 3 .relay 0,
    .addPeer 4 .relay 0,.addPeer 5 .consumer 0,.removePeer 1].map (fun op => (.ascending,op))

set_option maxRecDepth 20000 in
theorem run_depthCorrect_viewerMovesUp :
    (run .default viewerMovesUp).seats 5 = some (some 0,1) ∧
    DepthCorrect (run .default viewerMovesUp) := by
  refine ⟨by decide +kernel,run_depthCorrect .default viewerMovesUp ?_ _ (List.prefix_refl _)⟩
  refine ⟨trivial,trivial,trivial,trivial,trivial,trivial,?_,trivial⟩
  intro node hnode _
  have fields := congrArg (Option.map (fun n : TreeNode Nat => (n.parent,n.children))) hnode
  have hnode : (node.parent,node.children) = (some 0,{5}) :=
    Option.some.inj (fields.symm.trans (by decide +kernel))
  obtain ⟨hparent,hchildren⟩ := Prod.mk.inj hnode
  rw [RemovalDepthSafe,hparent,hchildren]
  constructor
  · have honly : ∀ c ∈ (run .default (viewerMovesUp.take 6)).nodes.keys,
        (run .default (viewerMovesUp.take 6)).parentField c = some (some 1) → c = 5 := by
      decide +kernel
    intro c nc hc hcp
    have hparent : (run .default (viewerMovesUp.take 6)).parentField c = some (some 1) :=
      (congrArg (Option.map TreeNode.parent) hc).trans (congrArg some hcp)
    exact Finset.mem_singleton.mpr
      (honly c (Finmap.mem_keys.mpr (Finmap.mem_of_lookup_eq_some hc)) hparent)
  · have hplace : ((((run .default (viewerMovesUp.take 6)).detach 1 (some 0)).clearParent
        5).nodes.lookup 0).map (fun n => n.canAcceptChildren && outranks (rank (0,n)) (usizeMax,0)) =
        some true := by decide +kernel
    obtain ⟨n,hn,hboth⟩ := Option.map_eq_some_iff.mp hplace
    obtain ⟨haccepts,hranked⟩ := Bool.and_eq_true_iff.mp hboth
    have hcandidate : Candidate (((run .default (viewerMovesUp.take 6)).detach 1
        (some 0)).clearParent 5) 5 0 n := ⟨hn,haccepts,by decide,hranked⟩
    exact ⟨depthSafe_of_leaf (by decide +kernel)
      ⟨by decide +kernel,by decide +kernel,0,n,hcandidate⟩,trivial⟩

/-- The relay 1 leaves while 5 hangs below it and 8 below 5: 5 takes the free place at the source,
and 8 keeps the depth that it had. -/
def relayWithSubtree : List (TreeOrder Nat × TreeOp Nat) :=
  [.setSource 0,.addPeer 1 .relay 0,.addPeer 2 .consumer 0,.addPeer 3 .consumer 0,
    .addPeer 4 .consumer 0,.addPeer 5 .relay 0,.addPeer 6 .consumer 0,.addPeer 7 .consumer 0,
    .addPeer 8 .consumer 0,.removePeer 1].map (fun op => (.ascending,op))

set_option maxRecDepth 20000 in
theorem removePeer_keeps_stale_depth :
    (run .default relayWithSubtree).seats 5 = some (some 0,1) ∧
    (run .default relayWithSubtree).seats 8 = some (some 5,3) ∧
    (run .default relayWithSubtree).getPathToPeer 5 8 = some (some [0,5,8]) ∧
    ¬ DepthCorrect (run .default relayWithSubtree) := by
  have h5 : (run .default relayWithSubtree).seats 5 = some (some 0,1) := by decide +kernel
  have h8 : (run .default relayWithSubtree).seats 8 = some (some 5,3) := by decide +kernel
  refine ⟨h5,h8,by decide +kernel,?_⟩
  intro h
  obtain ⟨n8,hn8,hparent,hdepth⟩ := lookup_of_seats h8
  obtain ⟨n5,hn5,hlink⟩ := h.link 8 n8 5 hn8 hparent
  have hseat : some (n5.parent,n5.depth) = some (some 0,1) := (seats_of_lookup hn5).symm.trans h5
  have hone : n5.depth = 1 := (Prod.mk.inj (Option.some.inj hseat)).2
  omega

end Correct

end OpenBroadcast.Overlay.StreamTree
