import OpenBroadcast.Framework.DoubleLink
import OpenBroadcast.Overlay.Mesh

namespace OpenBroadcast.Overlay.StreamMesh

variable {PeerId : Type} [DecidableEq PeerId]

/-- The set of peers that the mesh stores for `p`. -/
def peersOf (m : StreamMesh PeerId) (p : PeerId) : Finset PeerId :=
  match m.nodes.lookup p with
  | some n => n.peers
  | none => ∅

theorem peersOf_of_lookup (m : StreamMesh PeerId) {p : PeerId} {n : MeshNode PeerId}
    (h : m.nodes.lookup p = some n) : m.peersOf p = n.peers := by
  simp [peersOf,h]

theorem mem_of_peersOf (m : StreamMesh PeerId) {p q : PeerId} (h : q ∈ m.peersOf p) :
    p ∈ m.nodes := by
  by_contra hp
  simp [peersOf,Finmap.lookup_eq_none.mpr hp] at h

/-- Links are known at both ends, no node is linked with itself, and no node has more than
`maxMeshPeers` links. -/
structure Adjacent (m : StreamMesh PeerId) : Prop where
  paired : Mutual m.peersOf
  bounded : ∀ p, (m.peersOf p).card ≤ maxMeshPeers

/-- There is a node `p` and it has room for a link. -/
def HasRoom (m : StreamMesh PeerId) (p : PeerId) : Prop :=
  p ∈ m.nodes ∧ (m.peersOf p).card < maxMeshPeers

instance (m : StreamMesh PeerId) (p : PeerId) : Decidable (HasRoom m p) :=
  inferInstanceAs (Decidable (_ ∧ _))

theorem accepts_iff (m : StreamMesh PeerId) {p : PeerId} {n : MeshNode PeerId}
    (h : m.nodes.lookup p = some n) : n.canAcceptConnections ↔ HasRoom m p := by
  simp [MeshNode.canAcceptConnections,HasRoom,peersOf_of_lookup m h,
    Finmap.mem_of_lookup_eq_some h]

@[simp] theorem mem_update (m : StreamMesh PeerId) (p x : PeerId)
    (f : MeshNode PeerId → MeshNode PeerId) : x ∈ (m.update p f).nodes ↔ x ∈ m.nodes :=
  HashMap.mem_modify m.nodes p x f

theorem peersOf_addPeer (m : StreamMesh PeerId) (p q : PeerId) (h : HasRoom m p) :
    (m.update p (fun n => (n.addPeer q).1)).peersOf =
      Function.update m.peersOf p (insert q (m.peersOf p)) := by
  obtain ⟨n,hn⟩ := Finmap.mem_iff.mp h.1
  have accepts := (accepts_iff m hn).mpr h
  funext x
  by_cases hx : x = p
  · subst hx
    simp [peersOf,update,hn,MeshNode.addPeer,accepts]
  · simp [peersOf,update,hx]

theorem peersOf_addPeer_full (m : StreamMesh PeerId) (p q : PeerId) (h : ¬ HasRoom m p) :
    (m.update p (fun n => (n.addPeer q).1)).peersOf = m.peersOf := by
  funext x
  by_cases hx : x = p
  · subst hx
    cases hn : m.nodes.lookup x with
    | none => simp [peersOf,update,hn]
    | some n =>
      have refuses : ¬ n.canAcceptConnections := fun hc => h ((accepts_iff m hn).mp hc)
      simp [peersOf,update,hn,MeshNode.addPeer,refuses]
  · simp [peersOf,update,hx]

theorem peersOf_removePeer (m : StreamMesh PeerId) (p q : PeerId) :
    (m.update q (fun n => (n.removePeer p).1)).peersOf =
      Function.update m.peersOf q ((m.peersOf q).erase p) := by
  funext x
  by_cases hx : x = q
  · subst hx
    cases hn : m.nodes.lookup x <;> simp [peersOf,update,hn,MeshNode.removePeer]
  · simp [peersOf,update,hx]

theorem peersOf_insertNode (m : StreamMesh PeerId) (p : PeerId) (n : MeshNode PeerId) :
    (m.insertNode p n).peersOf = Function.update m.peersOf p n.peers := by
  funext x
  by_cases hx : x = p
  · subst hx; simp [peersOf,insertNode]
  · simp [peersOf,insertNode,hx]

/-- Both sides of a link between two nodes with room. -/
theorem link_adjacent (m : StreamMesh PeerId) (p q : PeerId) (h : Adjacent m) (hpq : p ≠ q)
    (hp : HasRoom m p) (hq : HasRoom m q) :
    Adjacent ((m.update p (fun n => (n.addPeer q).1)).update q (fun n => (n.addPeer p).1)) ∧
    ((m.update p (fun n => (n.addPeer q).1)).update q (fun n => (n.addPeer p).1)).peersOf =
      Function.update (Function.update m.peersOf p (insert q (m.peersOf p))) q
        (insert p (m.peersOf q)) := by
  have first := peersOf_addPeer m p q hp
  have room : HasRoom (m.update p (fun n => (n.addPeer q).1)) q := by
    refine ⟨by simpa using hq.1,?_⟩
    rw [first,Function.update_of_ne (Ne.symm hpq)]
    exact hq.2
  have both := peersOf_addPeer _ q p room
  rw [first,Function.update_of_ne (Ne.symm hpq)] at both
  refine ⟨⟨?_,?_⟩,both⟩
  · rw [both]
    exact h.paired.link hpq
  · intro x
    rw [both]
    by_cases hxq : x = q
    · subst hxq
      rw [Function.update_self]
      exact (Finset.card_insert_le _ _).trans hq.2
    · rw [Function.update_of_ne hxq]
      by_cases hxp : x = p
      · subst hxp
        rw [Function.update_self]
        exact (Finset.card_insert_le _ _).trans hp.2
      · rw [Function.update_of_ne hxp]
        exact h.bounded x

/-- A peer that is to be connected while the source has room, has room itself or is already
linked with the source. -/
def ConnectSafe (m : StreamMesh PeerId) (p : PeerId) : Prop :=
  ∀ s, m.source = some s → s ≠ p → HasRoom m s → p ∈ m.nodes → HasRoom m p ∨ s ∈ m.peersOf p

/-- The state of the candidate loop: a candidate that is not linked with `p` yet is another
node with room. -/
def Linkable (m : StreamMesh PeerId) (p : PeerId) (cs : List (PeerId × UInt64)) : Prop :=
  ∀ c ∈ cs, c.1 ≠ p ∧ (c.1 ∈ m.peersOf p ∨ HasRoom m c.1)

theorem connectEach_adjacent (p : PeerId) (r : StreamMesh PeerId × Bool)
    (cs : List (PeerId × UInt64)) (hn : (cs.map Prod.fst).Nodup) (h : Adjacent r.1)
    (hcs : Linkable r.1 p cs) : Adjacent (connectEach p r cs).1 := by
  induction cs generalizing r with
  | nil => exact h
  | cons c cs ih =>
    obtain ⟨hc,hn⟩ := List.nodup_cons.mp hn
    have tail : Linkable r.1 p cs := fun x hx => hcs x (by simp [hx])
    rw [connectEach]
    cases hp : r.1.nodes.lookup p with
    | none => exact ih r hn h tail
    | some node =>
      dsimp only
      split_ifs with hfull hmem hlive
      · exact h
      · exact ih r hn h tail
      · have room : HasRoom r.1 p := (accepts_iff r.1 hp).mp (by simpa using hfull)
        have hfresh : c.1 ∉ r.1.peersOf p := by rwa [peersOf_of_lookup _ hp]
        obtain ⟨hcp,hroom⟩ := hcs c (by simp)
        obtain ⟨linked,peers⟩ := link_adjacent r.1 p c.1 h (Ne.symm hcp) room
          (hroom.resolve_left hfresh)
        apply ih _ hn linked
        intro x hx
        have hxc : x.1 ≠ c.1 := fun hxc => hc (hxc ▸ List.mem_map_of_mem hx)
        obtain ⟨hxp,hx⟩ := tail x hx
        refine ⟨hxp,?_⟩
        rcases hx with hx | ⟨hm,hlt⟩
        · left
          rw [peers,Function.update_of_ne (Ne.symm hcp),Function.update_self]
          exact Finset.mem_insert_of_mem hx
        · right
          refine ⟨by simpa using hm,?_⟩
          rw [peers,Function.update_of_ne hxc,Function.update_of_ne hxp]
          exact hlt
      · obtain ⟨_,hroom⟩ := hcs c (by simp)
        have hfresh : c.1 ∉ r.1.peersOf p := by rwa [peersOf_of_lookup _ hp]
        exact absurd ((mem_update r.1 p c.1 _).mpr (hroom.resolve_left hfresh).1) hlive

/-- Linking with the source, and what it leaves for the candidates. -/
theorem connectToSource_adjacent (m : StreamMesh PeerId) (p : PeerId) (h : Adjacent m)
    (hp : p ∈ m.nodes) (safe : ConnectSafe m p) :
    Adjacent (m.connectToSource p).1 ∧
    ∀ c, c ≠ p → HasRoom m c →
      c ∈ (m.connectToSource p).1.peersOf p ∨ HasRoom (m.connectToSource p).1 c := by
  unfold connectToSource
  cases hs : m.source with
  | none => exact ⟨h,fun c _ hc => Or.inr hc⟩
  | some s =>
    dsimp only
    by_cases hsp : s = p
    · rw [if_pos hsp]
      exact ⟨h,fun c _ hc => Or.inr hc⟩
    · rw [if_neg hsp]
      cases hl : m.nodes.lookup s with
      | none => exact ⟨h,fun c _ hc => Or.inr hc⟩
      | some sourceNode =>
        dsimp only
        rw [if_pos ((mem_update m s p _).mpr hp)]
        split_ifs with hroom
        · have room : HasRoom m s := (accepts_iff m hl).mp hroom
          by_cases hmem : s ∈ m.peersOf p
          · -- Already linked: both insertions change nothing.
            have first : (m.update s (fun n => (n.addPeer p).1)).peersOf = m.peersOf := by
              rw [peersOf_addPeer m s p room,
                Finset.insert_eq_of_mem (h.paired p s hmem).1,Function.update_eq_self]
            have second : ((m.update s (fun n => (n.addPeer p).1)).update p
                (fun n => (n.addPeer s).1)).peersOf = m.peersOf := by
              by_cases hpr : HasRoom (m.update s (fun n => (n.addPeer p).1)) p
              · rw [peersOf_addPeer _ p s hpr,first,Finset.insert_eq_of_mem hmem,
                  Function.update_eq_self]
              · rw [peersOf_addPeer_full _ p s hpr,first]
            refine ⟨⟨by rw [second]; exact h.paired,by rw [second]; exact h.bounded⟩,?_⟩
            intro c _ hc
            exact Or.inr ⟨by simpa using hc.1,by rw [second]; exact hc.2⟩
          · have proom : HasRoom m p := (safe s hs hsp room hp).resolve_right hmem
            obtain ⟨linked,peers⟩ := link_adjacent m s p h hsp room proom
            refine ⟨linked,?_⟩
            intro c hcp hc
            by_cases hcs : c = s
            · subst hcs
              left
              rw [peers,Function.update_self]
              exact Finset.mem_insert_self _ _
            · right
              refine ⟨by simpa using hc.1,?_⟩
              rw [peers,Function.update_of_ne hcp,Function.update_of_ne hcs]
              exact hc.2
        · exact ⟨h,fun c _ hc => Or.inr hc⟩

theorem mem_connectCandidates (H : MeshOrder PeerId) (m : StreamMesh PeerId) (p : PeerId)
    (c : PeerId × UInt64) (h : c ∈ m.connectCandidates H p) : c.1 ≠ p ∧ HasRoom m c.1 := by
  simp only [connectCandidates,List.mem_insertionSort,List.mem_map,List.mem_filter,
    HashOrder.mem_iter,Bool.and_eq_true,decide_eq_true_eq] at h
  obtain ⟨e,⟨hl,hne,ha⟩,rfl⟩ := h
  exact ⟨hne,(accepts_iff m hl).mp ha⟩

theorem nodup_connectCandidates (H : MeshOrder PeerId) (m : StreamMesh PeerId) (p : PeerId) :
    ((m.connectCandidates H p).map Prod.fst).Nodup := by
  have keys := H.nodup .nodes m.nodes.keys
  rw [← H.iter_keys] at keys
  have filtered := keys.sublist (List.filter_sublist (p := fun e : PeerId × MeshNode PeerId =>
    e.1 ≠ p && e.2.canAcceptConnections) |>.map Prod.fst)
  unfold connectCandidates
  refine ((List.perm_insertionSort _ _).map Prod.fst).nodup_iff.mpr ?_
  rw [List.map_map]
  exact filtered

theorem connect_adjacent (H : MeshOrder PeerId) (m : StreamMesh PeerId) (p : PeerId)
    (h : Adjacent m) (safe : ConnectSafe m p) : Adjacent (connectPeerToMesh H m p).1 := by
  unfold connectPeerToMesh
  split_ifs with hp
  · obtain ⟨linked,left⟩ := connectToSource_adjacent m p h hp safe
    apply connectEach_adjacent p _ _ (nodup_connectCandidates H m p) linked
    intro c hc
    obtain ⟨hcp,hroom⟩ := mem_connectCandidates H m p c hc
    exact ⟨hcp,left c.1 hcp hroom⟩
  · exact h

/-- Every call of `connectPeerToMesh` that `rebalance` makes is safe in the mesh as it
then is. -/
def RebalanceSafe (H : MeshOrder PeerId) (m : StreamMesh PeerId) : Prop :=
  Along (rebalanceOne H) (fun r p => ConnectSafe r.1 p) (m,false) (m.peersNeedingConnections H)

/-- A node that becomes the source has no links, and every call of `connectPeerToMesh`
is safe. -/
def StepSafe (m : StreamMesh PeerId) (e : MeshOrder PeerId × MeshOp PeerId) : Prop :=
  match e.2 with
  | .setSource p => m.source = none → m.peersOf p = ∅
  | .addPeer _ _ _ => True
  | .removePeer p => ∀ node, m.nodes.lookup p = some node → m.source ≠ some p →
    RebalanceSafe e.1 (m.disconnect e.1 p node.peers)
  | .rebalance => RebalanceSafe e.1 m

theorem rebalance_adjacent (H : MeshOrder PeerId) (m : StreamMesh PeerId) (h : Adjacent m)
    (safe : RebalanceSafe H m) : Adjacent (rebalance H m).1 :=
  Along.invariant (fun r : StreamMesh PeerId × Bool => Adjacent r.1) safe h
    (fun r p hr hok => connect_adjacent H r.1 p hr hok)

/-- Writing a node without links over one that has none. -/
theorem insert_adjacent (m : StreamMesh PeerId) (p : PeerId) (n : MeshNode PeerId)
    (h : Adjacent m) (hp : m.peersOf p = ∅) (hn : n.peers = ∅) :
    Adjacent (m.insertNode p n) := by
  have peers : (m.insertNode p n).peersOf = m.peersOf := by
    rw [peersOf_insertNode,hn,← hp,Function.update_eq_self]
  exact ⟨by rw [peers]; exact h.paired,by rw [peers]; exact h.bounded⟩

/-- The loop that takes `p` out of the sets of the nodes listed. -/
theorem peersOf_unlist (m : StreamMesh PeerId) (p : PeerId) (cs : List PeerId) (x y : PeerId) :
    y ∈ (cs.foldl (fun m c => m.update c (fun n => (n.removePeer p).1)) m).peersOf x ↔
      y ∈ m.peersOf x ∧ ¬ (y = p ∧ x ∈ cs) := by
  induction cs generalizing m with
  | nil => simp
  | cons c cs ih =>
    rw [List.foldl_cons,ih,peersOf_removePeer]
    by_cases hx : x = c
    · subst hx
      rw [Function.update_self,Finset.mem_erase]
      by_cases hy : y = p <;> simp [hy]
    · simp [hx]

theorem disconnect_adjacent (H : MeshOrder PeerId) (m : StreamMesh PeerId) (p : PeerId)
    (node : MeshNode PeerId) (h : Adjacent m) (hl : m.nodes.lookup p = some node) :
    Adjacent (m.disconnect H p node.peers) := by
  have peers : ∀ x y, y ∈ (m.disconnect H p node.peers).peersOf x ↔
      x ≠ p ∧ y ≠ p ∧ y ∈ m.peersOf x := by
    intro x y
    by_cases hx : x = p
    · subst hx
      simp [disconnect,peersOf]
    · have erased : (m.disconnect H p node.peers).peersOf x =
          ((H.order (.peers p) node.peers).foldl
            (fun m c => m.update c (fun n => (n.removePeer p).1)) m).peersOf x := by
        simp [disconnect,peersOf,hx]
      rw [erased,peersOf_unlist,H.mem_order,← peersOf_of_lookup m hl]
      by_cases hy : y = p
      · subst hy
        -- Whoever lists `p` is listed by `p`.
        simpa [hx] using fun hm => (h.paired x y hm).1
      · simp [hx,hy]
  refine ⟨h.paired.remove p peers,?_⟩
  intro x
  refine (Finset.card_le_card ?_).trans (h.bounded x)
  intro y hy
  exact ((peers x y).mp hy).2.2

theorem peersOf_absent (m : StreamMesh PeerId) (p : PeerId) (hp : p ∉ m.nodes) :
    m.peersOf p = ∅ := by
  simp [peersOf,Finmap.lookup_eq_none.mpr hp]

theorem step_adjacent (m : StreamMesh PeerId) (e : MeshOrder PeerId × MeshOp PeerId)
    (h : Adjacent m) (safe : StepSafe m e) : Adjacent (m.step e) := by
  obtain ⟨H,op⟩ := e
  cases op with
  | setSource p =>
    simp only [step,setSource]
    split_ifs with hs
    · exact h
    · have inserted := insert_adjacent m p (MeshNode.new p .publisher true) h
        (safe (by simpa using hs)) rfl
      exact ⟨inserted.paired,inserted.bounded⟩
  | addPeer p role bandwidth =>
    simp only [step,addPeer]
    split_ifs with hp
    · exact h
    · apply connect_adjacent
      · exact insert_adjacent m p _ h (peersOf_absent m p hp) rfl
      · intro s _ _ _ hm
        refine Or.inl ⟨hm,?_⟩
        simp [peersOf_insertNode,MeshNode.new,maxMeshPeers]
  | removePeer p =>
    simp only [step,removePeer]
    cases hl : m.nodes.lookup p with
    | none => exact h
    | some node =>
      dsimp only
      split_ifs with hs
      · exact h
      · exact rebalance_adjacent H _ (disconnect_adjacent H m p node h hl) (safe node hl hs)
  | rebalance => exact rebalance_adjacent H m h safe

/-- In a run whose steps are all safe, in every state: a linked peer is in the mesh, knows
the other end and is not the node itself, and no node has more than five links. -/
theorem run_adjacent (es : List (MeshOrder PeerId × MeshOp PeerId))
    (safe : Along step StepSafe new es) (a b : PeerId) :
    (b ∈ (run es).peersOf a → b ∈ (run es).nodes ∧ a ∈ (run es).peersOf b ∧ a ≠ b) ∧
    ((run es).peersOf a).card ≤ maxMeshPeers := by
  have start : Adjacent (new : StreamMesh PeerId) :=
    ⟨by simp [Mutual,peersOf,new],by simp [peersOf,new]⟩
  have adjacent : Adjacent (run es) := safe.invariant Adjacent start step_adjacent
  refine ⟨?_,adjacent.bounded a⟩
  intro hb
  obtain ⟨ha,hne⟩ := adjacent.paired a b hb
  exact ⟨mem_of_peersOf _ ha,ha,hne⟩

theorem connectSafe_of_room (m : StreamMesh PeerId) (p : PeerId) (h : HasRoom m p) :
    ConnectSafe m p :=
  fun _ _ _ _ _ => Or.inl h

/-- A relay leaves a mesh of a source and three relays. -/
def meshLeave : List (MeshOrder Nat × MeshOp Nat) :=
  [.setSource 0,.addPeer 1 .relay 9,.addPeer 2 .relay 5,.addPeer 3 .relay 0,
    .removePeer 2].map (fun op => (.ascending,op))

set_option maxRecDepth 20000 in
theorem run_adjacent_meshLeave :
    (run meshLeave).peersOf 1 = {0,3} ∧
    ∀ a b, (b ∈ (run meshLeave).peersOf a →
        b ∈ (run meshLeave).nodes ∧ a ∈ (run meshLeave).peersOf b ∧ a ≠ b) ∧
      ((run meshLeave).peersOf a).card ≤ maxMeshPeers := by
  refine ⟨by decide +kernel,run_adjacent meshLeave ?_⟩
  refine ⟨fun _ => rfl,trivial,trivial,trivial,?_,trivial⟩
  intro node hnode _
  rw [← peersOf_of_lookup _ hnode,RebalanceSafe,
    show peersNeedingConnections _ _ = [0,1,3] by decide +kernel]
  exact ⟨connectSafe_of_room _ _ (by decide +kernel),connectSafe_of_room _ _ (by decide +kernel),
    connectSafe_of_room _ _ (by decide +kernel),trivial⟩

/-- A peer with a link becomes the source. -/
def lateSource : List (MeshOrder Nat × MeshOp Nat) :=
  [.addPeer 0 .relay 0,.addPeer 1 .relay 0,.setSource 0].map (fun op => (.ascending,op))

/-- Two full groups; when 5 leaves, 1 takes the last place of 6 before 6 itself is visited,
and the source, which still has room, then writes down a link with 6. -/
def filledUp : List (MeshOrder Nat × MeshOp Nat) :=
  [.setSource 0,.addPeer 1 .relay 9,.addPeer 2 .relay 9,.addPeer 3 .relay 9,
    .addPeer 4 .relay 9,.addPeer 5 .relay 9,.addPeer 6 .relay 0,.addPeer 7 .relay 0,
    .addPeer 8 .relay 0,.addPeer 9 .relay 0,.addPeer 10 .relay 0].map
      (fun op => (.ascending,op))++
  [((HashOrder.ascending.promote 6).promote 1,.removePeer 5)]

set_option maxRecDepth 20000 in
theorem links_one_sided :
    (0 ∈ (run lateSource).peersOf 1 ∧ 1 ∉ (run lateSource).peersOf 0) ∧
    (6 ∈ (run filledUp).peersOf 0 ∧ 0 ∉ (run filledUp).peersOf 6) := by
  decide +kernel

end OpenBroadcast.Overlay.StreamMesh
