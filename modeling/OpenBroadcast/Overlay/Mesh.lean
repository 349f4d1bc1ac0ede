import Mathlib.Data.List.Sort
import OpenBroadcast.Overlay.Tree

namespace OpenBroadcast.Overlay

def maxMeshPeers : Nat := 5

/-- A node of the mesh. Each link is stored at both of its ends. -/
structure MeshNode (PeerId : Type) where
  peerId : PeerId
  role : PeerRole
  peers : Finset PeerId
  bandwidth : UInt64
  isSource : Bool

namespace MeshNode

variable {PeerId : Type} [DecidableEq PeerId]

def new (peerId : PeerId) (role : PeerRole) (isSource : Bool) : MeshNode PeerId :=
  ⟨peerId,role,∅,0,isSource⟩

def canAcceptConnections (n : MeshNode PeerId) : Bool := n.peers.card < maxMeshPeers

def addPeer (n : MeshNode PeerId) (p : PeerId) : MeshNode PeerId × Bool :=
  if n.canAcceptConnections then ({ n with peers := insert p n.peers },true) else (n,false)

def removePeer (n : MeshNode PeerId) (p : PeerId) : MeshNode PeerId × Bool :=
  ({ n with peers := n.peers.erase p },decide (p ∈ n.peers))

end MeshNode

/-- The hash tables whose iteration order a mesh operation depends on. -/
inductive MeshTable (PeerId : Type) where
  | nodes
  | peers (node : PeerId)

abbrev MeshOrder (PeerId : Type) := HashOrder (MeshTable PeerId) PeerId

structure StreamMesh (PeerId : Type) where
  nodes : HashMap PeerId (MeshNode PeerId)
  source : Option PeerId

namespace StreamMesh

variable {PeerId : Type} [DecidableEq PeerId]

def new : StreamMesh PeerId := ⟨∅,none⟩

def update (m : StreamMesh PeerId) (p : PeerId) (f : MeshNode PeerId → MeshNode PeerId) :
    StreamMesh PeerId :=
  { m with nodes := HashMap.modify m.nodes p f }

def insertNode (m : StreamMesh PeerId) (p : PeerId) (n : MeshNode PeerId) : StreamMesh PeerId :=
  { m with nodes := m.nodes.insert p n }

def setSource (m : StreamMesh PeerId) (p : PeerId) : StreamMesh PeerId × Bool :=
  if m.source.isSome then (m,false)
  else ({ m.insertNode p (MeshNode.new p .publisher true) with source := some p },true)

/-- The other nodes with room for a link, by falling bandwidth; the sort is stable. -/
def connectCandidates (H : MeshOrder PeerId) (m : StreamMesh PeerId) (p : PeerId) :
    List (PeerId × UInt64) :=
  (((H.iter .nodes m.nodes).filter (fun e => e.1 ≠ p && e.2.canAcceptConnections)).map
    (fun e => (e.1,e.2.bandwidth))).insertionSort (fun a b => b.2 ≤ a.2)

/-- The source first, if it has room: its side of the link, then the peer's side. -/
def connectToSource (m : StreamMesh PeerId) (p : PeerId) : StreamMesh PeerId × Bool :=
  match m.source with
  | none => (m,false)
  | some s =>
    if s = p then (m,false)
    else
      match m.nodes.lookup s with
      | none => (m,false)
      | some sourceNode =>
        if sourceNode.canAcceptConnections then
          let m := m.update s (fun n => (n.addPeer p).1)
          if p ∈ m.nodes then (m.update p (fun n => (n.addPeer s).1),true) else (m,false)
        else (m,false)

/-- The candidates in turn, until the peer has no more room. -/
def connectEach (p : PeerId) : StreamMesh PeerId × Bool → List (PeerId × UInt64) →
    StreamMesh PeerId × Bool
  | r,[] => r
  | r,c::cs =>
    match r.1.nodes.lookup p with
    | none => connectEach p r cs
    | some node =>
      if !node.canAcceptConnections then r
      else if c.1 ∈ node.peers then connectEach p r cs
      else
        let m := r.1.update p (fun n => (n.addPeer c.1).1)
        if c.1 ∈ m.nodes then
          connectEach p (m.update c.1 (fun n => (n.addPeer p).1),true) cs
        else connectEach p (m,r.2) cs

def connectPeerToMesh (H : MeshOrder PeerId) (m : StreamMesh PeerId) (p : PeerId) :
    StreamMesh PeerId × Bool :=
  if p ∈ m.nodes then connectEach p (m.connectToSource p) (m.connectCandidates H p)
  else (m,false)

def addPeer (H : MeshOrder PeerId) (m : StreamMesh PeerId) (p : PeerId) (role : PeerRole)
    (bandwidth : UInt64) : StreamMesh PeerId × Bool :=
  if p ∈ m.nodes then (m,false)
  else
    let isSource := match m.source with
      | some source => decide (source = p)
      | none => false
    connectPeerToMesh H
      (m.insertNode p { MeshNode.new p role isSource with bandwidth := bandwidth }) p

/-- The peers that `rebalance` visits: those with room when it starts. -/
def peersNeedingConnections (H : MeshOrder PeerId) (m : StreamMesh PeerId) : List PeerId :=
  ((H.iter .nodes m.nodes).filter (fun e => e.2.canAcceptConnections)).map Prod.fst

def rebalanceOne (H : MeshOrder PeerId) (r : StreamMesh PeerId × Bool) (p : PeerId) :
    StreamMesh PeerId × Bool :=
  let connected := connectPeerToMesh H r.1 p
  (connected.1,r.2 || connected.2)

def rebalance (H : MeshOrder PeerId) (m : StreamMesh PeerId) : StreamMesh PeerId × Bool :=
  (m.peersNeedingConnections H).foldl (rebalanceOne H) (m,false)

/-- Take `p` out of the sets of the peers it knows, and out of the map. -/
def disconnect (H : MeshOrder PeerId) (m : StreamMesh PeerId) (p : PeerId)
    (connected : Finset PeerId) : StreamMesh PeerId :=
  let m := (H.order (.peers p) connected).foldl
    (fun m c => m.update c (fun n => (n.removePeer p).1)) m
  { m with nodes := m.nodes.erase p }

def removePeer (H : MeshOrder PeerId) (m : StreamMesh PeerId) (p : PeerId) :
    StreamMesh PeerId × Bool :=
  match m.nodes.lookup p with
  | none => (m,false)
  | some node =>
    if m.source = some p then (m,false)
    else ((rebalance H (m.disconnect H p node.peers)).1,true)

end StreamMesh

inductive MeshOp (PeerId : Type) where
  | setSource (p : PeerId)
  | addPeer (p : PeerId) (role : PeerRole) (bandwidth : UInt64)
  | removePeer (p : PeerId)
  | rebalance

namespace StreamMesh

variable {PeerId : Type} [DecidableEq PeerId]

def step (m : StreamMesh PeerId) (e : MeshOrder PeerId × MeshOp PeerId) : StreamMesh PeerId :=
  match e.2 with
  | .setSource p => (m.setSource p).1
  | .addPeer p role bandwidth => (addPeer e.1 m p role bandwidth).1
  | .removePeer p => (removePeer e.1 m p).1
  | .rebalance => (rebalance e.1 m).1

/-- The mesh after a run of operations on an empty mesh. -/
def run (es : List (MeshOrder PeerId × MeshOp PeerId)) : StreamMesh PeerId :=
  es.foldl step new

end StreamMesh

end OpenBroadcast.Overlay
