import OpenBroadcast.Overlay.Tree

namespace OpenBroadcast.Overlay

/-- The fields of the topology configuration that the manager reads; its trees read the rest. -/
structure ManagerConfig where
  tree : TopologyConfig
  defaultBandwidth : UInt64
  rebalanceThreshold : Nat

/-- Of the peers, only who is known matters here. -/
structure TopologyManager (StreamId PeerId : Type) where
  config : ManagerConfig
  peers : Finset PeerId
  trees : HashMap StreamId (StreamTree PeerId)

namespace TopologyManager

variable {StreamId PeerId : Type} [DecidableEq StreamId] [DecidableEq PeerId]

def new (config : ManagerConfig) : TopologyManager StreamId PeerId := ⟨config,∅,∅⟩

/-- The source of a tree may be a peer that is not in it yet. -/
def claimSource (t : StreamTree PeerId) (p : PeerId) (role : PeerRole) : StreamTree PeerId :=
  if role = .publisher ∧ t.source.isNone then { t with source := some p } else t

/-- Each call of a tree's method has its own iteration order. -/
def addPeerToStream (first second : TreeOrder PeerId) (m : TopologyManager StreamId PeerId)
    (s : StreamId) (p : PeerId) (role : PeerRole) : TopologyManager StreamId PeerId :=
  let tree := (m.trees.lookup s).getD (.new m.config.tree)
  let tree := (StreamTree.addPeer first (claimSource tree p role) p role
    m.config.defaultBandwidth).1
  let tree :=
    if m.config.rebalanceThreshold < tree.nodes.keys.card then (StreamTree.rebalance second tree).1
    else tree
  { m with trees := m.trees.insert s tree }

/-- The error is a `TopologyError`, and `debug` is how a stream id is printed in it. -/
def removePeerFromStream (debug : StreamId → String) (first second : TreeOrder PeerId)
    (m : TopologyManager StreamId PeerId) (s : StreamId) (p : PeerId) :
    TopologyManager StreamId PeerId × Except String Unit :=
  match m.trees.lookup s with
  | some tree =>
    let tree := (StreamTree.removePeer first tree p).1
    if tree.nodes.keys = ∅ then ({ m with trees := m.trees.erase s },.ok ())
    else ({ m with trees := m.trees.insert s (StreamTree.rebalance second tree).1 },.ok ())
  | none => (m,.error ("Stream not found: "++debug s))

def updatePeer (m : TopologyManager StreamId PeerId) (p : PeerId) :
    TopologyManager StreamId PeerId :=
  { m with peers := insert p m.peers }

def removePeer (orders : StreamId → TreeOrder PeerId) (m : TopologyManager StreamId PeerId)
    (p : PeerId) : TopologyManager StreamId PeerId :=
  { m with
    peers := m.peers.erase p
    trees := HashMap.mapEntries m.trees (fun s tree =>
      if p ∈ tree.nodes then (StreamTree.removePeer (orders s) tree p).1 else tree) }

end TopologyManager

/-- What can happen to a manager and to the trees it holds. -/
inductive ManagerOp (StreamId PeerId : Type) where
  | addPeerToStream (s : StreamId) (p : PeerId) (role : PeerRole)
  | removePeerFromStream (s : StreamId) (p : PeerId)
  | updatePeer (p : PeerId)
  | removePeer (p : PeerId)
  | updateConfig (config : ManagerConfig)
  | tree (s : StreamId) (op : TreeOp PeerId)

/-- An operation with the iteration orders that it meets. -/
structure ManagerEvent (StreamId PeerId : Type) where
  op : ManagerOp StreamId PeerId
  first : StreamId → TreeOrder PeerId
  second : StreamId → TreeOrder PeerId

namespace TopologyManager

variable {StreamId PeerId : Type} [DecidableEq StreamId] [DecidableEq PeerId]

def step (debug : StreamId → String) (m : TopologyManager StreamId PeerId)
    (e : ManagerEvent StreamId PeerId) : TopologyManager StreamId PeerId :=
  match e.op with
  | .addPeerToStream s p role => addPeerToStream (e.first s) (e.second s) m s p role
  | .removePeerFromStream s p =>
    (removePeerFromStream debug (e.first s) (e.second s) m s p).1
  | .updatePeer p => m.updatePeer p
  | .removePeer p => removePeer e.first m p
  | .updateConfig config => { m with config := config }
  | .tree s op =>
    { m with trees := HashMap.modify m.trees s (fun tree => tree.step (e.first s,op)) }

def run (debug : StreamId → String) (config : ManagerConfig)
    (es : List (ManagerEvent StreamId PeerId)) : TopologyManager StreamId PeerId :=
  es.foldl (step debug) (new config)

end TopologyManager

end OpenBroadcast.Overlay
