import OpenBroadcast.Framework.Collections
import OpenBroadcast.Framework.ParentChain
import OpenBroadcast.Framework.Run

namespace OpenBroadcast.Overlay

inductive PeerRole where
  | publisher
  | relay
  | consumer
  | hybridRelay
  | gateway
  | unknown
  deriving DecidableEq, Repr

inductive Region where
  | northAmerica
  | southAmerica
  | europe
  | asia
  | africa
  | oceania
  | unknown
  deriving DecidableEq, Repr

/-- `f32::min` and `f64::max` return the other operand when one is NaN. -/
def f32Min (a b : Float32) : Float32 :=
  if a.isNaN then b else if b.isNaN then a else if a ≤ b then a else b

def f64Min (a b : Float) : Float :=
  if a.isNaN then b else if b.isNaN then a else if a ≤ b then a else b

def f64Max (a b : Float) : Float :=
  if a.isNaN then b else if b.isNaN then a else if a ≤ b then b else a

structure GeoLocation where
  latitude : Float
  longitude : Float
  region : Region

namespace GeoLocation

def toRadians (x : Float) : Float := x*(3.14159265358979323846/180.0)

/-- Haversine distance in kilometres. -/
def distanceTo (self other : GeoLocation) : Float :=
  let earthRadius : Float := 6371.0
  let lat1 := toRadians self.latitude
  let lon1 := toRadians self.longitude
  let lat2 := toRadians other.latitude
  let lon2 := toRadians other.longitude
  let dlat := lat2-lat1
  let dlon := lon2-lon1
  let sinLat := Float.sin (dlat/2.0)
  let sinLon := Float.sin (dlon/2.0)
  let a := sinLat*sinLat+Float.cos lat1*Float.cos lat2*(sinLon*sinLon)
  let c := 2.0*Float.atan2 (Float.sqrt a) (Float.sqrt (1.0-a))
  earthRadius*c

def isSameRegion (self other : GeoLocation) : Bool := self.region = other.region

end GeoLocation

structure RelayScoreWeights where
  bandwidthWeight : Float32
  latencyWeight : Float32
  geoWeight : Float32
  qualityWeight : Float32

/-- The fields of the topology configuration that the tree reads. -/
structure TopologyConfig where
  maxTreeDepth : Nat
  enableGeoAware : Bool
  preferSameRegion : Bool
  scoreWeights : RelayScoreWeights

def TopologyConfig.default : TopologyConfig :=
  ⟨5,true,true,⟨0.3,0.3,0.2,0.2⟩⟩

def defaultMaxChildren : Nat := 3
def absoluteMaxChildren : Nat := 7
def minConnectionQuality : Float32 := 0.5
def maxEarthDistanceKm : Float := 20000.0
def usizeMax : Nat := 2^64-1

/-- A node of the distribution tree. The tree stores each link twice: as the parent
field of the child and in the children set of the parent. -/
structure TreeNode (PeerId : Type) where
  peerId : PeerId
  role : PeerRole
  parent : Option PeerId
  children : Finset PeerId
  depth : Nat
  bandwidth : UInt64
  latency : UInt64
  maxChildren : Nat
  connectionQuality : Float32
  failureCount : Nat
  location : Option GeoLocation

namespace TreeNode

variable {PeerId : Type} [DecidableEq PeerId]

def new (peerId : PeerId) (role : PeerRole) : TreeNode PeerId :=
  ⟨peerId,role,none,∅,0,0,0,defaultMaxChildren,1.0,0,none⟩

def source (peerId : PeerId) : TreeNode PeerId :=
  ⟨peerId,.publisher,none,∅,0,0,0,defaultMaxChildren+1,1.0,0,none⟩

def canAcceptChildren (n : TreeNode PeerId) : Bool :=
  n.role ≠ .consumer && n.children.card < n.maxChildren &&
    minConnectionQuality ≤ n.connectionQuality

def adjustFanOut (n : TreeNode PeerId) : TreeNode PeerId :=
  let bandwidthCapacity := n.bandwidth/500000
  let qualityAdjusted := (bandwidthCapacity.toFloat32*n.connectionQuality).toUInt64.toNat
  let newMax := min (max qualityAdjusted 1) absoluteMaxChildren
  if n.role = .publisher then { n with maxChildren := max newMax defaultMaxChildren }
  else { n with maxChildren := newMax }

def latencyFactor (latency : UInt64) : Float32 :=
  if latency < 50 then 1.0
  else if latency < 100 then 0.9
  else if latency < 200 then 0.7
  else if latency < 500 then 0.5
  else 0.3

def updateMetrics (n : TreeNode PeerId) (bandwidth latency : UInt64) (successRate : Float32) :
    TreeNode PeerId :=
  adjustFanOut { n with
    bandwidth := bandwidth
    latency := latency
    connectionQuality := latencyFactor latency*successRate }

def recordFailure (n : TreeNode PeerId) : TreeNode PeerId :=
  adjustFanOut { n with
    failureCount := n.failureCount+1
    connectionQuality := n.connectionQuality*0.8 }

def recordSuccess (n : TreeNode PeerId) : TreeNode PeerId :=
  adjustFanOut { n with
    failureCount := if n.failureCount > 0 then n.failureCount-1 else n.failureCount
    connectionQuality := f32Min (n.connectionQuality+0.1) 1.0 }

def addChild (n : TreeNode PeerId) (peerId : PeerId) : TreeNode PeerId × Bool :=
  if n.canAcceptChildren then ({ n with children := insert peerId n.children },true)
  else (n,false)

def removeChild (n : TreeNode PeerId) (peerId : PeerId) : TreeNode PeerId × Bool :=
  ({ n with children := n.children.erase peerId },decide (peerId ∈ n.children))

/-- A cached node as it comes back: without links, and with its reconnection counted as
a success. -/
def revived (n : TreeNode PeerId) : TreeNode PeerId :=
  recordSuccess { n with parent := none, children := ∅ }

end TreeNode

/-- The hash tables whose iteration order a tree operation depends on. -/
inductive TreeTable (PeerId : Type) where
  | nodes
  | children (parent : PeerId)
  | disconnected

abbrev TreeOrder (PeerId : Type) := HashOrder (TreeTable PeerId) PeerId

structure StreamTree (PeerId : Type) where
  nodes : HashMap PeerId (TreeNode PeerId)
  source : Option PeerId
  disconnectedNodes : HashMap PeerId (TreeNode PeerId × Nat)
  rebalanceCount : Nat
  config : TopologyConfig

namespace StreamTree

variable {PeerId : Type} [DecidableEq PeerId]

def new (config : TopologyConfig) : StreamTree PeerId := ⟨∅,none,∅,0,config⟩

/-- `if let Some(node) = self.nodes.get_mut(..)`. -/
def update (t : StreamTree PeerId) (p : PeerId) (f : TreeNode PeerId → TreeNode PeerId) :
    StreamTree PeerId :=
  { t with nodes := HashMap.modify t.nodes p f }

def insertNode (t : StreamTree PeerId) (p : PeerId) (n : TreeNode PeerId) : StreamTree PeerId :=
  { t with nodes := t.nodes.insert p n }

def setSource (t : StreamTree PeerId) (p : PeerId) : StreamTree PeerId × Bool :=
  if t.source.isSome then (t,false)
  else ({ t.insertNode p (TreeNode.source p) with source := some p },true)

/-- Candidates are ranked by depth, then by bandwidth. -/
def outranks (a b : Nat × UInt64) : Bool :=
  a.1 < b.1 || (a.1 = b.1 && a.2 > b.2)

def rank (e : PeerId × TreeNode PeerId) : Nat × UInt64 := (e.2.depth,e.2.bandwidth)

/-- The nodes that a search for a parent of `p` considers, in iteration order. -/
def parentCandidates (H : TreeOrder PeerId) (t : StreamTree PeerId) (p : PeerId) :
    List (PeerId × TreeNode PeerId) :=
  (H.iter .nodes t.nodes).filter (fun e => e.2.canAcceptChildren && e.1 ≠ p)

/-- Link `p` below `q` and give it the depth below `depth`. -/
def attach (t : StreamTree PeerId) (p q : PeerId) (depth : Nat) : StreamTree PeerId :=
  (t.update q (fun parent => (parent.addChild p).1)).update p
    (fun node => { node with parent := some q, depth := depth+1 })

def findParentForPeer (H : TreeOrder PeerId) (t : StreamTree PeerId) (p : PeerId) :
    StreamTree PeerId × Bool :=
  match t.source with
  | none => (t,false)
  | some source =>
    if p = source then (t,true)
    else
      match scan outranks rank (usizeMax,0) (parentCandidates H t p) with
      | (some parent,bestDepth,_) => (t.attach p parent.1 bestDepth,true)
      | (none,_) => (t,false)

def addPeer (H : TreeOrder PeerId) (t : StreamTree PeerId) (p : PeerId) (role : PeerRole)
    (bandwidth : UInt64) : StreamTree PeerId × Bool :=
  if p ∈ t.nodes then (t,false)
  else
    -- Both branches of the source insert the same node and search for a parent.
    findParentForPeer H (t.insertNode p { TreeNode.new p role with bandwidth := bandwidth }) p

/-- Take `p` out of its parent's children set and out of the map. -/
def detach (t : StreamTree PeerId) (p : PeerId) (parent : Option PeerId) : StreamTree PeerId :=
  let t := match parent with
    | some q => t.update q (fun parent => (parent.removeChild p).1)
    | none => t
  { t with nodes := t.nodes.erase p }

def clearParent (t : StreamTree PeerId) (c : PeerId) : StreamTree PeerId :=
  t.update c (fun child => { child with parent := none })

/-- Look for a new parent for one of the children that a removed node leaves behind. -/
def reattach (H : TreeOrder PeerId) (t : StreamTree PeerId) (c : PeerId) : StreamTree PeerId :=
  (findParentForPeer H (t.clearParent c) c).1

def removePeer (H : TreeOrder PeerId) (t : StreamTree PeerId) (p : PeerId) :
    StreamTree PeerId × Bool :=
  match t.nodes.lookup p with
  | none => (t,false)
  | some node =>
    if t.source = some p then (t,false)
    else ((H.order (.children p) node.children).foldl (reattach H) (t.detach p node.parent),true)

/-- Forget the disconnected nodes whose grace period is over. -/
def cleanupDisconnectedNodes (H : TreeOrder PeerId) (t : StreamTree PeerId)
    (gracePeriod now : Nat) : StreamTree PeerId :=
  let expired := ((H.iter .disconnected t.disconnectedNodes).filter
    (fun e => decide (now-e.2.2 > gracePeriod))).map Prod.fst
  { t with disconnectedNodes := expired.foldl (fun m id => m.erase id) t.disconnectedNodes }

def saveNode (t : StreamTree PeerId) (p : PeerId) (n : TreeNode PeerId) (now : Nat) :
    StreamTree PeerId :=
  { t with disconnectedNodes := t.disconnectedNodes.insert p (n,now) }

def forgetNode (t : StreamTree PeerId) (p : PeerId) : StreamTree PeerId :=
  { t with disconnectedNodes := t.disconnectedNodes.erase p }

/-- `now` is the clock when the node is saved, `later` when the cache is cleaned up. -/
def handleTemporaryDisconnect (H : TreeOrder PeerId) (t : StreamTree PeerId) (p : PeerId)
    (gracePeriod now later : Nat) : StreamTree PeerId × Bool :=
  match t.nodes.lookup p with
  | none => (t,false)
  | some node =>
    if t.source = some p then (t,false)
    else
      let moved := (H.order (.children p) node.children).foldl (reattach H)
        ((t.saveNode p node now).detach p node.parent)
      (moved.cleanupDisconnectedNodes H gracePeriod later,true)

def handleReconnection (H : TreeOrder PeerId) (t : StreamTree PeerId) (p : PeerId) :
    StreamTree PeerId × Bool :=
  match t.disconnectedNodes.lookup p with
  | none => (t,false)
  | some (node,_) =>
    -- A node that finds no parent is still a success.
    ((findParentForPeer H ((t.forgetNode p).insertNode p node.revived) p).1,true)

def parentField (t : StreamTree PeerId) (p : PeerId) : Option (Option PeerId) :=
  (t.nodes.lookup p).map TreeNode.parent

/-- The path from the root of `p`'s chain down to `p`; the outer `none` says that the
loop has not ended within the fuel. -/
def getPathToPeer (t : StreamTree PeerId) (fuel : Nat) (p : PeerId) :
    Option (Option (List PeerId)) :=
  if p ∈ t.nodes then
    (climb t.parentField fuel p []).map
      (fun path => if path.reverse.isEmpty then none else some path.reverse)
  else some none

def calculateGeoScore (t : StreamTree PeerId) (node1 node2 : TreeNode PeerId) : Float32 :=
  if !t.config.enableGeoAware then 0.5
  else
    match node1.location,node2.location with
    | some loc1,some loc2 =>
      let distance := loc1.distanceTo loc2
      let distanceScore := (f64Max (1.0-distance/maxEarthDistanceKm) 0.0).toFloat32
      if t.config.preferSameRegion && loc1.isSameRegion loc2 then
        f32Min (distanceScore*1.2) 1.0
      else distanceScore
    | _,_ => 0.5

def calculateCandidateScore (t : StreamTree PeerId) (candidate child : TreeNode PeerId)
    (weights : RelayScoreWeights) (maxDepth : Nat) : Float32 :=
  let depthScore : Float32 :=
    if maxDepth > 0 then 1.0-Float32.ofNat candidate.depth/Float32.ofNat maxDepth else 1.0
  let bwScore : Float32 :=
    if candidate.bandwidth > 0 then
      (f64Min (Float.log10 candidate.bandwidth.toFloat/10.0) 1.0).toFloat32
    else 0.0
  let latScore : Float32 :=
    if candidate.latency < 500 then 1.0-candidate.latency.toFloat32/500.0 else 0.0
  let geoScore := t.calculateGeoScore candidate child
  depthScore*weights.qualityWeight+bwScore*weights.bandwidthWeight+
    latScore*weights.latencyWeight+geoScore*weights.geoWeight

def isOverloaded (n : TreeNode PeerId) : Bool :=
  (n.latency > 200 && n.children.card > 1) ||
  n.children.card ≥ n.maxChildren-1 ||
  n.connectionQuality < 0.7

def hasSpareCapacity (n : TreeNode PeerId) : Bool :=
  n.canAcceptChildren && n.children.card < n.maxChildren-1 && n.connectionQuality > 0.8

def f32NegInfinity : Float32 := Float32.ofBits 0xFF800000

/-- The candidates that may take over `child`, with their scores read in the tree `t`. -/
def moveCandidates (t : StreamTree PeerId) (child : PeerId) (candidates : List PeerId) :
    List (PeerId × TreeNode PeerId) :=
  candidates.filterMap (fun c =>
    if c = child then none
    else match t.nodes.lookup c with
      | some node => if node.canAcceptChildren then some (c,node) else none
      | none => none)

def candidateScore (t : StreamTree PeerId) (childNode : TreeNode PeerId)
    (e : PeerId × TreeNode PeerId) : Float32 :=
  t.calculateCandidateScore e.2 childNode t.config.scoreWeights t.config.maxTreeDepth

/-- Step 3 of `rebalance` for one child of an overloaded node; the flag records whether
anything has been moved so far. -/
def moveChild (candidates : List PeerId) (overloaded : PeerId) (r : StreamTree PeerId × Bool)
    (child : PeerId) : StreamTree PeerId × Bool :=
  match r.1.nodes.lookup child with
  | none => r
  | some childNode =>
    match scan (fun a b => decide (a > b)) (r.1.candidateScore childNode) f32NegInfinity
        (r.1.moveCandidates child candidates) with
    | (none,_) => r
    | (some best,_) =>
      let t := r.1.update overloaded (fun n => (n.removeChild child).1)
      let t := t.update best.1 (fun n => (n.addChild child).1)
      let parentDepth := match t.nodes.lookup best.1 with
        | some parent => parent.depth
        | none => 0
      (t.update child (fun n => { n with parent := some best.1, depth := parentDepth+1 }),true)

/-- The children of an overloaded node that `rebalance` tries to move. -/
def childrenToMove (H : TreeOrder PeerId) (id : PeerId) (n : TreeNode PeerId) : List PeerId :=
  let children := H.order (.children id) n.children
  let toMove := if n.connectionQuality < 0.5 then max children.length 1/2
    else max children.length 1/3
  children.take (min toMove children.length)

/-- Step 3 of `rebalance` for one overloaded node. -/
def relieve (H : TreeOrder PeerId) (candidates : List PeerId) (r : StreamTree PeerId × Bool)
    (overloaded : PeerId) : StreamTree PeerId × Bool :=
  match r.1.nodes.lookup overloaded with
  | none => r
  | some n => (childrenToMove H overloaded n).foldl (moveChild candidates overloaded) r

/-- Step 4 of `rebalance` for one orphan. -/
def adopt (H : TreeOrder PeerId) (r : StreamTree PeerId × Bool) (orphan : PeerId) :
    StreamTree PeerId × Bool :=
  let found := findParentForPeer H r.1 orphan
  (found.1,r.2 || found.2)

def overloadedNodes (H : TreeOrder PeerId) (t : StreamTree PeerId) : List PeerId :=
  ((H.iter .nodes t.nodes).filter (fun e => isOverloaded e.2)).map Prod.fst

def rebalanceCandidates (H : TreeOrder PeerId) (t : StreamTree PeerId) : List PeerId :=
  ((H.iter .nodes t.nodes).filter (fun e => hasSpareCapacity e.2)).map Prod.fst

def orphans (H : TreeOrder PeerId) (t : StreamTree PeerId) : List PeerId :=
  ((H.iter .nodes t.nodes).filter (fun e => e.2.parent.isNone &&
    (match t.source with | some src => decide (e.1 ≠ src) | none => false))).map Prod.fst

def countRebalance (t : StreamTree PeerId) : StreamTree PeerId :=
  { t with rebalanceCount := t.rebalanceCount+1 }

def rebalance (H : TreeOrder PeerId) (t : StreamTree PeerId) : StreamTree PeerId × Bool :=
  let t := t.countRebalance
  let overloaded := t.overloadedNodes H
  let candidates := t.rebalanceCandidates H
  if candidates.isEmpty || overloaded.isEmpty then (t,false)
  else
    let r := overloaded.foldl (relieve H candidates) (t,false)
    (r.1.orphans H).foldl (adopt H) r

end StreamTree

/-- Everything that can happen to a tree from outside. -/
inductive TreeOp (PeerId : Type) where
  | setSource (p : PeerId)
  | addPeer (p : PeerId) (role : PeerRole) (bandwidth : UInt64)
  | removePeer (p : PeerId)
  | temporaryDisconnect (p : PeerId) (gracePeriod now later : Nat)
  | reconnection (p : PeerId)
  | rebalance
  | updateMetrics (p : PeerId) (bandwidth latency : UInt64) (successRate : Float32)
  | recordFailure (p : PeerId)
  | recordSuccess (p : PeerId)

namespace StreamTree

variable {PeerId : Type} [DecidableEq PeerId]

/-- One operation, under the iteration order that the hash tables have at that moment. -/
def step (t : StreamTree PeerId) (e : TreeOrder PeerId × TreeOp PeerId) : StreamTree PeerId :=
  match e.2 with
  | .setSource p => (t.setSource p).1
  | .addPeer p role bandwidth => (addPeer e.1 t p role bandwidth).1
  | .removePeer p => (removePeer e.1 t p).1
  | .temporaryDisconnect p gracePeriod now later =>
    (handleTemporaryDisconnect e.1 t p gracePeriod now later).1
  | .reconnection p => (handleReconnection e.1 t p).1
  | .rebalance => (rebalance e.1 t).1
  | .updateMetrics p bandwidth latency successRate =>
    t.update p (fun n => n.updateMetrics bandwidth latency successRate)
  | .recordFailure p => t.update p TreeNode.recordFailure
  | .recordSuccess p => t.update p TreeNode.recordSuccess

/-- The tree after a run of operations on an empty tree. -/
def run (config : TopologyConfig) (es : List (TreeOrder PeerId × TreeOp PeerId)) :
    StreamTree PeerId :=
  es.foldl step (new config)

end StreamTree

end OpenBroadcast.Overlay
