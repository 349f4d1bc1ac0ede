import Mathlib.Data.Fintype.Basic
import OpenBroadcast.Framework.RwLock

namespace OpenBroadcast.Overlay

inductive TopologyLock where
  | peers
  | trees
  | connectionHealth
  deriving DecidableEq, Repr

instance : Fintype TopologyLock :=
  ⟨{.peers,.trees,.connectionHealth},by intro l; cases l <;> decide⟩

/-- The two background loops of a topology manager and any number of callers. -/
inductive TopologyTask where
  | periodicRebalance
  | monitorConnectionHealth
  | caller (n : Nat)
  deriving DecidableEq, Repr

/-- The stretches of code between which a task holds no lock. -/
inductive TopologyCall where
  | addPeerToStream
  | removePeerFromStream
  | recordConnection
  | updatePeer
  | removePeer
  | readTrees
  | rebalanceStream
  | listStreams
  | rebalanceOne
  | listPeers
  | updateHealth
  | cleanupHealthRecords
  deriving DecidableEq, Repr

open LockOp LockMode TopologyLock

/-- A function that takes one lock for all of its body. -/
def guarded (l : TopologyLock) (m : LockMode) : List (LockOp TopologyLock) :=
  [acquire l m,release l m]

def TopologyCall.prog : TopologyCall → List (LockOp TopologyLock)
  | addPeerToStream => guarded trees write
  | removePeerFromStream => guarded trees write
  | recordConnection => guarded connectionHealth write
  | updatePeer => guarded peers write
  | removePeer =>
    [acquire peers write,acquire trees write,release trees write,release peers write]
  | readTrees => guarded trees read
  | rebalanceStream =>
    [acquire trees write,acquire peers read,release peers read,release trees write]
  | listStreams => guarded trees read
  | rebalanceOne => guarded trees write
  | listPeers => guarded peers read
  | updateHealth => guarded connectionHealth write
  | cleanupHealthRecords => guarded connectionHealth write

def TopologyTask.allowed : TopologyTask → TopologyCall → Bool
  | periodicRebalance,.listStreams => true
  | periodicRebalance,.rebalanceOne => true
  | monitorConnectionHealth,.listPeers => true
  | monitorConnectionHealth,.updateHealth => true
  | monitorConnectionHealth,.cleanupHealthRecords => true
  | caller _,.addPeerToStream => true
  | caller _,.removePeerFromStream => true
  | caller _,.recordConnection => true
  | caller _,.updatePeer => true
  | caller _,.removePeer => true
  | caller _,.readTrees => true
  | caller _,.rebalanceStream => true
  | _,_ => false

def topologyLocks : LockSystem TopologyTask TopologyLock TopologyCall where
  prog := TopologyCall.prog
  allowed := TopologyTask.allowed
  bracketed := by
    intro c
    cases c <;> decide

theorem topologyLocks_nests : topologyLocks.NestsOnly peers trees := by
  intro c
  cases c <;> decide

open LockSystem Relation

/-- In a run in which no `removePeer` is between its two locks while a `rebalanceStream` is
between them the other way round, there is never a cycle of tasks that each hold a lock
that another one waits for. -/
theorem topology_no_lock_cycle (es : List (LockEvent TopologyTask TopologyLock TopologyCall))
    (ok : Along topologyLocks.step (fun s _ => ¬ Overlap peers trees s) init es)
    (t : TopologyTask) : ¬ TransGen (topologyLocks.run es).AwaitsHolder t t := by
  intro h
  exact inversion_acyclic topologyLocks (by decide) topologyLocks_nests es ok t
    (TransGen.mono (fun _ _ => Or.inl) _ _ h)

/-- One caller rebalances a stream, and another removes a peer as soon as the first one no
longer needs the peers. -/
def rebalanceThenRemove : List (LockEvent TopologyTask TopologyLock TopologyCall) :=
  [.start (.caller 0) .rebalanceStream,.request (.caller 0),.grant trees,.request (.caller 0),
    .start (.caller 1) .removePeer,.request (.caller 1),.grant peers,.release (.caller 0),
    .grant peers,.request (.caller 1),.release (.caller 0),.grant trees]

theorem topology_no_lock_cycle_rebalanceThenRemove :
    (topologyLocks.run rebalanceThenRemove).holders trees = [(.caller 1,write)] ∧
    ∀ t, ¬ TransGen (topologyLocks.run rebalanceThenRemove).AwaitsHolder t t := by
  refine ⟨by decide,topology_no_lock_cycle rebalanceThenRemove ?_⟩
  -- At every step one of the two kinds of sections has no task in it.
  refine ⟨?_,?_,?_,?_,?_,?_,?_,?_,?_,?_,?_,?_,trivial⟩ <;> rintro ⟨a,b,ha,hb⟩ <;>
    first
    | (rcases a with _ | _ | _ | _ | _ <;> exact Bool.noConfusion ha)
    | (rcases b with _ | _ | _ | _ | _ <;> exact Bool.noConfusion hb)

/-- One caller removes a peer while another rebalances a stream. -/
def removeWhileRebalancing : List (LockEvent TopologyTask TopologyLock TopologyCall) :=
  [.start (.caller 0) .removePeer,.start (.caller 1) .rebalanceStream,.request (.caller 0),
    .grant peers,.request (.caller 1),.grant trees,.request (.caller 0),.request (.caller 1)]

theorem remove_peer_deadlocks :
    (topologyLocks.run removeWhileRebalancing).AwaitsHolder (.caller 0) (.caller 1) ∧
    (topologyLocks.run removeWhileRebalancing).AwaitsHolder (.caller 1) (.caller 0) ∧
    TransGen (topologyLocks.run removeWhileRebalancing).AwaitsHolder (.caller 0) (.caller 0) := by
  have first : (topologyLocks.run removeWhileRebalancing).AwaitsHolder (.caller 0) (.caller 1) :=
    ⟨trees,⟨write,by decide⟩,write,by decide⟩
  have second : (topologyLocks.run removeWhileRebalancing).AwaitsHolder (.caller 1) (.caller 0) :=
    ⟨peers,⟨read,by decide⟩,write,by decide⟩
  exact ⟨first,second,.tail (.single first) second⟩

end OpenBroadcast.Overlay
