import Mathlib.Data.Fintype.Basic
import OpenBroadcast.Framework.RwLock

namespace OpenBroadcast.Relay

inductive RelayLock where
  | streams
  | stats
  deriving DecidableEq, Repr

instance : Fintype RelayLock := ⟨{.streams,.stats},by intro l; cases l <;> decide⟩

/-- The tasks of a relay node, and any number of callers of its read-only functions. -/
inductive RelayTask where
  | statsReporter
  | chunkProcessor
  | messageProcessor
  | streamCleanup
  | caller (n : Nat)
  deriving DecidableEq, Repr

/-- The stretches of code between which a task holds no lock. -/
inductive RelayCall where
  | reportStats
  | processChunk
  | addStream (ok : Bool)
  | removeStream (ok : Bool)
  | addSubscriber (ok : Bool)
  | removeSubscriber (ok : Bool)
  | requestChunks
  | findInactive
  | getStats
  | getStreams
  deriving DecidableEq, Repr

open LockOp LockMode RelayLock

/-- The functions that change the streams and, if they succeed, the statistics while they
hold the streams. -/
def changeStreams : Bool → List (LockOp RelayLock)
  | true => [acquire streams write,acquire stats write,release stats write,release streams write]
  | false => [acquire streams write,release streams write]

def RelayCall.prog : RelayCall → List (LockOp RelayLock)
  | reportStats =>
    [acquire stats write,acquire streams read,release streams read,release stats write]
  -- Counting the chunk, then buffering it; the handler is called without a lock.
  | processChunk =>
    [acquire stats write,release stats write,acquire streams write,release streams write]
  | addStream ok => changeStreams ok
  | removeStream ok => changeStreams ok
  | addSubscriber ok => changeStreams ok
  | removeSubscriber ok => changeStreams ok
  | requestChunks => [acquire streams read,release streams read]
  | findInactive => [acquire streams read,release streams read]
  | getStats => [acquire stats read,release stats read]
  | getStreams => [acquire streams read,release streams read]

def RelayTask.allowed : RelayTask → RelayCall → Bool
  | statsReporter,.reportStats => true
  | chunkProcessor,.processChunk => true
  | messageProcessor,.processChunk => true
  | messageProcessor,.addStream _ => true
  | messageProcessor,.removeStream _ => true
  | messageProcessor,.addSubscriber _ => true
  | messageProcessor,.removeSubscriber _ => true
  | messageProcessor,.requestChunks => true
  | streamCleanup,.findInactive => true
  | streamCleanup,.removeStream _ => true
  | caller _,.getStats => true
  | caller _,.getStreams => true
  | _,_ => false

def relayLocks : LockSystem RelayTask RelayLock RelayCall where
  prog := RelayCall.prog
  allowed := RelayTask.allowed
  bracketed := by rintro (_ | _ | ⟨_ | _⟩ | ⟨_ | _⟩ | ⟨_ | _⟩ | ⟨_ | _⟩ | _ | _ | _ | _) <;> decide

theorem relayLocks_nests : relayLocks.NestsOnly stats streams := by
  rintro (_ | _ | ⟨_ | _⟩ | ⟨_ | _⟩ | ⟨_ | _⟩ | ⟨_ | _⟩ | _ | _ | _ | _) <;> decide

open LockSystem Relation

/-- In a run in which the stats reporter is never between its two locks while another task
is between them the other way round, there is never a cycle of tasks that each hold a lock
that another one waits for. -/
theorem relay_no_lock_cycle (es : List (LockEvent RelayTask RelayLock RelayCall))
    (ok : Along relayLocks.step (fun s _ => ¬ Overlap stats streams s) init es) (t : RelayTask) :
    ¬ TransGen (relayLocks.run es).AwaitsHolder t t := by
  intro h
  exact inversion_acyclic relayLocks (by decide) relayLocks_nests es ok t
    (TransGen.mono (fun _ _ => Or.inl) _ _ h)

/-- The reporter counts, then the message processor adds a stream. -/
def reportThenAdd : List (LockEvent RelayTask RelayLock RelayCall) :=
  [.start .statsReporter .reportStats,.request .statsReporter,.grant stats,
    .request .statsReporter,.grant streams,.start .messageProcessor (.addStream true),
    .request .messageProcessor,.release .statsReporter,.release .statsReporter,.grant streams,
    .request .messageProcessor,.grant stats]

theorem relay_no_lock_cycle_reportThenAdd :
    (relayLocks.run reportThenAdd).holders stats = [(.messageProcessor,write)] ∧
    ∀ t, ¬ TransGen (relayLocks.run reportThenAdd).AwaitsHolder t t := by
  refine ⟨by decide,relay_no_lock_cycle reportThenAdd ?_⟩
  -- At every step one of the two kinds of sections has no task in it.
  refine ⟨?_,?_,?_,?_,?_,?_,?_,?_,?_,?_,?_,?_,trivial⟩ <;> rintro ⟨a,b,ha,hb⟩ <;>
    first
    | (cases b <;> exact Bool.noConfusion hb)
    | (cases a <;> exact Bool.noConfusion ha)

/-- The reporter has the statistics and the message processor the streams. -/
def reportWhileAdding : List (LockEvent RelayTask RelayLock RelayCall) :=
  [.start .statsReporter .reportStats,.start .messageProcessor (.addStream true),
    .request .statsReporter,.grant stats,.request .messageProcessor,.grant streams,
    .request .statsReporter,.request .messageProcessor]

theorem reporter_deadlocks :
    (relayLocks.run reportWhileAdding).AwaitsHolder .statsReporter .messageProcessor ∧
    (relayLocks.run reportWhileAdding).AwaitsHolder .messageProcessor .statsReporter ∧
    TransGen (relayLocks.run reportWhileAdding).AwaitsHolder .statsReporter .statsReporter := by
  have first : (relayLocks.run reportWhileAdding).AwaitsHolder
      .statsReporter .messageProcessor := ⟨streams,⟨read,by decide⟩,write,by decide⟩
  have second : (relayLocks.run reportWhileAdding).AwaitsHolder
      .messageProcessor .statsReporter := ⟨stats,⟨write,by decide⟩,write,by decide⟩
  exact ⟨first,second,.tail (.single first) second⟩

end OpenBroadcast.Relay
