import OpenBroadcast.Framework.Collections

namespace OpenBroadcast.Moderation

structure BlockEntry where
  peerId : String
  reason : Option String
  blockedAt : Nat
  deriving DecidableEq, Repr

inductive FlagReason where
  | spam
  | inappropriate
  | copyright
  | abuse
  | other (text : String)
  deriving DecidableEq, Repr

structure FlagEntry where
  streamId : String
  reason : FlagReason
  details : Option String
  reporter : Option String
  flaggedAt : Nat
  deriving DecidableEq, Repr

/-- The form in which the state is shared and saved. -/
structure ModerationList where
  version : Nat
  nodeId : Option String
  createdAt : Nat
  blockedPeers : List BlockEntry
  whitelistedPeers : List String
  flaggedStreams : List FlagEntry
  deriving DecidableEq, Repr

structure ModerationConfig where
  persistencePath : Option String
  autoPersist : Bool
  deriving DecidableEq, Repr

/-- The blocked peers, each under its own id. -/
structure BlockedPeers where
  entries : HashMap String BlockEntry
  keyed : ∀ id e, entries.lookup id = some e → e.peerId = id

namespace BlockedPeers

@[ext] theorem ext {b b' : BlockedPeers} (h : b.entries = b'.entries) : b = b' := by
  obtain ⟨entries,keyed⟩ := b
  obtain ⟨entries',keyed'⟩ := b'
  cases h
  rfl

def empty : BlockedPeers where
  entries := ∅
  keyed := by
    intro id e h
    rw [Finmap.lookup_empty] at h
    cases h

def insert (b : BlockedPeers) (entry : BlockEntry) : BlockedPeers where
  entries := b.entries.insert entry.peerId entry
  keyed := by
    intro id e h
    by_cases hid : id = entry.peerId
    · rw [hid,Finmap.lookup_insert] at h
      cases h
      exact hid.symm
    · rw [Finmap.lookup_insert_of_ne _ hid] at h
      exact b.keyed id e h

def remove (b : BlockedPeers) (id : String) : BlockedPeers where
  entries := b.entries.erase id
  keyed := by
    intro id' e h
    by_cases hid : id' = id
    · rw [hid,Finmap.lookup_erase] at h
      cases h
    · rw [Finmap.lookup_erase_ne hid] at h
      exact b.keyed id' e h

def values (b : BlockedPeers) (order : HashOrder Unit String) : List BlockEntry :=
  (order.iter () b.entries).map Prod.snd

end BlockedPeers

/-- What the manager keeps in memory. -/
@[ext] structure Lists where
  blockedPeers : BlockedPeers
  whitelist : Finset String
  flags : List FlagEntry

/-- The calls that change something. -/
inductive Call where
  | blockPeer (peerId : String) (reason : Option String) (now : Nat)
  | unblockPeer (peerId : String)
  | whitelistPeer (peerId : String)
  | removeWhitelist (peerId : String)
  | flagStream (streamId : String) (reason : FlagReason) (details reporter : Option String)
      (now : Nat)
  | unflagStream (streamId : String)
  | importList (list : ModerationList)
  deriving DecidableEq, Repr

namespace Lists

def empty : Lists := ⟨.empty,∅,[]⟩

def importBlocked (l : Lists) (list : ModerationList) : Lists :=
  { l with blockedPeers := list.blockedPeers.foldl BlockedPeers.insert l.blockedPeers }

def importWhitelist (l : Lists) (list : ModerationList) : Lists :=
  { l with whitelist := list.whitelistedPeers.foldl (fun wl p => insert p wl) l.whitelist }

def importFlags (l : Lists) (list : ModerationList) : Lists :=
  { l with flags := l.flags++list.flaggedStreams }

/-- `import_list` with nothing in between. -/
def importList (l : Lists) (list : ModerationList) : Lists :=
  ((l.importBlocked list).importWhitelist list).importFlags list

def exportList (l : Lists) (order : HashOrder Unit String) (now : Nat) : ModerationList :=
  ⟨1,none,now,l.blockedPeers.values order,order.order () l.whitelist,l.flags⟩

/-- What a call does under its lock, and whether it persists then. Of `import_list`, which does not
persist, this is the first of three sections. -/
def mutate (l : Lists) : Call → Lists × Bool
  | .blockPeer peerId reason now =>
    ({ l with blockedPeers := l.blockedPeers.insert ⟨peerId,reason,now⟩ },true)
  | .unblockPeer peerId =>
    ({ l with blockedPeers := l.blockedPeers.remove peerId },
      (l.blockedPeers.entries.lookup peerId).isSome)
  | .whitelistPeer peerId => ({ l with whitelist := insert peerId l.whitelist },true)
  | .removeWhitelist peerId =>
    ({ l with whitelist := l.whitelist.erase peerId },decide (peerId ∈ l.whitelist))
  | .flagStream streamId reason details reporter now =>
    ({ l with flags := l.flags++[⟨streamId,reason,details,reporter,now⟩] },true)
  | .unflagStream streamId =>
    let flags := l.flags.filter (fun f => f.streamId ≠ streamId)
    ({ l with flags := flags },decide (0 < l.flags.length-flags.length))
  | .importList list => (l.importBlocked list,false)

end Lists

/-- Where a call stands: before its lock, in `import_list` before the whitelist or the flags, before
the copy that it saves, or with this copy before the file is written. The locks of the copy are
all held until it is complete, and released before the file is written, so that calls on other
threads may come in between. -/
inductive Progress where
  | mutate (call : Call)
  | importWhitelist (list : ModerationList)
  | importFlags (list : ModerationList)
  | exportList
  | write (list : ModerationList)
  deriving DecidableEq, Repr

/-- The manager, the file that it persists to, and the calls under way. -/
structure ModerationManager where
  lists : Lists
  file : Option ModerationList
  calls : List Progress

inductive ModerationEvent where
  | call (c : Call)
  /-- The `k`th call goes on; the maps are iterated in the given order. -/
  | proceed (k : Nat) (order : HashOrder Unit String) (now : Nat)

namespace ModerationManager

variable (cfg : ModerationConfig)

/-- What a node that starts with this file has in memory. -/
def saved : Option ModerationList → Lists
  | none => .empty
  | some list => Lists.empty.importList list

/-- A manager that has loaded the file, if there is one. -/
def start (file : Option ModerationList) : ModerationManager := ⟨saved file,file,[]⟩

def maybePersist : Option Progress :=
  if cfg.autoPersist && cfg.persistencePath.isSome then some .exportList else none

/-- A call goes on to its next await point. All writes to the file succeed. -/
def progress (order : HashOrder Unit String) (now : Nat) (s : ModerationManager) :
    Progress → ModerationManager × Option Progress
  | .mutate (.importList list) =>
    ({ s with lists := s.lists.importBlocked list },some (.importWhitelist list))
  | .mutate call =>
    ({ s with lists := (s.lists.mutate call).1 },
      if (s.lists.mutate call).2 then maybePersist cfg else none)
  | .importWhitelist list =>
    ({ s with lists := s.lists.importWhitelist list },some (.importFlags list))
  | .importFlags list => ({ s with lists := s.lists.importFlags list },none)
  | .exportList => (s,some (.write (s.lists.exportList order now)))
  | .write list => ({ s with file := some list },none)

def step (s : ModerationManager) : ModerationEvent → ModerationManager
  | .call c => { s with calls := s.calls++[.mutate c] }
  | .proceed k order now =>
    match s.calls[k]? with
    | none => s
    | some p =>
      let r := progress cfg order now s p
      { r.1 with calls := match r.2 with
          | some p => s.calls.set k p
          | none => s.calls.eraseIdx k }

end ModerationManager

end OpenBroadcast.Moderation
