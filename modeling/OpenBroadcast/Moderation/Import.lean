import OpenBroadcast.Moderation.Persistence

namespace OpenBroadcast.Moderation

/-- The configuration with what is asked of peers that want to connect. -/
structure AccessConfig extends ModerationConfig where
  whitelistOnly : Bool
  deriving DecidableEq, Repr

namespace Lists

def isPeerAllowed (l : Lists) (cfg : AccessConfig) (peerId : String) : Bool :=
  if (l.blockedPeers.entries.lookup peerId).isSome then false
  else if cfg.whitelistOnly then decide (peerId ∈ l.whitelist)
  else true

def isStreamFlagged (l : Lists) (streamId : String) : Bool :=
  l.flags.any (fun f => decide (f.streamId = streamId))

/-- A peer has the last entry of the list that is about it. -/
theorem lookup_importBlocked (entries : List BlockEntry) (b : BlockedPeers) (id : String) :
    (entries.foldl BlockedPeers.insert b).entries.lookup id =
      (entries.reverse.find? (fun e => decide (e.peerId = id))).or (b.entries.lookup id) := by
  induction entries generalizing b with
  | nil => rfl
  | cons e entries ih =>
    rw [List.foldl_cons,ih,List.reverse_cons,List.find?_append,Option.or_assoc]
    congr 1
    by_cases hid : id = e.peerId
    · subst hid
      have hnew : (b.insert e).entries.lookup e.peerId = some e := Finmap.lookup_insert _
      simp [hnew]
    · have hold : (b.insert e).entries.lookup id = b.entries.lookup id :=
        Finmap.lookup_insert_of_ne _ hid
      have hne : ¬ e.peerId = id := fun h => hid h.symm
      simp [hold,hne]

theorem importBlocked_importBlocked (l : Lists) (list : ModerationList) :
    (l.importBlocked list).importBlocked list = l.importBlocked list := by
  apply Lists.ext
  · apply BlockedPeers.ext
    apply Finmap.ext_lookup
    intro id
    simp only [importBlocked,lookup_importBlocked]
    cases list.blockedPeers.reverse.find? (fun e => decide (e.peerId = id)) <;> rfl
  · rfl
  · rfl

theorem importWhitelist_importWhitelist (l : Lists) (list : ModerationList) :
    (l.importWhitelist list).importWhitelist list = l.importWhitelist list := by
  apply Lists.ext
  · rfl
  · ext p
    simp only [importWhitelist,mem_importWhitelist]
    tauto
  · rfl

/-- A second import adds nothing but the flags of the list once more. -/
theorem importList_importList (l : Lists) (list : ModerationList) :
    (l.importList list).importList list = (l.importList list).importFlags list := by
  have hblocked := congrArg Lists.blockedPeers (importBlocked_importBlocked l list)
  have hwhitelist := congrArg Lists.whitelist (importWhitelist_importWhitelist l list)
  apply Lists.ext
  · exact hblocked
  · exact hwhitelist
  · rfl

theorem isStreamFlagged_importFlags (l : Lists) (list : ModerationList) (streamId : String) :
    (l.importFlags list).isStreamFlagged streamId =
      (l.isStreamFlagged streamId ||
        list.flaggedStreams.any (fun f => decide (f.streamId = streamId))) := by
  simp [isStreamFlagged,importFlags]

/-- An import that is repeated leaves the lists of peers as they are and appends the flags again,
which flags no other streams; and what is exported says the same of all peers and streams where it
is imported. -/
theorem import_repeated_and_export (l : Lists) (list : ModerationList) (cfg : AccessConfig)
    (order : HashOrder Unit String) (now : Nat) :
    let once := l.importList list
    let twice := once.importList list
    let shared := Lists.empty.importList (l.exportList order now)
    twice.blockedPeers = once.blockedPeers ∧ twice.whitelist = once.whitelist ∧
    twice.flags = once.flags++list.flaggedStreams ∧
    (∀ id, twice.isStreamFlagged id = once.isStreamFlagged id) ∧
    (∀ id, shared.isPeerAllowed cfg id = l.isPeerAllowed cfg id) ∧
    ∀ id, shared.isStreamFlagged id = l.isStreamFlagged id := by
  intro once twice shared
  have htwice : twice = once.importFlags list := importList_importList l list
  have hshared : shared = l := importList_exportList l order now
  rw [htwice,hshared]
  refine ⟨rfl,rfl,rfl,?_,fun _ => rfl,fun _ => rfl⟩
  intro id
  have hfirst : once.isStreamFlagged id =
      (((l.importBlocked list).importWhitelist list).isStreamFlagged id ||
        list.flaggedStreams.any (fun f => decide (f.streamId = id))) :=
    isStreamFlagged_importFlags _ list id
  rw [isStreamFlagged_importFlags,hfirst,Bool.or_assoc,Bool.or_self]

def oneFlag : ModerationList :=
  ⟨1,none,0,[],[],[⟨"s1",.copyright,none,none,0⟩]⟩

/-- The flags of a list are there twice after two imports. -/
theorem flags_imported_twice :
    ((Lists.empty.importList oneFlag).importList oneFlag).flags ≠
      (Lists.empty.importList oneFlag).flags := by
  decide

end Lists

end OpenBroadcast.Moderation
