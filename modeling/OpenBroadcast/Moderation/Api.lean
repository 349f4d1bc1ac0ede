import OpenBroadcast.Framework.Since
import OpenBroadcast.Moderation.Import

namespace OpenBroadcast.Moderation

/-- The requests that reach a handler of the moderation API, with their bodies. -/
inductive ModerationRequest where
  | blockPeer (peerId : String) (reason : Option String)
  | unblockPeer (peerId : String)
  | blockedPeers
  | flagStream (streamId reason : String) (details reporter : Option String)
  | flaggedStreams
  | importList (list : ModerationList)
  | exportList

inductive Response where
  | notFound (text : String)
  | unauthorized (text : String)
  | error (message : String)
  | message (text : String)
  | removed (removed : Bool)
  | blockedPeers (peers : List BlockEntry) (count : Nat)
  | flaggedStreams (flags : List FlagEntry) (count : Nat)
  | list (list : ModerationList)
  deriving DecidableEq, Repr

/-- A request with its `Authorization` header, if that is text, the time, and the order in which the
maps are iterated. -/
structure Request where
  authorization : Option String
  now : Nat
  order : HashOrder Unit String
  body : ModerationRequest

/-- What the handlers use of the server. The peers that are kicked are recorded one by one. -/
structure AppState where
  adminApiToken : Option String
  moderation : Option Lists
  kicked : List String

/-- `lower` is `to_lowercase`. -/
def parseFlagReason (lower : String → String) (s : String) : FlagReason :=
  match lower s with
  | "spam" => .spam
  | "inappropriate" => .inappropriate
  | "copyright" => .copyright
  | "abuse" => .abuse
  | other => .other other

def modNotEnabled : Response := .error "Moderation not enabled"

namespace AppState

variable (lower : String → String)

def modBlockPeerHandler (s : AppState) (now : Nat) (peerId : String) (reason : Option String) :
    Response × AppState :=
  match s.moderation with
  | none => (modNotEnabled,s)
  | some l => (.message s!"Blocked peer: {peerId}",
    { s with
      moderation := some (l.mutate (.blockPeer peerId reason now)).1
      kicked := s.kicked++[peerId] })

def modUnblockPeerHandler (s : AppState) (peerId : String) : Response × AppState :=
  match s.moderation with
  | none => (modNotEnabled,s)
  | some l =>
    let (lists,removed) := l.mutate (.unblockPeer peerId)
    (.removed removed,{ s with moderation := some lists })

def modBlockedPeersHandler (order : HashOrder Unit String) (s : AppState) : Response :=
  match s.moderation with
  | none => modNotEnabled
  | some l => .blockedPeers (l.blockedPeers.values order) (l.blockedPeers.values order).length

def modFlagStreamHandler (s : AppState) (now : Nat) (streamId reason : String)
    (details reporter : Option String) : Response × AppState :=
  match s.moderation with
  | none => (modNotEnabled,s)
  | some l =>
    let reason := parseFlagReason lower reason
    (.message s!"Flagged stream: {streamId}",
      { s with moderation := some (l.mutate (.flagStream streamId reason details reporter now)).1 })

def modFlaggedStreamsHandler (s : AppState) : Response :=
  match s.moderation with
  | none => modNotEnabled
  | some l => .flaggedStreams l.flags l.flags.length

def modImportHandler (s : AppState) (list : ModerationList) : Response × AppState :=
  match s.moderation with
  | none => (modNotEnabled,s)
  | some l => (.message "Imported moderation list",{ s with moderation := some (l.importList list) })

def modExportHandler (order : HashOrder Unit String) (s : AppState) (now : Nat) : Response :=
  match s.moderation with
  | none => modNotEnabled
  | some l => .list (l.exportList order now)

def handler (s : AppState) (r : Request) : Response × AppState :=
  match r.body with
  | .blockPeer peerId reason => s.modBlockPeerHandler r.now peerId reason
  | .unblockPeer peerId => s.modUnblockPeerHandler peerId
  | .blockedPeers => (s.modBlockedPeersHandler r.order,s)
  | .flagStream streamId reason details reporter =>
    s.modFlagStreamHandler lower r.now streamId reason details reporter
  | .flaggedStreams => (s.modFlaggedStreamsHandler,s)
  | .importList list => s.modImportHandler list
  | .exportList => (s.modExportHandler r.order r.now,s)

def adminAuthMiddleware (s : AppState) (r : Request) : Response × AppState :=
  match s.adminApiToken with
  | none => (.notFound "Admin API not enabled",s)
  | some expected =>
    match r.authorization with
    | some h =>
      if "Bearer ".toList.isPrefixOf h.toList then
        let token := h.toList.drop 7
        if token = expected.toList then s.handler lower r
        else (.unauthorized "Invalid token",s)
      else (.unauthorized "Missing or invalid Authorization header",s)
    | none => (.unauthorized "Missing or invalid Authorization header",s)

def step (s : AppState) (r : Request) : AppState := (s.adminAuthMiddleware lower r).2

section Authorization

/-- The request names the token that the server is configured with. -/
def Authorized (token : Option String) (r : Request) : Prop :=
  ∃ t, token = some t ∧ r.authorization = some ("Bearer "++t)

instance (token : Option String) (r : Request) : Decidable (Authorized token r) :=
  match token with
  | none => isFalse (by simp [Authorized])
  | some t => decidable_of_iff (r.authorization = some ("Bearer "++t)) (by simp [Authorized])

theorem bearer_iff (h t : String) :
    ("Bearer ".toList.isPrefixOf h.toList = true ∧ h.toList.drop 7 = t.toList) ↔
      h = "Bearer "++t := by
  rw [List.isPrefixOf_iff_prefix]
  constructor
  · rintro ⟨⟨rest,hrest⟩,htoken⟩
    apply String.toList_injective
    have hdrop : h.toList.drop 7 = rest := by
      rw [← hrest]
      rfl
    rw [String.toList_append,← hrest,← htoken,hdrop]
  · rintro rfl
    rw [String.toList_append]
    exact ⟨List.prefix_append _ _,rfl⟩

theorem auth_of_authorized {s : AppState} {r : Request} (h : Authorized s.adminApiToken r) :
    s.adminAuthMiddleware lower r = s.handler lower r := by
  obtain ⟨t,htoken,hheader⟩ := h
  obtain ⟨hpre,hrest⟩ := (bearer_iff ("Bearer "++t) t).mpr rfl
  simp only [adminAuthMiddleware,htoken,hheader,hpre,hrest,if_true]

/-- What is answered without looking at the request further. -/
theorem auth_of_unauthorized {s : AppState} {r : Request} (h : ¬ Authorized s.adminApiToken r) :
    (s.adminAuthMiddleware lower r).2 = s ∧
      match s.adminApiToken with
      | none => (s.adminAuthMiddleware lower r).1 = .notFound "Admin API not enabled"
      | some _ => ∃ text, (s.adminAuthMiddleware lower r).1 = .unauthorized text := by
  unfold adminAuthMiddleware
  cases htoken : s.adminApiToken with
  | none => exact ⟨rfl,rfl⟩
  | some t =>
    cases hheader : r.authorization with
    | none => exact ⟨rfl,_,rfl⟩
    | some header =>
      dsimp only
      split_ifs with hpre hrest
      · have hmatch := (bearer_iff header t).mp ⟨hpre,hrest⟩
        exact absurd ⟨t,htoken,by rw [hheader,hmatch]⟩ h
      · exact ⟨rfl,_,rfl⟩
      · exact ⟨rfl,_,rfl⟩

@[simp] theorem handler_token (s : AppState) (r : Request) :
    (s.handler lower r).2.adminApiToken = s.adminApiToken := by
  unfold handler modBlockPeerHandler modUnblockPeerHandler modFlagStreamHandler modImportHandler
  cases s.moderation <;> cases r.body <;> rfl

@[simp] theorem step_token (s : AppState) (r : Request) :
    (s.step lower r).adminApiToken = s.adminApiToken := by
  by_cases h : Authorized s.adminApiToken r
  · rw [step,auth_of_authorized lower h,handler_token]
  · rw [step,(auth_of_unauthorized lower h).1]

/-- A request that is not authorized is as if it had not come. -/
theorem run_authorized (s : AppState) (rs : List Request) :
    rs.foldl (step lower) s = (rs.filter (fun r => Authorized s.adminApiToken r)).foldl
      (fun s r => (s.handler lower r).2) s := by
  induction rs generalizing s with
  | nil => rfl
  | cons r rs ih =>
    have hrest := ih (s.step lower r)
    rw [step_token] at hrest
    rw [List.foldl_cons,hrest]
    by_cases h : Authorized s.adminApiToken r
    · rw [List.filter_cons_of_pos (by simpa using h),List.foldl_cons]
      rw [step,auth_of_authorized lower h]
    · rw [List.filter_cons_of_neg (by simpa using h)]
      rw [step,(auth_of_unauthorized lower h).1]

end Authorization

section Runs

def blocks (peer : String) (r : Request) : Prop :=
  (∃ reason, r.body = .blockPeer peer reason) ∨
    ∃ list, r.body = .importList list ∧ ∃ e ∈ list.blockedPeers, e.peerId = peer

def isBlocked (s : AppState) (peer : String) : Prop :=
  ∃ l, s.moderation = some l ∧ peer ∈ l.blockedPeers.entries

/-- The flags that a request adds. -/
def flagged (r : Request) : List FlagEntry :=
  match r.body with
  | .flagStream streamId reason details reporter =>
    [⟨streamId,parseFlagReason lower reason,details,reporter,r.now⟩]
  | .importList list => list.flaggedStreams
  | _ => []

def blockedBy (r : Request) : List String :=
  match r.body with
  | .blockPeer peerId _ => [peerId]
  | _ => []

theorem mem_importBlocked (l : Lists) (list : ModerationList) (peer : String) :
    peer ∈ (l.importList list).blockedPeers.entries ↔
      (∃ e ∈ list.blockedPeers, e.peerId = peer) ∨ peer ∈ l.blockedPeers.entries := by
  have hlookup := Lists.lookup_importBlocked list.blockedPeers l.blockedPeers peer
  have hblocked : (l.importList list).blockedPeers =
      list.blockedPeers.foldl BlockedPeers.insert l.blockedPeers := rfl
  rw [hblocked,← Finmap.lookup_isSome,hlookup,Option.isSome_or,Bool.or_eq_true,
    List.find?_isSome,Finmap.lookup_isSome]
  simp

theorem handler_moderation (s : AppState) (r : Request) :
    (s.handler lower r).2.moderation.isSome = s.moderation.isSome := by
  unfold handler modBlockPeerHandler modUnblockPeerHandler modFlagStreamHandler modImportHandler
  cases hmoderation : s.moderation <;> cases r.body <;> simp [hmoderation]

theorem isBlocked_handler (peer : String) (s : AppState) (r : Request) :
    (s.handler lower r).2.isBlocked peer ↔
      (s.moderation.isSome = true ∧ blocks peer r) ∨
        s.isBlocked peer ∧ ¬ r.body = .unblockPeer peer := by
  cases hmoderation : s.moderation with
  | none =>
    have hsame : (s.handler lower r).2 = s := by
      unfold handler modBlockPeerHandler modUnblockPeerHandler modFlagStreamHandler modImportHandler
      rw [hmoderation]
      cases r.body <;> rfl
    have hnot : ¬ s.isBlocked peer := by simp [isBlocked,hmoderation]
    simp [hsame,hnot]
  | some l =>
    have hnow : s.isBlocked peer ↔ peer ∈ l.blockedPeers.entries := by simp [isBlocked,hmoderation]
    rw [hnow]
    cases hbody : r.body with
    | blockPeer peerId reason =>
      simp [isBlocked,handler,modBlockPeerHandler,hbody,hmoderation,blocks,Lists.mutate,
        BlockedPeers.insert,Finmap.mem_insert,eq_comm]
    | unblockPeer peerId =>
      simp [isBlocked,handler,modUnblockPeerHandler,hbody,hmoderation,blocks,Lists.mutate,
        BlockedPeers.remove,Finmap.mem_erase,eq_comm,and_comm]
    | importList list =>
      simp [isBlocked,handler,modImportHandler,hbody,hmoderation,blocks,mem_importBlocked]
    | flagStream streamId reason details reporter =>
      simp [isBlocked,handler,modFlagStreamHandler,hbody,hmoderation,blocks,Lists.mutate]
    | blockedPeers => simp [isBlocked,handler,hbody,hmoderation,blocks]
    | flaggedStreams => simp [isBlocked,handler,hbody,hmoderation,blocks]
    | exportList => simp [isBlocked,handler,hbody,hmoderation,blocks]

theorem flags_handler (s : AppState) (r : Request) :
    (s.handler lower r).2.moderation.map (·.flags) =
      (s.moderation.map (·.flags)).map (·++flagged lower r) := by
  unfold handler modBlockPeerHandler modUnblockPeerHandler modFlagStreamHandler modImportHandler
  cases hmoderation : s.moderation <;> cases hbody : r.body <;>
    simp [flagged,hbody,hmoderation,Lists.mutate,Lists.importList,Lists.importBlocked,
      Lists.importWhitelist,Lists.importFlags]

theorem kicked_handler (s : AppState) (r : Request) :
    (s.handler lower r).2.kicked =
      s.kicked++(if s.moderation.isSome then blockedBy r else []) := by
  unfold handler modBlockPeerHandler modUnblockPeerHandler modFlagStreamHandler modImportHandler
  cases hmoderation : s.moderation <;> cases hbody : r.body <;> simp [blockedBy,hbody]

theorem flags_run (s : AppState) (rs : List Request) :
    (rs.foldl (fun s r => (s.handler lower r).2) s).moderation.map (·.flags) =
      (s.moderation.map (·.flags)).map (·++rs.flatMap (flagged lower)) := by
  induction rs generalizing s with
  | nil =>
    show _ = (s.moderation.map (·.flags)).map (·++[])
    cases h : s.moderation <;> simp [h]
  | cons r rs ih =>
    rw [List.foldl_cons,ih,flags_handler,Option.map_map,List.flatMap_cons]
    congr 1
    funext flags
    exact List.append_assoc _ _ _

theorem kicked_run (s : AppState) (rs : List Request) :
    (rs.foldl (fun s r => (s.handler lower r).2) s).kicked =
      s.kicked++(if s.moderation.isSome then rs.flatMap blockedBy else []) := by
  induction rs generalizing s with
  | nil => simp
  | cons r rs ih =>
    rw [List.foldl_cons,ih,kicked_handler,handler_moderation]
    cases s.moderation <;> simp

/-- Only authorized requests count. A peer is blocked if the last of them that blocks or unblocks it
does so alone or in a list, or none does and it was blocked before; flags are only ever added,
every peer that is blocked by itself is kicked, also one that was blocked already, and the requests
that do not count are answered 404 where no token is configured and 401 where one is. -/
theorem moderation_run (s : AppState) (rs : List Request) :
    let after := rs.foldl (step lower) s
    let admitted := rs.filter (fun r => Authorized s.adminApiToken r)
    (∀ peer, after.isBlocked peer ↔
      (s.moderation.isSome = true ∧ ∃ pre r post, admitted = pre++r::post ∧ blocks peer r ∧
        ∀ x ∈ post, x.body ≠ .unblockPeer peer) ∨
      s.isBlocked peer ∧ ∀ x ∈ admitted, x.body ≠ .unblockPeer peer) ∧
    after.moderation.map (·.flags) =
      (s.moderation.map (·.flags)).map (·++admitted.flatMap (flagged lower)) ∧
    after.kicked =
      s.kicked++(if s.moderation.isSome then admitted.flatMap blockedBy else []) ∧
    ∀ r, ¬ Authorized s.adminApiToken r → (after.adminAuthMiddleware lower r).2 = after ∧
      match s.adminApiToken with
      | none => (after.adminAuthMiddleware lower r).1 = .notFound "Admin API not enabled"
      | some _ => ∃ text, (after.adminAuthMiddleware lower r).1 = .unauthorized text := by
  intro after admitted
  have hafter : after = admitted.foldl (fun s r => (s.handler lower r).2) s :=
    run_authorized lower s rs
  have htoken : after.adminApiToken = s.adminApiToken :=
    (along_true (step lower) s rs).invariant (fun s' => s'.adminApiToken = s.adminApiToken) rfl
      (fun s' r h _ => (step_token lower s' r).trans h)
  refine ⟨?_,by rw [hafter,flags_run],by rw [hafter,kicked_run],?_⟩
  · intro peer
    have hsince := holds_iff_since (P := fun s : AppState => s.isBlocked peer)
      (isBlocked_handler lower peer) s admitted
    have hkept : ∀ (s : AppState) (rs : List Request),
        Along (fun s r => (s.handler lower r).2) (fun _ r => ¬ r.body = .unblockPeer peer) s rs ↔
          ∀ x ∈ rs, x.body ≠ .unblockPeer peer := by
      intro s rs
      refine along_iff_forall (fun _ => True) trivial (fun _ _ _ => trivial) ?_ rs
      exact fun _ _ _ => Iff.rfl
    have henabled : ∀ rs : List Request,
        (rs.foldl (fun s r => (s.handler lower r).2) s).moderation.isSome = s.moderation.isSome := by
      intro rs
      exact (along_true _ s rs).invariant (fun s' => s'.moderation.isSome = s.moderation.isSome) rfl
        (fun s' r h _ => (handler_moderation lower s' r).trans h)
    rw [hafter,hsince,hkept]
    refine or_congr_left ?_
    constructor
    · rintro ⟨pre,r,post,hsplit,⟨hsome,hblocks⟩,hlater⟩
      exact ⟨(henabled pre).symm.trans hsome,pre,r,post,hsplit,hblocks,(hkept _ _).mp hlater⟩
    · rintro ⟨hsome,pre,r,post,hsplit,hblocks,hlater⟩
      exact ⟨pre,r,post,hsplit,⟨(henabled pre).trans hsome,hblocks⟩,(hkept _ _).mpr hlater⟩
  · intro r h
    rw [← htoken] at h ⊢
    exact auth_of_unauthorized lower h

end Runs

end AppState

end OpenBroadcast.Moderation
