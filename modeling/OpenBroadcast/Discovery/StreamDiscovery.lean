import OpenBroadcast.Delivery.Bridge

namespace OpenBroadcast.Discovery

open Relay (StreamId)
open Delivery (OverlayError)

structure StreamAnnouncement where
  streamId : StreamId
  title : String
  publisherId : List UInt8
  videoCodec : Option String
  audioCodec : Option String
  videoWidth : Option UInt32
  videoHeight : Option UInt32
  startedAt : UInt64
  announcedAt : UInt64
  ttlSecs : UInt64
  metadata : HashMap String String
  deriving DecidableEq

def defaultAnnouncementTtlSecs : UInt64 := 300

namespace StreamAnnouncement

def new (streamId : StreamId) (title : String) (publisherId : List UInt8) (now : UInt64) :
    StreamAnnouncement :=
  ⟨streamId,title,publisherId,none,none,none,none,now,now,defaultAnnouncementTtlSecs,∅⟩

/-- The sum wraps, as it does without overflow checks. -/
def isExpired (a : StreamAnnouncement) (now : UInt64) : Bool := a.announcedAt+a.ttlSecs < now

end StreamAnnouncement

structure StreamDiscoveryConfig where
  maxCachedStreams : Nat
  deriving DecidableEq, Repr

def StreamDiscoveryConfig.default : StreamDiscoveryConfig := ⟨1000⟩

/-- The cached announcements. -/
abbrev StreamCache := HashMap StreamId StreamAnnouncement

namespace StreamCache

def cleanupExpired (cache : StreamCache) (now : UInt64) : StreamCache :=
  cache.retain (fun _ v => !v.isExpired now)

/-- `process_announcement` on what `serde_json` makes of the data. -/
def processAnnouncement (cfg : StreamDiscoveryConfig) (cache : StreamCache) (now : UInt64)
    (parsed : Except String StreamAnnouncement) :
    StreamCache × Except OverlayError (Option StreamAnnouncement) :=
  match parsed with
  | .error e => (cache,.error (.other ("Failed to deserialize announcement: "++e)))
  | .ok announcement =>
    if announcement.isExpired now then (cache,.ok none)
    else
      let cache := if cfg.maxCachedStreams ≤ cache.keys.card then cache.cleanupExpired now else cache
      (if cache.keys.card < cfg.maxCachedStreams then
        cache.insert announcement.streamId announcement else cache,.ok (some announcement))

end StreamCache

/-- Where a call of `announce_stream` stands: it publishes the announcement, adds it to the node's
own streams, and caches it. -/
inductive AnnounceStage where
  | publish
  | own
  | cache
  deriving DecidableEq, Repr

structure AnnounceCall where
  announcement : StreamAnnouncement
  stage : AnnounceStage
  deriving DecidableEq

inductive RemoveStage where
  | own
  | cache
  deriving DecidableEq, Repr

structure RemoveCall where
  streamId : StreamId
  stage : RemoveStage
  deriving DecidableEq, Repr

/-- The background task: before it starts, at the top of its loop, in `select!`, in the loop over
its copy of the node's own streams with the call of `announce_stream` that it is in, or at its
end. -/
inductive Task where
  | spawned
  | top
  | select
  | announcing (call : Option AnnounceCall) (rest : List StreamAnnouncement)
  | stopped
  deriving DecidableEq

/-- The discovery service with the calls of the application that are under way. Recorded besides:
what has been published so far, and the streams for which `remove_stream` has returned and the
application has not called `announce_stream` since. -/
structure StreamDiscovery where
  streams : StreamCache
  isRunning : Bool
  ownStreams : List StreamAnnouncement
  announces : List AnnounceCall
  removes : List RemoveCall
  task : Option Task
  published : List StreamAnnouncement
  removed : Finset StreamId

/-- What happens at the service between two await points. -/
inductive DiscoveryEvent where
  | announceStream (announcement : StreamAnnouncement)
  /-- The `k`th call goes on; `sent` is the answer of the overlay if that is what it waits for. -/
  | announceProceeds (k : Nat) (sent : Except OverlayError Unit)
  | removeStream (streamId : StreamId)
  | removeProceeds (k : Nat)
  | spawn
  | stop
  | taskStarts
  | taskChecks
  | cleanupTick (now : UInt64)
  | announceTick
  /-- The task goes on in its loop over the streams. -/
  | taskAnnounces (now : UInt64) (sent : Except OverlayError Unit)
  | receive (now : UInt64) (parsed : Except String StreamAnnouncement)

namespace StreamDiscovery

def new : StreamDiscovery := ⟨∅,false,[],[],[],none,[],∅⟩

/-- One section of `announce_stream`, with what is left of the call. -/
def announceSection (s : StreamDiscovery) (call : AnnounceCall) (sent : Except OverlayError Unit) :
    StreamDiscovery × Option AnnounceCall :=
  match call.stage with
  | .publish =>
    match sent with
    | .ok () => ({ s with published := s.published++[call.announcement] },some { call with stage := .own })
    | .error _ => (s,none)
  | .own =>
    ({ s with ownStreams :=
        s.ownStreams.filter (fun a => a.streamId ≠ call.announcement.streamId)++[call.announcement] },
      some { call with stage := .cache })
  | .cache =>
    ({ s with streams := s.streams.insert call.announcement.streamId call.announcement },none)

def announceProceeds (s : StreamDiscovery) (k : Nat) (sent : Except OverlayError Unit) :
    StreamDiscovery :=
  match s.announces[k]? with
  | none => s
  | some call =>
    let (s,call) := s.announceSection call sent
    { s with announces := match call with
        | some call => s.announces.set k call
        | none => s.announces.eraseIdx k }

def removeProceeds (s : StreamDiscovery) (k : Nat) : StreamDiscovery :=
  match s.removes[k]? with
  | none => s
  | some call =>
    match call.stage with
    | .own =>
      { s with
        ownStreams := s.ownStreams.filter (fun a => a.streamId ≠ call.streamId)
        removes := s.removes.set k { call with stage := .cache } }
    | .cache =>
      { s with
        streams := s.streams.erase call.streamId
        removes := s.removes.eraseIdx k
        removed := insert call.streamId s.removed }

def taskAnnounces (s : StreamDiscovery) (now : UInt64) (sent : Except OverlayError Unit) :
    StreamDiscovery :=
  match s.task with
  | some (.announcing none []) => { s with task := some .top }
  | some (.announcing none (announcement::rest)) =>
    let updated := { announcement with announcedAt := now }
    { s with task := some (.announcing (some ⟨updated,.publish⟩) rest) }
  | some (.announcing (some call) rest) =>
    let (s,call) := s.announceSection call sent
    { s with task := some (.announcing call rest) }
  | _ => s

def step (cfg : StreamDiscoveryConfig) (s : StreamDiscovery) : DiscoveryEvent → StreamDiscovery
  | .announceStream announcement =>
    { s with
      announces := s.announces++[⟨announcement,.publish⟩]
      removed := s.removed.erase announcement.streamId }
  | .announceProceeds k sent => s.announceProceeds k sent
  | .removeStream streamId => { s with removes := s.removes++[⟨streamId,.own⟩] }
  | .removeProceeds k => s.removeProceeds k
  | .spawn => if s.task = none then { s with task := some .spawned } else s
  | .stop => { s with isRunning := false }
  | .taskStarts =>
    if s.task = some .spawned then { s with task := some .top, isRunning := true } else s
  | .taskChecks =>
    if s.task = some .top then
      { s with task := some (if s.isRunning then .select else .stopped) } else s
  | .cleanupTick now =>
    if s.task = some .select then
      { s with task := some .top, streams := s.streams.cleanupExpired now } else s
  | .announceTick =>
    if s.task = some .select then { s with task := some (.announcing none s.ownStreams) } else s
  | .taskAnnounces now sent => s.taskAnnounces now sent
  | .receive now parsed => { s with streams := (s.streams.processAnnouncement cfg now parsed).1 }

end StreamDiscovery

end OpenBroadcast.Discovery
