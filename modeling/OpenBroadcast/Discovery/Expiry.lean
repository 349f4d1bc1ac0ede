import OpenBroadcast.Discovery.StreamDiscovery
import OpenBroadcast.Framework.Overflow
import OpenBroadcast.PubSub.Validation

namespace OpenBroadcast

/-- The sum of two numbers is computed as it is: without a panic, and without wrapping. -/
def Overflow.Exact (o : Overflow) (a b : UInt64) : Prop :=
  ∃ sum, o.addU64 a b = some sum ∧ sum.toNat = a.toNat+b.toNat

theorem Overflow.exact_iff (o : Overflow) (a b : UInt64) :
    o.Exact a b ↔ a.toNat+b.toNat < 2^64 := by
  constructor
  · rintro ⟨sum,_,hsum⟩
    rw [← hsum]
    exact sum.toNat_lt
  · intro h
    exact ⟨a+b,o.addU64_of_lt a b h,toNat_add_of_lt h⟩

/-- `now > a + b`, with a sum as the build computes it. -/
def Overflow.after (o : Overflow) (a b now : UInt64) : Option Bool :=
  (o.addU64 a b).map (fun sum => decide (sum < now))

section After

variable {o : Overflow} {a b : UInt64}

theorem Overflow.after_of_lt (h : a.toNat+b.toNat < 2^64) (now : UInt64) :
    o.after a b now = some (decide (a.toNat+b.toNat < now.toNat)) := by
  rw [after,o.addU64_of_lt a b h,Option.map_some]
  congr 2
  rw [UInt64.lt_iff_toNat_lt,toNat_add_of_lt h]

/-- A sum that overflows is wrong at the end of time, at the latest. -/
theorem Overflow.after_of_ge (h : 2^64 ≤ a.toNat+b.toNat) :
    o.after a b (UInt64.ofNat (2^64-1)) ≠
      some (decide (a.toNat+b.toNat < (UInt64.ofNat (2^64-1)).toNat)) := by
  have hlast : (UInt64.ofNat (2^64-1)).toNat = 2^64-1 := rfl
  have hnot : ¬ a.toNat+b.toNat < 2^64-1 := by omega
  rw [hlast]
  cases o with
  | panics =>
    rw [after,addU64_panics_of_ge a b h]
    simp
  | wraps =>
    have hwrapped := toNat_add_of_ge h
    have ha := a.toNat_lt
    have hb := b.toNat_lt
    have hlt : a+b < UInt64.ofNat (2^64-1) := by
      rw [UInt64.lt_iff_toNat_lt,hlast]
      omega
    rw [after,addU64_wraps,Option.map_some,decide_eq_true hlt,decide_eq_false hnot]
    simp

theorem Overflow.after_exact_iff (now : UInt64) :
    (o.after a b now = some (decide (a.toNat+b.toNat < now.toNat)) ∧ o.Exact a b) ↔
      a.toNat+b.toNat < 2^64 := by
  rw [exact_iff]
  constructor
  · exact fun h => h.2
  · exact fun h => ⟨after_of_lt h now,h⟩

end After

namespace PubSub.Message

/-- The message is over, by its times as they are. -/
def ExpiredAt (m : Message) (now : Moment) : Prop :=
  m.timestamp.toNat+m.ttl.toNat < now.millis.toNat

instance (m : Message) (now : Moment) : Decidable (m.ExpiredAt now) :=
  inferInstanceAs (Decidable (_ < _))

/-- The end of the message is a `u64`. -/
def Fits (m : Message) : Prop := m.timestamp.toNat+m.ttl.toNat < 2^64

/-- `is_expired`, or a panic. -/
def checkExpired (o : Overflow) (m : Message) (now : Moment) : Option Bool :=
  if m.ttl = 0 then some false else o.after m.timestamp m.ttl now.millis

theorem checkExpired_wraps (m : Message) (now : Moment) :
    m.checkExpired .wraps now = some (m.isExpired now) := by
  unfold checkExpired isExpired Overflow.after
  rw [Overflow.addU64_wraps]
  split_ifs <;> rfl

theorem checkExpired_exact_iff (o : Overflow) (m : Message) (now : Moment) (h : m.ttl ≠ 0) :
    (m.checkExpired o now = some (decide (m.ExpiredAt now)) ∧ o.Exact m.timestamp m.ttl) ↔
      m.Fits := by
  rw [checkExpired,if_neg h]
  exact Overflow.after_exact_iff now.millis

end PubSub.Message

namespace Discovery

open Relay (StreamId)
open Delivery (OverlayError)

namespace StreamAnnouncement

/-- The announcement is over, by its times as they are. -/
def ExpiredAt (a : StreamAnnouncement) (now : UInt64) : Prop :=
  a.announcedAt.toNat+a.ttlSecs.toNat < now.toNat

instance (a : StreamAnnouncement) (now : UInt64) : Decidable (a.ExpiredAt now) :=
  inferInstanceAs (Decidable (_ < _))

/-- The end of the announcement is a `u64`. -/
def Fits (a : StreamAnnouncement) : Prop := a.announcedAt.toNat+a.ttlSecs.toNat < 2^64

/-- `is_expired`, or a panic. -/
def checkExpired (o : Overflow) (a : StreamAnnouncement) (now : UInt64) : Option Bool :=
  o.after a.announcedAt a.ttlSecs now

theorem checkExpired_wraps (a : StreamAnnouncement) (now : UInt64) :
    a.checkExpired .wraps now = some (a.isExpired now) := by
  unfold checkExpired isExpired Overflow.after
  rw [Overflow.addU64_wraps]
  rfl

theorem Fits.checkExpired {o : Overflow} {a : StreamAnnouncement} (h : a.Fits) (now : UInt64) :
    a.checkExpired o now = some (decide (a.ExpiredAt now)) :=
  Overflow.after_of_lt h now

theorem checkExpired_exact_iff (o : Overflow) (a : StreamAnnouncement) (now : UInt64) :
    (a.checkExpired o now = some (decide (a.ExpiredAt now)) ∧
      o.Exact a.announcedAt a.ttlSecs) ↔ a.Fits :=
  Overflow.after_exact_iff now

/-- The last moment there is. -/
def lastSecond : UInt64 := UInt64.ofNat (2^64-1)

/-- No announcement that does not fit is ever over. -/
theorem not_expiredAt_of_not_fits {a : StreamAnnouncement} (h : ¬ a.Fits) (now : UInt64) :
    ¬ a.ExpiredAt now := by
  have hnow := now.toNat_lt
  unfold Fits at h
  unfold ExpiredAt
  omega

/-- At the last moment the code takes it for over, or panics. -/
theorem checkExpired_last (o : Overflow) {a : StreamAnnouncement} (h : ¬ a.Fits) :
    a.checkExpired o lastSecond ≠ some false := by
  have hge : 2^64 ≤ a.announcedAt.toNat+a.ttlSecs.toNat := by
    unfold Fits at h
    omega
  have hwrong := Overflow.after_of_ge (o := o) hge
  have hnot := not_expiredAt_of_not_fits h lastSecond
  rw [ExpiredAt,lastSecond] at hnot
  rw [decide_eq_false hnot] at hwrong
  exact hwrong

end StreamAnnouncement

namespace StreamCache

/-- `cleanup_expired`, or a panic at some entry. -/
def checkCleanup (o : Overflow) (cache : StreamCache) (now : UInt64) : Option StreamCache :=
  if ∀ id ∈ cache.keys, (cache.lookup id).all (fun a => (a.checkExpired o now).isSome) = true then
    some (cache.retain (fun _ a => decide (a.checkExpired o now = some false)))
  else none

/-- The filter of `list_streams` and its like, or a panic at some entry. -/
def filterLive (o : Overflow) (now : UInt64) :
    List StreamAnnouncement → Option (List StreamAnnouncement)
  | [] => some []
  | a::l => do
    let expired ← a.checkExpired o now
    let rest ← filterLive o now l
    return if expired then rest else a::rest

def listStreams (o : Overflow) (cache : StreamCache) (order : HashOrder Unit StreamId)
    (now : UInt64) : Option (List StreamAnnouncement) :=
  filterLive o now ((order.iter () cache).map Prod.snd)

def makeRoom (o : Overflow) (cfg : StreamDiscoveryConfig) (cache : StreamCache) (now : UInt64) :
    Option StreamCache :=
  if cfg.maxCachedStreams ≤ cache.keys.card then cache.checkCleanup o now else some cache

/-- `process_announcement`, or a panic. -/
def checkAnnouncement (o : Overflow) (cfg : StreamDiscoveryConfig) (cache : StreamCache)
    (now : UInt64) (parsed : Except String StreamAnnouncement) :
    Option (StreamCache × Except OverlayError (Option StreamAnnouncement)) :=
  match parsed with
  | .error e => some (cache,.error (.other ("Failed to deserialize announcement: "++e)))
  | .ok announcement => do
    let expired ← announcement.checkExpired o now
    if expired then return (cache,.ok none)
    else
      let cache ← cache.makeRoom o cfg now
      return (if cache.keys.card < cfg.maxCachedStreams then
        cache.insert announcement.streamId announcement else cache,.ok (some announcement))

section Wraps

theorem checkCleanup_wraps (cache : StreamCache) (now : UInt64) :
    cache.checkCleanup .wraps now = some (cache.cleanupExpired now) := by
  have hnone : ∀ id ∈ cache.keys,
      (cache.lookup id).all (fun a => (a.checkExpired .wraps now).isSome) = true := by
    intro id _
    cases cache.lookup id with
    | none => simp
    | some a => simp [StreamAnnouncement.checkExpired_wraps]
  rw [checkCleanup,if_pos hnone,cleanupExpired]
  congr 2
  funext _ a
  rw [StreamAnnouncement.checkExpired_wraps]
  cases a.isExpired now <;> simp

theorem makeRoom_wraps (cfg : StreamDiscoveryConfig) (cache : StreamCache) (now : UInt64) :
    cache.makeRoom .wraps cfg now =
      some (if cfg.maxCachedStreams ≤ cache.keys.card then cache.cleanupExpired now else cache) := by
  rw [makeRoom,checkCleanup_wraps]
  split_ifs <;> rfl

theorem checkAnnouncement_wraps (cfg : StreamDiscoveryConfig) (cache : StreamCache) (now : UInt64)
    (parsed : Except String StreamAnnouncement) :
    cache.checkAnnouncement .wraps cfg now parsed =
      some (cache.processAnnouncement cfg now parsed) := by
  cases parsed with
  | error e => rfl
  | ok announcement =>
    simp only [checkAnnouncement,processAnnouncement,StreamAnnouncement.checkExpired_wraps,
      makeRoom_wraps,Option.bind_eq_bind,Option.bind_some,Option.pure_def]
    split_ifs <;> rfl

end Wraps

section Exact

/-- What is over is removed, by the times as they are. -/
def keepLive (cache : StreamCache) (now : UInt64) : StreamCache :=
  cache.retain (fun _ a => decide (¬ a.ExpiredAt now))

/-- `process_announcement` by the times as they are. -/
def exactAnnouncement (cfg : StreamDiscoveryConfig) (cache : StreamCache) (now : UInt64)
    (announcement : StreamAnnouncement) :
    StreamCache × Except OverlayError (Option StreamAnnouncement) :=
  if announcement.ExpiredAt now then (cache,.ok none)
  else
    let cache := if cfg.maxCachedStreams ≤ cache.keys.card then cache.keepLive now else cache
    (if cache.keys.card < cfg.maxCachedStreams then
      cache.insert announcement.streamId announcement else cache,.ok (some announcement))

/-- Every announcement in the cache ends at a `u64`. -/
def Fit (cache : StreamCache) : Prop := ∀ id a, cache.lookup id = some a → a.Fits

variable {o : Overflow} {cache : StreamCache}

theorem checkCleanup_of_fit (h : cache.Fit) (now : UInt64) :
    cache.checkCleanup o now = some (cache.keepLive now) := by
  have hnone : ∀ id ∈ cache.keys,
      (cache.lookup id).all (fun a => (a.checkExpired o now).isSome) = true := by
    intro id _
    cases hid : cache.lookup id with
    | none => simp
    | some a => simp [(h id a hid).checkExpired]
  rw [checkCleanup,if_pos hnone]
  congr 1
  apply Finmap.ext_lookup
  intro id
  rw [keepLive,HashMap.lookup_retain,HashMap.lookup_retain]
  cases hid : cache.lookup id with
  | none => rfl
  | some a =>
    simp only [Option.filter_some,(h id a hid).checkExpired]
    by_cases hexpired : a.ExpiredAt now <;> simp [hexpired]

theorem filterLive_of_fits {l : List StreamAnnouncement} (h : ∀ a ∈ l, a.Fits) (now : UInt64) :
    filterLive o now l = some (l.filter (fun a => decide (¬ a.ExpiredAt now))) := by
  induction l with
  | nil => rfl
  | cons a l ih =>
    have ha := h a (List.mem_cons_self ..)
    have hl := ih (fun b hb => h b (List.mem_cons_of_mem a hb))
    rw [filterLive,ha.checkExpired,hl]
    by_cases hexpired : a.ExpiredAt now <;> simp [hexpired]

/-- Wherever one entry is taken for over, or the code panics, the list does not have it. -/
theorem filterLive_lacks {l kept : List StreamAnnouncement} {now : UInt64}
    {a : StreamAnnouncement} (ha : a.checkExpired o now ≠ some false)
    (h : filterLive o now l = some kept) : a ∉ kept := by
  induction l generalizing kept with
  | nil =>
    cases h
    simp
  | cons b l ih =>
    simp only [filterLive,Option.bind_eq_bind,Option.pure_def,Option.bind_eq_some_iff] at h
    obtain ⟨expired,hexpired,rest,hrest,hkept⟩ := h
    have hnot := ih hrest
    cases expired with
    | true =>
      simp only [if_true,Option.some.injEq] at hkept
      rwa [← hkept]
    | false =>
      simp only [Bool.false_eq_true,if_false,Option.some.injEq] at hkept
      rw [← hkept,List.mem_cons]
      rintro (rfl | hmem)
      · exact ha hexpired
      · exact hnot hmem

theorem listStreams_of_fit (h : cache.Fit) (order : HashOrder Unit StreamId) (now : UInt64) :
    cache.listStreams o order now =
      some (((order.iter () cache).map Prod.snd).filter (fun a => decide (¬ a.ExpiredAt now))) := by
  apply filterLive_of_fits
  intro a ha
  obtain ⟨⟨id,b⟩,hmem,rfl⟩ := List.mem_map.mp ha
  exact h id b ((order.mem_iter () cache (id,b)).mp hmem)

/-- The cache keeps and lists every announcement exactly until it is over, iff all of them end at a
`u64`. -/
theorem keeps_live_iff (order : HashOrder Unit StreamId) :
    (∀ now, cache.checkCleanup o now = some (cache.keepLive now) ∧
      cache.listStreams o order now =
        some (((order.iter () cache).map Prod.snd).filter (fun a => decide (¬ a.ExpiredAt now)))) ↔
      cache.Fit := by
  constructor
  · intro h id a hid
    by_contra hfits
    have hlast := StreamAnnouncement.checkExpired_last o hfits
    have hlacks := filterLive_lacks hlast (h StreamAnnouncement.lastSecond).2
    have hmem : a ∈ (order.iter () cache).map Prod.snd :=
      List.mem_map.mpr ⟨(id,a),(order.mem_iter () cache (id,a)).mpr hid,rfl⟩
    have hlive := StreamAnnouncement.not_expiredAt_of_not_fits hfits StreamAnnouncement.lastSecond
    exact hlacks (List.mem_filter.mpr ⟨hmem,decide_eq_true hlive⟩)
  · intro h now
    exact ⟨checkCleanup_of_fit h now,listStreams_of_fit h order now⟩

theorem makeRoom_of_fit (h : cache.Fit) (cfg : StreamDiscoveryConfig) (now : UInt64) :
    cache.makeRoom o cfg now =
      some (if cfg.maxCachedStreams ≤ cache.keys.card then cache.keepLive now else cache) := by
  rw [makeRoom,checkCleanup_of_fit h]
  split_ifs <;> rfl

/-- An announcement that is received is treated by its times as they are at every moment, iff it
ends at a `u64`. -/
theorem announcement_exact_iff (h : cache.Fit) (cfg : StreamDiscoveryConfig)
    (a : StreamAnnouncement) :
    (∀ now, cache.checkAnnouncement o cfg now (.ok a) = some (cache.exactAnnouncement cfg now a)) ↔
      a.Fits := by
  constructor
  · intro hexact
    by_contra hfits
    have hlast := StreamAnnouncement.checkExpired_last o hfits
    have hlive := StreamAnnouncement.not_expiredAt_of_not_fits hfits StreamAnnouncement.lastSecond
    have hsome := hexact StreamAnnouncement.lastSecond
    simp only [checkAnnouncement,exactAnnouncement,if_neg hlive] at hsome
    cases hexpired : a.checkExpired o StreamAnnouncement.lastSecond with
    | none => simp [hexpired] at hsome
    | some expired =>
      cases expired with
      | true => simp [hexpired] at hsome
      | false => exact hlast hexpired
  · intro hfits now
    simp only [checkAnnouncement,exactAnnouncement,hfits.checkExpired,makeRoom_of_fit h,
      Option.bind_eq_bind,Option.bind_some,Option.pure_def]
    by_cases hexpired : a.ExpiredAt now <;> simp [hexpired]

end Exact

end StreamCache

/-- Expiry is by the times as they are, without a panic and without wrapping, exactly for what ends
at a `u64`. -/
theorem expiry_exact_iff (o : Overflow) :
    (∀ (a : StreamAnnouncement) (now : UInt64),
      (a.checkExpired o now = some (decide (a.ExpiredAt now)) ∧
        o.Exact a.announcedAt a.ttlSecs) ↔ a.Fits) ∧
    (∀ (m : PubSub.Message) (now : PubSub.Moment), m.ttl ≠ 0 →
      ((m.checkExpired o now = some (decide (m.ExpiredAt now)) ∧ o.Exact m.timestamp m.ttl) ↔
        m.Fits)) ∧
    (∀ (cache : StreamCache) (order : HashOrder Unit StreamId),
      (∀ now, cache.checkCleanup o now = some (cache.keepLive now) ∧
        cache.listStreams o order now =
          some (((order.iter () cache).map Prod.snd).filter
            (fun a => decide (¬ a.ExpiredAt now)))) ↔
        cache.Fit) ∧
    (∀ (cfg : StreamDiscoveryConfig) (cache : StreamCache) (a : StreamAnnouncement), cache.Fit →
      ((∀ now,
        cache.checkAnnouncement o cfg now (.ok a) = some (cache.exactAnnouncement cfg now a)) ↔
        a.Fits)) := by
  refine ⟨?announcement,?message,?cached,?received⟩
  case announcement =>
    intro a now
    exact a.checkExpired_exact_iff o now
  case message =>
    intro m now httl
    exact m.checkExpired_exact_iff o now httl
  case cached =>
    intro cache order
    exact cache.keeps_live_iff order
  case received =>
    intro cfg cache a hcache
    exact cache.announcement_exact_iff hcache cfg a

/-- A message of two milliseconds, and an announcement of five minutes at an empty cache. -/
theorem expiry_exact_of_short_times :
    (PubSub.Message.checkExpired .panics
        ⟨"chat",none,.text "hello",1000,2,∅⟩ ⟨0,1003⟩ = some true ∧
      Overflow.panics.Exact 1000 2) ∧
    (∀ now, StreamCache.checkAnnouncement .panics .default ∅ now
        (.ok (StreamAnnouncement.new ⟨[]⟩ "Stream" [] 1700000000)) =
      some (StreamCache.exactAnnouncement .default ∅ now
        (StreamAnnouncement.new ⟨[]⟩ "Stream" [] 1700000000))) := by
  obtain ⟨-,hmessage,-,hreceived⟩ := expiry_exact_iff .panics
  constructor
  · have hfits : PubSub.Message.Fits ⟨"chat",none,.text "hello",1000,2,∅⟩ := by
      unfold PubSub.Message.Fits
      decide
    have hexact := (hmessage ⟨"chat",none,.text "hello",1000,2,∅⟩ ⟨0,1003⟩ (by decide)).mpr hfits
    have hover : PubSub.Message.ExpiredAt ⟨"chat",none,.text "hello",1000,2,∅⟩ ⟨0,1003⟩ := by
      decide
    rwa [decide_eq_true hover] at hexact
  · have hempty : StreamCache.Fit ∅ := by
      intro id a hid
      simp at hid
    apply (hreceived .default ∅ (StreamAnnouncement.new ⟨[]⟩ "Stream" [] 1700000000) hempty).mpr
    unfold StreamAnnouncement.Fits
    decide

/-- A publisher may send any time. This one's is the last there is. -/
def lateAnnouncement : StreamAnnouncement :=
  { StreamAnnouncement.new ⟨[]⟩ "Stream" [] 0 with announcedAt := UInt64.ofNat (2^64-1) }

/-- Now it is neither expired nor kept: its end panics, or wraps to 299 seconds after the epoch. -/
theorem late_announcement_expires :
    lateAnnouncement.checkExpired .panics 1700000000 = none ∧
    lateAnnouncement.checkExpired .wraps 1700000000 = some true ∧
    ¬ lateAnnouncement.ExpiredAt 1700000000 ∧
    (StreamCache.processAnnouncement .default ∅ 1700000000 (.ok lateAnnouncement)).1 = ∅ ∧
    lateAnnouncement.streamId ∈
      (StreamCache.exactAnnouncement .default ∅ 1700000000 lateAnnouncement).1 := by
  decide

end Discovery

end OpenBroadcast
