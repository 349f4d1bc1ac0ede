import OpenBroadcast.Discovery.StreamDiscovery

namespace OpenBroadcast.Discovery

open Relay (StreamId)

namespace StreamCache

/-- An announcement that arrives at a time of the clock. -/
abbrev Delivery := UInt64 × StreamAnnouncement

/-- The announcements `l` in some order, each while none of them has expired. -/
structure Delivers (l : List StreamAnnouncement) (ds : List Delivery) : Prop where
  perm : (ds.map Prod.snd).Perm l
  fresh : ∀ d ∈ ds, ∀ a ∈ l, a.isExpired d.1 = false

/-- Announcements of no more streams than the cache holds, of which one stream has at most one at
a time. -/
structure Fits (cfg : StreamDiscoveryConfig) (l : List StreamAnnouncement) : Prop where
  room : (l.map StreamAnnouncement.streamId).toFinset.card ≤ cfg.maxCachedStreams
  content : ∀ a ∈ l, ∀ b ∈ l, a.streamId = b.streamId → a.announcedAt = b.announcedAt → a = b

variable (cfg : StreamDiscoveryConfig)

def deliver (cache : StreamCache) (d : Delivery) : StreamCache :=
  (cache.processAnnouncement cfg d.1 (.ok d.2)).1

/-- No entry goes back in time, and an announcement that is not older than the entry of its stream
takes the place of it. -/
def Advances (cache : StreamCache) (d : Delivery) : Prop :=
  ∀ id old, cache.lookup id = some old → ∃ new, (deliver cfg cache d).lookup id = some new ∧
    old.announcedAt ≤ new.announcedAt ∧
    (id = d.2.streamId → old.announcedAt ≤ d.2.announcedAt → new = d.2)

/-- An announcement of a stream that has an entry is not older than it while there is room in the
cache, and not newer than it when the cache is full. -/
def InOrder (cache : StreamCache) (d : Delivery) : Prop :=
  ∀ old, cache.lookup d.2.streamId = some old →
    if cache.keys.card < cfg.maxCachedStreams then old.announcedAt ≤ d.2.announcedAt
    else d.2.announcedAt ≤ old.announcedAt

/-- The cache has exactly one entry for each stream that has been announced: one of its
announcements. -/
structure Covers (seen : List StreamAnnouncement) (cache : StreamCache) : Prop where
  announced : ∀ id a, cache.lookup id = some a → a ∈ seen ∧ a.streamId = id
  complete : ∀ a ∈ seen, a.streamId ∈ cache

/-- Each entry is the newest announcement of its stream. -/
def Newest (seen : List StreamAnnouncement) (cache : StreamCache) : Prop :=
  ∀ id a, cache.lookup id = some a → ∀ b ∈ seen, b.streamId = id → b.announcedAt ≤ a.announcedAt

section Delivering

variable {cfg} {l seen : List StreamAnnouncement} {cache : StreamCache} {d : Delivery}

theorem cleanupExpired_of_fresh {now : UInt64}
    (h : ∀ id a, cache.lookup id = some a → a.isExpired now = false) :
    cache.cleanupExpired now = cache := by
  apply Finmap.ext_lookup
  intro id
  unfold cleanupExpired
  rw [HashMap.lookup_retain]
  cases hlookup : cache.lookup id with
  | none => rfl
  | some a => simp [h id a hlookup]

/-- While nothing expires, an announcement is inserted exactly if there is room. -/
theorem deliver_eq (hcache : ∀ id a, cache.lookup id = some a → a.isExpired d.1 = false)
    (hd : d.2.isExpired d.1 = false) :
    deliver cfg cache d = if cache.keys.card < cfg.maxCachedStreams then
      cache.insert d.2.streamId d.2 else cache := by
  have hclean := cleanupExpired_of_fresh hcache
  unfold deliver processAnnouncement
  simp only [hd,hclean,ite_self,Bool.false_eq_true,if_false]

/-- A stream that has no entry finds room. -/
theorem Covers.room (h : Covers seen cache) (hfits : Fits cfg l) (hseen : ∀ a ∈ seen, a ∈ l)
    (hd : d.2 ∈ l) (hnew : d.2.streamId ∉ cache) : cache.keys.card < cfg.maxCachedStreams := by
  have hsub : insert d.2.streamId cache.keys ⊆ (l.map StreamAnnouncement.streamId).toFinset := by
    intro id hid
    rw [List.mem_toFinset]
    rcases Finset.mem_insert.mp hid with rfl | hid
    · exact List.mem_map_of_mem hd
    · obtain ⟨a,ha⟩ := Finmap.mem_iff.mp (Finmap.mem_keys.mp hid)
      obtain ⟨hmem,rfl⟩ := h.announced id a ha
      exact List.mem_map_of_mem (hseen a hmem)
  have hcard := Finset.card_le_card hsub
  rw [Finset.card_insert_of_notMem (fun hid => hnew (Finmap.mem_keys.mp hid))] at hcard
  have := hfits.room
  omega

theorem lookup_deliver (hcache : ∀ id a, cache.lookup id = some a → a.isExpired d.1 = false)
    (hd : d.2.isExpired d.1 = false) (id : StreamId) :
    (deliver cfg cache d).lookup id =
      if id = d.2.streamId ∧ cache.keys.card < cfg.maxCachedStreams then some d.2
      else cache.lookup id := by
  rw [deliver_eq hcache hd]
  split_ifs with hroom hid hid
  · rw [hid.1,Finmap.lookup_insert]
  · exact Finmap.lookup_insert_of_ne cache (fun heq => hid ⟨heq,hroom⟩)
  · exact absurd hid.2 hroom
  · rfl

/-- What holds before a delivery: the cache has the streams seen so far, all of them of `l`, and
nothing of `l` expires. -/
structure Ready (cfg : StreamDiscoveryConfig) (l seen : List StreamAnnouncement)
    (cache : StreamCache) (d : Delivery) : Prop where
  fits : Fits cfg l
  known : ∀ a ∈ seen, a ∈ l
  covers : Covers seen cache
  arriving : d.2 ∈ l
  fresh : ∀ a ∈ l, a.isExpired d.1 = false

namespace Ready

variable (h : Ready cfg l seen cache d)

include h

theorem lookup (id : StreamId) : (deliver cfg cache d).lookup id =
    if id = d.2.streamId ∧ cache.keys.card < cfg.maxCachedStreams then some d.2
    else cache.lookup id := by
  apply lookup_deliver
  · intro id a ha
    exact h.fresh a (h.known a (h.covers.announced id a ha).1)
  · exact h.fresh d.2 h.arriving

theorem covers_deliver : Covers (seen++[d.2]) (deliver cfg cache d) := by
  constructor
  · intro id a ha
    rw [h.lookup] at ha
    split_ifs at ha with hinsert
    · cases ha
      exact ⟨by simp,hinsert.1.symm⟩
    · obtain ⟨hmem,hid⟩ := h.covers.announced id a ha
      exact ⟨List.mem_append_left _ hmem,hid⟩
  · intro a ha
    rw [← Finmap.lookup_isSome,h.lookup]
    split_ifs with hinsert
    · rfl
    · rw [Finmap.lookup_isSome]
      rcases List.mem_append.mp ha with ha | ha
      · exact h.covers.complete a ha
      · rw [List.mem_singleton.mp ha] at hinsert ⊢
        by_contra hnew
        exact hinsert ⟨rfl,h.covers.room h.fits h.known h.arriving hnew⟩

/-- A delivery advances the cache exactly if it comes in order. -/
theorem advances_iff : Advances cfg cache d ↔ InOrder cfg cache d := by
  constructor
  · intro hadv old hold
    obtain ⟨new,hnew,hmono,happlied⟩ := hadv _ old hold
    rw [h.lookup] at hnew
    by_cases hroom : cache.keys.card < cfg.maxCachedStreams
    · rw [if_pos ⟨rfl,hroom⟩] at hnew
      cases hnew
      rw [if_pos hroom]
      exact hmono
    · rw [if_neg (fun hinsert => hroom hinsert.2),hold] at hnew
      cases hnew
      rw [if_neg hroom]
      rcases UInt64.le_total d.2.announcedAt old.announcedAt with hle | hle
      · exact hle
      · rw [← happlied rfl hle]
        exact UInt64.le_refl _
  · intro horder id old hold
    rw [h.lookup]
    split_ifs with hinsert
    · obtain ⟨rfl,hroom⟩ := hinsert
      have hle := horder old hold
      rw [if_pos hroom] at hle
      exact ⟨d.2,rfl,hle,fun _ _ => rfl⟩
    · refine ⟨old,hold,UInt64.le_refl _,?_⟩
      intro hid hle
      subst hid
      have hge := horder old hold
      rw [if_neg (fun hroom => hinsert ⟨rfl,hroom⟩)] at hge
      obtain ⟨hmem,hsame⟩ := h.covers.announced _ old hold
      exact h.fits.content old (h.known old hmem) d.2 h.arriving hsame (UInt64.le_antisymm hle hge)

theorem newest_deliver (hnewest : Newest seen cache) (horder : InOrder cfg cache d) :
    Newest (seen++[d.2]) (deliver cfg cache d) := by
  intro id a ha b hb hid
  rw [h.lookup] at ha
  split_ifs at ha with hinsert
  · cases ha
    rcases List.mem_append.mp hb with hb | hb
    · obtain ⟨old,hold⟩ := Finmap.mem_iff.mp (h.covers.complete b hb)
      rw [hid,hinsert.1] at hold
      have hle := horder old hold
      rw [if_pos hinsert.2] at hle
      exact UInt64.le_trans (hnewest _ old hold b hb (hid.trans hinsert.1)) hle
    · rw [List.mem_singleton.mp hb]
      exact UInt64.le_refl _
  · rcases List.mem_append.mp hb with hb | hb
    · exact hnewest id a ha b hb hid
    · rw [List.mem_singleton.mp hb] at hid ⊢
      subst hid
      have hge := horder a ha
      rw [if_neg (fun hroom => hinsert ⟨rfl,hroom⟩)] at hge
      exact hge

end Ready

end Delivering

section Orders

variable {cfg} {l : List StreamAnnouncement}

/-- Deliveries in order end with the newest announcement of each stream that has been announced. -/
theorem newest_run (hfits : Fits cfg l) (ds : List Delivery) (seen : List StreamAnnouncement)
    (cache : StreamCache) (hds : ∀ d ∈ ds, d.2 ∈ l ∧ ∀ a ∈ l, a.isExpired d.1 = false)
    (hseen : ∀ a ∈ seen, a ∈ l) (hcovers : Covers seen cache) (hnewest : Newest seen cache)
    (horder : Along (deliver cfg) (InOrder cfg) cache ds) :
    Covers (seen++ds.map Prod.snd) (ds.foldl (deliver cfg) cache) ∧
      Newest (seen++ds.map Prod.snd) (ds.foldl (deliver cfg) cache) := by
  induction ds generalizing seen cache with
  | nil =>
    rw [List.map_nil,List.append_nil]
    exact ⟨hcovers,hnewest⟩
  | cons d ds ih =>
    obtain ⟨hmem,hfresh⟩ := hds d List.mem_cons_self
    have hready : Ready cfg l seen cache d := ⟨hfits,hseen,hcovers,hmem,hfresh⟩
    have hrest := ih (seen++[d.2]) (deliver cfg cache d)
      (fun d' hd' => hds d' (List.mem_cons_of_mem _ hd'))
      (by simpa [or_imp,forall_and] using ⟨hseen,hmem⟩) hready.covers_deliver
      (hready.newest_deliver hnewest horder.1) horder.2
    simpa using hrest

theorem Delivers.each {ds : List Delivery} (h : Delivers l ds) :
    ∀ d ∈ ds, d.2 ∈ l ∧ ∀ a ∈ l, a.isExpired d.1 = false :=
  fun d hd => ⟨h.perm.mem_iff.mp (List.mem_map_of_mem hd),h.fresh d hd⟩

theorem covers_empty : Covers [] (∅ : StreamCache) := by
  constructor
  · intro id a ha
    rw [Finmap.lookup_empty] at ha
    cases ha
  · intro a ha
    cases ha

/-- All along a delivery: the cache advances exactly if it happens in order. -/
theorem along_advances_iff (hfits : Fits cfg l) {ds : List Delivery} (hds : Delivers l ds) :
    Along (deliver cfg) (Advances cfg) ∅ ds ↔ Along (deliver cfg) (InOrder cfg) ∅ ds := by
  apply along_congr_of_invariant
    (fun cache => ∃ seen, (∀ a ∈ seen, a ∈ l) ∧ Covers seen cache)
    (along_of_forall _ ∅ hds.each)
  · exact ⟨[],List.forall_mem_nil _,covers_empty⟩
  · rintro cache d ⟨seen,hseen,hcovers⟩ ⟨hmem,hfresh⟩
    have hready : Ready cfg l seen cache d := ⟨hfits,hseen,hcovers,hmem,hfresh⟩
    exact ⟨seen++[d.2],by simpa [or_imp,forall_and] using ⟨hseen,hmem⟩,hready.covers_deliver⟩
  · rintro cache d ⟨seen,hseen,hcovers⟩ ⟨hmem,hfresh⟩
    exact Ready.advances_iff ⟨hfits,hseen,hcovers,hmem,hfresh⟩

/-- Two caches with the newest announcements of the same ones are the same. -/
theorem newest_unique (hfits : Fits cfg l) {seen seen' : List StreamAnnouncement}
    {cache cache' : StreamCache} (hperm : seen.Perm l) (hperm' : seen'.Perm l)
    (hcovers : Covers seen cache) (hnewest : Newest seen cache) (hcovers' : Covers seen' cache')
    (hnewest' : Newest seen' cache') : cache = cache' := by
  have hsame : ∀ a, a ∈ seen ↔ a ∈ seen' := fun a => hperm.mem_iff.trans hperm'.mem_iff.symm
  apply Finmap.ext_lookup
  intro id
  cases h : cache.lookup id with
  | none =>
    cases h' : cache'.lookup id with
    | none => rfl
    | some a' =>
      obtain ⟨hmem,hid⟩ := hcovers'.announced id a' h'
      have hin := hcovers.complete a' ((hsame a').mpr hmem)
      rw [hid,← Finmap.lookup_isSome,h] at hin
      cases hin
  | some a =>
    obtain ⟨hmem,hid⟩ := hcovers.announced id a h
    have hin := hcovers'.complete a ((hsame a).mp hmem)
    rw [hid] at hin
    obtain ⟨a',h'⟩ := Finmap.mem_iff.mp hin
    obtain ⟨hmem',hid'⟩ := hcovers'.announced id a' h'
    rw [h']
    have hle := hnewest id a h a' ((hsame a').mpr hmem') hid'
    have hge := hnewest' id a' h' a ((hsame a).mp hmem) hid
    rw [hfits.content a (hperm.mem_iff.mp hmem) a' (hperm'.mem_iff.mp hmem') (hid.trans hid'.symm)
      (UInt64.le_antisymm hge hle)]

/-- Two deliveries of the same announcements end with one cache, and keep each entry the newest,
exactly if in both of them the announcements of a stream that has an entry come in order. -/
theorem cache_converges_iff (hfits : Fits cfg l) {ds ds' : List Delivery} (hds : Delivers l ds)
    (hds' : Delivers l ds') :
    (ds.foldl (deliver cfg) ∅ = ds'.foldl (deliver cfg) ∅ ∧
      Along (deliver cfg) (Advances cfg) ∅ ds ∧ Along (deliver cfg) (Advances cfg) ∅ ds') ↔
    Along (deliver cfg) (InOrder cfg) ∅ ds ∧ Along (deliver cfg) (InOrder cfg) ∅ ds' := by
  rw [along_advances_iff hfits hds,along_advances_iff hfits hds']
  constructor
  · exact fun h => h.2
  · intro h
    refine ⟨?_,h⟩
    have hstart : Newest [] (∅ : StreamCache) := fun _ _ _ => List.forall_mem_nil _
    obtain ⟨hcovers,hnewest⟩ := newest_run hfits ds [] ∅ hds.each (List.forall_mem_nil _)
      covers_empty hstart h.1
    obtain ⟨hcovers',hnewest'⟩ := newest_run hfits ds' [] ∅ hds'.each (List.forall_mem_nil _)
      covers_empty hstart h.2
    exact newest_unique hfits hds.perm hds'.perm hcovers hnewest hcovers' hnewest'

/-- The announcement of a stream as it is repeated at a time. -/
def repeated (time : UInt64) : StreamAnnouncement :=
  { StreamAnnouncement.new ⟨[1]⟩ "Stream" [7] 1 with announcedAt := time }

theorem repeated_fits (max : Nat) (h : 1 ≤ max) : Fits ⟨max⟩ [repeated 1,repeated 2] := by
  constructor
  · exact h
  · decide

theorem repeated_delivers : Delivers [repeated 1,repeated 2] [(5,repeated 1),(5,repeated 2)] ∧
    Delivers [repeated 1,repeated 2] [(5,repeated 2),(5,repeated 1)] :=
  ⟨⟨List.Perm.refl _,by decide⟩,⟨List.Perm.swap _ _ _,by decide⟩⟩

/-- The same for a second stream. -/
def another (time : UInt64) : StreamAnnouncement :=
  { StreamAnnouncement.new ⟨[2]⟩ "Other" [7] 1 with announcedAt := time }

/-- The announcements of two streams in two orders, each stream in its own. -/
theorem cache_converges_repeated :
    let ds := [(5,repeated 1),(5,another 1),(6,repeated 2),(6,another 2)]
    let ds' := [(6,another 1),(6,another 2),(7,repeated 1),(7,repeated 2)]
    ds.foldl (deliver ⟨3⟩) ∅ = ds'.foldl (deliver ⟨3⟩) ∅ ∧
      Along (deliver ⟨3⟩) (Advances ⟨3⟩) ∅ ds ∧ Along (deliver ⟨3⟩) (Advances ⟨3⟩) ∅ ds' := by
  intro ds ds'
  have hfits : Fits ⟨3⟩ [repeated 1,another 1,repeated 2,another 2] := ⟨by decide,by decide⟩
  have hds : Delivers [repeated 1,another 1,repeated 2,another 2] ds :=
    ⟨List.Perm.refl _,by decide⟩
  have hds' : Delivers [repeated 1,another 1,repeated 2,another 2] ds' :=
    ⟨by decide,by decide⟩
  refine (cache_converges_iff hfits hds hds').mpr ⟨⟨?_,?_,?_,?_,trivial⟩,⟨?_,?_,?_,?_,trivial⟩⟩
  · exact fun _ h => (by cases h)
  · exact fun _ h => (by cases h)
  · exact fun _ h => (by cases h; decide)
  · exact fun _ h => (by cases h; decide)
  · exact fun _ h => (by cases h)
  · exact fun _ h => (by cases h; decide)
  · exact fun _ h => (by cases h)
  · exact fun _ h => (by cases h; decide)

/-- The older announcement comes last and stays; in a full cache the newer one does not count. -/
theorem stale_announcement_cached :
    let ds := [(5,repeated 1),(5,repeated 2)]
    let ds' := [(5,repeated 2),(5,repeated 1)]
    (ds.foldl (deliver ⟨2⟩) ∅).lookup ⟨[1]⟩ = some (repeated 2) ∧
    (ds'.foldl (deliver ⟨2⟩) ∅).lookup ⟨[1]⟩ = some (repeated 1) ∧
    ds.foldl (deliver ⟨2⟩) ∅ ≠ ds'.foldl (deliver ⟨2⟩) ∅ ∧
    (ds.foldl (deliver ⟨1⟩) ∅).lookup ⟨[1]⟩ = some (repeated 1) ∧
    ¬ Along (deliver ⟨1⟩) (Advances ⟨1⟩) ∅ ds := by
  intro ds ds'
  have hnew : (ds.foldl (deliver ⟨2⟩) ∅).lookup ⟨[1]⟩ = some (repeated 2) := rfl
  have hold : (ds'.foldl (deliver ⟨2⟩) ∅).lookup ⟨[1]⟩ = some (repeated 1) := rfl
  refine ⟨hnew,hold,?_,rfl,?_⟩
  · intro heq
    rw [heq,hold] at hnew
    cases hnew
  · intro hadv
    obtain ⟨new,hlookup,_,happlied⟩ := hadv.2.1 ⟨[1]⟩ (repeated 1) rfl
    rw [happlied rfl (by decide)] at hlookup
    cases hlookup

end Orders

end StreamCache

end OpenBroadcast.Discovery
