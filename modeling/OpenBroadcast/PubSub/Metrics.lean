import Mathlib.Data.UInt
import OpenBroadcast.Framework.Fifo
import OpenBroadcast.Framework.LruCache
import OpenBroadcast.Framework.MapTotals
import OpenBroadcast.PubSub.RateWindow

namespace OpenBroadcast.PubSub

/-- The counters are of the width of the machine and wrap around. -/
structure TopicMetrics where
  messagesReceived : UInt64
  messagesSent : UInt64
  messagesRejected : UInt64
  messagesDuplicated : UInt64
  bytesReceived : UInt64
  bytesSent : UInt64
  deriving DecidableEq

def TopicMetrics.new : TopicMetrics := ⟨0,0,0,0,0,0⟩

/-- The two times that are kept of a peer are never read. -/
structure PeerMetrics where
  messagesReceived : UInt64
  messagesSent : UInt64
  bytesReceived : UInt64
  bytesSent : UInt64
  deriving DecidableEq

def PeerMetrics.new : PeerMetrics := ⟨0,0,0,0⟩

structure PubSubMetrics (PeerId : Type) [Lru String Nat] where
  messagesReceived : UInt64
  messagesSent : UInt64
  messagesRejected : UInt64
  messagesDuplicated : UInt64
  messagesExpired : UInt64
  messagesValid : UInt64
  bytesReceived : UInt64
  bytesSent : UInt64
  activeSubscriptions : Nat
  topicMetrics : HashMap String TopicMetrics
  peerMetrics : HashMap PeerId PeerMetrics
  timeSeries : TimeSeriesData
  messageIds : Lru.Cache String Nat

/-- The rates stand for the sums that are divided by the window. -/
structure PubSubStats where
  messagesReceived : UInt64
  messagesSent : UInt64
  messagesRejected : UInt64
  messagesDuplicated : UInt64
  messagesExpired : UInt64
  messagesValid : UInt64
  bytesReceived : UInt64
  bytesSent : UInt64
  activeSubscriptions : Nat
  uniquePeers : Nat
  messagesPerTopic : HashMap String UInt64
  windowTotals : Nat × Nat

namespace PubSubMetrics

variable {PeerId : Type} [DecidableEq PeerId] [Lru String Nat]

def messageCacheSize : Nat := 10000

def new (now : Nat) : PubSubMetrics PeerId where
  messagesReceived := 0
  messagesSent := 0
  messagesRejected := 0
  messagesDuplicated := 0
  messagesExpired := 0
  messagesValid := 0
  bytesReceived := 0
  bytesSent := 0
  activeSubscriptions := 0
  topicMetrics := ∅
  peerMetrics := ∅
  timeSeries := .new now
  messageIds := Lru.new messageCacheSize (by decide)

def recordMessageReceived (s : PubSubMetrics PeerId) (now : Nat) (topicId : String)
    (peerId : Option PeerId) (size : UInt64) : PubSubMetrics PeerId :=
  { s with
    messagesReceived := s.messagesReceived+1
    bytesReceived := s.bytesReceived+size
    timeSeries := s.timeSeries.addMessageReceived now size.toNat
    topicMetrics := s.topicMetrics.upsert topicId .new (fun m =>
      { m with messagesReceived := m.messagesReceived+1, bytesReceived := m.bytesReceived+size })
    peerMetrics := match peerId with
      | some p => s.peerMetrics.upsert p .new (fun m =>
        { m with messagesReceived := m.messagesReceived+1, bytesReceived := m.bytesReceived+size })
      | none => s.peerMetrics }

def recordMessageSent (s : PubSubMetrics PeerId) (now : Nat) (topicId : String)
    (peerId : Option PeerId) (size : UInt64) : PubSubMetrics PeerId :=
  { s with
    messagesSent := s.messagesSent+1
    bytesSent := s.bytesSent+size
    timeSeries := s.timeSeries.addMessageSent now size.toNat
    topicMetrics := s.topicMetrics.upsert topicId .new (fun m =>
      { m with messagesSent := m.messagesSent+1, bytesSent := m.bytesSent+size })
    peerMetrics := match peerId with
      | some p => s.peerMetrics.upsert p .new (fun m =>
        { m with messagesSent := m.messagesSent+1, bytesSent := m.bytesSent+size })
      | none => s.peerMetrics }

def recordMessageRejected (s : PubSubMetrics PeerId) (topicId : String) : PubSubMetrics PeerId :=
  { s with
    messagesRejected := s.messagesRejected+1
    topicMetrics := s.topicMetrics.upsert topicId .new (fun m =>
      { m with messagesRejected := m.messagesRejected+1 }) }

def recordMessageDuplicated (s : PubSubMetrics PeerId) (topicId : String) : PubSubMetrics PeerId :=
  { s with
    messagesDuplicated := s.messagesDuplicated+1
    topicMetrics := s.topicMetrics.upsert topicId .new (fun m =>
      { m with messagesDuplicated := m.messagesDuplicated+1 }) }

/-- A duplicate that is found is counted for no topic. -/
def isDuplicate (s : PubSubMetrics PeerId) (now : Nat) (messageId : String) :
    Bool × PubSubMetrics PeerId :=
  if Lru.contains s.messageIds messageId then
    (true,{ s with messagesDuplicated := s.messagesDuplicated+1 })
  else (false,{ s with messageIds := Lru.put s.messageIds messageId now })

def updateSubscriptionCount (s : PubSubMetrics PeerId) (count : Nat) : PubSubMetrics PeerId :=
  { s with activeSubscriptions := count }

def cleanupMessageCache (s : PubSubMetrics PeerId) (now maxAge : Nat) : PubSubMetrics PeerId :=
  let toRemove := ((Lru.iter s.messageIds).filter (fun e => maxAge ≤ now-e.2)).map Prod.fst
  { s with messageIds := Lru.popAll s.messageIds toRemove }

def getStats (order : HashOrder Unit String) (s : PubSubMetrics PeerId) : PubSubStats where
  messagesReceived := s.messagesReceived
  messagesSent := s.messagesSent
  messagesRejected := s.messagesRejected
  messagesDuplicated := s.messagesDuplicated
  messagesExpired := s.messagesExpired
  messagesValid := s.messagesValid
  bytesReceived := s.bytesReceived
  bytesSent := s.bytesSent
  activeSubscriptions := s.activeSubscriptions
  uniquePeers := s.peerMetrics.keys.card
  messagesPerTopic := (order.iter () s.topicMetrics).foldl
    (fun m e => m.insert e.1 e.2.messagesReceived) ∅
  windowTotals := s.timeSeries.rateTotals

end PubSubMetrics

inductive MetricsCall (PeerId : Type) where
  | received (topicId : String) (peerId : Option PeerId) (size : UInt64)
  | sent (topicId : String) (peerId : Option PeerId) (size : UInt64)
  | rejected (topicId : String)
  | duplicated (topicId : String)
  | isDuplicate (messageId : String)
  | subscriptions (count : Nat)
  | cleanup (maxAge : Nat)

namespace PubSubMetrics

variable {PeerId : Type} [DecidableEq PeerId] [Lru String Nat]

def step (s : PubSubMetrics PeerId) (e : Nat × MetricsCall PeerId) : PubSubMetrics PeerId :=
  match e.2 with
  | .received topicId peerId size => s.recordMessageReceived e.1 topicId peerId size
  | .sent topicId peerId size => s.recordMessageSent e.1 topicId peerId size
  | .rejected topicId => s.recordMessageRejected topicId
  | .duplicated topicId => s.recordMessageDuplicated topicId
  | .isDuplicate messageId => (s.isDuplicate e.1 messageId).2
  | .subscriptions count => s.updateSubscriptionCount count
  | .cleanup maxAge => s.cleanupMessageCache e.1 maxAge

section Totals

/-- The counters of the topics add up to those of the whole, but for duplicates. -/
structure Summed (s : PubSubMetrics PeerId) : Prop where
  received : s.messagesReceived = s.topicMetrics.total (·.messagesReceived)
  sent : s.messagesSent = s.topicMetrics.total (·.messagesSent)
  rejected : s.messagesRejected = s.topicMetrics.total (·.messagesRejected)
  receivedBytes : s.bytesReceived = s.topicMetrics.total (·.bytesReceived)
  sentBytes : s.bytesSent = s.topicMetrics.total (·.bytesSent)
  expired : s.messagesExpired = 0
  valid : s.messagesValid = 0

/-- A message that is found to be a duplicate. -/
def hits (s : PubSubMetrics PeerId) (e : Nat × MetricsCall PeerId) : List String :=
  match e.2 with
  | .isDuplicate messageId => if Lru.contains s.messageIds messageId then [messageId] else []
  | _ => []

def peersNamed (e : Nat × MetricsCall PeerId) : List PeerId :=
  match e.2 with
  | .received _ peerId _ => peerId.toList
  | .sent _ peerId _ => peerId.toList
  | _ => []

omit [DecidableEq PeerId] in
theorem summed_new (now : Nat) : Summed (new now : PubSubMetrics PeerId) := by
  constructor <;> simp [new]

/-- What a call adds to a topic it adds to the whole. -/
theorem step_summed {s : PubSubMetrics PeerId} (h : Summed s) (e : Nat × MetricsCall PeerId) :
    Summed (s.step e) := by
  obtain ⟨hreceived,hsent,hrejected,hin,hout,hexpired,hvalid⟩ := h
  obtain ⟨now,call⟩ := e
  cases call with
  | received topicId peerId size =>
    refine ⟨?_,?_,?_,?_,?_,hexpired,hvalid⟩
    · exact (congrArg (·+1) hreceived).trans
        (HashMap.total_upsert s.topicMetrics topicId (fun m => rfl) rfl).symm
    · exact hsent.trans (HashMap.total_same s.topicMetrics topicId (fun m => rfl) rfl)
    · exact hrejected.trans (HashMap.total_same s.topicMetrics topicId (fun m => rfl) rfl)
    · exact (congrArg (·+size) hin).trans
        (HashMap.total_upsert s.topicMetrics topicId (fun m => rfl) rfl).symm
    · exact hout.trans (HashMap.total_same s.topicMetrics topicId (fun m => rfl) rfl)
  | sent topicId peerId size =>
    refine ⟨?_,?_,?_,?_,?_,hexpired,hvalid⟩
    · exact hreceived.trans (HashMap.total_same s.topicMetrics topicId (fun m => rfl) rfl)
    · exact (congrArg (·+1) hsent).trans
        (HashMap.total_upsert s.topicMetrics topicId (fun m => rfl) rfl).symm
    · exact hrejected.trans (HashMap.total_same s.topicMetrics topicId (fun m => rfl) rfl)
    · exact hin.trans (HashMap.total_same s.topicMetrics topicId (fun m => rfl) rfl)
    · exact (congrArg (·+size) hout).trans
        (HashMap.total_upsert s.topicMetrics topicId (fun m => rfl) rfl).symm
  | rejected topicId =>
    refine ⟨?_,?_,?_,?_,?_,hexpired,hvalid⟩
    · exact hreceived.trans (HashMap.total_same s.topicMetrics topicId (fun m => rfl) rfl)
    · exact hsent.trans (HashMap.total_same s.topicMetrics topicId (fun m => rfl) rfl)
    · exact (congrArg (·+1) hrejected).trans
        (HashMap.total_upsert s.topicMetrics topicId (fun m => rfl) rfl).symm
    · exact hin.trans (HashMap.total_same s.topicMetrics topicId (fun m => rfl) rfl)
    · exact hout.trans (HashMap.total_same s.topicMetrics topicId (fun m => rfl) rfl)
  | duplicated topicId =>
    refine ⟨?_,?_,?_,?_,?_,hexpired,hvalid⟩
    · exact hreceived.trans (HashMap.total_same s.topicMetrics topicId (fun m => rfl) rfl)
    · exact hsent.trans (HashMap.total_same s.topicMetrics topicId (fun m => rfl) rfl)
    · exact hrejected.trans (HashMap.total_same s.topicMetrics topicId (fun m => rfl) rfl)
    · exact hin.trans (HashMap.total_same s.topicMetrics topicId (fun m => rfl) rfl)
    · exact hout.trans (HashMap.total_same s.topicMetrics topicId (fun m => rfl) rfl)
  | isDuplicate messageId =>
    simp only [step,isDuplicate]
    split_ifs <;> exact ⟨hreceived,hsent,hrejected,hin,hout,hexpired,hvalid⟩
  | subscriptions count => exact ⟨hreceived,hsent,hrejected,hin,hout,hexpired,hvalid⟩
  | cleanup maxAge => exact ⟨hreceived,hsent,hrejected,hin,hout,hexpired,hvalid⟩

/-- Duplicates that are found are on top of those that are recorded for a topic. -/
theorem step_duplicated {s : PubSubMetrics PeerId} {d : UInt64}
    (h : s.messagesDuplicated = s.topicMetrics.total (·.messagesDuplicated)+d)
    (e : Nat × MetricsCall PeerId) :
    (s.step e).messagesDuplicated = (s.step e).topicMetrics.total (·.messagesDuplicated)+
      (d+UInt64.ofNat (s.hits e).length) := by
  have hsame : ∀ s' : PubSubMetrics PeerId, s'.messagesDuplicated = s.messagesDuplicated →
      s.topicMetrics.total (·.messagesDuplicated) =
        s'.topicMetrics.total (·.messagesDuplicated) → s'.messagesDuplicated =
        s'.topicMetrics.total (·.messagesDuplicated)+(d+UInt64.ofNat 0) := by
    intro s' hcount htotal
    rw [hcount,← htotal,h]
    exact congrArg _ (UInt64.add_zero d).symm
  obtain ⟨now,call⟩ := e
  cases call with
  | received topicId peerId size =>
    exact hsame _ rfl (HashMap.total_same s.topicMetrics topicId (fun m => rfl) rfl)
  | sent topicId peerId size =>
    exact hsame _ rfl (HashMap.total_same s.topicMetrics topicId (fun m => rfl) rfl)
  | rejected topicId =>
    exact hsame _ rfl (HashMap.total_same s.topicMetrics topicId (fun m => rfl) rfl)
  | duplicated topicId =>
    have htotal : (s.step (now,.duplicated topicId)).topicMetrics.total (·.messagesDuplicated) =
        s.topicMetrics.total (·.messagesDuplicated)+1 :=
      HashMap.total_upsert s.topicMetrics topicId (fun m => rfl) rfl
    have hcount : (s.step (now,.duplicated topicId)).messagesDuplicated =
        s.messagesDuplicated+1 := rfl
    have hnone : UInt64.ofNat (s.hits (now,.duplicated topicId)).length = 0 := rfl
    rw [htotal,hcount,hnone,h,add_zero]
    exact add_right_comm _ _ _
  | isDuplicate messageId =>
    by_cases hfound : Lru.contains s.messageIds messageId = true
    · have hone : UInt64.ofNat (s.hits (now,.isDuplicate messageId)).length = 1 := by
        simp [hits,hfound]
      rw [hone]
      simp only [step,isDuplicate,hfound,if_true]
      rw [h,add_assoc]
    · have hnone : UInt64.ofNat (s.hits (now,.isDuplicate messageId)).length = 0 := by
        simp [hits,hfound]
      rw [hnone,add_zero]
      simp only [step,isDuplicate,hfound]
      exact h
  | subscriptions count => exact hsame _ rfl rfl
  | cleanup maxAge => exact hsame _ rfl rfl

theorem run_duplicated {s : PubSubMetrics PeerId} {d : UInt64}
    (h : s.messagesDuplicated = s.topicMetrics.total (·.messagesDuplicated)+d)
    (es : List (Nat × MetricsCall PeerId)) :
    (es.foldl step s).messagesDuplicated =
      (es.foldl step s).topicMetrics.total (·.messagesDuplicated)+
        (d+UInt64.ofNat (collect step hits s es).length) := by
  induction es generalizing s d with
  | nil => simpa using h
  | cons e es ih =>
    have hrest := ih (step_duplicated h e)
    rw [collect_cons,List.length_append,UInt64.ofNat_add,← add_assoc d]
    exact hrest

theorem step_peers (s : PubSubMetrics PeerId) (e : Nat × MetricsCall PeerId) :
    (s.step e).peerMetrics.keys = s.peerMetrics.keys ∪ (peersNamed e).toFinset := by
  obtain ⟨now,call⟩ := e
  cases call with
  | received topicId peerId size =>
    cases peerId <;> simp [step,recordMessageReceived,peersNamed,Finset.union_comm]
  | sent topicId peerId size =>
    cases peerId <;> simp [step,recordMessageSent,peersNamed,Finset.union_comm]
  | isDuplicate messageId =>
    simp only [step,isDuplicate]
    split_ifs <;> simp [peersNamed]
  | _ => simp [step,recordMessageRejected,recordMessageDuplicated,updateSubscriptionCount,
      cleanupMessageCache,peersNamed]

theorem run_peers (s : PubSubMetrics PeerId) (es : List (Nat × MetricsCall PeerId)) :
    (es.foldl step s).peerMetrics.keys = s.peerMetrics.keys ∪ (es.flatMap peersNamed).toFinset := by
  induction es generalizing s with
  | nil => simp
  | cons e es ih =>
    rw [List.foldl_cons,ih,step_peers,List.flatMap_cons,List.toFinset_append,Finset.union_assoc]

/-- The counters that are shown. Those of the topics add up to those of the whole, but for the
duplicates that `is_duplicate` finds; nothing counts as expired or valid. -/
theorem stats_add_up (now : Nat) (order : HashOrder Unit String)
    (es : List (Nat × MetricsCall PeerId)) :
    let s := es.foldl step (new now)
    let stats := getStats order s
    stats.messagesReceived = s.topicMetrics.total (·.messagesReceived) ∧
    stats.messagesSent = s.topicMetrics.total (·.messagesSent) ∧
    stats.messagesRejected = s.topicMetrics.total (·.messagesRejected) ∧
    stats.bytesReceived = s.topicMetrics.total (·.bytesReceived) ∧
    stats.bytesSent = s.topicMetrics.total (·.bytesSent) ∧
    stats.messagesDuplicated = s.topicMetrics.total (·.messagesDuplicated)+
      UInt64.ofNat (collect step hits (new now) es).length ∧
    stats.messagesExpired = 0 ∧ stats.messagesValid = 0 ∧
    stats.uniquePeers = (es.flatMap peersNamed).toFinset.card ∧
    ∀ topicId, stats.messagesPerTopic.lookup topicId =
      (s.topicMetrics.lookup topicId).map (·.messagesReceived) := by
  intro s stats
  have h : Summed s := (along_true step (new now) es).invariant Summed (summed_new now)
    (fun s e h _ => step_summed h e)
  have hstart : (new now : PubSubMetrics PeerId).messagesDuplicated =
      (new now : PubSubMetrics PeerId).topicMetrics.total (·.messagesDuplicated)+0 := by
    simp [new]
  have hduplicated := run_duplicated hstart es
  rw [zero_add] at hduplicated
  have hpeers : s.peerMetrics.keys = (es.flatMap peersNamed).toFinset := by
    have hrun := run_peers (new now) es
    rwa [show (new now : PubSubMetrics PeerId).peerMetrics.keys = ∅ from Finmap.keys_empty,
      Finset.empty_union] at hrun
  refine ⟨h.received,h.sent,h.rejected,h.receivedBytes,h.sentBytes,hduplicated,h.expired,h.valid,
    congrArg Finset.card hpeers,?_⟩
  intro topicId
  have hentries : ∀ e ∈ order.iter () s.topicMetrics, s.topicMetrics.lookup e.1 = some e.2 :=
    fun e he => (order.mem_iter () s.topicMetrics e).mp he
  have hlookup := HashMap.lookup_foldl_insert (fun m : TopicMetrics => m.messagesReceived)
    s.topicMetrics hentries ∅ topicId
  rw [order.iter_keys] at hlookup
  refine hlookup.trans ?_
  split_ifs with hmem
  · rfl
  · rw [order.mem_order] at hmem
    have hnone := Finmap.lookup_eq_none.mpr (mt Finmap.mem_keys.mpr hmem)
    simp [hnone]

end Totals

section Duplicates

/-- A message that is found to be new. -/
def fresh (s : PubSubMetrics PeerId) (e : Nat × MetricsCall PeerId) : List String :=
  match e.2 with
  | .isDuplicate messageId => if Lru.contains s.messageIds messageId then [] else [messageId]
  | _ => []

/-- A message was new at some time, `k` others have been since, and no cleanup found it too old. -/
def Remembered (s : PubSubMetrics PeerId) (es : List (Nat × MetricsCall PeerId))
    (messageId : String) (t k : Nat) : Prop :=
  ∃ pre post, es = pre++(t,.isDuplicate messageId)::post ∧
    Lru.contains (pre.foldl step s).messageIds messageId = false ∧
    k = (collect step fresh ((pre++[(t,.isDuplicate messageId)]).foldl step s) post).length ∧
    ∀ e ∈ post, ∀ maxAge, e.2 = .cleanup maxAge → e.1-t < maxAge

theorem remembered_snoc (s : PubSubMetrics PeerId) (es : List (Nat × MetricsCall PeerId))
    (e : Nat × MetricsCall PeerId) (messageId : String) (t k : Nat) :
    Remembered s (es++[e]) messageId t k ↔
      (∃ j, Remembered s es messageId t j ∧ k = j+((es.foldl step s).fresh e).length ∧
        ∀ maxAge, e.2 = .cleanup maxAge → e.1-t < maxAge) ∨
      e = (t,.isDuplicate messageId) ∧
        Lru.contains (es.foldl step s).messageIds messageId = false ∧ k = 0 := by
  constructor
  · rintro ⟨pre,post,hes,hnew,hk,hold⟩
    rcases List.eq_nil_or_concat post with rfl | ⟨post,last,rfl⟩
    · obtain ⟨rfl,hlast⟩ := List.append_inj' hes rfl
      exact .inr ⟨by simpa using hlast,hnew,by simpa using hk⟩
    · rw [List.concat_eq_append,← List.cons_append,← List.append_assoc] at hes
      obtain ⟨rfl,hlast⟩ := List.append_inj' hes rfl
      obtain rfl : e = last := by simpa using hlast
      refine .inl ⟨_,⟨pre,post,rfl,hnew,rfl,?_⟩,?_,?_⟩
      · exact fun x hx => hold x (by simp [hx])
      · rw [hk,List.concat_eq_append,collect_append,List.length_append,← List.foldl_append]
        simp
      · exact hold e (by simp)
  · rintro (⟨j,⟨pre,post,rfl,hnew,hj,hold⟩,hk,hlast⟩ | ⟨rfl,hnew,rfl⟩)
    · refine ⟨pre,post++[e],by simp,hnew,?_,?_⟩
      · rw [hk,hj,collect_append,List.length_append,← List.foldl_append]
        simp
      · intro x hx
        rcases List.mem_append.mp hx with hx | hx
        · exact hold x hx
        · rw [List.mem_singleton.mp hx]
          exact hlast
    · exact ⟨es,[],rfl,hnew,rfl,by simp⟩

variable [LawfulLru String Nat]

/-- What a call does to the cache: a new message enters it, a cleanup takes what is too old, every
other call leaves it. -/
theorem messageIds_cases (s : PubSubMetrics PeerId) (e : Nat × MetricsCall PeerId) :
    (∃ messageId, e.2 = .isDuplicate messageId ∧ Lru.contains s.messageIds messageId = false ∧
      s.fresh e = [messageId] ∧ (s.step e).messageIds = Lru.put s.messageIds messageId e.1) ∨
    (∃ maxAge, e.2 = .cleanup maxAge ∧ s.fresh e = [] ∧
      Lru.cap (s.step e).messageIds = Lru.cap s.messageIds ∧
      Lru.iter (s.step e).messageIds =
        (Lru.iter s.messageIds).filter (fun x => !decide (maxAge ≤ e.1-x.2))) ∨
    ((∀ maxAge, e.2 ≠ .cleanup maxAge) ∧
      (∀ messageId, e.2 = .isDuplicate messageId → Lru.contains s.messageIds messageId = true) ∧
      s.fresh e = [] ∧ (s.step e).messageIds = s.messageIds) := by
  obtain ⟨time,call⟩ := e
  cases call with
  | isDuplicate messageId =>
    by_cases hfound : Lru.contains s.messageIds messageId = true
    · refine .inr (.inr ⟨by simp,?_,by simp [fresh,hfound],by simp [step,isDuplicate,hfound]⟩)
      rintro _ ⟨rfl⟩
      exact hfound
    · rw [Bool.not_eq_true] at hfound
      exact .inl ⟨messageId,rfl,hfound,by simp [fresh,hfound],by simp [step,isDuplicate,hfound]⟩
  | cleanup maxAge =>
    refine .inr (.inl ⟨maxAge,rfl,rfl,?_,?_⟩)
    · exact Lru.cap_popAll s.messageIds _
    · exact Lru.iter_popAll_filter s.messageIds _
  | _ => exact .inr (.inr ⟨by simp,by simp,rfl,rfl⟩)

/-- Of each entry some call has been the time. -/
theorem stamped_run (now : Nat) (es : List (Nat × MetricsCall PeerId)) :
    ∀ x ∈ Lru.iter (es.foldl step (new now)).messageIds, ∃ e ∈ es, e.1 = x.2 := by
  induction es using List.reverseRecOn with
  | nil => simp [new,LawfulLru.iter_new]
  | append_singleton es e ih =>
    rw [List.foldl_append,List.foldl_cons,List.foldl_nil]
    have hkept : ∀ x, x ∈ Lru.iter (es.foldl step (new now)).messageIds →
        ∃ e' ∈ es++[e], e'.1 = x.2 := by
      intro x hx
      obtain ⟨e',he,hex⟩ := ih x hx
      exact ⟨e',List.mem_append_left _ he,hex⟩
    intro x hx
    obtain ⟨messageId,_,hnew,_,hstep⟩ | ⟨maxAge,_,_,_,hstep⟩ | ⟨_,_,_,hstep⟩ :=
      messageIds_cases (es.foldl step (new now)) e
    · rw [hstep,Lru.iter_put_of_absent hnew,List.mem_cons] at hx
      rcases hx with rfl | hx
      · exact ⟨e,List.mem_append_right _ (List.mem_singleton_self _),rfl⟩
      · exact hkept x (List.mem_of_mem_take hx)
    · rw [hstep] at hx
      exact hkept x (List.mem_of_mem_filter hx)
    · rw [hstep] at hx
      exact hkept x hx

/-- Where time does not run backwards the newer entries stand before the older ones. -/
theorem sorted_run (now : Nat) {es : List (Nat × MetricsCall PeerId)}
    (hclock : es.Pairwise (fun a b => a.1 ≤ b.1)) :
    (Lru.iter (es.foldl step (new now)).messageIds).Pairwise (fun a b => b.2 ≤ a.2) := by
  induction es using List.reverseRecOn with
  | nil => simp [new,LawfulLru.iter_new]
  | append_singleton es e ih =>
    obtain ⟨hbefore,_,hlast⟩ := List.pairwise_append.mp hclock
    have hsorted := ih hbefore
    rw [List.foldl_append,List.foldl_cons,List.foldl_nil]
    obtain ⟨messageId,_,hnew,_,hstep⟩ | ⟨maxAge,_,_,_,hstep⟩ | ⟨_,_,_,hstep⟩ :=
      messageIds_cases (es.foldl step (new now)) e
    · rw [hstep,Lru.iter_put_of_absent hnew]
      refine List.pairwise_cons.mpr ⟨?_,hsorted.sublist (List.take_sublist _ _)⟩
      intro x hx
      obtain ⟨e',he,hex⟩ := stamped_run now es x (List.mem_of_mem_take hx)
      rw [← hex]
      exact hlast e' he _ (List.mem_singleton_self _)
    · rw [hstep]
      exact hsorted.sublist List.filter_sublist
    · rw [hstep]
      exact hsorted

theorem cap_run (now : Nat) (es : List (Nat × MetricsCall PeerId)) :
    Lru.cap (es.foldl step (new now)).messageIds = messageCacheSize := by
  apply (along_true step (new now) es).invariant
    (fun s : PubSubMetrics PeerId => Lru.cap s.messageIds = messageCacheSize)
    (LawfulLru.cap_new messageCacheSize (by decide))
  intro s e h _
  obtain ⟨messageId,_,_,_,hstep⟩ | ⟨maxAge,_,_,hcap,_⟩ | ⟨_,_,_,hstep⟩ := messageIds_cases s e
  · rw [hstep,LawfulLru.cap_put]
    exact h
  · rw [hcap]
    exact h
  · rw [hstep]
    exact h

/-- The entry at place `k` is the message after which `k` others have been new. -/
theorem entries_run (now : Nat) {es : List (Nat × MetricsCall PeerId)}
    (hclock : es.Pairwise (fun a b => a.1 ≤ b.1)) (messageId : String) (t k : Nat) :
    (Lru.iter (es.foldl step (new now)).messageIds)[k]? = some (messageId,t) ↔
      k < messageCacheSize ∧ Remembered (new now) es messageId t k := by
  induction es using List.reverseRecOn generalizing k with
  | nil => simp [new,LawfulLru.iter_new,Remembered]
  | append_singleton es e ih =>
    obtain ⟨hbefore,_,_⟩ := List.pairwise_append.mp hclock
    have hplace := ih hbefore
    rw [remembered_snoc,List.foldl_append,List.foldl_cons,List.foldl_nil]
    obtain ⟨other,hcall,hnew,hfresh,hstep⟩ | ⟨maxAge,hcall,hfresh,_,hstep⟩ |
      ⟨hcleanup,hknown,hfresh,hstep⟩ := messageIds_cases (es.foldl step (new now)) e
    · rw [hstep,Lru.getElem?_put_of_absent hnew,cap_run,hfresh]
      constructor
      · rintro (⟨rfl,hentry⟩ | ⟨j,rfl,hk,hentry⟩)
        · obtain ⟨rfl,rfl⟩ := Prod.mk.inj hentry
          exact ⟨by decide,.inr ⟨Prod.ext rfl hcall,hnew,rfl⟩⟩
        · obtain ⟨_,hremembered⟩ := (hplace j).mp hentry
          refine ⟨hk,.inl ⟨j,hremembered,rfl,?_⟩⟩
          intro maxAge hage
          rw [hcall] at hage
          cases hage
      · rintro ⟨hk,⟨j,hremembered,rfl,_⟩ | ⟨rfl,_,rfl⟩⟩
        · exact .inr ⟨j,rfl,hk,(hplace j).mpr ⟨Nat.lt_of_succ_lt hk,hremembered⟩⟩
        · cases hcall
          exact .inl ⟨rfl,rfl⟩
    · have hinitial : (Lru.iter (es.foldl step (new now)).messageIds).Pairwise
          (fun a b => (!decide (maxAge ≤ e.1-b.2)) = true →
            (!decide (maxAge ≤ e.1-a.2)) = true) := by
        apply (sorted_run now hbefore).imp
        intro a b hab
        simp only [Bool.not_eq_true',decide_eq_false_iff_not,not_le]
        omega
      rw [hstep,getElem?_filter_of_initial hinitial,hplace k,hfresh]
      constructor
      · rintro ⟨⟨hk,hremembered⟩,hyoung⟩
        refine ⟨hk,.inl ⟨k,hremembered,rfl,?_⟩⟩
        intro age hage
        obtain rfl : maxAge = age := MetricsCall.cleanup.inj (hcall.symm.trans hage)
        simpa using hyoung
      · rintro ⟨hk,⟨j,hremembered,rfl,hyoung⟩ | ⟨rfl,_,_⟩⟩
        · exact ⟨⟨hk,hremembered⟩,by simpa using hyoung maxAge hcall⟩
        · cases hcall
    · rw [hstep,hplace k,hfresh]
      constructor
      · rintro ⟨hk,hremembered⟩
        exact ⟨hk,.inl ⟨k,hremembered,rfl,fun maxAge hage => absurd hage (hcleanup maxAge)⟩⟩
      · rintro ⟨hk,⟨j,hremembered,rfl,_⟩ | ⟨rfl,hnew,_⟩⟩
        · exact ⟨hk,hremembered⟩
        · rw [hknown messageId rfl] at hnew
          cases hnew

/-- A message counts as a duplicate exactly if it has been new at some time since which fewer than
ten thousand others have been new, and no cleanup has found it too old. -/
theorem duplicate_iff (start : Nat) {es : List (Nat × MetricsCall PeerId)}
    (hclock : es.Pairwise (fun a b => a.1 ≤ b.1)) (now : Nat) (messageId : String) :
    ((es.foldl step (new start)).isDuplicate now messageId).1 = true ↔
      ∃ pre t post, es = pre++(t,.isDuplicate messageId)::post ∧
        ((pre.foldl step (new start)).isDuplicate t messageId).1 = false ∧
        (collect step fresh ((pre++[(t,.isDuplicate messageId)]).foldl step (new start))
          post).length < messageCacheSize ∧
        ∀ e ∈ post, ∀ maxAge, e.2 = .cleanup maxAge → e.1-t < maxAge := by
  have hverdict : ∀ (s : PubSubMetrics PeerId) (now : Nat),
      (s.isDuplicate now messageId).1 = Lru.contains s.messageIds messageId := by
    intro s now
    unfold isDuplicate
    split_ifs with hfound
    · exact hfound.symm
    · simpa using hfound
  rw [hverdict,LawfulLru.contains_iff]
  constructor
  · rintro ⟨t,hmem⟩
    obtain ⟨k,hk⟩ := List.mem_iff_getElem?.mp hmem
    obtain ⟨hlt,pre,post,hes,hnew,rfl,hold⟩ := (entries_run start hclock messageId t k).mp hk
    exact ⟨pre,t,post,hes,by rw [hverdict,hnew],hlt,hold⟩
  · rintro ⟨pre,t,post,hes,hnew,hlt,hold⟩
    rw [hverdict] at hnew
    exact ⟨t,List.mem_of_getElem?
      ((entries_run start hclock messageId t _).mpr ⟨hlt,pre,post,hes,hnew,rfl,hold⟩)⟩

end Duplicates

end PubSubMetrics

/-- A second message leaves the first one a duplicate. -/
theorem PubSubMetrics.duplicate_iff_afterOther :
    ((([(0,.isDuplicate "a"),(3,.isDuplicate "b")] : List (Nat × MetricsCall Unit)).foldl step
      (new 0)).isDuplicate 5 "a").1 = true :=
  (duplicate_iff 0 (by decide) 5 "a").mpr
    ⟨[],0,[(3,.isDuplicate "b")],rfl,by decide,by decide,by simp⟩

end OpenBroadcast.PubSub
