import OpenBroadcast.PubSub.Validation

namespace OpenBroadcast.PubSub

open Media Delivery

section Splitting

variable {α : Type} [BEq α] [LawfulBEq α] {a : α}

theorem notMem_of_mem_splitOn (xs : List α) : ∀ part ∈ xs.splitOn a, a ∉ part := by
  induction xs with
  | nil => simp
  | cons x xs ih =>
    intro part hpart
    rw [List.splitOn_cons_eq_if_modifyHead] at hpart
    split_ifs at hpart with hx
    · rcases List.mem_cons.mp hpart with rfl | hpart
      · exact List.not_mem_nil
      · exact ih part hpart
    · cases hparts : xs.splitOn a with
      | nil => exact absurd hparts (List.splitOn_ne_nil a xs)
      | cons first rest =>
        rw [hparts,List.modifyHead_cons] at hpart
        rcases List.mem_cons.mp hpart with rfl | hpart
        · have hfirst := ih first (by simp [hparts])
          have hne : a ≠ x := fun h => hx (by simp [h])
          simp [hne,hfirst]
        · exact ih part (by simp [hparts,hpart])

/-- What follows the last separator. -/
theorem eq_of_append_cons_eq {xs ys u v : List α} (h : xs++a::u = ys++a::v) (hu : a ∉ u)
    (hv : a ∉ v) : u = v := by
  have hsplit := congrArg (fun l => (l.splitOn a).getLast?) h
  simp only [List.splitOn_append_cons_self,List.splitOn_eq_singleton hu,
    List.splitOn_eq_singleton hv] at hsplit
  simpa using hsplit

end Splitting

section Digits

theorem hexValue_toLower {c : Char} {n : Nat} (h : hexValue c = some n) :
    n < 16 ∧ c.toLower = Relay.StreamId.hexDigit n := by
  have hc : c = Char.ofNat c.toNat := (Char.ofNat_toNat c).symm
  unfold hexValue at h
  split_ifs at h with hdigit hlower hupper
  · have hlow : 48 ≤ c.toNat := hdigit.1
    have hhigh : c.toNat ≤ 57 := hdigit.2
    cases h
    generalize c.toNat = k at hc hlow hhigh
    subst hc
    interval_cases k <;> decide
  · have hlow : 97 ≤ c.toNat := hlower.1
    have hhigh : c.toNat ≤ 102 := hlower.2
    cases h
    generalize c.toNat = k at hc hlow hhigh
    subst hc
    interval_cases k <;> decide
  · have hlow : 65 ≤ c.toNat := hupper.1
    have hhigh : c.toNat ≤ 70 := hupper.2
    cases h
    generalize c.toNat = k at hc hlow hhigh
    subst hc
    interval_cases k <;> decide

/-- What decodes to bytes is what they encode to, but for the case of its letters. -/
theorem toLower_of_hexDecode {digits : List Char} {bytes : Bytes}
    (h : hexDecode digits = some bytes) : digits.map Char.toLower = hexEncode bytes := by
  induction digits using hexDecode.induct generalizing bytes with
  | case1 =>
    cases h
    rfl
  | case2 => cases h
  | case3 a b rest ih =>
    simp only [hexDecode,Option.bind_eq_bind,Option.bind_eq_some_iff] at h
    obtain ⟨high,hhigh,low,hlow,bytes',hrest,hbytes⟩ := h
    cases hbytes
    obtain ⟨hhighLt,ha⟩ := hexValue_toLower hhigh
    obtain ⟨hlowLt,hb⟩ := hexValue_toLower hlow
    have hbyte : (UInt8.ofNat (16*high+low)).toNat = 16*high+low := by
      rw [UInt8.toNat_ofNat']
      omega
    have hdiv : (16*high+low)/16 = high := by omega
    have hmod : (16*high+low)%16 = low := by omega
    have hcons : hexEncode (UInt8.ofNat (16*high+low)::bytes') =
        Relay.StreamId.hexDigit ((UInt8.ofNat (16*high+low)).toNat/16)::
          Relay.StreamId.hexDigit ((UInt8.ofNat (16*high+low)).toNat%16)::hexEncode bytes' := rfl
    rw [List.map_cons,List.map_cons,ha,hb,ih hrest,hcons,hbyte,hdiv,hmod]

end Digits

/-- The test of `handle_gossipsub_event` for the data of a stream. -/
def isStreamData (topic : String) : Bool := (parseStreamId topic).isSome && endsWithData topic

/-- The topic is `stream_data` of the stream, up to the case of the digits. -/
def IsDataTopicOf (topic : String) (streamId : Relay.StreamId) : Prop :=
  ∃ digits, topic.toList = "stream/".toList++digits++"/data".toList ∧
    digits.map Char.toLower = hexEncode streamId.bytes

def topicParts (topic : String) : List (List Char) := topic.toList.splitOn '/'

/-- The second part of the topic is hexadecimal, and there is a third one. -/
def NamesStream (topic : String) : Prop :=
  ∃ first id third rest, topicParts topic = first::id::third::rest ∧ (hexDecode id).isSome

section Recognisers

variable {topic : String}

theorem parseStreamId_eq_some {streamId : Relay.StreamId} :
    parseStreamId topic = some streamId ↔ ∃ id third rest,
      topicParts topic = "stream".toList::id::third::rest ∧ hexDecode id = some streamId.bytes := by
  unfold parseStreamId topicParts
  constructor
  · intro h
    split at h
    · next first id third rest hparts =>
      split_ifs at h with hfirst
      obtain ⟨bytes,hbytes,rfl⟩ := Option.map_eq_some_iff.mp h
      exact ⟨id,third,rest,by rw [hparts,hfirst],hbytes⟩
    · cases h
  · rintro ⟨id,third,rest,hparts,hbytes⟩
    rw [hparts]
    simp [hbytes]

theorem toList_eq_intercalate (topic : String) :
    topic.toList = ['/'].intercalate (topicParts topic) :=
  (List.intercalate_splitOn '/').symm

theorem isPrefix_of_parts {rest : List (List Char)} (hrest : rest ≠ [])
    (hparts : topicParts topic = "stream".toList::rest) : "stream/".toList <+: topic.toList := by
  rw [toList_eq_intercalate topic,hparts,List.intercalate_cons_of_ne_nil hrest]
  exact ⟨['/'].intercalate rest,by simp⟩

theorem parts_of_isPrefix (h : "stream/".toList <+: topic.toList) :
    ∃ rest, topicParts topic = "stream".toList::rest := by
  obtain ⟨rest,hrest⟩ := h
  refine ⟨rest.splitOn '/',?_⟩
  have htopic : topic.toList = "stream".toList++ '/'::rest := by
    rw [← hrest]
    rfl
  unfold topicParts
  rw [htopic]
  exact List.splitOn_append_cons_self_of_not_mem (by decide) rest

theorem isStreamData_iff (topic : String) : isStreamData topic = true ↔
    StreamDataValidator.isStreamDataTopic topic = true ∧ NamesStream topic := by
  unfold isStreamData StreamDataValidator.isStreamDataTopic
  rw [Bool.and_eq_true,Bool.and_eq_true,List.isPrefixOf_iff_prefix,Option.isSome_iff_exists]
  constructor
  · rintro ⟨⟨streamId,hid⟩,hdata⟩
    obtain ⟨id,third,rest,hparts,hbytes⟩ := parseStreamId_eq_some.mp hid
    exact ⟨⟨isPrefix_of_parts (by simp) hparts,hdata⟩,
      "stream".toList,id,third,rest,hparts,by simp [hbytes]⟩
  · rintro ⟨⟨hstart,hdata⟩,first,id,third,rest,hparts,hhex⟩
    obtain ⟨others,hothers⟩ := parts_of_isPrefix hstart
    rw [hothers] at hparts
    obtain ⟨rfl,rfl⟩ := List.cons.inj hparts
    obtain ⟨bytes,hbytes⟩ := Option.isSome_iff_exists.mp hhex
    exact ⟨⟨⟨bytes⟩,parseStreamId_eq_some.mpr ⟨id,third,rest,hothers,hbytes⟩⟩,hdata⟩

/-- Of the topics that are taken for the data of a stream, those with three parts are its data
topic. -/
theorem isDataTopicOf_iff {streamId : Relay.StreamId} (hid : parseStreamId topic = some streamId)
    (hdata : endsWithData topic = true) :
    IsDataTopicOf topic streamId ↔ (topicParts topic).length = 3 := by
  obtain ⟨id,third,rest,hparts,hbytes⟩ := parseStreamId_eq_some.mp hid
  constructor
  · rintro ⟨digits,htopic,hdigits⟩
    have hslash : '/' ∉ digits := by
      intro hmem
      have hlower : '/' ∈ digits.map Char.toLower := List.mem_map.mpr ⟨ '/',hmem,by decide⟩
      rw [hdigits] at hlower
      exact slash_notMem_hexEncode _ hlower
    have hsplit : topicParts topic = ["stream".toList,digits,"data".toList] := by
      have hjoin : topic.toList = "stream".toList++ '/'::(digits++ '/'::"data".toList) := by
        rw [htopic]
        simp
      unfold topicParts
      rw [hjoin,List.splitOn_append_cons_self_of_not_mem (by decide),
        List.splitOn_append_cons_self_of_not_mem hslash,List.splitOn_eq_singleton (by decide)]
    rw [hsplit]
    rfl
  · intro hlength
    have hnil : rest = [] := by
      rw [hparts] at hlength
      simpa using hlength
    subst hnil
    have htopic : topic.toList = ("stream/".toList++id)++ '/'::third := by
      rw [toList_eq_intercalate topic,hparts]
      simp [List.intercalate,List.intersperse]
    have hthird : third = "data".toList := by
      unfold endsWithData at hdata
      rw [List.isSuffixOf_iff_suffix] at hdata
      obtain ⟨front,hfront⟩ := hdata
      have hlast : front++ '/'::"data".toList = ("stream/".toList++id)++ '/'::third := by
        rw [← htopic,← hfront]
        rfl
      have hno : '/' ∉ third := by
        apply notMem_of_mem_splitOn topic.toList
        show third ∈ topicParts topic
        simp [hparts]
      exact (eq_of_append_cons_eq hlast (by decide) hno).symm
    refine ⟨id,?_,toLower_of_hexDecode hbytes⟩
    rw [htopic,hthird]
    simp

/-- Only what the test lets through adds to the streams of the overlay. -/
theorem streams_handleGossipsubEvent {PeerId : Type} (blake3 : Bytes → Digest)
    (o : Libp2pOverlay PeerId) (c : Circumstances) (m : GossipMessage PeerId)
    (h : isStreamData m.topic = false) :
    (o.handleGossipsubEvent blake3 c m).1.streams = o.streams := by
  have hsend : ∀ event, (o.trySend c (some m) event).streams = o.streams := by
    intro event
    unfold Libp2pOverlay.trySend
    split_ifs <;> rfl
  unfold Libp2pOverlay.handleGossipsubEvent
  cases hid : parseStreamId m.topic with
  | some streamId =>
    have hdata : endsWithData m.topic = false := by
      simpa [isStreamData,hid] using h
    simp [hdata,hsend]
  | none =>
    dsimp only
    split_ifs
    · rfl
    · exact hsend _
    · rfl

/-- What the relay takes for the data of a stream, the validator checks as such; of what the
validator checks, the relay takes the topics that name a stream; and those of three parts are the
data topic of this stream. -/
theorem data_topic_recognised (topic : String) :
    (isStreamData topic = true ↔
      StreamDataValidator.isStreamDataTopic topic = true ∧ NamesStream topic) ∧
    ∀ streamId, parseStreamId topic = some streamId → endsWithData topic = true →
      (IsDataTopicOf topic streamId ↔ (topicParts topic).length = 3) :=
  ⟨isStreamData_iff topic,fun _ hid hdata => isDataTopicOf_iff hid hdata⟩

/-- The second part need not be hexadecimal for the validator, and there may be more than three
parts for both. -/
theorem data_topics_differ :
    StreamDataValidator.isStreamDataTopic "stream/zz/data" = true ∧
    isStreamData "stream/zz/data" = false ∧
    isStreamData "stream/ab/x/data" = true ∧
    ¬ IsDataTopicOf "stream/ab/x/data" ⟨[0xab]⟩ := by
  have hid : parseStreamId "stream/ab/x/data" = some ⟨[0xab]⟩ := by decide
  refine ⟨by decide,by decide,by decide,?_⟩
  rw [isDataTopicOf_iff hid (by decide)]
  decide

end Recognisers

end OpenBroadcast.PubSub
