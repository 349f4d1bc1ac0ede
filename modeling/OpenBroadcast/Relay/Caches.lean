import Mathlib.Data.List.Basic
import OpenBroadcast.Framework.InsertionOrder
import OpenBroadcast.Relay.Stream

namespace OpenBroadcast.Relay

/-- One call of `add_chunk`: the chunk, the buffer size of the call and its time. -/
structure Arrival (PeerId : Type) where
  chunk : StreamChunk PeerId
  maxBufferSize : Nat
  now : Nat

/-- The chunks in the order in which they came. -/
def history {PeerId : Type} (arrivals : List (Arrival PeerId)) : List (StreamChunk PeerId) :=
  arrivals.map Arrival.chunk

/-- How many chunks the buffer sizes of the calls have left in the buffer. -/
def retained {PeerId : Type} (arrivals : List (Arrival PeerId)) : Nat :=
  arrivals.foldl (fun n a => min (n+1) a.maxBufferSize) 0

/-- The chunks that are still buffered. -/
def buffered {PeerId : Type} (arrivals : List (Arrival PeerId)) : List (StreamChunk PeerId) :=
  (history arrivals).rtake (retained arrivals)

theorem history_snoc {PeerId : Type} (arrivals : List (Arrival PeerId)) (a : Arrival PeerId) :
    history (arrivals++[a]) = history arrivals++[a.chunk] := by
  simp [history]

theorem retained_snoc {PeerId : Type} (arrivals : List (Arrival PeerId)) (a : Arrival PeerId) :
    retained (arrivals++[a]) = min (retained arrivals+1) a.maxBufferSize := by
  simp [retained]

theorem buffered_snoc {PeerId : Type} (arrivals : List (Arrival PeerId)) (a : Arrival PeerId) :
    buffered (arrivals++[a]) = (buffered arrivals++[a.chunk]).rtake a.maxBufferSize := by
  rw [buffered,buffered,history_snoc,retained_snoc,rtake_snoc]

namespace StreamRelay

variable {PeerId : Type}

def receive (s : StreamRelay PeerId) (arrivals : List (Arrival PeerId)) : StreamRelay PeerId :=
  arrivals.foldl (fun s a => s.addChunk a.chunk a.maxBufferSize a.now) s

theorem receive_snoc (s : StreamRelay PeerId) (arrivals : List (Arrival PeerId))
    (a : Arrival PeerId) :
    s.receive (arrivals++[a]) =
      (s.receive arrivals).addChunk a.chunk a.maxBufferSize a.now := by
  simp [receive]

/-- A chunk that `add_chunk` takes for a keyframe: of video, and not an init segment. -/
def isVideoKeyframe (chunk : StreamChunk PeerId) : Bool :=
  !isInit chunk && (chunk.isKeyframe && isVideo chunk)

theorem trim_eq_rtake {α : Type} (max : Nat) (l : List α) : trim max l = l.rtake max := rfl

section AddChunk

variable (s : StreamRelay PeerId) (chunk : StreamChunk PeerId) (maxBufferSize now : Nat)

theorem buffer_addChunk :
    (s.addChunk chunk maxBufferSize now).buffer = (s.buffer++[chunk]).rtake maxBufferSize := by
  simp only [addChunk,← trim_eq_rtake]
  split_ifs <;> rfl

theorem maxKeyframes_addChunk :
    (s.addChunk chunk maxBufferSize now).maxKeyframes = s.maxKeyframes := by
  simp only [addChunk]
  split_ifs <;> rfl

theorem keyframes_addChunk :
    (s.addChunk chunk maxBufferSize now).keyframeBuffer =
      if isVideoKeyframe chunk then (s.keyframeBuffer++[chunk]).rtake s.maxKeyframes
      else s.keyframeBuffer := by
  simp only [addChunk,isVideoKeyframe,← trim_eq_rtake]
  by_cases hinit : isInit chunk
  · simp [hinit]
  · by_cases hkey : chunk.isKeyframe && isVideo chunk
    · simp [hinit,hkey]
    · simp [hinit,hkey]

theorem initSegment_addChunk :
    (s.addChunk chunk maxBufferSize now).initSegment =
      if isInit chunk then some chunk else s.initSegment := by
  simp only [addChunk]
  split_ifs <;> rfl

theorem lastSequence_addChunk :
    (s.addChunk chunk maxBufferSize now).lastSequence = max s.lastSequence chunk.sequence := by
  have larger : (if chunk.sequence > s.lastSequence then chunk.sequence else s.lastSequence) =
      max s.lastSequence chunk.sequence := by
    split_ifs <;> omega
  rw [← larger]
  simp only [addChunk]
  split_ifs <;> rfl

end AddChunk

/-- A relay that was created empty keeps four summaries of the history of its chunks. -/
structure Summarises (s : StreamRelay PeerId) (arrivals : List (Arrival PeerId)) : Prop where
  buffer : s.buffer = buffered arrivals
  keyframes : s.keyframeBuffer =
    ((history arrivals).filter isVideoKeyframe).rtake s.maxKeyframes
  initSegment : s.initSegment = ((history arrivals).filter isInit).getLast?
  lastSequence : s.lastSequence =
    ((history arrivals).map StreamChunk.sequence).foldl max 0

theorem addChunk_summarises {s : StreamRelay PeerId} {arrivals : List (Arrival PeerId)}
    (h : Summarises s arrivals) (a : Arrival PeerId) :
    Summarises (s.addChunk a.chunk a.maxBufferSize a.now) (arrivals++[a]) := by
  constructor
  · rw [buffer_addChunk,h.buffer,buffered_snoc]
  · rw [keyframes_addChunk,maxKeyframes_addChunk,history_snoc,List.filter_append,h.keyframes]
    by_cases hkey : isVideoKeyframe a.chunk
    · simp [hkey,rtake_snoc_rtake]
    · simp [hkey]
  · rw [initSegment_addChunk,history_snoc,List.filter_append,h.initSegment]
    by_cases hinit : isInit a.chunk <;> simp [hinit]
  · rw [lastSequence_addChunk,history_snoc,List.map_append,List.foldl_append,h.lastSequence]
    rfl

section Created

variable (id : StreamId) (publisher : PeerId) (maxKeyframes start : Nat)

/-- A relay with a keyframe ring of its own size, after a run of `add_chunk`. -/
def created (arrivals : List (Arrival PeerId)) : StreamRelay PeerId :=
  (withKeyframeBufferSize id publisher maxKeyframes start).receive arrivals

theorem created_summarises (arrivals : List (Arrival PeerId)) :
    Summarises (created id publisher maxKeyframes start arrivals) arrivals ∧
    (created id publisher maxKeyframes start arrivals).maxKeyframes = maxKeyframes := by
  induction arrivals using List.reverseRecOn with
  | nil =>
    have empty : Summarises (withKeyframeBufferSize id publisher maxKeyframes start) [] :=
      ⟨by simp [withKeyframeBufferSize,buffered,history],
        by simp [withKeyframeBufferSize,history],
        by simp [withKeyframeBufferSize,history],by simp [withKeyframeBufferSize,history]⟩
    exact ⟨empty,rfl⟩
  | append_singleton arrivals a ih =>
    obtain ⟨kept,max⟩ := ih
    rw [created] at kept max ⊢
    rw [receive_snoc]
    exact ⟨addChunk_summarises kept a,by rw [maxKeyframes_addChunk,max]⟩

/-- With one buffer size for all calls the buffer holds the last chunks. -/
theorem retained_fixed (maxBufferSize : Nat) (chunks : List (StreamChunk PeerId × Nat)) :
    retained (chunks.map (fun c => ⟨c.1,maxBufferSize,c.2⟩)) =
      min chunks.length maxBufferSize := by
  induction chunks using List.reverseRecOn with
  | nil => simp [retained]
  | append_singleton chunks c ih =>
    rw [List.map_append,List.map_singleton,retained_snoc,ih,List.length_append,
      List.length_singleton]
    dsimp only
    omega

/-- Chunks that come with their times, under one buffer size. -/
theorem caches_of_history (maxBufferSize : Nat) (chunks : List (StreamChunk PeerId × Nat)) :
    let s := created id publisher maxKeyframes start
      (chunks.map (fun c => ⟨c.1,maxBufferSize,c.2⟩))
    let arrived := chunks.map Prod.fst
    s.buffer = arrived.rtake (min arrived.length maxBufferSize) ∧
    s.keyframeBuffer = (arrived.filter (fun c => c.isKeyframe && isVideo c && !isInit c)).rtake
      maxKeyframes ∧
    s.initSegment = (arrived.filter isInit).getLast? ∧
    s.lastSequence = (arrived.map StreamChunk.sequence).foldl max 0 ∧
    ∀ sequence, s.getChunksSince sequence =
      (arrived.rtake (min arrived.length maxBufferSize)).filter (fun c => c.sequence > sequence) := by
  intro s arrived
  obtain ⟨kept,max⟩ := created_summarises id publisher maxKeyframes start
    (chunks.map (fun c => (⟨c.1,maxBufferSize,c.2⟩ : Arrival PeerId)))
  have harrived : history (chunks.map (fun c => (⟨c.1,maxBufferSize,c.2⟩ : Arrival PeerId))) =
      arrived := by
    simp [history,arrived]
  have hbuffer : s.buffer = arrived.rtake (min arrived.length maxBufferSize) := by
    rw [kept.buffer,buffered,retained_fixed,harrived,List.length_map]
  refine ⟨hbuffer,?_,?_,?_,?_⟩
  · have same : ∀ c ∈ arrived, isVideoKeyframe c = (c.isKeyframe && isVideo c && !isInit c) := by
      intro c _
      rw [isVideoKeyframe,Bool.and_comm]
    rw [kept.keyframes,max,harrived,List.filter_congr same]
  · rw [kept.initSegment,harrived]
  · rw [kept.lastSequence,harrived]
  · intro sequence
    rw [getChunksSince,hbuffer]

/-- What a late joiner is sent: the init segment, and the latest keyframe with the buffered
chunks of higher numbers. -/
theorem created_catchup (arrivals : List (Arrival PeerId)) :
    (created id publisher maxKeyframes start arrivals).getCatchupChunks =
      ((history arrivals).filter isInit).getLast?.toList++
        (match if 0 < maxKeyframes then ((history arrivals).filter isVideoKeyframe).getLast?
          else none with
        | some keyframe =>
          keyframe::(buffered arrivals).filter (fun c => c.sequence > keyframe.sequence)
        | none => []) := by
  obtain ⟨kept,max⟩ := created_summarises id publisher maxKeyframes start arrivals
  have hkeyframe := getLast?_rtake ((history arrivals).filter isVideoKeyframe) maxKeyframes
  rw [getCatchupChunks,kept.initSegment,kept.keyframes,kept.buffer,max]
  cases hlast : (((history arrivals).filter isVideoKeyframe).rtake maxKeyframes).getLast? with
  | none =>
    rw [hlast] at hkeyframe
    rw [← hkeyframe]
  | some keyframe =>
    rw [hlast] at hkeyframe
    rw [← hkeyframe]

end Created

/-- The chunks that came after the latest keyframe, or all of them if there is none. -/
def sinceKeyframe (chunks : List (StreamChunk PeerId)) : List (StreamChunk PeerId) :=
  chunks.rtakeWhile (fun c => !isVideoKeyframe c)

theorem split_at_keyframe {chunks : List (StreamChunk PeerId)} {keyframe : StreamChunk PeerId}
    (h : (chunks.filter isVideoKeyframe).getLast? = some keyframe) :
    isVideoKeyframe keyframe ∧ ∃ before, chunks = before++keyframe::sinceKeyframe chunks :=
  split_at_last h

/-- What late joiners are promised: the latest init segment, the latest keyframe, and what came
after it and is still buffered, without init segments. -/
def catchup [DecidableEq PeerId] (arrivals : List (Arrival PeerId)) : List (StreamChunk PeerId) :=
  ((history arrivals).filter isInit).getLast?.toList++
    (match ((history arrivals).filter isVideoKeyframe).getLast? with
    | some keyframe => keyframe::(buffered arrivals).filter
        (fun c => !isInit c && decide (c ∈ sinceKeyframe (history arrivals)))
    | none => [])

section Increasing

variable {chunks : List (StreamChunk PeerId)} {keyframe : StreamChunk PeerId}

/-- Where the sequence numbers increase, a chunk has a higher number than the latest keyframe
exactly if it came after it. -/
theorem after_iff_sequence (hseq : chunks.Pairwise (fun a b => a.sequence < b.sequence))
    (hkey : (chunks.filter isVideoKeyframe).getLast? = some keyframe) {c : StreamChunk PeerId}
    (hc : c ∈ chunks) : c ∈ sinceKeyframe chunks ↔ c.sequence > keyframe.sequence := by
  obtain ⟨_,before,hsplit⟩ := split_at_keyframe hkey
  rw [hsplit,List.pairwise_append,List.pairwise_cons] at hseq
  obtain ⟨_,⟨hafter,_⟩,hbefore⟩ := hseq
  constructor
  · exact hafter c
  · intro hgt
    rw [hsplit,List.mem_append,List.mem_cons] at hc
    rcases hc with hc | rfl | hc
    · have hlt := hbefore c hc keyframe (by simp)
      omega
    · omega
    · exact hc

end Increasing

theorem chunks_nodup {chunks : List (StreamChunk PeerId)}
    (hseq : chunks.Pairwise (fun a b => a.sequence < b.sequence)) : chunks.Nodup := by
  apply hseq.imp
  intro a b hlt hab
  rw [hab] at hlt
  omega

theorem buffered_subset {arrivals : List (Arrival PeerId)} {c : StreamChunk PeerId}
    (hc : c ∈ buffered arrivals) : c ∈ history arrivals :=
  rtake_subset hc

theorem mem_of_getLast?_filter {p : StreamChunk PeerId → Bool} {chunks : List (StreamChunk PeerId)}
    {c : StreamChunk PeerId} (h : (chunks.filter p).getLast? = some c) : c ∈ chunks ∧ p c :=
  List.mem_filter.mp (List.mem_of_getLast? h)

section Catchup

variable [DecidableEq PeerId]

/-- The chunks of the promise are different ones if all chunks of the history are. -/
theorem catchup_nodup {arrivals : List (Arrival PeerId)} (h : (history arrivals).Nodup) :
    (catchup arrivals).Nodup := by
  have hinit : ((history arrivals).filter isInit).getLast?.toList.Nodup := by
    cases ((history arrivals).filter isInit).getLast? <;> simp
  rw [catchup]
  cases hkey : ((history arrivals).filter isVideoKeyframe).getLast? with
  | none => simpa using hinit
  | some keyframe =>
    obtain ⟨hvideo,before,hsplit⟩ := split_at_keyframe hkey
    have hbuffered : (buffered arrivals).Nodup := h.sublist (List.drop_sublist _ _)
    have hfresh : keyframe ∉ sinceKeyframe (history arrivals) := by
      rw [hsplit] at h
      exact (List.nodup_cons.mp (List.nodup_append.mp h).2.1).1
    refine List.nodup_append.mpr ⟨hinit,List.nodup_cons.mpr ⟨?_,hbuffered.filter _⟩,?_⟩
    · simp [hfresh]
    · intro a ha b hb hab
      have hainit : isInit a := (mem_of_getLast?_filter (Option.mem_toList.mp ha)).2
      subst hab
      rcases List.mem_cons.mp hb with rfl | hb
      · simp [isVideoKeyframe,hainit] at hvideo
      · simp [hainit] at hb

/-- The promise is kept exactly if, where a video keyframe has come, the keyframe ring can hold
one and no init segment that came after the latest keyframe is still buffered. -/
theorem catchup_iff (id : StreamId) (publisher : PeerId) (maxKeyframes start : Nat)
    (arrivals : List (Arrival PeerId))
    (hseq : (history arrivals).Pairwise (fun a b => a.sequence < b.sequence)) :
    let sent := (created id publisher maxKeyframes start arrivals).getCatchupChunks
    (sent = catchup arrivals ∧ sent.Nodup) ↔
      ((∃ c ∈ history arrivals, isVideoKeyframe c) →
        0 < maxKeyframes ∧
        ∀ c ∈ buffered arrivals, isInit c → c ∉ sinceKeyframe (history arrivals)) := by
  intro sent
  have nodup : sent = catchup arrivals → sent.Nodup := by
    intro h
    rw [h]
    exact catchup_nodup (chunks_nodup hseq)
  rw [and_iff_left_of_imp nodup]
  have hsent := created_catchup id publisher maxKeyframes start arrivals
  cases hkey : ((history arrivals).filter isVideoKeyframe).getLast? with
  | none =>
    have hno : ¬ ∃ c ∈ history arrivals, isVideoKeyframe c := by
      rw [List.getLast?_eq_none_iff,List.filter_eq_nil_iff] at hkey
      push Not
      exact fun c hc => hkey c hc
    simp only [sent,hsent,catchup,hkey,ite_self,hno,false_imp_iff]
  | some keyframe =>
    have hexists : ∃ c ∈ history arrivals, isVideoKeyframe c :=
      ⟨keyframe,mem_of_getLast?_filter hkey⟩
    rw [forall_prop_of_true hexists]
    by_cases hmax : 0 < maxKeyframes
    · have hafter : ∀ c ∈ buffered arrivals,
          decide (c.sequence > keyframe.sequence) =
            decide (c ∈ sinceKeyframe (history arrivals)) := fun c hc =>
        decide_eq_decide.mpr (after_iff_sequence hseq hkey (buffered_subset hc)).symm
      rw [if_pos hmax,hkey] at hsent
      simp only [sent,hsent,catchup,hkey,List.append_cancel_left_eq,List.cons.injEq,true_and,
        and_iff_right hmax,List.filter_congr hafter]
      constructor
      · intro same c hc hinit hsince
        have kept : c ∈ (buffered arrivals).filter
            (fun c => decide (c ∈ sinceKeyframe (history arrivals))) := by
          simpa using And.intro hc hsince
        rw [same] at kept
        simp [hinit] at kept
      · intro hno
        apply List.filter_congr
        intro c hc
        by_cases hinit : isInit c
        · simp [hno c hc hinit]
        · simp [hinit]
    · simp [sent,hsent,catchup,hkey,hmax]

/-- A chunk as the tests of the relay make it. -/
def testChunk (sequence : Nat) (contentType : String) (isKeyframe : Bool) : StreamChunk Nat :=
  ⟨sequence,⟨[]⟩,[],sequence*33,sequence,contentType,isKeyframe,none⟩

/-- A publisher starts again with a new init segment: it comes after the keyframe. -/
def lateInit : List (Arrival Nat) :=
  [⟨testChunk 1 "video" true,100,0⟩,⟨testChunk 2 "init" false,100,0⟩]

theorem catchup_iff_lateInit :
    let sent := (created ⟨[]⟩ 0 3 0 lateInit).getCatchupChunks
    (sent = catchup lateInit ∧ sent.Nodup) ↔
      ((∃ c ∈ history lateInit, isVideoKeyframe c) →
        0 < 3 ∧ ∀ c ∈ buffered lateInit, isInit c → c ∉ sinceKeyframe (history lateInit)) :=
  catchup_iff ⟨[]⟩ 0 3 0 lateInit (by decide)

/-- The numbers increase, and the init segment is sent before the keyframe and after it. -/
theorem lateInit_sent_twice :
    (history lateInit).Pairwise (fun a b => a.sequence < b.sequence) ∧
    (created ⟨[]⟩ 0 3 0 lateInit).getCatchupChunks =
      [testChunk 2 "init" false,testChunk 1 "video" true,testChunk 2 "init" false] ∧
    (created ⟨[]⟩ 0 3 0 lateInit).getCatchupChunks ≠ catchup lateInit ∧
    ¬ (created ⟨[]⟩ 0 3 0 lateInit).getCatchupChunks.Nodup := by
  decide +kernel

end Catchup

/-- Of the chunks that came before the latest keyframe, those that are still buffered. -/
def stale (arrivals : List (Arrival PeerId)) : List (StreamChunk PeerId) :=
  ((history arrivals).rdrop ((sinceKeyframe (history arrivals)).length+1)).rtake
    (retained arrivals-((sinceKeyframe (history arrivals)).length+1))

/-- What follows the keyframe in what a late joiner is sent. -/
def followers (s : StreamRelay PeerId) : List (StreamChunk PeerId) :=
  s.getCatchupChunks.drop (s.initSegment.toList.length+1)

theorem followers_created (id : StreamId) (publisher : PeerId) (maxKeyframes start : Nat)
    (arrivals : List (Arrival PeerId)) :
    followers (created id publisher maxKeyframes start arrivals) =
      match if 0 < maxKeyframes then ((history arrivals).filter isVideoKeyframe).getLast?
        else none with
      | some keyframe => (buffered arrivals).filter (fun c => c.sequence > keyframe.sequence)
      | none => [] := by
  have hinit := (created_summarises id publisher maxKeyframes start arrivals).1.initSegment
  rw [followers,created_catchup,hinit,List.drop_length_add_append]
  cases (if 0 < maxKeyframes then ((history arrivals).filter isVideoKeyframe).getLast?
    else none) <;> rfl

/-- With a keyframe, the buffer is what is stale in it and a part of what came from the keyframe
on, all of it if anything is stale. -/
theorem buffered_split {arrivals : List (Arrival PeerId)} {keyframe : StreamChunk PeerId}
    (hkey : ((history arrivals).filter isVideoKeyframe).getLast? = some keyframe) :
    ∃ fresh, buffered arrivals = stale arrivals++fresh ∧
      fresh <:+ keyframe::sinceKeyframe (history arrivals) ∧
      (stale arrivals ≠ [] → fresh = keyframe::sinceKeyframe (history arrivals)) := by
  obtain ⟨_,before,hsplit⟩ := split_at_keyframe hkey
  have hbefore : (history arrivals).rdrop ((sinceKeyframe (history arrivals)).length+1) =
      before := by
    generalize sinceKeyframe (history arrivals) = since at hsplit
    rw [hsplit,List.rdrop]
    simp
  refine ⟨(keyframe::sinceKeyframe (history arrivals)).rtake (retained arrivals),?_,
    List.drop_suffix _ _,?_⟩
  · rw [stale,hbefore,buffered]
    conv_lhs => rw [hsplit]
    rw [rtake_append,List.length_cons]
  · intro hstale
    have room : (sinceKeyframe (history arrivals)).length+1 < retained arrivals := by
      by_contra hle
      have none : retained arrivals-((sinceKeyframe (history arrivals)).length+1) = 0 := by omega
      rw [stale,none,List.rtake_zero] at hstale
      exact hstale rfl
    have all : (keyframe::sinceKeyframe (history arrivals)).length-retained arrivals = 0 := by
      rw [List.length_cons]
      omega
    rw [List.rtake,all,List.drop_zero]

/-- No chunk of media from before the keyframe follows it exactly if every chunk that is
stale in the buffer has a sequence number up to that of the keyframe. A chunk that came twice
counts twice: what follows the keyframe is a sublist of what came after it. -/
theorem followers_fresh_iff (id : StreamId) (publisher : PeerId) (maxKeyframes start : Nat)
    (arrivals : List (Arrival PeerId)) :
    ((followers (created id publisher maxKeyframes start arrivals)).filter
        (fun c => !isInit c)).Sublist (sinceKeyframe (history arrivals)) ↔
      (0 < maxKeyframes → ∀ keyframe,
        ((history arrivals).filter isVideoKeyframe).getLast? = some keyframe →
        ∀ c ∈ stale arrivals, !isInit c → c.sequence ≤ keyframe.sequence) := by
  rw [followers_created]
  by_cases hmax : 0 < maxKeyframes
  · rw [forall_prop_of_true hmax,if_pos hmax]
    cases hkey : ((history arrivals).filter isVideoKeyframe).getLast? with
    | none => simp
    | some keyframe =>
      obtain ⟨fresh,hbuffered,hsuffix,hall⟩ := buffered_split hkey
      let media : StreamChunk PeerId → Bool :=
        fun c => !isInit c && decide (c.sequence > keyframe.sequence)
      have hdropped : (keyframe::sinceKeyframe (history arrivals)).filter media =
          (sinceKeyframe (history arrivals)).filter media := by
        simp [media]
      dsimp only
      rw [hbuffered,List.filter_filter]
      change ((stale arrivals++fresh).filter media).Sublist _ ↔ _
      rw [List.filter_append]
      constructor
      · intro hsub found hfound c hc hmedia
        obtain rfl := Option.some.inj hfound
        by_contra hlater
        rw [hall (List.ne_nil_of_mem hc),hdropped] at hsub
        have counted : ((stale arrivals).filter media).length+
            ((sinceKeyframe (history arrivals)).filter media).length ≤
              ((sinceKeyframe (history arrivals)).filter media).length := by
          simpa [List.filter_filter] using (hsub.filter media).length_le
        have stays : c ∈ (stale arrivals).filter media :=
          List.mem_filter.mpr ⟨hc,by simpa [media] using And.intro hmedia hlater⟩
        have positive := List.length_pos_of_mem stays
        omega
      · intro hstale
        have none : (stale arrivals).filter media = [] := by
          rw [List.filter_eq_nil_iff]
          intro c hc hmedia
          simp only [media,Bool.and_eq_true,decide_eq_true_eq] at hmedia
          have hle := hstale keyframe rfl c hc hmedia.1
          omega
        rw [none,List.nil_append]
        have kept := hsuffix.sublist.filter media
        rw [hdropped] at kept
        exact kept.trans List.filter_sublist
  · simp [hmax]

/-- A publisher that plays its file again: the same numbers once more. -/
def looped : List (Arrival Nat) :=
  [testChunk 0 "video" true,testChunk 1 "video" false,testChunk 2 "video" false,
    testChunk 0 "video" true].map (fun c => ⟨c,100,0⟩)

/-- The end of the file follows its first keyframe. -/
theorem looped_stale :
    followers (created ⟨[]⟩ 0 3 0 looped) = [testChunk 1 "video" false,testChunk 2 "video" false] ∧
    ¬ ((followers (created ⟨[]⟩ 0 3 0 looped)).filter (fun c => !isInit c)).Sublist
      (sinceKeyframe (history looped)) := by
  decide +kernel

end StreamRelay

end OpenBroadcast.Relay
