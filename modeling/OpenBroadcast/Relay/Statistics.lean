import Mathlib.Algebra.Ring.Nat
import Mathlib.Algebra.BigOperators.Group.List.Basic
import OpenBroadcast.Relay.Node

namespace OpenBroadcast.Relay

namespace RelayStats

variable (s : RelayStats) (size : Nat) (name : String)

@[simp] theorem chunksRelayed_recordChunkForStream :
    (s.recordChunkForStream size name).chunksRelayed = s.chunksRelayed+1 := rfl

@[simp] theorem bytesRelayed_recordChunkForStream :
    (s.recordChunkForStream size name).bytesRelayed = s.bytesRelayed+size := rfl

/-- The count of a stream, 0 for one that is not in the map. -/
def streamChunks (name : String) : Nat := (s.perStreamChunks.lookup name).getD 0

theorem streamChunks_recordChunkForStream (other : String) :
    (s.recordChunkForStream size name).streamChunks other =
      s.streamChunks other+if name = other then 1 else 0 := by
  by_cases h : other = name
  · subst h
    simp [streamChunks,recordChunkForStream,recordChunk]
  · have h' : name ≠ other := Ne.symm h
    simp [streamChunks,recordChunkForStream,recordChunk,h,h']

end RelayStats

namespace RelayNode

variable {PeerId : Type}

/-- `process_chunk_internal` in one go: the node, and what is then to be sent. -/
def processChunkInternal (order : HashOrder Unit PeerId) (s : RelayNode PeerId)
    (chunk : StreamChunk PeerId) (now : Nat) :
    RelayNode PeerId × Except (OverlayError PeerId) (List (PeerId × StreamChunk PeerId)) :=
  bufferChunk order (s.recordChunk chunk) chunk now

theorem stats_bufferChunk (order : HashOrder Unit PeerId) (s : RelayNode PeerId)
    (chunk : StreamChunk PeerId) (now : Nat) :
    (bufferChunk order s chunk now).1.stats = s.stats := by
  rw [bufferChunk]
  cases s.streams.lookup chunk.streamId with
  | none => rfl
  | some stream =>
    dsimp only
    split_ifs <;> rfl

theorem stats_processChunkInternal (order : HashOrder Unit PeerId) (s : RelayNode PeerId)
    (chunk : StreamChunk PeerId) (now : Nat) :
    (processChunkInternal order s chunk now).1.stats =
      s.stats.recordChunkForStream chunk.data.length chunk.streamId.display := by
  rw [processChunkInternal,stats_bufferChunk]
  rfl

/-- Two states with the same streams and the same chunk statistics. -/
def Untraced (s s' : RelayNode PeerId) : Prop :=
  s'.streams = s.streams ∧
  s'.stats.chunksRelayed = s.stats.chunksRelayed ∧
  s'.stats.bytesRelayed = s.stats.bytesRelayed ∧
  s'.stats.avgChunkSize = s.stats.avgChunkSize ∧
  s'.stats.perStreamChunks = s.stats.perStreamChunks

/-- A chunk of a stream that is not registered is refused and leaves the streams alone, but it
has been counted by then, under the name of its stream too. -/
theorem rejected_chunk_traced (order : HashOrder Unit PeerId) (s : RelayNode PeerId)
    (chunk : StreamChunk PeerId) (now : Nat) (h : chunk.streamId ∉ s.streams) :
    let r := processChunkInternal order s chunk now
    r.2 = .error (.streamNotFound chunk.streamId) ∧ r.1.streams = s.streams ∧
    r.1.stats = s.stats.recordChunkForStream chunk.data.length chunk.streamId.display ∧
    ¬ (r.2 = .error (.streamNotFound chunk.streamId) ∧ Untraced s r.1) := by
  intro r
  have absent : (s.recordChunk chunk).streams.lookup chunk.streamId = none :=
    Finmap.lookup_eq_none.mpr h
  have refused : r = (s.recordChunk chunk,.error (.streamNotFound chunk.streamId)) := by
    simp only [r,processChunkInternal,bufferChunk,absent]
  rw [refused]
  refine ⟨rfl,rfl,rfl,?_⟩
  rintro ⟨_,_,counted,_⟩
  simp [recordChunk] at counted

/-- A chunk of one byte for a stream that nobody has added. -/
theorem rejected_chunk_traced_empty :
    let s : RelayNode Nat := start 0 .default true 0
    let chunk : StreamChunk Nat := ⟨0,⟨[120]⟩,[1],0,0,"video",false,none⟩
    let r := processChunkInternal .ascending s chunk 0
    r.2 = .error (.streamNotFound ⟨[120]⟩) ∧ r.1.streams = s.streams ∧
    r.1.stats = s.stats.recordChunkForStream 1 chunk.streamId.display ∧
    ¬ (r.2 = .error (.streamNotFound ⟨[120]⟩) ∧ Untraced s r.1) :=
  rejected_chunk_traced .ascending (start 0 .default true 0)
    ⟨0,⟨[120]⟩,[1],0,0,"video",false,none⟩ 0 (Finmap.notMem_empty)

theorem rejected_chunk_counted :
    let s : RelayNode Nat := start 0 .default true 0
    let chunk : StreamChunk Nat := ⟨0,⟨[120]⟩,[1],0,0,"video",false,none⟩
    ¬ (chunk.streamId ∈ s.streams) ∧ s.stats.chunksRelayed = 0 ∧
    (processChunkInternal .ascending s chunk 0).1.stats.chunksRelayed = 1 ∧
    ¬ Untraced s (processChunkInternal .ascending s chunk 0).1 := by
  refine ⟨Finmap.notMem_empty,rfl,by simp [stats_processChunkInternal,start,RelayStats.new],?_⟩
  rintro ⟨_,counted,_⟩
  simp [stats_processChunkInternal,start,RelayStats.new] at counted

/-- The node after chunks that came one after the other. -/
def processChunks (order : HashOrder Unit PeerId) (s : RelayNode PeerId)
    (chunks : List (StreamChunk PeerId × Nat)) : RelayNode PeerId :=
  chunks.foldl (fun s c => (processChunkInternal order s c.1 c.2).1) s

/-- The statistics count what was offered, whether or not its stream was registered, and the
map of the streams has an entry for every name that was used. -/
theorem stats_processChunks (order : HashOrder Unit PeerId) (s : RelayNode PeerId)
    (chunks : List (StreamChunk PeerId × Nat)) :
    let after := (processChunks order s chunks).stats
    after.chunksRelayed = s.stats.chunksRelayed+chunks.length ∧
    after.bytesRelayed = s.stats.bytesRelayed+(chunks.map (fun c => c.1.data.length)).sum ∧
    ∀ name, after.streamChunks name = s.stats.streamChunks name+
      chunks.countP (fun c => c.1.streamId.display = name) := by
  induction chunks generalizing s with
  | nil => simp [processChunks]
  | cons c chunks ih =>
    obtain ⟨count,bytes,streams⟩ := ih (processChunkInternal order s c.1 c.2).1
    rw [stats_processChunkInternal] at count bytes streams
    simp only [processChunks,List.foldl_cons] at count bytes streams ⊢
    refine ⟨?_,?_,?_⟩
    · rw [count,RelayStats.chunksRelayed_recordChunkForStream,List.length_cons]
      omega
    · rw [bytes,RelayStats.bytesRelayed_recordChunkForStream,List.map_cons,List.sum_cons]
      omega
    · intro name
      rw [streams name,RelayStats.streamChunks_recordChunkForStream,List.countP_cons]
      simp only [decide_eq_true_eq]
      omega

end RelayNode

end OpenBroadcast.Relay
