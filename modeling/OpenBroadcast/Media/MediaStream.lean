import OpenBroadcast.Media.MediaBuffer

namespace OpenBroadcast.Media

structure MediaError where
  message : String

/-- A source of chunks, whose states are of type `σ`. -/
structure MediaSource (σ : Type) where
  nextChunk : σ → σ × Except MediaError Bytes

/-- From this state on the source has these chunks, and then an error. -/
def MediaSource.Serves {σ : Type} (source : MediaSource σ) : σ → List Bytes → Prop
  | s,[] => ∃ s' e, source.nextChunk s = (s',.error e)
  | s,chunk::chunks => ∃ s', source.nextChunk s = (s',.ok chunk) ∧ source.Serves s' chunks

structure MemorySource where
  data : Bytes
  position : Nat

namespace MemorySource

def new (data : Bytes) : MemorySource := ⟨data,0⟩

/-- Up to 4 KB at a time. -/
def nextChunk (s : MemorySource) : MemorySource × Except MediaError Bytes :=
  if s.data.length ≤ s.position then (s,.error ⟨"End of data"⟩)
  else
    let stop := min (s.position+4096) s.data.length
    ({ s with position := stop },.ok ((s.data.drop s.position).take (stop-s.position)))

def source : MediaSource MemorySource := ⟨nextChunk⟩

/-- All chunks but the last one are whole. -/
theorem serves (s : MemorySource) : ∃ chunks, source.Serves s chunks ∧
    chunks.flatten = s.data.drop s.position ∧
    (∀ chunk ∈ chunks, 1 ≤ chunk.length ∧ chunk.length ≤ 4096) ∧
    ((∀ chunk ∈ chunks, 4096 ∣ chunk.length) ↔ 4096 ∣ s.data.length-s.position) := by
  generalize hn : s.data.length-s.position = n
  induction n using Nat.strong_induction_on generalizing s with
  | _ n ih =>
    by_cases hend : s.data.length ≤ s.position
    · have hzero : n = 0 := by omega
      have hnone : s.data.drop s.position = [] := List.drop_eq_nil_iff.mpr hend
      refine ⟨[],⟨s,_,if_pos hend⟩,hnone.symm,by simp,?_⟩
      simp [hzero]
    · have hnext : s.nextChunk = ({ s with position := min (s.position+4096) s.data.length },
          .ok ((s.data.drop s.position).take (min (s.position+4096) s.data.length-s.position))) :=
        if_neg hend
      have hlength : ((s.data.drop s.position).take
          (min (s.position+4096) s.data.length-s.position)).length = min 4096 n := by
        rw [List.length_take,List.length_drop]
        omega
      obtain ⟨chunks,hserves,hflat,hsizes,hwhole⟩ := ih (n-min 4096 n) (by omega)
        { s with position := min (s.position+4096) s.data.length } (by dsimp only; omega)
      refine ⟨_::chunks,⟨_,hnext,hserves⟩,?_,?_,?_⟩
      · have hle : s.position ≤ min (s.position+4096) s.data.length := by omega
        rw [List.flatten_cons,hflat]
        conv_lhs =>
          rw [← Nat.add_sub_of_le hle]
        rw [← List.drop_drop,Nat.add_sub_cancel_left,List.take_append_drop]
      · intro chunk hchunk
        rcases List.mem_cons.mp hchunk with rfl | hchunk
        · omega
        · exact hsizes chunk hchunk
      · rw [List.forall_mem_cons,hwhole,hlength]
        omega

end MemorySource

/-- A stream that is read from a source. -/
structure MediaStreamImpl (σ : Type) (w : Nat) where
  stream : σ
  buffer : MediaBuffer w
  currentCodec : Option String

namespace MediaStreamImpl

variable {σ : Type} {w : Nat}

def new (stream : σ) (config : BufferConfig) : MediaStreamImpl σ w := ⟨stream,.new config,none⟩

/-- The codecs that there are decode the data. -/
def decodeData (decode : String → Bytes → Except MediaError Bytes) (currentCodec : Option String)
    (data : Bytes) : Except MediaError Bytes :=
  match currentCodec with
  | none => .ok data
  | some name =>
    if name = "audio" ∨ name = "video" then decode name data else .error ⟨"Unknown codec type"⟩

/-- What `read` does once there is something in the buffer. -/
def readBuffer (o : Overflow) (decode : String → Bytes → Except MediaError Bytes)
    (m : MediaStreamImpl σ w) (size : Nat) :
    Option (MediaStreamImpl σ w × Except MediaError Bytes) := do
  let (buffer,result) ← m.buffer.pop o size
  match result with
  | .error e => return ({ m with buffer },.error ⟨e.toString⟩)
  | .ok data => return ({ m with buffer },decodeData decode m.currentCodec data)

def read (o : Overflow) (source : MediaSource σ)
    (decode : String → Bytes → Except MediaError Bytes) (m : MediaStreamImpl σ w) (now size : Nat) :
    Option (MediaStreamImpl σ w × Except MediaError Bytes) :=
  if m.buffer.data.isEmpty then
    match source.nextChunk m.stream with
    | (stream,.error e) => some ({ m with stream },.error e)
    | (stream,.ok data) => do
      let (buffer,result) ← m.buffer.push o data now
      match result with
      | .error e => return ({ m with stream, buffer },.error ⟨e.toString⟩)
      | .ok () => readBuffer o decode { m with stream, buffer } size
  else m.readBuffer o decode size

def nextChunk (o : Overflow) (source : MediaSource σ)
    (decode : String → Bytes → Except MediaError Bytes) (m : MediaStreamImpl σ w) (now : Nat) :
    Option (MediaStreamImpl σ w × Except MediaError Bytes) :=
  m.read o source decode now 4096

/-- What `next_chunk` returns, called until it returns an error. -/
inductive Yields (o : Overflow) (source : MediaSource σ)
    (decode : String → Bytes → Except MediaError Bytes) :
    MediaStreamImpl σ w → List Bytes → Prop where
  | stop {m m' : MediaStreamImpl σ w} {now : Nat} {e : MediaError}
      (hcall : m.nextChunk o source decode now = some (m',.error e)) : Yields o source decode m []
  | more {m m' : MediaStreamImpl σ w} {now : Nat} {data : Bytes} {rest : List Bytes}
      (hcall : m.nextChunk o source decode now = some (m',.ok data))
      (hrest : Yields o source decode m' rest) : Yields o source decode m (data::rest)

/-- The chunks that a stream yields are the content. -/
def Delivers (o : Overflow) (source : MediaSource σ)
    (decode : String → Bytes → Except MediaError Bytes) (m : MediaStreamImpl σ w)
    (content : Bytes) : Prop :=
  ∃ chunks, Yields o source decode m chunks ∧ chunks.flatten = content

section Reading

variable {o : Overflow} {source : MediaSource σ}
  {decode : String → Bytes → Except MediaError Bytes} {m m' : MediaStreamImpl σ w}
  {chunks : List Bytes} {content : Bytes}

/-- A stream without a codec whose source has chunks that fit into the buffer. -/
structure Ready (o : Overflow) (source : MediaSource σ) (m : MediaStreamImpl σ w)
    (chunks : List Bytes) : Prop where
  codec : m.currentCodec = none
  serves : source.Serves m.stream chunks
  sizes : ∀ chunk ∈ chunks, 1 ≤ chunk.length ∧ chunk.length ≤ m.buffer.config.maxSize
  counted : o = .panics → m.buffer.position.toNat+m.buffer.size = m.buffer.totalBytes.toNat

/-- The stream once the buffer, which was empty, has the next chunk. -/
def refilled (m : MediaStreamImpl σ w) (stream : σ) (chunk : Bytes) (now : Nat) :
    MediaStreamImpl σ w where
  stream := stream
  buffer := { m.buffer with
    data := chunk
    startTime := some (m.buffer.startTime.getD now)
    totalBytes := m.buffer.totalBytes+.ofNat w chunk.length }
  currentCodec := m.currentCodec

/-- The stream without the 4096 bytes that were read. -/
def advanced (m : MediaStreamImpl σ w) : MediaStreamImpl σ w where
  stream := m.stream
  buffer := { m.buffer with
    data := m.buffer.data.drop 4096
    position := m.buffer.position+.ofNat w 4096 }
  currentCodec := m.currentCodec

theorem nextChunk_short (hdata : m.buffer.data ≠ []) (hshort : m.buffer.size < 4096) (now : Nat) :
    ∃ e, m.nextChunk o source decode now = some (m,.error e) := by
  have hbusy : ¬ m.buffer.data.isEmpty = true := by simpa using hdata
  unfold nextChunk read
  rw [if_neg hbusy]
  unfold readBuffer
  obtain ⟨_,e,he⟩ | ⟨hfull,_⟩ | ⟨hfull,_⟩ := m.buffer.pop_cases o 4096
  · rw [he]
    exact ⟨_,rfl⟩
  · omega
  · omega

theorem Ready.nextChunk_full (h : m.Ready o source chunks) (hfull : 4096 ≤ m.buffer.size)
    (now : Nat) : m.nextChunk o source decode now =
      some (m.advanced,.ok (m.buffer.data.take 4096)) := by
  have hbusy : ¬ m.buffer.data.isEmpty = true := by
    intro hempty
    rw [List.isEmpty_iff] at hempty
    simp [MediaBuffer.size,hempty] at hfull
  unfold nextChunk read
  rw [if_neg hbusy]
  unfold readBuffer
  obtain ⟨hshort,_⟩ | ⟨_,_,hpanics,hover⟩ | ⟨_,hok⟩ := m.buffer.pop_cases o 4096
  · omega
  · have hcounted := h.counted hpanics
    have hlt := m.buffer.totalBytes.isLt
    omega
  · rw [hok]
    simp [decodeData,h.codec,advanced]

theorem Ready.advanced (h : m.Ready o source chunks) (hfull : 4096 ≤ m.buffer.size) :
    m.advanced.Ready o source chunks := by
  refine ⟨h.codec,h.serves,h.sizes,?_⟩
  intro hpanics
  have hcounted := h.counted hpanics
  have hlt := m.buffer.totalBytes.isLt
  have hposition : (m.buffer.position+.ofNat w 4096).toNat = m.buffer.position.toNat+4096 :=
    Overflow.toNat_add_usize (by omega)
  simp only [MediaStreamImpl.advanced,MediaBuffer.size,List.length_drop,
    hposition] at hcounted hfull ⊢
  omega

/-- An empty buffer is refilled by a call, unless the total is too large. -/
theorem Ready.nextChunk_empty {chunk : Bytes} (h : m.Ready o source (chunk::chunks))
    (hempty : m.buffer.data = []) :
    (o = .panics ∧ 2^w ≤ m.buffer.totalBytes.toNat+chunk.length ∧
      ∀ now, m.nextChunk o source decode now = none) ∨
    ∃ stream, (o = .panics → m.buffer.totalBytes.toNat+chunk.length < 2^w) ∧
      (∀ now, (m.refilled stream chunk now).Ready o source chunks) ∧
      ∀ now now', m.nextChunk o source decode now =
        (m.refilled stream chunk now).nextChunk o source decode now' := by
  obtain ⟨stream,hnext,hserves⟩ := h.serves
  obtain ⟨⟨hpos,hle⟩,hsizes⟩ := List.forall_mem_cons.mp h.sizes
  have hidle : m.buffer.data.isEmpty = true := by rw [hempty]; rfl
  have hcall (now : Nat) : m.nextChunk o source decode now = (do
      let (buffer,result) ← m.buffer.push o chunk now
      match result with
      | .error e => return ({ m with stream, buffer },.error ⟨e.toString⟩)
      | .ok () => readBuffer o decode { m with stream, buffer } 4096) := by
    unfold nextChunk read
    rw [if_pos hidle,hnext]
  have hroom : m.buffer.size+chunk.length ≤ m.buffer.config.maxSize := by
    simpa [MediaBuffer.size,hempty] using hle
  by_cases hfits : o = .panics → m.buffer.totalBytes.toNat+chunk.length < 2^w
  · refine .inr ⟨stream,hfits,?_,?_⟩
    · intro now
      refine ⟨h.codec,hserves,hsizes,?_⟩
      intro hpanics
      have hcounted := h.counted hpanics
      have htotal := Overflow.toNat_add_usize (hfits hpanics)
      simp only [refilled,MediaBuffer.size,htotal,hempty,List.length_nil] at hcounted ⊢
      omega
    · intro now now'
      have hbusy : ¬ (m.refilled stream chunk now).buffer.data.isEmpty = true := by
        intro hnil
        rw [List.isEmpty_iff] at hnil
        have hchunk : chunk = [] := hnil
        simp [hchunk] at hpos
      rw [hcall now]
      unfold nextChunk read
      rw [if_neg hbusy]
      obtain ⟨hfull,_⟩ | ⟨_,hpanics,hover⟩ | ⟨_,_,hok⟩ := m.buffer.push_cases o chunk now
      · omega
      · have := hfits hpanics
        omega
      · rw [hok]
        simp [refilled,hempty]
  · rw [Classical.not_imp] at hfits
    obtain ⟨hpanics,hover⟩ := hfits
    refine .inl ⟨hpanics,by omega,?_⟩
    intro now
    rw [hcall now]
    obtain ⟨hfull,_⟩ | ⟨hnone,_⟩ | ⟨_,hfits,_⟩ := m.buffer.push_cases o chunk now
    · omega
    · rw [hnone]
      rfl
    · exact absurd (hfits hpanics) hover

theorem not_delivers_of_error (hcall : ∀ now, ∃ e,
      m.nextChunk o source decode now = some (m',.error e)) (hcontent : content ≠ []) :
    ¬ m.Delivers o source decode content := by
  rintro ⟨out,hyields,hflat⟩
  cases hyields with
  | stop => exact hcontent hflat.symm
  | @more _ m' now data rest hok _ =>
    obtain ⟨e,he⟩ := hcall now
    rw [hok] at he
    cases he

theorem not_delivers_of_panic (hcall : ∀ now, m.nextChunk o source decode now = none) :
    ¬ m.Delivers o source decode content := by
  rintro ⟨out,hyields,_⟩
  cases hyields with
  | @stop _ m' now e he =>
    rw [hcall now] at he
    cases he
  | @more _ m' now data rest hok _ =>
    rw [hcall now] at hok
    cases hok

theorem delivers_append_iff {data : Bytes}
    (hcall : ∀ now, m.nextChunk o source decode now = some (m',.ok data)) :
    m.Delivers o source decode (data++content) ↔ m'.Delivers o source decode content := by
  constructor
  · rintro ⟨out,hyields,hflat⟩
    cases hyields with
    | @stop _ m'' now e he =>
      rw [hcall now] at he
      cases he
    | @more _ m'' now data' rest hok hrest =>
      rw [hcall now] at hok
      cases hok
      exact ⟨rest,hrest,List.append_cancel_left hflat⟩
  · rintro ⟨rest,hrest,rfl⟩
    exact ⟨data::rest,.more (hcall 0) hrest,rfl⟩

/-- A call that does what it does in one of some other states. -/
theorem delivers_iff_of_calls {m' : Nat → MediaStreamImpl σ w} (hcall : ∀ now now',
      m.nextChunk o source decode now = (m' now).nextChunk o source decode now') :
    m.Delivers o source decode content ↔ ∃ now, (m' now).Delivers o source decode content := by
  constructor
  · rintro ⟨out,hyields,hflat⟩
    cases hyields with
    | @stop _ m'' now e he =>
      rw [hcall now now] at he
      exact ⟨now,[],.stop he,hflat⟩
    | @more _ m'' now data rest hok hrest =>
      rw [hcall now now] at hok
      exact ⟨now,data::rest,.more hok hrest,hflat⟩
  · rintro ⟨now,out,hyields,hflat⟩
    cases hyields with
    | @stop _ m'' now' e he =>
      rw [← hcall now now'] at he
      exact ⟨[],.stop he,hflat⟩
    | @more _ m'' now' data rest hok hrest =>
      rw [← hcall now now'] at hok
      exact ⟨data::rest,.more hok hrest,hflat⟩

/-- No chunk leaves a remainder in the buffer, and no counter that overflows panics. -/
def NoRemainder (o : Overflow) (m : MediaStreamImpl σ w) (chunks : List Bytes) : Prop :=
  4096 ∣ m.buffer.size ∧ (∀ chunk ∈ chunks, 4096 ∣ chunk.length) ∧
  (o = .panics → m.buffer.totalBytes.toNat+chunks.flatten.length < 2^w)

theorem noRemainder_refilled {chunk : Bytes} (hempty : m.buffer.data = [])
    (hfits : o = .panics → m.buffer.totalBytes.toNat+chunk.length < 2^w) (stream : σ) (now : Nat) :
    (m.refilled stream chunk now).NoRemainder o chunks ↔ m.NoRemainder o (chunk::chunks) := by
  have hsize : m.buffer.size = 0 := by rw [MediaBuffer.size,hempty]; rfl
  unfold NoRemainder
  rw [hsize,List.forall_mem_cons,List.flatten_cons,List.length_append]
  constructor
  · rintro ⟨hchunk,hrest,hroom⟩
    refine ⟨⟨0,rfl⟩,⟨hchunk,hrest⟩,fun hpanics => ?_⟩
    have hroom := hroom hpanics
    have htotal := Overflow.toNat_add_usize (hfits hpanics)
    rw [refilled,htotal] at hroom
    omega
  · rintro ⟨_,⟨hchunk,hrest⟩,hroom⟩
    refine ⟨hchunk,hrest,fun hpanics => ?_⟩
    have hroom := hroom hpanics
    have htotal := Overflow.toNat_add_usize (hfits hpanics)
    rw [refilled,htotal]
    omega

theorem size_advanced (m : MediaStreamImpl σ w) :
    m.advanced.buffer.size = m.buffer.size-4096 := List.length_drop

theorem noRemainder_advanced (hfull : 4096 ≤ m.buffer.size) :
    m.advanced.NoRemainder o chunks ↔ m.NoRemainder o chunks := by
  rw [NoRemainder,NoRemainder,size_advanced,Nat.dvd_sub_iff_left hfull (dvd_refl 4096)]
  rfl

/-- At the end of the source the call fails, and nothing is left. -/
theorem Ready.at_end (h : m.Ready o source []) (hempty : m.buffer.data = []) :
    m.Delivers o source decode (m.buffer.data++List.flatten []) ∧ m.NoRemainder o [] := by
  obtain ⟨s,e,hend⟩ := h.serves
  have hcall : m.nextChunk o source decode 0 = some ({ m with stream := s },.error e) := by
    unfold nextChunk read
    rw [hempty,hend]
    rfl
  have hsize : m.buffer.size = 0 := by rw [MediaBuffer.size,hempty]; rfl
  have hlt := m.buffer.totalBytes.isLt
  refine ⟨⟨[],.stop hcall,by simp [hempty]⟩,?_⟩
  rw [NoRemainder,hsize]
  exact ⟨⟨0,rfl⟩,by simp,fun _ => hlt⟩

/-- What is in the buffer and what the source has left are delivered exactly if nothing of it
remains. -/
theorem Ready.delivers_iff (h : m.Ready o source chunks) :
    m.Delivers o source decode (m.buffer.data++chunks.flatten) ↔ m.NoRemainder o chunks := by
  -- A refill leaves as many bytes to be read, and the buffer filled.
  generalize hn : 2*(m.buffer.size+chunks.flatten.length)+(if m.buffer.data = [] then 1 else 0) = n
  induction n using Nat.strong_induction_on generalizing m chunks with
  | _ n ih =>
    by_cases hempty : m.buffer.data = []
    · have hsize : m.buffer.size = 0 := by rw [MediaBuffer.size,hempty]; rfl
      cases chunks with
      | nil =>
        obtain ⟨hdelivers,hnothing⟩ := h.at_end hempty
        exact iff_of_true hdelivers hnothing
      | cons chunk chunks =>
        obtain ⟨hpanics,hover,hnone⟩ | ⟨stream,hfits,hready,hcall⟩ := h.nextChunk_empty hempty
        · refine iff_of_false (not_delivers_of_panic hnone) ?_
          rintro ⟨_,_,hroom⟩
          have hroom := hroom hpanics
          rw [List.flatten_cons,List.length_append] at hroom
          omega
        · rw [delivers_iff_of_calls hcall]
          have hpos := (h.sizes chunk List.mem_cons_self).1
          have hne : chunk ≠ [] := by
            rintro rfl
            simp at hpos
          have hiff (now : Nat) := ih (2*(chunk.length+chunks.flatten.length)) (by
            rw [← hn,if_pos hempty,hsize,List.flatten_cons,List.length_append]
            omega) (hready now) (by simp [refilled,MediaBuffer.size,hne])
          have hcontent : m.buffer.data++(chunk::chunks).flatten = chunk++chunks.flatten := by
            rw [hempty]
            rfl
          rw [hcontent,← noRemainder_refilled hempty hfits stream 0]
          constructor
          · rintro ⟨now,hdelivers⟩
            exact (hiff now).mp hdelivers
          · exact fun hdivides => ⟨0,(hiff 0).mpr hdivides⟩
    · have hpos : 1 ≤ m.buffer.size := List.length_pos_iff.mpr hempty
      by_cases hshort : m.buffer.size < 4096
      · apply iff_of_false
        · exact not_delivers_of_error (nextChunk_short hempty hshort) (by simp [hempty])
        · rintro ⟨hdivides,_⟩
          exact Nat.not_dvd_of_pos_of_lt hpos hshort hdivides
      · have hfull : 4096 ≤ m.buffer.size := by omega
        have hcontent : m.buffer.data++chunks.flatten =
            m.buffer.data.take 4096++(m.advanced.buffer.data++chunks.flatten) := by
          rw [← List.append_assoc]
          exact congrArg (·++chunks.flatten) (List.take_append_drop 4096 _).symm
        have hiff := ih _ (by
          rw [← hn,if_neg hempty,size_advanced]
          split_ifs <;> omega) (h.advanced hfull) rfl
        rw [hcontent,delivers_append_iff (h.nextChunk_full hfull),hiff]
        exact noRemainder_advanced hfull

theorem ready_new {s : σ} {config : BufferConfig} (hserves : source.Serves s chunks)
    (hsizes : ∀ chunk ∈ chunks, 1 ≤ chunk.length ∧ chunk.length ≤ config.maxSize) :
    (new s config : MediaStreamImpl σ w).Ready o source chunks :=
  ⟨rfl,hserves,hsizes,fun _ => rfl⟩

theorem noRemainder_new {s : σ} {config : BufferConfig} :
    (new s config : MediaStreamImpl σ w).NoRemainder o chunks ↔
      (∀ chunk ∈ chunks, 4096 ∣ chunk.length) ∧ (o = .panics → chunks.flatten.length < 2^w) := by
  unfold NoRemainder
  simp [new,MediaBuffer.new,MediaBuffer.size]

/-- A stream from memory is delivered exactly if its length is a multiple of 4 KB. -/
theorem memory_delivered_iff (data : Bytes) {config : BufferConfig}
    (hconfig : 4096 ≤ config.maxSize) :
    (new (.new data) config : MediaStreamImpl MemorySource w).Delivers o MemorySource.source decode
        data ↔ 4096 ∣ data.length ∧ (o = .panics → data.length < 2^w) := by
  obtain ⟨chunks,hserves,hflat,hsizes,hwhole⟩ := MemorySource.serves (.new data)
  have hflat : chunks.flatten = data := hflat
  subst hflat
  have hready : (new (.new chunks.flatten) config : MediaStreamImpl MemorySource w).Ready o
      MemorySource.source chunks :=
    ready_new hserves (fun c hc => ⟨(hsizes c hc).1,(hsizes c hc).2.trans hconfig⟩)
  exact hready.delivers_iff.trans (noRemainder_new.trans (and_congr_left' hwhole))

/-- The whole source is delivered exactly if each of its chunks has a multiple of 4096 bytes, and
all of them have no more than the total counts where it panics. -/
theorem whole_source_delivered_iff (o : Overflow) (source : MediaSource σ)
    (decode : String → Bytes → Except MediaError Bytes) (s : σ) (config : BufferConfig)
    (chunks : List Bytes) (hserves : source.Serves s chunks)
    (hsizes : ∀ chunk ∈ chunks, 1 ≤ chunk.length ∧ chunk.length ≤ config.maxSize) :
    (new s config : MediaStreamImpl σ w).Delivers o source decode chunks.flatten ↔
      (∀ chunk ∈ chunks, 4096 ∣ chunk.length) ∧ (o = .panics → chunks.flatten.length < 2^w) :=
  (ready_new hserves hsizes).delivers_iff.trans noRemainder_new

def onePage : Bytes := List.replicate 4096 7

def otherPage : Bytes := List.replicate 4096 8

/-- Two pages are two chunks. -/
theorem whole_source_delivered_pages :
    (new (.new (onePage++otherPage)) ⟨4096⟩ : MediaStreamImpl MemorySource 64).Delivers .panics
      MemorySource.source (fun _ data => .ok data) [onePage,otherPage].flatten := by
  have hone : onePage.length = 4096 := List.length_replicate
  have hother : otherPage.length = 4096 := List.length_replicate
  have hserves : MemorySource.source.Serves (.new (onePage++otherPage)) [onePage,otherPage] := by
    refine ⟨⟨onePage++otherPage,4096⟩,?_,⟨onePage++otherPage,8192⟩,?_,⟨onePage++otherPage,8192⟩,
      ⟨"End of data"⟩,?_⟩
    · simp [MemorySource.source,MemorySource.nextChunk,MemorySource.new,hone,hother,
        List.take_append_of_le_length hone.ge,List.take_of_length_le hone.le]
    · simp [MemorySource.source,MemorySource.nextChunk,hone,hother,List.drop_left' hone,
        List.take_of_length_le hother.le]
    · simp [MemorySource.source,MemorySource.nextChunk,hone,hother]
  refine (whole_source_delivered_iff .panics MemorySource.source (fun _ data => .ok data)
    (.new (onePage++otherPage)) ⟨4096⟩ [onePage,otherPage] hserves ?_).mpr ?_
  · simp [hone,hother]
  · simp [hone,hother]

/-- A few bytes in memory stay in the buffer. -/
theorem short_source_not_delivered :
    MemorySource.source.Serves (.new [1,2,3]) [[1,2,3]] ∧
    ¬ (new (.new [1,2,3]) ⟨4096⟩ : MediaStreamImpl MemorySource 64).Delivers .panics
      MemorySource.source (fun _ data => .ok data) [1,2,3] := by
  constructor
  · refine ⟨⟨[1,2,3],3⟩,?_,⟨[1,2,3],3⟩,⟨"End of data"⟩,?_⟩
    · simp [MemorySource.source,MemorySource.nextChunk,MemorySource.new]
    · simp [MemorySource.source,MemorySource.nextChunk]
  · rw [memory_delivered_iff [1,2,3] (by decide)]
    decide

end Reading

end MediaStreamImpl

end OpenBroadcast.Media
