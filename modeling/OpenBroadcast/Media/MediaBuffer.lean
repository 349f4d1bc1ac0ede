import OpenBroadcast.Framework.Boxes
import OpenBroadcast.Framework.Overflow

namespace OpenBroadcast.Media

structure BufferConfig where
  maxSize : Nat

structure BufferError where
  message : String

def BufferError.toString (e : BufferError) : String := "Buffer error: "++e.message

/-- A buffer for media data. Its counters are `usize` of `w` bits. -/
structure MediaBuffer (w : Nat) where
  data : Bytes
  config : BufferConfig
  startTime : Option Nat
  position : BitVec w
  totalBytes : BitVec w

namespace MediaBuffer

variable {w : Nat}

def new (config : BufferConfig) : MediaBuffer w := ⟨[],config,none,0,0⟩

def size (b : MediaBuffer w) : Nat := b.data.length

/-- Neither the buffer nor what is pushed has more bytes than an `isize` counts, so that the sum of
their sizes is a `usize`. -/
def push (o : Overflow) (b : MediaBuffer w) (data : Bytes) (now : Nat) :
    Option (MediaBuffer w × Except BufferError Unit) :=
  if b.config.maxSize < b.size+data.length then some (b,.error ⟨"Buffer full"⟩)
  else do
    let totalBytes ← o.addUsize b.totalBytes data.length
    return ({ b with
      data := b.data++data
      startTime := some (b.startTime.getD now)
      totalBytes },.ok ())

def pop (o : Overflow) (b : MediaBuffer w) (size : Nat) :
    Option (MediaBuffer w × Except BufferError Bytes) :=
  if b.data.length < size then some (b,.error ⟨"Not enough data in buffer"⟩)
  else do
    let result := b.data.take size
    let position ← o.addUsize b.position result.length
    return ({ b with data := b.data.drop size, position },.ok result)

section Calls

variable {o : Overflow} {b : MediaBuffer w}

/-- The outcomes of a push. -/
theorem push_cases (o : Overflow) (b : MediaBuffer w) (data : Bytes) (now : Nat) :
    (b.config.maxSize < b.size+data.length ∧ ∃ e, b.push o data now = some (b,.error e)) ∨
    (b.push o data now = none ∧ o = .panics ∧ 2^w ≤ b.totalBytes.toNat+data.length) ∨
    (b.size+data.length ≤ b.config.maxSize ∧
      (o = .panics → b.totalBytes.toNat+data.length < 2^w) ∧
      b.push o data now = some ({ b with
        data := b.data++data
        startTime := some (b.startTime.getD now)
        totalBytes := b.totalBytes+.ofNat w data.length },.ok ())) := by
  unfold push
  split_ifs with hfull
  · exact .inl ⟨hfull,_,rfl⟩
  · cases hsum : o.addUsize b.totalBytes data.length with
    | none => exact .inr (.inl ⟨rfl,Overflow.addUsize_eq_none hsum⟩)
    | some totalBytes =>
      obtain ⟨rfl,hfits⟩ := Overflow.addUsize_eq_some hsum
      exact .inr (.inr ⟨by omega,hfits,rfl⟩)

/-- The outcomes of a pop. -/
theorem pop_cases (o : Overflow) (b : MediaBuffer w) (size : Nat) :
    (b.size < size ∧ ∃ e, b.pop o size = some (b,.error e)) ∨
    (size ≤ b.size ∧ b.pop o size = none ∧ o = .panics ∧ 2^w ≤ b.position.toNat+size) ∨
    (size ≤ b.size ∧
      b.pop o size = some ({ b with
        data := b.data.drop size
        position := b.position+.ofNat w size },.ok (b.data.take size))) := by
  unfold pop
  split_ifs with hshort
  · exact .inl ⟨hshort,_,rfl⟩
  · have hsize : size ≤ b.data.length := by omega
    dsimp only
    rw [List.length_take_of_le hsize]
    cases hsum : o.addUsize b.position size with
    | none => exact .inr (.inl ⟨hsize,rfl,Overflow.addUsize_eq_none hsum⟩)
    | some position =>
      obtain ⟨rfl,_⟩ := Overflow.addUsize_eq_some hsum
      exact .inr (.inr ⟨hsize,rfl⟩)

theorem eq_of_push_error {b' : MediaBuffer w} {data : Bytes} {now : Nat} {e : BufferError}
    (h : b.push o data now = some (b',.error e)) : b' = b := by
  obtain ⟨_,e',he⟩ | ⟨hpanic,_⟩ | ⟨_,_,hok⟩ := b.push_cases o data now
  · rw [he] at h
    cases h
    rfl
  · rw [hpanic] at h
    cases h
  · rw [hok] at h
    cases h

theorem eq_of_pop_error {b' : MediaBuffer w} {size : Nat} {e : BufferError}
    (h : b.pop o size = some (b',.error e)) : b' = b := by
  obtain ⟨_,e',he⟩ | ⟨_,hpanic,_⟩ | ⟨_,hok⟩ := b.pop_cases o size
  · rw [he] at h
    cases h
    rfl
  · rw [hpanic] at h
    cases h
  · rw [hok] at h
    cases h

end Calls

end MediaBuffer

inductive BufferOp where
  | push (data : Bytes) (now : Nat)
  | pop (size : Nat)

/-- How much an operation adds to a counter. -/
def BufferOp.length : BufferOp → Nat
  | .push data _ => data.length
  | .pop _ => 0

/-- A buffer, with all that has been pushed and all that has been popped. -/
structure Transfer (w : Nat) where
  buffer : MediaBuffer w
  pushed : Bytes
  popped : Bytes

namespace Transfer

variable {w : Nat} {o : Overflow} {config : BufferConfig} {t t' : Transfer w}

def start (config : BufferConfig) : Transfer w := ⟨.new config,[],[]⟩

def step (o : Overflow) (t : Transfer w) : BufferOp → Option (Transfer w)
  | .push data now => do
    let (buffer,result) ← t.buffer.push o data now
    match result with
    | .ok () => return { t with buffer, pushed := t.pushed++data }
    | .error _ => return { t with buffer }
  | .pop size => do
    let (buffer,result) ← t.buffer.pop o size
    match result with
    | .ok data => return { t with buffer, popped := t.popped++data }
    | .error _ => return { t with buffer }

/-- What has been pushed has been popped or is in the buffer, and each counter has counted its
bytes, without a wrap where that would have been a panic. -/
structure Conserved (o : Overflow) (config : BufferConfig) (t : Transfer w) : Prop where
  configured : t.buffer.config = config
  fifo : t.pushed = t.popped++t.buffer.data
  bounded : t.buffer.size ≤ config.maxSize
  position : t.buffer.position = .ofNat w t.popped.length
  totalBytes : t.buffer.totalBytes = .ofNat w t.pushed.length
  counted : o = .panics → t.pushed.length < 2^w

theorem conserved_start (o : Overflow) (config : BufferConfig) :
    (start config : Transfer w).Conserved o config :=
  ⟨rfl,rfl,Nat.zero_le _,rfl,rfl,fun _ => Nat.two_pow_pos w⟩

/-- What an operation does: it is refused, or bytes go in, or bytes come out, unless the counter
overflows. -/
theorem step_cases (o : Overflow) (t : Transfer w) (op : BufferOp) :
    t.step o op = some t ∨
    (t.step o op = none ∧ o = .panics ∧ (2^w ≤ t.buffer.totalBytes.toNat+op.length ∨
      ∃ size, size ≤ t.buffer.size ∧ 2^w ≤ t.buffer.position.toNat+size)) ∨
    (∃ data start, t.buffer.size+data.length ≤ t.buffer.config.maxSize ∧
      (o = .panics → t.buffer.totalBytes.toNat+data.length < 2^w) ∧
      t.step o op = some { t with
        buffer := { t.buffer with
          data := t.buffer.data++data
          startTime := start
          totalBytes := t.buffer.totalBytes+.ofNat w data.length }
        pushed := t.pushed++data }) ∨
    (∃ size, size ≤ t.buffer.size ∧ t.step o op = some { t with
      buffer := { t.buffer with
        data := t.buffer.data.drop size
        position := t.buffer.position+.ofNat w size }
      popped := t.popped++t.buffer.data.take size }) := by
  cases op with
  | push data now =>
    simp only [Transfer.step]
    obtain ⟨_,e,he⟩ | ⟨hnone,hpanics,hover⟩ | ⟨hroom,hfits,hok⟩ := t.buffer.push_cases o data now
    · rw [he]
      exact .inl rfl
    · rw [hnone]
      exact .inr (.inl ⟨rfl,hpanics,.inl hover⟩)
    · rw [hok]
      exact .inr (.inr (.inl ⟨data,_,hroom,hfits,rfl⟩))
  | pop size =>
    simp only [Transfer.step]
    obtain ⟨_,e,he⟩ | ⟨hsize,hnone,hpanics,hover⟩ | ⟨hsize,hok⟩ := t.buffer.pop_cases o size
    · rw [he]
      exact .inl rfl
    · rw [hnone]
      exact .inr (.inl ⟨rfl,hpanics,.inr ⟨size,hsize,hover⟩⟩)
    · rw [hok]
      exact .inr (.inr (.inr ⟨size,hsize,rfl⟩))

theorem Conserved.push (h : t.Conserved o config) {data : Bytes} (start : Option Nat)
    (hroom : t.buffer.size+data.length ≤ t.buffer.config.maxSize)
    (hfits : o = .panics → t.buffer.totalBytes.toNat+data.length < 2^w) :
    Conserved o config { t with
      buffer := { t.buffer with
        data := t.buffer.data++data
        startTime := start
        totalBytes := t.buffer.totalBytes+.ofNat w data.length }
      pushed := t.pushed++data } := by
  refine ⟨h.configured,?_,?_,h.position,?_,?_⟩
  · simp [h.fifo]
  · rw [h.configured] at hroom
    simpa [MediaBuffer.size] using hroom
  · simp [h.totalBytes,BitVec.ofNat_add]
  · intro hpanics
    have hfits := hfits hpanics
    rw [h.totalBytes,BitVec.toNat_ofNat,Nat.mod_eq_of_lt (h.counted hpanics)] at hfits
    simpa using hfits

theorem Conserved.pop (h : t.Conserved o config) {size : Nat} (hsize : size ≤ t.buffer.size) :
    Conserved o config { t with
      buffer := { t.buffer with
        data := t.buffer.data.drop size
        position := t.buffer.position+.ofNat w size }
      popped := t.popped++t.buffer.data.take size } := by
  have hlength : (t.buffer.data.take size).length = size := List.length_take_of_le hsize
  refine ⟨h.configured,?_,?_,?_,h.totalBytes,h.counted⟩
  · simp [h.fifo]
  · have hbounded := h.bounded
    simp only [MediaBuffer.size,List.length_drop] at hbounded ⊢
    omega
  · rw [List.length_append,hlength,BitVec.ofNat_add,← h.position]

theorem Conserved.step (h : t.Conserved o config) {op : BufferOp} (hstep : t.step o op = some t') :
    t'.Conserved o config := by
  obtain hsame | ⟨hnone,_⟩ | ⟨data,start,hroom,hfits,hpush⟩ | ⟨size,hsize,hpop⟩ := t.step_cases o op
  · rw [hsame] at hstep
    cases hstep
    exact h
  · rw [hnone] at hstep
    cases hstep
  · rw [hpush] at hstep
    cases hstep
    exact h.push start hroom hfits
  · rw [hpop] at hstep
    cases hstep
    exact h.pop hsize

theorem Conserved.run (h : t.Conserved o config) {ops : List BufferOp}
    (hrun : ops.foldlM (Transfer.step o) t = some t') : t'.Conserved o config := by
  induction ops generalizing t with
  | nil =>
    cases hrun
    exact h
  | cons op ops ih =>
    rw [List.foldlM_cons,Option.bind_eq_bind,Option.bind_eq_some_iff] at hrun
    obtain ⟨next,hstep,hrest⟩ := hrun
    exact ih (h.step hstep) hrest

theorem Conserved.length_pushed (h : t.Conserved o config) :
    t.pushed.length = t.popped.length+t.buffer.size := by
  rw [h.fifo,List.length_append]
  rfl

theorem Conserved.position_add (h : t.Conserved o config) :
    t.buffer.position+.ofNat w t.buffer.size = t.buffer.totalBytes := by
  rw [h.position,h.totalBytes,h.fifo,List.length_append,BitVec.ofNat_add]
  rfl

/-- As long as the counters have room, they are numbers of bytes. -/
theorem Conserved.toNat_position_add (h : t.Conserved o config) (hroom : t.pushed.length < 2^w) :
    t.buffer.position.toNat+t.buffer.size = t.buffer.totalBytes.toNat := by
  have hlength := h.length_pushed
  rw [h.position,h.totalBytes,BitVec.toNat_ofNat,BitVec.toNat_ofNat,Nat.mod_eq_of_lt hroom,
    Nat.mod_eq_of_lt (by omega)]
  exact hlength.symm

/-- Only a counter that overflows panics, so that as many bytes have been pushed. -/
theorem Conserved.panics (h : t.Conserved o config) {op : BufferOp} (hstep : t.step o op = none) :
    o = .panics ∧ 2^w ≤ t.pushed.length+op.length := by
  obtain hsame | ⟨_,hpanics,hover⟩ | ⟨_,_,_,_,hpush⟩ | ⟨_,_,hpop⟩ := t.step_cases o op
  · rw [hsame] at hstep
    cases hstep
  · refine ⟨hpanics,?_⟩
    obtain hover | ⟨size,hsize,hover⟩ := hover
    · have hmod := Nat.mod_le t.pushed.length (2^w)
      rw [h.totalBytes,BitVec.toNat_ofNat] at hover
      omega
    · have hlength := h.length_pushed
      have hmod := Nat.mod_le t.popped.length (2^w)
      rw [h.position,BitVec.toNat_ofNat] at hover
      omega
  · rw [hpush] at hstep
    cases hstep
  · rw [hpop] at hstep
    cases hstep

/-- Whatever is called, bytes come out as they went in, there are no more of them than the buffer
may have, and the position is short of the total by its size. -/
theorem bounded_fifo (o : Overflow) (config : BufferConfig) (ops : List BufferOp)
    (hrun : ops.foldlM (step o) (start config : Transfer w) = some t) :
    t.pushed = t.popped++t.buffer.data ∧
    t.buffer.size ≤ config.maxSize ∧
    t.buffer.position+.ofNat w t.buffer.size = t.buffer.totalBytes ∧
    (o = .panics ∨ t.pushed.length < 2^w →
      t.buffer.position.toNat+t.buffer.size = t.buffer.totalBytes.toNat) ∧
    (∀ data now b e, t.buffer.push o data now = some (b,.error e) → b = t.buffer) ∧
    (∀ size b e, t.buffer.pop o size = some (b,.error e) → b = t.buffer) ∧
    ∀ op, t.step o op = none → o = .panics ∧ 2^w ≤ t.pushed.length+op.length := by
  have h : t.Conserved o config := (conserved_start o config).run hrun
  refine ⟨h.fifo,h.bounded,h.position_add,?_,?_,?_,fun op => h.panics⟩
  · exact fun hroom => h.toNat_position_add (hroom.elim h.counted id)
  · exact fun data now b e => MediaBuffer.eq_of_push_error
  · exact fun size b e => MediaBuffer.eq_of_pop_error

/-- A push, a pop of a part of it, and a push and a pop that are refused. -/
theorem bounded_fifo_refused :
    let t : Transfer 64 := ⟨⟨[3],⟨4⟩,some 0,2,3⟩,[1,2,3],[1,2]⟩
    t.pushed = t.popped++t.buffer.data ∧
    t.buffer.size ≤ 4 ∧
    t.buffer.position+.ofNat 64 t.buffer.size = t.buffer.totalBytes ∧
    (.panics = Overflow.panics ∨ t.pushed.length < 2^64 →
      t.buffer.position.toNat+t.buffer.size = t.buffer.totalBytes.toNat) ∧
    (∀ data now b e, t.buffer.push .panics data now = some (b,.error e) → b = t.buffer) ∧
    (∀ size b e, t.buffer.pop .panics size = some (b,.error e) → b = t.buffer) ∧
    ∀ op, t.step .panics op = none → .panics = Overflow.panics ∧ 2^64 ≤ t.pushed.length+op.length :=
  bounded_fifo .panics ⟨4⟩ [.push [1,2,3] 0,.push [4,5] 1,.pop 2,.pop 2] rfl

end Transfer

end OpenBroadcast.Media
