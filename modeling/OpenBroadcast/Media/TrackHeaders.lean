import OpenBroadcast.Media.TrackHandlers

namespace OpenBroadcast.Media

open RawBox

section Layout

/-- The version of a header box decides how wide its times are. -/
inductive HeaderVersion where
  | v0
  | v1
  deriving DecidableEq, Repr

namespace HeaderVersion

def byte : HeaderVersion → UInt8
  | v0 => 0
  | v1 => 1

def width : HeaderVersion → Nat
  | v0 => 4
  | v1 => 8

end HeaderVersion

/-- A track header box by the standard. What is behind the duration is not looked at. -/
structure TrackHeader where
  version : HeaderVersion
  flags : Bytes
  creationTime : Nat
  modificationTime : Nat
  trackId : UInt32
  duration : Nat
  rest : Bytes
  flags_length : flags.length = 3
  modification_lt : modificationTime < 256^version.width

def TrackHeader.body (h : TrackHeader) : Bytes :=
  h.version.byte::h.flags++toBe h.version.width h.creationTime++
    toBe h.version.width h.modificationTime++toBe 4 h.trackId.toNat++toBe 4 0++
    toBe h.version.width h.duration++h.rest

/-- A media header box by the standard; behind the duration is the language. -/
structure MediaHeader where
  version : HeaderVersion
  flags : Bytes
  creationTime : Nat
  modificationTime : Nat
  timescale : UInt32
  duration : Nat
  rest : Bytes
  flags_length : flags.length = 3
  modification_lt : modificationTime < 256^version.width
  duration_lt : duration < 256^version.width

def MediaHeader.body (m : MediaHeader) : Bytes :=
  m.version.byte::m.flags++toBe m.version.width m.creationTime++
    toBe m.version.width m.modificationTime++toBe 4 m.timescale.toNat++
    toBe m.version.width m.duration++m.rest

theorem readU32_split {data pre mid post : Bytes} {n : Nat} (hdata : data = pre++mid++post)
    (hpre : pre.length = n) (hmid : mid.length = 4) : readU32 n data = .ofNat (beNat mid) := by
  rw [hdata,readU32,List.append_assoc,List.drop_left' hpre,List.take_left' hmid]

theorem toNat_ofNat_beNat {n : Nat} (h : n < 2^32) :
    (UInt32.ofNat (beNat (toBe 4 n))).toNat = n := by
  have hlt : n < 256^4 := h
  rw [beNat_toBe,Nat.mod_eq_of_lt hlt,UInt32.toNat_ofNat',Nat.mod_eq_of_lt h]

/-- A number of 64 bits is written as its two halves. -/
theorem toBe_halves (n : Nat) : toBe 8 n = toBe 4 (n/2^32)++toBe 4 (n%2^32) := by
  have hlow : toBe 4 n = toBe 4 (n%2^32) := by
    have hleft := toBe_beNat (toBe 4 n)
    have hright := toBe_beNat (toBe 4 (n%2^32))
    have hmod : n%2^32%256^4 = n%256^4 := by omega
    rw [length_toBe,beNat_toBe] at hleft hright
    rw [← hleft,← hright,hmod]
  rw [← hlow]
  exact toBe_add 4 4 n

/-- The bytes that the parser takes for the track id: in version 1, the upper half of the time of
the last change. -/
def TrackHeader.readId (h : TrackHeader) : UInt32 :=
  match h.version with
  | .v0 => h.trackId
  | .v1 => .ofNat (h.modificationTime/2^32)

theorem TrackHeader.readU32_body (h : TrackHeader) : readU32 12 h.body = h.readId := by
  have hflags := h.flags_length
  have hlt := h.modification_lt
  unfold readId
  cases hv : h.version with
  | v0 =>
    have hsplit : h.body = (HeaderVersion.v0.byte::h.flags++toBe 4 h.creationTime++
        toBe 4 h.modificationTime)++toBe 4 h.trackId.toNat++
        (toBe 4 0++toBe 4 h.duration++h.rest) := by
      simp [body,hv,HeaderVersion.width]
    rw [readU32_split hsplit (by simp [hflags]) (length_toBe 4 _)]
    apply UInt32.toNat_inj.mp
    exact toNat_ofNat_beNat h.trackId.toNat_lt
  | v1 =>
    have hsplit : h.body = (HeaderVersion.v1.byte::h.flags++toBe 8 h.creationTime)++
        toBe 4 (h.modificationTime/2^32)++(toBe 4 (h.modificationTime%2^32)++
          toBe 4 h.trackId.toNat++toBe 4 0++toBe 8 h.duration++h.rest) := by
      simp [body,hv,HeaderVersion.width,toBe_halves h.modificationTime]
    have hhalf : h.modificationTime/2^32 < 256^4 := by
      rw [hv] at hlt
      have : h.modificationTime < 256^8 := hlt
      omega
    rw [readU32_split hsplit (by simp [hflags]) (length_toBe 4 _),beNat_toBe,
      Nat.mod_eq_of_lt hhalf]

theorem TrackHeader.length_body (h : TrackHeader) : 16 ≤ h.body.length := by
  have hflags := h.flags_length
  unfold body
  cases h.version <;> simp [HeaderVersion.width,hflags] <;> omega

/-- The bytes that the parser takes for the timescale and the duration. -/
def MediaHeader.readTimes (m : MediaHeader) : Nat × Nat :=
  match m.version with
  | .v0 => (m.timescale.toNat,m.duration)
  | .v1 => (m.modificationTime/2^32,m.modificationTime%2^32)

theorem MediaHeader.readU32_body (m : MediaHeader) :
    ((readU32 12 m.body).toNat,(readU32 16 m.body).toNat) = m.readTimes := by
  have hflags := m.flags_length
  have hmodification := m.modification_lt
  have hduration := m.duration_lt
  unfold readTimes
  cases hv : m.version with
  | v0 =>
    have hfirst : m.body = (HeaderVersion.v0.byte::m.flags++toBe 4 m.creationTime++
        toBe 4 m.modificationTime)++toBe 4 m.timescale.toNat++(toBe 4 m.duration++m.rest) := by
      simp [body,hv,HeaderVersion.width]
    have hsecond : m.body = (HeaderVersion.v0.byte::m.flags++toBe 4 m.creationTime++
        toBe 4 m.modificationTime++toBe 4 m.timescale.toNat)++toBe 4 m.duration++m.rest := by
      simp [body,hv,HeaderVersion.width]
    rw [hv] at hduration
    rw [readU32_split hfirst (by simp [hflags]) (length_toBe 4 _),
      readU32_split hsecond (by simp [hflags]) (length_toBe 4 _),
      toNat_ofNat_beNat m.timescale.toNat_lt,toNat_ofNat_beNat hduration]
  | v1 =>
    have hfirst : m.body = (HeaderVersion.v1.byte::m.flags++toBe 8 m.creationTime)++
        toBe 4 (m.modificationTime/2^32)++(toBe 4 (m.modificationTime%2^32)++
          toBe 4 m.timescale.toNat++toBe 8 m.duration++m.rest) := by
      simp [body,hv,HeaderVersion.width,toBe_halves m.modificationTime]
    have hsecond : m.body = (HeaderVersion.v1.byte::m.flags++toBe 8 m.creationTime++
        toBe 4 (m.modificationTime/2^32))++toBe 4 (m.modificationTime%2^32)++
          (toBe 4 m.timescale.toNat++toBe 8 m.duration++m.rest) := by
      simp [body,hv,HeaderVersion.width,toBe_halves m.modificationTime]
    have hhalf : m.modificationTime/2^32 < 2^32 := by
      rw [hv] at hmodification
      have : m.modificationTime < 256^8 := hmodification
      omega
    rw [readU32_split hfirst (by simp [hflags]) (length_toBe 4 _),
      readU32_split hsecond (by simp [hflags]) (length_toBe 4 _),toNat_ofNat_beNat hhalf,
      toNat_ofNat_beNat (Nat.mod_lt _ (by decide))]

theorem MediaHeader.length_body (m : MediaHeader) : 20 ≤ m.body.length := by
  have hflags := m.flags_length
  unfold body
  cases m.version <;> simp [HeaderVersion.width,hflags] <;> omega

end Layout

section Loops

variable {bs : List RawBox}

/-- A part of the result that only boxes of one kind change, where there is one of them. -/
theorem foldl_of_unique {τ : Type} {next : τ → RawBox → τ} {kind body : Bytes}
    (hother : ∀ t b, b.kind ≠ kind → next t b = t)
    (hone : bs.filter (fun b => b.kind == kind) = [⟨kind,body⟩]) (t : τ) :
    bs.foldl next t = next t ⟨kind,body⟩ := by
  have hfalse : ∀ t b, (b.kind == kind) = false → next t b = t := by
    intro t b hb
    exact hother t b (by simpa using hb)
  rw [foldl_of_filter hfalse,hone]
  rfl

theorem fromUtf8Lossy_ne_empty {b : Bytes} (h : b ≠ []) : fromUtf8Lossy b ≠ "" := by
  cases b with
  | nil => exact absurd rfl h
  | cons a rest =>
    intro hempty
    have hlist := congrArg String.toList hempty
    unfold fromUtf8Lossy at hlist
    rw [String.toList_ofList] at hlist
    simp [lossyChars] at hlist

theorem mdiaAct_times (s : MdiaState) (b : RawBox) (s' : MdiaState)
    (h : mdiaAct s b.kind b.body = .ok s') :
    (s'.timescale,s'.duration) = if b.kind = tagMdhd ∧ 20 ≤ b.body.length then
      ((readU32 12 b.body).toNat,(readU32 16 b.body).toNat) else (s.timescale,s.duration) := by
  unfold mdiaAct at h
  split_ifs at h with hmdhd hsmall
  · cases h
    rw [if_neg (by omega)]
  · cases h
    rw [if_pos ⟨hmdhd,by omega⟩]
  · cases h
    rw [if_neg (fun hand => hmdhd hand.1)]
  · cases h
    rw [if_neg (fun hand => hmdhd hand.1)]
  · obtain ⟨r,_,h⟩ := bind_eq_ok.mp h
    cases h
    rw [if_neg (fun hand => hmdhd hand.1)]
  · cases h
    rw [if_neg (fun hand => hmdhd hand.1)]

theorem mdiaAct_handler (s : MdiaState) (b : RawBox) (s' : MdiaState)
    (h : mdiaAct s b.kind b.body = .ok s') :
    s'.mediaType = if b.kind = tagHdlr ∧ 12 ≤ b.body.length then
      fromUtf8Lossy ((b.body.drop 8).take 4) else s.mediaType := by
  have hne : tagMdhd ≠ tagHdlr := by decide
  unfold mdiaAct at h
  by_cases hmdhd : b.kind = tagMdhd
  · have hno : ¬ (b.kind = tagHdlr ∧ 12 ≤ b.body.length) :=
      fun hand => hne (hmdhd.symm.trans hand.1)
    rw [if_pos hmdhd] at h
    rw [if_neg hno]
    split_ifs at h <;> cases h <;> rfl
  rw [if_neg hmdhd] at h
  split_ifs at h with hhdlr hsmall
  · cases h
    rw [if_neg (by omega)]
  · cases h
    rw [if_pos ⟨hhdlr,by omega⟩]
  · obtain ⟨r,_,h⟩ := bind_eq_ok.mp h
    cases h
    rw [if_neg (fun hand => hhdlr hand.1)]
  · cases h
    rw [if_neg (fun hand => hhdlr hand.1)]

theorem trakAct_trackId (s : TrakState) (b : RawBox) (s' : TrakState)
    (h : trakAct s b.kind b.body = .ok s') :
    s'.trackId = if b.kind = tagTkhd ∧ 16 ≤ b.body.length then readU32 12 b.body
      else s.trackId := by
  unfold trakAct at h
  split_ifs at h with htkhd hsmall
  · cases h
    rw [if_neg (by omega)]
  · cases h
    rw [if_pos ⟨htkhd,by omega⟩]
  · obtain ⟨r,_,h⟩ := bind_eq_ok.mp h
    cases h
    rw [if_neg (fun hand => htkhd hand.1)]
  · cases h
    rw [if_neg (fun hand => htkhd hand.1)]

/-- Without an `mdia`, what is known of the media stays. -/
theorem trakAct_mdia_other {s s' : TrakState} {b : RawBox} (hb : b.kind ≠ tagMdia)
    (h : trakAct s b.kind b.body = .ok s') : s'.mdia = s.mdia := by
  unfold trakAct at h
  rw [if_neg hb] at h
  split_ifs at h <;> cases h <;> rfl

theorem foldlM_trakAct_mdia_other {s s' : TrakState} (hbs : ∀ b ∈ bs, b.kind ≠ tagMdia)
    (h : bs.foldlM (fun s b => trakAct s b.kind b.body) s = .ok s') : s'.mdia = s.mdia := by
  induction bs generalizing s with
  | nil =>
    cases h
    rfl
  | cons b bs ih =>
    rw [List.foldlM_cons,bind_eq_ok] at h
    obtain ⟨s₁,h₁,h⟩ := h
    rw [ih (fun c hc => hbs c (List.mem_cons_of_mem _ hc)) h,
      trakAct_mdia_other (hbs b List.mem_cons_self) h₁]

/-- The one `mdia` gives what is known of the media. -/
theorem foldlM_trakAct_mdia {s s' : TrakState} {body : Bytes}
    (hone : bs.filter (fun b => b.kind == tagMdia) = [⟨tagMdia,body⟩])
    (h : bs.foldlM (fun s b => trakAct s b.kind b.body) s = .ok s') :
    ∃ pending, parseMdiaBox body pending = .ok s'.mdia := by
  obtain ⟨pre,post,rfl,_,hpost⟩ := split_of_unique hone
  rw [List.foldlM_append,bind_eq_ok] at h
  obtain ⟨s₁,_,h⟩ := h
  rw [List.foldlM_cons,bind_eq_ok] at h
  obtain ⟨s₂,h₂,h⟩ := h
  have hne : tagMdia ≠ tagTkhd := by decide
  unfold trakAct at h₂
  rw [if_neg hne,if_pos rfl] at h₂
  obtain ⟨mdia,hmdia,h₂⟩ := bind_eq_ok.mp h₂
  cases h₂
  rw [foldlM_trakAct_mdia_other hpost h]
  exact ⟨_,hmdia⟩

end Loops

section Extraction

/-- The bytes that the track id is taken from while tracks are filtered are those of the first
`tkhd`, if all of these boxes are long enough. -/
theorem extractTrackIdFromTrak_encode {bs : List RawBox} (h : ∀ b ∈ bs, b.Fits)
    (hlong : ∀ b ∈ bs, b.kind = tagTkhd → 16 ≤ b.body.length) {trak : Bytes}
    (htrak : trak.drop 8 = encodeAll bs) :
    extractTrackIdFromTrak trak =
      (bs.filter (fun b => b.kind == tagTkhd)).head?.map (fun b => readU32 12 b.body) := by
  have hsearch := findSome?_boxesIn h
    (f := fun b => if b.kind = tagTkhd ∧ 24 ≤ b.rest.length then some (readU32 20 b.rest) else none)
    (g := fun b => if b.kind = tagTkhd then some (readU32 12 b.body) else none)
  unfold extractTrackIdFromTrak
  rw [htrak,hsearch]
  · clear hsearch htrak h hlong
    induction bs with
    | nil => rfl
    | cons b bs ih =>
      rw [List.findSome?_cons]
      by_cases hkind : b.kind = tagTkhd
      · rw [if_pos hkind,List.filter_cons_of_pos (by simpa using hkind)]
        rfl
      · rw [if_neg hkind,List.filter_cons_of_neg (by simpa using hkind)]
        exact ih
  · intro b hb rest
    dsimp only
    by_cases hkind : b.kind = tagTkhd
    · have h16 := hlong b hb hkind
      have hlength : 24 ≤ (b.encode++rest).length := by
        rw [List.length_append,(h b hb).length_encode,RawBox.size]
        omega
      have hread : readU32 20 (b.encode++rest) = readU32 12 b.body :=
        congrArg (fun field => UInt32.ofNat (beNat field))
          (field_encode (h b hb) (i := 12) (n := 4) (by omega) rest)
      rw [if_pos ⟨hkind,hlength⟩,if_pos hkind,hread]
    · rw [if_neg (fun hand => hkind hand.1),if_neg hkind]

end Extraction

section Headers

/-- A `trak` with one `tkhd` and one `mdia`, in which there are one `mdhd` and one `hdlr`. -/
structure HeadedTrak where
  header : TrackHeader
  mediaHeader : MediaHeader
  handler : Bytes
  boxes : List RawBox
  media : List RawBox
  fits : ∀ b ∈ boxes, b.Fits
  media_fits : ∀ b ∈ media, b.Fits
  tkhd : boxes.filter (fun b => b.kind == tagTkhd) = [⟨tagTkhd,header.body⟩]
  mdia : boxes.filter (fun b => b.kind == tagMdia) = [⟨tagMdia,encodeAll media⟩]
  mdhd : media.filter (fun b => b.kind == tagMdhd) = [⟨tagMdhd,mediaHeader.body⟩]
  hdlr : media.filter (fun b => b.kind == tagHdlr) = [⟨tagHdlr,handler⟩]
  handler_length : 12 ≤ handler.length

namespace HeadedTrak

variable (t : HeadedTrak)

def content : Bytes := encodeAll t.boxes

/-- What the parser and the filter of tracks find out is what the headers say. -/
structure HeadersRecorded : Prop where
  parsed : ∃ track pending, parseTrakBox t.content = .ok (some track,pending) ∧
    track.trackId = t.header.trackId ∧ track.timescale = t.mediaHeader.timescale.toNat ∧
    track.duration = t.mediaHeader.duration
  extracted : extractTrackIdFromTrak (RawBox.mk tagTrak t.content).encode = some t.header.trackId

theorem extracted_eq :
    extractTrackIdFromTrak (RawBox.mk tagTrak t.content).encode = some t.header.readId := by
  have hlong : ∀ b ∈ t.boxes, b.kind = tagTkhd → 16 ≤ b.body.length := by
    intro b hb hkind
    rw [kind_of_unique t.tkhd hb hkind]
    exact t.header.length_body
  have hcontent : (RawBox.mk tagTrak t.content).encode.drop 8 = encodeAll t.boxes :=
    drop_header_encode rfl
  rw [extractTrackIdFromTrak_encode t.fits hlong hcontent,t.tkhd,List.head?_cons,Option.map_some,
    t.header.readU32_body]

theorem children_content (s : TrakState) :
    children trakStep t.content s = t.boxes.foldlM (fun s b => trakAct s b.kind b.body) s := by
  apply trakStep_acts.children_encodeAll t.fits
  intro b hb
  unfold trakSkip
  apply if_neg
  intro hsmall
  have hlength := t.header.length_body
  rw [kind_of_unique t.tkhd hb hsmall.1] at hsmall
  have h16 : t.header.body.length < 16 := hsmall.2.2
  omega

/-- What the loop over the boxes of the media has found. -/
theorem media_read {pending : Option SampleTable} {s : MdiaState}
    (h : parseMdiaBox (encodeAll t.media) pending = .ok s) :
    (s.timescale,s.duration) = t.mediaHeader.readTimes ∧ s.mediaType ≠ "" := by
  have hlength := t.mediaHeader.length_body
  unfold parseMdiaBox at h
  rw [mdiaStep_acts.children_encodeAll t.media_fits (fun _ _ => rfl)] at h
  have htimes := foldlM_view (fun s : MdiaState => (s.timescale,s.duration))
    (fun times b => if b.kind = tagMdhd ∧ 20 ≤ b.body.length then
      ((readU32 12 b.body).toNat,(readU32 16 b.body).toNat) else times) mdiaAct_times h
  have htype := foldlM_view MdiaState.mediaType
    (fun mediaType b => if b.kind = tagHdlr ∧ 12 ≤ b.body.length then
      fromUtf8Lossy ((b.body.drop 8).take 4) else mediaType) mdiaAct_handler h
  rw [foldl_of_unique (fun _ _ hb => if_neg (fun hand => hb hand.1)) t.mdhd,
    if_pos ⟨rfl,hlength⟩] at htimes
  rw [foldl_of_unique (fun _ _ hb => if_neg (fun hand => hb hand.1)) t.hdlr,
    if_pos ⟨rfl,t.handler_length⟩] at htype
  constructor
  · rw [htimes]
    exact t.mediaHeader.readU32_body
  · rw [htype]
    apply fromUtf8Lossy_ne_empty
    intro hnil
    have hempty : ((t.handler.drop 8).take 4).length = 0 := congrArg List.length hnil
    have hlong := t.handler_length
    rw [List.length_take,List.length_drop] at hempty
    omega

/-- What the loop over the boxes of the track has found. -/
theorem boxes_read {s₀ s : TrakState} (h : children trakStep t.content s₀ = .ok s) :
    s.trackId = t.header.readId ∧
      (s.mdia.timescale,s.mdia.duration) = t.mediaHeader.readTimes ∧ s.mdia.mediaType ≠ "" := by
  have hlength := t.header.length_body
  rw [t.children_content] at h
  have hid := foldlM_view TrakState.trackId
    (fun id b => if b.kind = tagTkhd ∧ 16 ≤ b.body.length then readU32 12 b.body else id)
    trakAct_trackId h
  rw [foldl_of_unique (fun _ _ hb => if_neg (fun hand => hb hand.1)) t.tkhd,
    if_pos ⟨rfl,hlength⟩,t.header.readU32_body] at hid
  obtain ⟨pending,hmdia⟩ := foldlM_trakAct_mdia t.mdia h
  exact ⟨hid,t.media_read hmdia⟩

/-- The parser finds a track, unless it reads the id 0. -/
theorem parseTrakBox_read (hsafe : SafeTrak t.content) :
    ∃ track pending, parseTrakBox t.content = .ok (track,pending) ∧
      (track = none ↔ t.header.readId = 0) ∧ ∀ p, track = some p →
        p.trackId = t.header.readId ∧ (p.timescale,p.duration) = t.mediaHeader.readTimes := by
  have hno : parseTrakBox t.content ≠ .error .panic :=
    (not_iff_returns parseTrakBox_panics_iff).mpr hsafe
  have honly : OnlyPanics (parseTrakBox t.content) := onlyPanics_parseTrakBox
  unfold parseTrakBox at hno honly ⊢
  cases hs : children trakStep t.content ⟨0,.default none⟩ with
  | error e =>
    rw [hs] at hno honly
    cases e with
    | io message => exact absurd rfl (honly message)
    | panic => exact absurd rfl hno
  | ok s =>
    obtain ⟨hid,htimes,htype⟩ := t.boxes_read hs
    dsimp only [bind,Except.bind]
    by_cases hzero : t.header.readId = 0
    · have hcond : ¬ (0 < s.trackId ∧ s.mdia.mediaType ≠ "") := by
        rw [hid,hzero]
        exact fun hand => absurd hand.1 (by decide)
      rw [if_neg hcond]
      exact ⟨none,_,rfl,by simp [hzero],by simp⟩
    · have hpos : 0 < s.trackId := by
        rw [hid]
        exact UInt32.pos_iff_ne_zero.mpr hzero
      rw [if_pos ⟨hpos,htype⟩]
      refine ⟨some _,_,rfl,by simp [hzero],?_⟩
      intro p hp
      cases hp
      exact ⟨hid,htimes⟩

/-- The headers of a track are recorded exactly if they are of version 0, or the bytes of the time
of the last change happen to be what is in the fields behind it. -/
theorem headersRecorded_iff :
    t.HeadersRecorded ↔ SafeTrak t.content ∧ t.header.trackId ≠ 0 ∧
      (t.header.version = .v1 →
        UInt32.ofNat (t.header.modificationTime/2^32) = t.header.trackId) ∧
      (t.mediaHeader.version = .v1 →
        t.mediaHeader.modificationTime/2^32 = t.mediaHeader.timescale.toNat ∧
        t.mediaHeader.modificationTime%2^32 = t.mediaHeader.duration) := by
  have hid : t.header.readId = t.header.trackId ↔ (t.header.version = .v1 →
      UInt32.ofNat (t.header.modificationTime/2^32) = t.header.trackId) := by
    unfold TrackHeader.readId
    cases t.header.version <;> simp
  have htimes : t.mediaHeader.readTimes =
      (t.mediaHeader.timescale.toNat,t.mediaHeader.duration) ↔ (t.mediaHeader.version = .v1 →
        t.mediaHeader.modificationTime/2^32 = t.mediaHeader.timescale.toNat ∧
        t.mediaHeader.modificationTime%2^32 = t.mediaHeader.duration) := by
    unfold MediaHeader.readTimes
    cases t.mediaHeader.version <;> simp
  rw [← hid,← htimes]
  constructor
  · intro h
    obtain ⟨track,pending,hparse,_,hscale,hduration⟩ := h.parsed
    have hsafe : SafeTrak t.content := by
      apply (not_iff_returns parseTrakBox_panics_iff).mp
      rw [hparse]
      intro heq
      cases heq
    have hextracted := h.extracted
    rw [t.extracted_eq] at hextracted
    have hread := Option.some.inj hextracted
    obtain ⟨track',pending',hparse',hnone,hsome⟩ := t.parseTrakBox_read hsafe
    rw [hparse] at hparse'
    cases hparse'
    have hzero : t.header.readId ≠ 0 := fun h0 => absurd (hnone.mpr h0) (by simp)
    refine ⟨hsafe,?_,hread,?_⟩
    · rwa [hread] at hzero
    · rw [← (hsome track rfl).2,hscale,hduration]
  · intro h
    obtain ⟨hsafe,hzero,hread,hfields⟩ := h
    obtain ⟨track,pending,hparse,hnone,hsome⟩ := t.parseTrakBox_read hsafe
    constructor
    · cases track with
      | none => exact absurd (hread.symm.trans (hnone.mp rfl)) hzero
      | some p =>
        obtain ⟨hid,htimes⟩ := hsome p rfl
        rw [hfields] at htimes
        obtain ⟨hscale,hduration⟩ := Prod.mk.inj htimes
        exact ⟨p,pending,hparse,hid.trans hread,hscale,hduration⟩
    · rw [t.extracted_eq,hread]

theorem trackFlags_length : ([0,0,7] : Bytes).length = 3 := rfl

theorem mediaFlags_length : ([0,0,0] : Bytes).length = 3 := rfl

/-- A track of pictures with headers of version 1, whose last change was in the year 2024. -/
def longTrak : HeadedTrak where
  header := ⟨.v1,[0,0,7],3786912000,3786912000,1,7200000,List.replicate 60 0,trackFlags_length,
    by decide⟩
  mediaHeader := ⟨.v1,[0,0,0],3786912000,3786912000,90000,648000000,[0x55,0xc4,0,0],
    mediaFlags_length,by decide,by decide⟩
  handler := List.replicate 8 0++tagVide++List.replicate 13 0
  boxes := [⟨tagTkhd,TrackHeader.body ⟨.v1,[0,0,7],3786912000,3786912000,1,7200000,
      List.replicate 60 0,trackFlags_length,by decide⟩⟩,
    ⟨tagMdia,encodeAll [⟨tagMdhd,MediaHeader.body ⟨.v1,[0,0,0],3786912000,3786912000,90000,
      648000000,[0x55,0xc4,0,0],mediaFlags_length,by decide,by decide⟩⟩,
      ⟨tagHdlr,List.replicate 8 0++tagVide++List.replicate 13 0⟩]⟩]
  media := [⟨tagMdhd,MediaHeader.body ⟨.v1,[0,0,0],3786912000,3786912000,90000,648000000,
    [0x55,0xc4,0,0],mediaFlags_length,by decide,by decide⟩⟩,⟨tagHdlr,List.replicate 8 0++tagVide++
      List.replicate 13 0⟩]
  fits := by
    intro b hb
    rcases List.mem_pair.mp hb with rfl | rfl <;> exact ⟨rfl,by decide⟩
  media_fits := by
    intro b hb
    rcases List.mem_pair.mp hb with rfl | rfl <;> exact ⟨rfl,by decide⟩
  tkhd := by decide
  mdia := by decide
  mdhd := by decide
  hdlr := by decide
  handler_length := WellFormedMoov.pictureHandler_length

/-- The id that is read is 0, so that the track is left out. -/
theorem longTrak_not_recorded : longTrak.header.trackId = 1 ∧
    parseTrakBox longTrak.content = .ok (none,none) ∧
    extractTrackIdFromTrak (RawBox.mk tagTrak longTrak.content).encode = some 0 ∧
    ¬ longTrak.HeadersRecorded := by
  have hextracted : extractTrackIdFromTrak (RawBox.mk tagTrak longTrak.content).encode = some 0 :=
    longTrak.extracted_eq
  refine ⟨rfl,by decide +kernel,hextracted,?_⟩
  intro h
  have hid := hextracted.symm.trans h.extracted
  revert hid
  decide

end HeadedTrak

end Headers

end OpenBroadcast.Media
