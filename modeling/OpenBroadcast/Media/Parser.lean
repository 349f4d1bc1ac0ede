import OpenBroadcast.Media.GopSegments
import OpenBroadcast.Media.MoovParser
import OpenBroadcast.Media.Segment

namespace OpenBroadcast.Media

/-- The parser with all that outlives a call. -/
structure ParserState where
  boxes : List Mp4Box
  tracks : List ParsedTrack
  isFragmented : Bool
  fmp4Converter : FragmentedMp4Converter
  mdatPayloadOffset : Nat
  pendingSampleTable : Option SampleTable
  deriving DecidableEq

namespace ParserState

def new : ParserState := ⟨[],[],false,.new,0,none⟩

variable (s : ParserState)

/-- The tracks after a box. -/
def boxTracks (b : Mp4Box) : Except Mp4Error MoovState :=
  if b.header.boxType = tagMoov then parseMoovBox ⟨s.tracks,s.pendingSampleTable⟩ b.content
  else .ok ⟨s.tracks,s.pendingSampleTable⟩

/-- What `parse` does with a box that has been read. -/
def addBox (b : Mp4Box) : Except Mp4Error ParserState := do
  let moov ← s.boxTracks b
  return { s with
    tracks := moov.tracks
    pendingSampleTable := moov.pending
    isFragmented := s.isFragmented || b.header.boxType == tagMoof
    mdatPayloadOffset :=
      if b.header.boxType = tagMdat then b.header.contentStart else s.mdatPayloadOffset
    boxes := s.boxes++[b] }

def parseFrom : Nat → Nat → Bytes → ParserState → Except Mp4Error ParserState
  | _,_,[],s => .ok s
  | 0,_,_,s => .ok s
  | n+1,start,data,s =>
    match parseBox start data with
    | .ok (b,rest) => do
      let s ← s.addBox b
      parseFrom n (start+b.header.size) rest s
    | .error (.io _) => .ok s
    | .error .panic => .error .panic

/-- Of what is left from an earlier call, the boxes and the tracks are cleared. -/
def cleared : ParserState := { s with boxes := [], tracks := [] }

def parse (data : Bytes) : Except Mp4Error ParserState := parseFrom data.length 0 data s.cleared

/-- What the two ways of generating segments look at. -/
def fragmented : Mp4Parser := ⟨s.boxes,s.tracks.map (fun t => t.toMp4Track)⟩

def regular : RegularMp4 :=
  ⟨s.boxes,s.tracks.map ParsedTrack.toSampledTrack,s.fmp4Converter,s.mdatPayloadOffset⟩

/-- An error leaves the converter as it was. -/
def generateMseSegments : Except Mp4Error (List MseSegment × ParserState) :=
  if s.isFragmented then do
    let segments ← s.fragmented.extractFragmentedSegments
    return (segments,s)
  else do
    let (segments,converter) ← s.regular.createFragmentsFromRegularMp4
    return (segments,{ s with fmp4Converter := converter })

def generateStreamSegments (streamId : StreamId) :
    Except Mp4Error (List StreamSegment × ParserState) := do
  let (mseSegments,s) ← s.generateMseSegments
  let segments ← (mseSegments.mapIdx (fun i mse => (i,mse))).mapM
    (fun (i,mse) => StreamSegment.fromMseSegment mse streamId i)
  return (segments,s)

section Generated

variable {s} {s' : ParserState} {segments : List MseSegment}

theorem generateMseSegments_fragmented (h : s.isFragmented = true) :
    s.generateMseSegments = .ok (segments,s') ↔
      s.fragmented.extractFragmentedSegments = .ok segments ∧ s' = s := by
  unfold generateMseSegments
  rw [if_pos h,bind_eq_ok]
  constructor
  · intro h
    obtain ⟨_,hextract,h⟩ := h
    cases h
    exact ⟨hextract,rfl⟩
  · intro h
    exact ⟨segments,h.1,by rw [h.2]; rfl⟩

theorem generateMseSegments_regular (h : s.isFragmented = false) :
    s.generateMseSegments = .ok (segments,s') ↔
      ∃ c, s.regular.createFragmentsFromRegularMp4 = .ok (segments,c) ∧
        s' = { s with fmp4Converter := c } := by
  unfold generateMseSegments
  rw [if_neg (by simp [h]),bind_eq_ok]
  constructor
  · intro h
    obtain ⟨⟨_,c⟩,hcreate,h⟩ := h
    cases h
    exact ⟨c,hcreate,rfl⟩
  · intro h
    obtain ⟨c,hcreate,rfl⟩ := h
    exact ⟨_,hcreate,rfl⟩

end Generated

section Parsed

variable {s} {s' : ParserState} {data : Bytes}

/-- Where the data of the last `mdat` begins. -/
def payloadOffset (offset : Nat) (bs : List Mp4Box) : Nat :=
  ((bs.filter (fun b => b.header.boxType == tagMdat)).getLast?).elim offset
    (fun mdat => mdat.header.contentStart)

/-- The tracks of all `moov` boxes. -/
def parseMoovs (m : MoovState) (bs : List Mp4Box) : Except Mp4Error MoovState :=
  (bs.filter (fun b => b.header.boxType == tagMoov)).foldlM
    (fun m moov => parseMoovBox m moov.content) m

theorem parseFrom_eq_ok {n start : Nat} :
    parseFrom n start data s = .ok s' ↔
      ∃ bs, parseBoxesFrom n start data = .ok bs ∧ bs.foldlM addBox s = .ok s' := by
  induction n generalizing start data s with
  | zero =>
    cases data with
    | nil => simp [parseFrom,parseBoxesFrom,pure,Except.pure]
    | cons x data => simp [parseFrom,parseBoxesFrom,pure,Except.pure]
  | succ n ih =>
    cases data with
    | nil => simp [parseFrom,parseBoxesFrom,pure,Except.pure]
    | cons x data =>
      rw [parseFrom,parseBoxesFrom]
      · cases hbox : parseBox start (x::data) with
        | error e => cases e <;> simp [pure,Except.pure]
        | ok r =>
          obtain ⟨b,rest⟩ := r
          dsimp only
          simp only [bind_eq_ok,ih]
          constructor
          · intro h
            obtain ⟨s₁,hadd,bs,hbs,hfold⟩ := h
            refine ⟨b::bs,⟨bs,hbs,rfl⟩,?_⟩
            rw [List.foldlM_cons,bind_eq_ok]
            exact ⟨s₁,hadd,hfold⟩
          · intro h
            obtain ⟨all,⟨bs,hbs,hall⟩,hfold⟩ := h
            cases hall
            rw [List.foldlM_cons,bind_eq_ok] at hfold
            obtain ⟨s₁,hadd,hfold⟩ := hfold
            exact ⟨s₁,hadd,bs,hbs,hfold⟩
      · simp
      · simp

theorem addBox_eq_ok {b : Mp4Box} :
    s.addBox b = .ok s' ↔
      ∃ m, parseMoovs ⟨s.tracks,s.pendingSampleTable⟩ [b] = .ok m ∧
        s' = ⟨s.boxes++[b],m.tracks,s.isFragmented || b.header.boxType == tagMoof,
          s.fmp4Converter,payloadOffset s.mdatPayloadOffset [b],m.pending⟩ := by
  have hoffset : payloadOffset s.mdatPayloadOffset [b] =
      if b.header.boxType = tagMdat then b.header.contentStart else s.mdatPayloadOffset := by
    unfold payloadOffset
    by_cases hkind : b.header.boxType = tagMdat <;> simp [hkind]
  have hmoovs : parseMoovs ⟨s.tracks,s.pendingSampleTable⟩ [b] = s.boxTracks b := by
    unfold parseMoovs boxTracks
    by_cases hkind : b.header.boxType = tagMoov
    · simp [hkind]
    · simp [hkind,pure,Except.pure]
  unfold addBox
  rw [bind_eq_ok,hmoovs,hoffset]
  apply exists_congr
  intro m
  apply and_congr_right
  intro _
  exact ⟨fun h => (Except.ok.inj h).symm,fun h => by rw [h]; rfl⟩

theorem parseMoovs_cons_eq_ok {m m' : MoovState} {b : Mp4Box} {bs : List Mp4Box} :
    parseMoovs m (b::bs) = .ok m' ↔
      ∃ m₁, parseMoovs m [b] = .ok m₁ ∧ parseMoovs m₁ bs = .ok m' := by
  have hsplit : ∀ bs : List Mp4Box, (b::bs).filter (fun b => b.header.boxType == tagMoov) =
      [b].filter (fun b => b.header.boxType == tagMoov)++
        bs.filter (fun b => b.header.boxType == tagMoov) :=
    fun bs => List.filter_append [b] bs
  unfold parseMoovs
  rw [hsplit,List.foldlM_append,bind_eq_ok]

theorem payloadOffset_cons (offset : Nat) (b : Mp4Box) (bs : List Mp4Box) :
    payloadOffset offset (b::bs) = payloadOffset (payloadOffset offset [b]) bs := by
  unfold payloadOffset
  by_cases hkind : b.header.boxType = tagMdat
  · rw [List.filter_cons_of_pos (by simpa using hkind),
      List.filter_cons_of_pos (by simpa using hkind),List.filter_nil,List.getLast?_cons]
    cases (bs.filter (fun b => b.header.boxType == tagMdat)).getLast? <;> rfl
  · rw [List.filter_cons_of_neg (by simpa using hkind),
      List.filter_cons_of_neg (by simpa using hkind)]
    rfl

/-- All boxes, one after the other. -/
theorem foldlM_addBox_eq_ok {bs : List Mp4Box} :
    bs.foldlM addBox s = .ok s' ↔
      ∃ m, parseMoovs ⟨s.tracks,s.pendingSampleTable⟩ bs = .ok m ∧
        s' = ⟨s.boxes++bs,m.tracks,s.isFragmented || bs.any (fun b => b.header.boxType == tagMoof),
          s.fmp4Converter,payloadOffset s.mdatPayloadOffset bs,m.pending⟩ := by
  induction bs generalizing s with
  | nil =>
    have hsame : s = ⟨s.boxes++[],s.tracks,s.isFragmented || false,s.fmp4Converter,
        s.mdatPayloadOffset,s.pendingSampleTable⟩ := by
      rw [List.append_nil,Bool.or_false]
    constructor
    · intro h
      cases h
      exact ⟨_,rfl,hsame⟩
    · intro h
      obtain ⟨m,hm,hs'⟩ := h
      cases hm
      rw [hs']
      exact congrArg Except.ok hsame
  | cons b bs ih =>
    rw [List.foldlM_cons,bind_eq_ok]
    have hoffset := payloadOffset_cons s.mdatPayloadOffset b bs
    simp only [addBox_eq_ok,ih,@parseMoovs_cons_eq_ok _ _ b bs]
    constructor
    · intro h
      obtain ⟨_,⟨m₁,hm₁,rfl⟩,m,hm,rfl⟩ := h
      refine ⟨m,⟨m₁,hm₁,hm⟩,?_⟩
      simp [hoffset,Bool.or_assoc]
    · intro h
      obtain ⟨m,⟨m₁,hm₁,hm⟩,rfl⟩ := h
      refine ⟨_,⟨m₁,hm₁,rfl⟩,m,hm,?_⟩
      simp [hoffset,Bool.or_assoc]
/-- What a call of `parse` leaves: all but the converter comes from the data, but where there is
no `moof`, no `mdat` or no `trak`, something old stays. -/
theorem parse_eq_ok :
    s.parse data = .ok s' ↔ ∃ bs m, parseBoxes data = .ok bs ∧
      parseMoovs ⟨[],s.pendingSampleTable⟩ bs = .ok m ∧
      s' = ⟨bs,m.tracks,s.isFragmented || bs.any (fun b => b.header.boxType == tagMoof),
        s.fmp4Converter,payloadOffset s.mdatPayloadOffset bs,m.pending⟩ := by
  unfold parse parseBoxes
  rw [parseFrom_eq_ok]
  apply exists_congr
  intro bs
  rw [foldlM_addBox_eq_ok,← exists_and_left]
  rfl

/-- All `trak` boxes of the file. -/
def allTraks (bs : List Mp4Box) : List BoxAt :=
  (bs.filter (fun b => b.header.boxType == tagMoov)).flatMap (fun b => traks b.content)

theorem parseMoovs_eq (m : MoovState) (bs : List Mp4Box) :
    parseMoovs m bs = (allTraks bs).foldlM addTrak m := by
  unfold parseMoovs allTraks
  generalize bs.filter (fun b => b.header.boxType == tagMoov) = moovs
  induction moovs generalizing m with
  | nil => rfl
  | cons b moovs ih =>
    rw [List.foldlM_cons,List.flatMap_cons,List.foldlM_append,parseMoovBox_eq]
    exact bind_congr ih

/-- What `parse` leaves in a parser: the tracks are those of the `trak` boxes. -/
theorem parse_spec :
    s.parse data = .ok s' ↔ ∃ bs found, parseBoxes data = .ok bs ∧
      (allTraks bs).mapM readTrak = .ok found ∧
      s' = ⟨bs,found.filterMap Prod.fst,
        s.isFragmented || bs.any (fun b => b.header.boxType == tagMoof),s.fmp4Converter,
        payloadOffset s.mdatPayloadOffset bs,
        (found.getLast?.map Prod.snd).getD s.pendingSampleTable⟩ := by
  rw [parse_eq_ok]
  simp only [parseMoovs_eq,foldlM_addTrak_eq_ok,List.nil_append]
  constructor
  · intro h
    obtain ⟨bs,_,hbs,⟨found,hfound,rfl⟩,hs'⟩ := h
    exact ⟨bs,found,hbs,hfound,hs'⟩
  · intro h
    obtain ⟨bs,found,hbs,hfound,hs'⟩ := h
    exact ⟨bs,_,hbs,⟨found,hfound,rfl⟩,hs'⟩

/-- Every track is that of a `trak` box. -/
theorem parse_track (h : s.parse data = .ok s') {track : ParsedTrack} (htrack : track ∈ s'.tracks) :
    ∃ trak ∈ allTraks s'.boxes, ∃ pending, readTrak trak = .ok (some track,pending) := by
  obtain ⟨bs,found,_,hfound,rfl⟩ := parse_spec.mp h
  obtain ⟨⟨t,pending⟩,hmem,ht⟩ := List.mem_filterMap.mp htrack
  obtain ⟨trak,htrak,hread⟩ := forall₂_mem_right (mapM_eq_ok_iff.mp hfound) hmem
  refine ⟨trak,htrak,pending,?_⟩
  rw [hread]
  exact congrArg (fun t => Except.ok (t,pending)) ht

/-- No track has the parameter that the conversion of regular files looks for. -/
theorem parse_hasAc3Audio (h : s.parse data = .ok s') : s'.regular.hasAc3Audio = false := by
  rw [Bool.eq_false_iff]
  intro hac3
  obtain ⟨track,htrack,hparams⟩ := List.any_eq_true.mp hac3
  obtain ⟨parsed,hparsed,rfl⟩ := List.mem_map.mp htrack
  obtain ⟨trak,_,pending,hread⟩ := parse_track h hparsed
  rw [Bool.and_eq_true,beq_iff_eq,beq_iff_eq] at hparams
  exact ((parseTrakBox_plain hread).1 parsed rfl).1 hparams.2

/-- A table lists fewer samples than a number of 32 bits can say. -/
theorem parse_counts (h : s.parse data = .ok s') : ∀ track ∈ s'.regular.tracks, ∀ t,
    track.sampleTable = some t → t.sampleSizes.length < 2^32 := by
  intro track htrack t ht
  obtain ⟨parsed,hparsed,rfl⟩ := List.mem_map.mp htrack
  obtain ⟨trak,_,pending,hread⟩ := parse_track h hparsed
  exact ((parseTrakBox_plain hread).1 parsed rfl).2 t ht

/-- A new parser that has parsed a file. -/
theorem parse_freshly (h : new.parse data = .ok s) : s.regular.FreshlyParsed data := by
  obtain ⟨bs,found,hbs,hfound,rfl⟩ := parse_spec.mp h
  constructor
  · exact hbs
  · rfl
  · intro mdat hmdat
    have hlast : (bs.filter (fun b => b.header.boxType == tagMdat)).getLast? = some mdat := hmdat
    unfold regular payloadOffset
    rw [hlast]
    rfl
  · intro htracks
    obtain ⟨track,htrack⟩ := List.exists_mem_of_ne_nil _ htracks
    obtain ⟨parsed,hparsed,_⟩ := List.mem_map.mp htrack
    obtain ⟨trak,htrak,_⟩ := parse_track h hparsed
    obtain ⟨moov,hmoov,_⟩ := List.mem_flatMap.mp htrak
    exact ⟨_,List.getLast?_eq_some_getLast (List.ne_nil_of_mem hmoov)⟩
  · exact parse_counts h

end Parsed

end ParserState

end OpenBroadcast.Media
