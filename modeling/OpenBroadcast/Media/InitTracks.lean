import OpenBroadcast.Media.GopSegments
import OpenBroadcast.Media.TrackHeaders

namespace OpenBroadcast.Media

open RawBox

section Tiling

/-- What boxes are followed by is made of the boxes that come then. -/
theorem append_encodeAll_eq {bs children : List RawBox} {rest : Bytes} (hbs : ∀ b ∈ bs, b.Fits)
    (hchildren : ∀ b ∈ children, b.Fits) (h : encodeAll bs++rest = encodeAll children) :
    ∃ post, children = bs++post ∧ rest = encodeAll post := by
  induction bs generalizing children with
  | nil => exact ⟨children,rfl,h⟩
  | cons b bs ih =>
    have hb := hbs b List.mem_cons_self
    cases children with
    | nil =>
      have hlength := congrArg List.length h
      have h8 := b.eight_le_size
      rw [encodeAll_cons,List.append_assoc,List.length_append,hb.length_encode,encodeAll_nil,
        List.length_nil] at hlength
      omega
    | cons c children =>
      have hc := hchildren c List.mem_cons_self
      rw [encodeAll_cons,encodeAll_cons,List.append_assoc] at h
      have hread := readBox_encode hb (encodeAll bs++rest)
      rw [h,readBox_encode hc] at hread
      obtain ⟨rfl,hrest⟩ := Prod.mk.inj (Option.some.inj hread)
      obtain ⟨post,rfl,hpost⟩ := ih (fun d hd => hbs d (List.mem_cons_of_mem _ hd))
        (fun d hd => hchildren d (List.mem_cons_of_mem _ hd)) hrest.symm
      exact ⟨post,rfl,hpost⟩

/-- What follows the `ftyp` boxes is the same, whichever way they are told apart. -/
theorem front_eq {front front' : List RawBox} {rest rest' : Bytes}
    (hfront : ∀ b ∈ front, b.Fits ∧ b.kind = tagFtyp)
    (hfront' : ∀ b ∈ front', b.Fits ∧ b.kind = tagFtyp) (hrest : (rest.drop 4).take 4 = tagMoov)
    (hrest' : (rest'.drop 4).take 4 = tagMoov) (h : encodeAll front++rest = encodeAll front'++rest') :
    rest = rest' := by
  have hne : tagFtyp ≠ tagMoov := by decide
  induction front generalizing front' with
  | nil =>
    cases front' with
    | nil => exact h
    | cons c front' =>
      obtain ⟨hc,hkind⟩ := hfront' c List.mem_cons_self
      have hread := hc.read_kind (encodeAll front'++rest')
      rw [encodeAll_cons,encodeAll_nil,List.nil_append,List.append_assoc] at h
      rw [← h,hrest,hkind] at hread
      exact absurd hread.symm hne
  | cons b front ih =>
    obtain ⟨hb,hkind⟩ := hfront b List.mem_cons_self
    have hread := hb.read_kind (encodeAll front++rest)
    rw [encodeAll_cons,List.append_assoc] at h
    cases front' with
    | nil =>
      rw [encodeAll_nil,List.nil_append] at h
      rw [h,hrest',hkind] at hread
      exact absurd hread.symm hne
    | cons c front' =>
      have hc := (hfront' c List.mem_cons_self).1
      rw [encodeAll_cons,List.append_assoc] at h
      have hbox := readBox_encode hb (encodeAll front++rest)
      rw [h,readBox_encode hc] at hbox
      exact ih (fun d hd => hfront d (List.mem_cons_of_mem _ hd))
        (fun d hd => hfront' d (List.mem_cons_of_mem _ hd))
        (Prod.mk.inj (Option.some.inj hbox)).2.symm

end Tiling

section Film

/-- The track without what its header says. -/
def HeadedTrak.handled (t : HeadedTrak) : HandledTrak where
  boxes := t.boxes
  media := t.media
  handler := t.handler
  fits := t.fits
  media_fits := t.media_fits
  mdia := t.mdia
  hdlr := t.hdlr
  handler_length := t.handler_length

/-- A child of the `moov` of a film. The `trex` boxes of an `mvex` have room for a track id. -/
inductive FilmChild where
  | trak (t : HeadedTrak)
  | mvex (boxes : List RawBox)
    (h : ∀ b ∈ boxes, b.Fits ∧ (b.kind = tagTrex → 8 ≤ b.body.length))
  | other (b : RawBox) (h : b.kind ≠ tagTrak ∧ b.kind ≠ tagMvex)

namespace FilmChild

def toMoovChild : FilmChild → MoovChild
  | trak t => .trak t.handled
  | mvex boxes _ => .other ⟨tagMvex,encodeAll boxes⟩ (by simp [tagMvex,tagTrak])
  | other b h => .other b h.1

def box (c : FilmChild) : RawBox := c.toMoovChild.box

def track? (keepType : Bytes) : FilmChild → Option HeadedTrak
  | trak t => if t.handled.handlerType = keepType then some t else none
  | _ => none

def mvex? : FilmChild → Option (List RawBox)
  | mvex boxes _ => some boxes
  | _ => none

end FilmChild

def trexId (b : RawBox) : UInt32 := readU32 4 b.body

/-- A `trex` of another track goes. -/
def keepsTrex (ids : List UInt32) (b : RawBox) : Bool :=
  !(b.kind == tagTrex) || decide (trexId b ∈ ids)

/-- An `mvex`, if there is something to put into it. -/
def mvexOf (boxes : List RawBox) : List RawBox :=
  if boxes = [] then [] else [⟨tagMvex,encodeAll boxes⟩]

structure Film where
  children : List FilmChild
  fits : ∀ c ∈ children, c.box.Fits

namespace Film

variable (f : Film) (keepType : Bytes)

def moov : WellFormedMoov where
  children := f.children.map FilmChild.toMoovChild
  fits := by
    intro c hc
    obtain ⟨d,hd,rfl⟩ := List.mem_map.mp hc
    exact f.fits d hd

def content : Bytes := f.moov.content

def tracksOf : List HeadedTrak := f.children.filterMap (FilmChild.track? keepType)

def allTracks : List HeadedTrak :=
  f.children.filterMap (fun c => match c with
    | .trak t => some t
    | _ => none)

/-- The boxes of the last `mvex`. -/
def lastMvex : Option (List RawBox) := (f.children.filterMap FilmChild.mvex?).getLast?

/-- The ids by which tracks are kept. -/
def readIds : List UInt32 := (f.tracksOf keepType).map (fun t => t.header.readId)

/-- What the filter leaves of the last `mvex`. -/
def leftInMvex : List RawBox := (f.lastMvex.getD []).filter (keepsTrex (f.readIds keepType))

/-- The children that the filter leaves. -/
def left : List RawBox := f.moov.keptApart keepType++mvexOf (f.leftInMvex keepType)

variable {f keepType}

/-- The ids that the filter collects are those of the tracks that stay. -/
theorem keptIds (cs : List FilmChild) :
    ((cs.map FilmChild.toMoovChild).map (WellFormedMoov.keptOf keepType)).filterMap Prod.snd =
      (cs.filterMap (FilmChild.track? keepType)).map (fun t => t.header.readId) := by
  induction cs with
  | nil => rfl
  | cons c cs ih =>
    rw [List.map_cons,List.map_cons]
    cases c with
    | trak t =>
      have hid : extractTrackIdFromTrak t.handled.box.encode = some t.header.readId := t.extracted_eq
      by_cases hkeep : t.handled.handlerType = keepType
      · have hkept : WellFormedMoov.keptOf keepType (FilmChild.trak t).toMoovChild =
            (t.handled.box.encode,some t.header.readId) := by
          unfold FilmChild.toMoovChild WellFormedMoov.keptOf
          dsimp only
          rw [if_pos (by simpa using hkeep),hid]
        have htrack : FilmChild.track? keepType (.trak t) = some t := if_pos hkeep
        rw [List.filterMap_cons_some (congrArg Prod.snd hkept),List.filterMap_cons_some htrack,
          List.map_cons,ih]
      · have hkept : WellFormedMoov.keptOf keepType (FilmChild.trak t).toMoovChild = ([],none) := by
          unfold FilmChild.toMoovChild WellFormedMoov.keptOf
          dsimp only
          rw [if_neg (by simpa using hkeep)]
        have htrack : FilmChild.track? keepType (.trak t) = none := if_neg hkeep
        rw [List.filterMap_cons_none (congrArg Prod.snd hkept),List.filterMap_cons_none htrack,ih]
    | mvex boxes h => exact ih
    | other b h => exact ih

/-- What is kept in an `mvex`, box by box. -/
theorem flatMap_keptInMvex {boxes : List RawBox}
    (h : ∀ b ∈ boxes, b.Fits ∧ (b.kind = tagTrex → 8 ≤ b.body.length)) (ids : List UInt32) :
    (boxesIn (encodeAll boxes)).flatMap (keptInMvex ids) =
      encodeAll (boxes.filter (keepsTrex ids)) := by
  induction boxes with
  | nil => rfl
  | cons b boxes ih =>
    obtain ⟨hb,hlong⟩ := h b List.mem_cons_self
    have hbytes : BoxAt.bytes ⟨b.kind,b.size,b.encode++encodeAll boxes⟩ = b.encode :=
      hb.take_size _
    have htail := ih (fun c hc => h c (List.mem_cons_of_mem _ hc))
    rw [encodeAll_cons,boxesIn_encode hb,List.flatMap_cons,htail]
    unfold keptInMvex
    dsimp only
    rw [hbytes]
    by_cases htrex : b.kind = tagTrex
    · have h8 := hlong htrex
      have hlength : 16 ≤ (b.encode++encodeAll boxes).length := by
        rw [List.length_append,hb.length_encode,RawBox.size]
        omega
      have hread : readU32 12 (b.encode++encodeAll boxes) = trexId b :=
        congrArg (fun field => UInt32.ofNat (beNat field))
          (field_encode hb (i := 4) (n := 4) (by omega) _)
      rw [if_pos htrex,hread]
      by_cases hid : trexId b ∈ ids
      · rw [if_pos ⟨hlength,hid⟩]
        simp [keepsTrex,htrex,hid]
      · rw [if_neg (fun hand => hid hand.2)]
        simp [keepsTrex,htrex,hid]
    · have hkeep : keepsTrex ids b = true := by simp [keepsTrex,htrex]
      rw [if_neg htrex,List.filter_cons_of_pos hkeep,encodeAll_cons]

/-- The `mvex` boxes are those that have been put there. -/
theorem filter_mvex (cs : List FilmChild) :
    (cs.map FilmChild.box).filter (fun b => b.kind == tagMvex) =
      (cs.filterMap FilmChild.mvex?).map (fun boxes => ⟨tagMvex,encodeAll boxes⟩) := by
  induction cs with
  | nil => rfl
  | cons c cs ih =>
    rw [List.map_cons]
    cases c with
    | trak t =>
      have hkind : ¬ ((FilmChild.trak t).box.kind == tagMvex) = true := by
        have hbox : (FilmChild.trak t).box.kind = tagTrak := rfl
        rw [hbox]
        decide
      rw [List.filter_cons,if_neg hkind,ih]
      rfl
    | mvex boxes h =>
      have hkind : ((FilmChild.mvex boxes h).box.kind == tagMvex) = true := beq_self_eq_true tagMvex
      rw [List.filter_cons,if_pos hkind,ih]
      rfl
    | other b h =>
      have hkind : ¬ ((FilmChild.other b h).box.kind == tagMvex) = true := by
        have hbox : (FilmChild.other b h).box.kind = b.kind := rfl
        rw [hbox]
        simpa using h.2
      rw [List.filter_cons,if_neg hkind,ih]
      rfl

/-- The last `mvex` that the walk meets. -/
theorem lastMvex_found : (((boxesIn f.content).filter (fun b => b.kind == tagMvex)).getLast?).map
    BoxAt.bytes = f.lastMvex.map (fun boxes => (RawBox.mk tagMvex (encodeAll boxes)).encode) := by
  have hwalk := boxesIn_encodeAll f.moov.box_fits
  have hboxes : f.moov.children.map MoovChild.box = f.children.map FilmChild.box := by
    unfold moov
    rw [List.map_map]
    rfl
  have hpairs : ((boxesIn f.content).filter (fun b => b.kind == tagMvex)).map
      (fun b => (b.kind,b.bytes)) =
      ((f.children.map FilmChild.box).filter (fun b => b.kind == tagMvex)).map
        (fun b => (b.kind,b.encode)) := by
    rw [← hboxes]
    have hfilter := congrArg (List.filter (fun p => p.1 == tagMvex)) hwalk
    rw [List.filter_map,List.filter_map] at hfilter
    exact hfilter
  have hbytes := congrArg (fun l => l.getLast?.map Prod.snd) hpairs
  rw [filter_mvex,List.map_map,List.getLast?_map,List.getLast?_map,Option.map_map,
    Option.map_map] at hbytes
  exact hbytes

theorem encodeAll_isEmpty (bs : List RawBox) : (encodeAll bs).isEmpty = decide (bs = []) := by
  cases bs with
  | nil => rfl
  | cons b bs =>
    have hlength : (encodeAll (b::bs)).length ≠ 0 := by
      rw [encodeAll_cons,List.length_append,encode,List.length_append,List.length_append,
        length_toBe]
      omega
    cases h : encodeAll (b::bs) with
    | nil => exact absurd (congrArg List.length h) hlength
    | cons x rest => simp

theorem mvex_fits {boxes : List RawBox} (h : f.lastMvex = some boxes) :
    8+(encodeAll boxes).length < 2^32 ∧
      ∀ b ∈ boxes, b.Fits ∧ (b.kind = tagTrex → 8 ≤ b.body.length) := by
  have hmem : boxes ∈ f.children.filterMap FilmChild.mvex? := List.mem_of_getLast? h
  obtain ⟨c,hc,hboxes⟩ := List.mem_filterMap.mp hmem
  cases c with
  | trak t => cases hboxes
  | mvex boxes' h' =>
    cases hboxes
    exact ⟨(f.fits _ hc).size,h'⟩
  | other b h' => cases hboxes

theorem filterMvexForTracks_encode {boxes : List RawBox} (hsize : 8+(encodeAll boxes).length < 2^32)
    (h : ∀ b ∈ boxes, b.Fits ∧ (b.kind = tagTrex → 8 ≤ b.body.length)) (ids : List UInt32) :
    filterMvexForTracks (RawBox.mk tagMvex (encodeAll boxes)).encode ids =
      .ok (encodeAll (mvexOf (boxes.filter (keepsTrex ids)))) := by
  have hparts := length_encodeAll_filter (keepsTrex ids) boxes
  unfold filterMvexForTracks mvexOf
  rw [drop_header_encode rfl,flatMap_keptInMvex h]
  dsimp only
  rw [encodeAll_isEmpty]
  by_cases hnil : boxes.filter (keepsTrex ids) = []
  · rw [if_pos hnil,if_pos (by simpa using hnil)]
    rfl
  · rw [if_neg hnil,if_neg (by simpa using hnil),wrapBox_ok tagMvex (by omega),encodeAll_cons,
      encodeAll_nil,List.append_nil]

/-- What the filter does with the last `mvex` that it meets. -/
theorem last_mvex_eq (f : Film) (ids : List UInt32) :
    (match ((boxesIn f.content).filter (fun b => b.kind == tagMvex)).getLast? with
      | some mvex => filterMvexForTracks mvex.bytes ids
      | none => .ok []) =
      .ok (encodeAll (mvexOf ((f.lastMvex.getD []).filter (keepsTrex ids)))) := by
  have hfound := f.lastMvex_found
  cases hmvex : f.lastMvex with
  | none =>
    rw [hmvex] at hfound
    cases hlast : ((boxesIn f.content).filter (fun b => b.kind == tagMvex)).getLast? with
    | none => rfl
    | some b =>
      rw [hlast] at hfound
      cases hfound
  | some boxes =>
    rw [hmvex] at hfound
    cases hlast : ((boxesIn f.content).filter (fun b => b.kind == tagMvex)).getLast? with
    | none =>
      rw [hlast] at hfound
      cases hfound
    | some b =>
      rw [hlast] at hfound
      have hbytes : b.bytes = (RawBox.mk tagMvex (encodeAll boxes)).encode :=
        Option.some.inj hfound
      obtain ⟨hsize,hboxes⟩ := mvex_fits hmvex
      dsimp only
      rw [hbytes,filterMvexForTracks_encode hsize hboxes]
      rfl

/-- The filter over a film leaves what it should, apart from what it takes for the track ids. -/
theorem filterMoovForTrackType_content (f : Film) (keepType : Bytes) :
    filterMoovForTrackType f.content keepType = .ok (encodeAll (f.left keepType)) := by
  have hkept : (boxesIn f.content).mapM (keepChild keepType) =
      .ok ((f.children.map FilmChild.toMoovChild).map (WellFormedMoov.keptOf keepType)) :=
    f.moov.mapM_keepChild keepType
  have hmvex := last_mvex_eq f (f.readIds keepType)
  have hids := @keptIds keepType f.children
  unfold filterMoovForTrackType left
  rw [hkept,encodeAll_append]
  dsimp only [bind,Except.bind]
  rw [hids,WellFormedMoov.flatMap_keptOf]
  cases hlast : ((boxesIn f.content).filter (fun b => b.kind == tagMvex)).getLast? with
  | none =>
    rw [hlast] at hmvex
    have hnil : [] = encodeAll (mvexOf (f.leftInMvex keepType)) := Except.ok.inj hmvex
    rw [← hnil]
    rfl
  | some b =>
    rw [hlast] at hmvex
    have hfilter : filterMvexForTracks b.bytes (f.readIds keepType) =
        .ok (encodeAll (mvexOf (f.leftInMvex keepType))) := hmvex
    unfold readIds tracksOf at hfilter
    dsimp only
    rw [hfilter]
    rfl

theorem mvexOf_filter (boxes : List RawBox) :
    (mvexOf boxes).filter (fun b => b.kind == tagMvex) = mvexOf boxes := by
  unfold mvexOf
  split_ifs <;> rfl

/-- The `mvex` is the only one. -/
theorem left_filter_mvex : (f.left keepType).filter (fun b => b.kind == tagMvex) =
    mvexOf (f.leftInMvex keepType) := by
  have hnone : (f.moov.keptApart keepType).filter (fun b => b.kind == tagMvex) = [] := by
    apply List.filter_eq_nil_iff.mpr
    intro b hb
    obtain ⟨c,hc,rfl⟩ := List.mem_map.mp hb
    have hkept := (List.mem_filter.mp hc).2
    simp only [Bool.and_eq_true,Bool.not_eq_true',MoovChild.isMvex] at hkept
    rw [hkept.2]
    decide
  unfold left
  rw [List.filter_append,hnone,mvexOf_filter,List.nil_append]

/-- The tracks that stay are those of the type, in their order. -/
theorem left_filter_trak : (f.left keepType).filter (fun b => b.kind == tagTrak) =
    (f.tracksOf keepType).map (fun t => t.handled.box) := by
  have hmvex : (mvexOf (f.leftInMvex keepType)).filter (fun b => b.kind == tagTrak) = [] := by
    unfold mvexOf
    split_ifs <;> rfl
  unfold left WellFormedMoov.keptApart tracksOf
  rw [List.filter_append,hmvex,List.append_nil,show f.moov.children =
    f.children.map FilmChild.toMoovChild from rfl]
  induction f.children with
  | nil => rfl
  | cons c cs ih =>
    rw [List.map_cons]
    cases c with
    | trak t =>
      have hmvex : (FilmChild.trak t).toMoovChild.isMvex = false := rfl
      by_cases hkeep : t.handled.handlerType = keepType
      · have hkept : (FilmChild.trak t).toMoovChild.isKept keepType = true := by
          simpa [FilmChild.toMoovChild,MoovChild.isKept] using hkeep
        have htrack : FilmChild.track? keepType (.trak t) = some t := if_pos hkeep
        rw [List.filter_cons,if_pos (by simp [hkept,hmvex]),List.filterMap_cons_some htrack,
          List.map_cons,List.map_cons,List.filter_cons,if_pos (by rfl),ih]
        rfl
      · have hkept : (FilmChild.trak t).toMoovChild.isKept keepType = false := by
          simpa [FilmChild.toMoovChild,MoovChild.isKept] using hkeep
        have htrack : FilmChild.track? keepType (.trak t) = none := if_neg hkeep
        rw [List.filter_cons,if_neg (by simp [hkept]),List.filterMap_cons_none htrack,ih]
    | mvex boxes h =>
      have hmvex : (FilmChild.mvex boxes h).toMoovChild.isMvex = true := rfl
      rw [List.filter_cons,if_neg (by simp [hmvex]),List.filterMap_cons_none rfl,ih]
    | other b h =>
      have hkind : (FilmChild.other b h).toMoovChild.box.kind = b.kind := rfl
      have hmvex : (FilmChild.other b h).toMoovChild.isMvex = false := by
        simpa [MoovChild.isMvex,hkind] using h.2
      have hkept : (FilmChild.other b h).toMoovChild.isKept keepType = true := rfl
      rw [List.filter_cons,if_pos (by simp [hkept,hmvex]),List.filterMap_cons_none rfl,
        List.map_cons,List.filter_cons,if_neg (by rw [hkind]; simpa using h.1),ih]

theorem leftInMvex_fits : (∀ b ∈ f.leftInMvex keepType, b.Fits) ∧
    ∀ b ∈ mvexOf (f.leftInMvex keepType), b.Fits := by
  unfold leftInMvex
  cases hmvex : f.lastMvex with
  | none => exact ⟨fun b hb => (by cases hb),fun b hb => (by cases hb)⟩
  | some boxes =>
    obtain ⟨hsize,hboxes⟩ := mvex_fits hmvex
    have hparts := length_encodeAll_filter (keepsTrex (f.readIds keepType)) boxes
    refine ⟨fun b hb => (hboxes b (List.mem_filter.mp hb).1).1,?_⟩
    intro b hb
    unfold mvexOf at hb
    split_ifs at hb
    · cases hb
    · rw [List.mem_singleton.mp hb]
      refine ⟨rfl,?_⟩
      unfold RawBox.size
      dsimp only [Option.getD]
      omega

theorem left_fits : ∀ b ∈ f.left keepType, b.Fits := by
  intro b hb
  rcases List.mem_append.mp hb with hb | hb
  · obtain ⟨c,hc,rfl⟩ := List.mem_map.mp hb
    exact f.moov.fits c (List.mem_filter.mp hc).1
  · exact leftInMvex_fits.2 b hb

end Film

end Film

section Init

/-- An initialization segment: `ftyp` boxes and a `moov`, which holds some tracks and one `mvex`
with one `trex` for each of them. -/
structure InitBoxes (data : Bytes) (tracks : List HeadedTrak) (front children boxes : List RawBox) :
    Prop where
  data_eq : data = encodeAll (front++[⟨tagMoov,encodeAll children⟩])
  front_fits : ∀ b ∈ front, b.Fits ∧ b.kind = tagFtyp
  moov_fits : (RawBox.mk tagMoov (encodeAll children)).Fits
  fits : ∀ b ∈ children, b.Fits
  traks : children.filter (fun b => b.kind == tagTrak) = tracks.map (fun t => t.handled.box)
  mvex : children.filter (fun b => b.kind == tagMvex) = [⟨tagMvex,encodeAll boxes⟩]
  boxes_fits : ∀ b ∈ boxes, b.Fits
  ids : ((boxes.filter (fun b => b.kind == tagTrex)).map trexId).Perm
    (tracks.map (fun t => t.header.trackId))

def ValidInit (data : Bytes) (tracks : List HeadedTrak) : Prop :=
  ∃ front children boxes, InitBoxes data tracks front children boxes

variable {f : Film} {keepType : Bytes}

/-- The `trex` boxes that the filter leaves in the last `mvex` are those of the tracks. -/
structure Film.Listed (f : Film) (keepType : Bytes) : Prop where
  size : 8+(encodeAll (f.left keepType)).length < 2^32
  some_left : f.leftInMvex keepType ≠ []
  ids : (((f.leftInMvex keepType).filter (fun b => b.kind == tagTrex)).map trexId).Perm
    ((f.tracksOf keepType).map (fun t => t.header.trackId))

theorem ftyp_front {ftyp : Mp4Box} (h : ftyp.header.boxType = tagFtyp) :
    serializeBox ftyp = encodeAll (writtenBox ftyp).toList ∧
      ∀ b ∈ (writtenBox ftyp).toList, b.Fits ∧ b.kind = tagFtyp := by
  have hlength : ftyp.header.boxType.length = 4 := by rw [h]; rfl
  refine ⟨serializeBox_eq hlength,?_⟩
  intro b hb
  have hwritten : writtenBox ftyp = some b := by simpa using hb
  refine ⟨writtenBox_fits hlength hwritten,?_⟩
  unfold writtenBox at hwritten
  split_ifs at hwritten
  cases hwritten
  exact h

/-- What stands in the `moov` of an initialization segment. -/
theorem InitBoxes.content_eq {data content size : Bytes} {tracks : List HeadedTrak}
    {front front' children boxes : List RawBox} (h : InitBoxes data tracks front children boxes)
    (hfront : ∀ b ∈ front', b.Fits ∧ b.kind = tagFtyp) (hsize : size.length = 4)
    (hdata : data = encodeAll front'++(size++tagMoov++content)) : encodeAll children = content := by
  have hmoov : ∀ size : Bytes, size.length = 4 → ∀ content,
      ((size++tagMoov++content).drop 4).take 4 = tagMoov := by
    intro size hsize content
    rw [List.append_assoc,List.drop_left' hsize]
    rfl
  have hrest : (RawBox.mk tagMoov (encodeAll children)).encode = size++tagMoov++content := by
    apply front_eq h.front_fits hfront
    · exact hmoov _ (length_toBe 4 _) _
    · exact hmoov _ hsize _
    · rw [← hdata,h.data_eq,encodeAll_append,encodeAll_cons,encodeAll_nil,List.append_nil]
  have hdrop := congrArg (List.drop 8) hrest
  rw [drop_header_encode rfl,List.drop_left' (by rw [List.length_append,hsize]; rfl)] at hdrop
  exact hdrop

/-- When a separate segment is valid. -/
theorem separateInit_valid_iff {ftyp : Mp4Box} (hftyp : ftyp.header.boxType = tagFtyp) :
    (∃ data, ParserState.separateInit ftyp f.content keepType = .ok data ∧
      ValidInit data (f.tracksOf keepType)) ↔ f.Listed keepType := by
  obtain ⟨hwritten,hfront⟩ := ftyp_front hftyp
  unfold ParserState.separateInit buildMoovBox
  rw [f.filterMoovForTrackType_content]
  dsimp only [bind,Except.bind]
  constructor
  · intro h
    obtain ⟨data,hdata,front,children,boxes,hinit⟩ := h
    cases hwrap : wrapBox tagMoov (encodeAll (f.left keepType)) with
    | error e =>
      rw [hwrap] at hdata
      cases hdata
    | ok moov =>
      rw [hwrap] at hdata
      cases hdata
      obtain ⟨size,hsize,hmoov⟩ := wrapBox_eq_ok hwrap
      have hcontent := hinit.content_eq hfront hsize (by rw [hwritten,hmoov])
      have hchildren := encodeAll_inj hinit.fits Film.left_fits hcontent
      have hmvex := hinit.mvex
      rw [hchildren,Film.left_filter_mvex] at hmvex
      unfold mvexOf at hmvex
      split_ifs at hmvex with hnil
      have hbodies : encodeAll (f.leftInMvex keepType) = encodeAll boxes :=
        congrArg RawBox.body (List.cons.inj hmvex).1
      have hboxes := encodeAll_inj Film.leftInMvex_fits.1 hinit.boxes_fits hbodies
      have hfits : 8+(encodeAll children).length < 2^32 := hinit.moov_fits.size
      refine ⟨by rw [← hchildren]; exact hfits,hnil,?_⟩
      rw [hboxes]
      exact hinit.ids
  · intro h
    have hmvex : mvexOf (f.leftInMvex keepType) = [⟨tagMvex,encodeAll (f.leftInMvex keepType)⟩] :=
      if_neg h.some_left
    rw [wrapBox_ok tagMoov h.size]
    refine ⟨_,rfl,(writtenBox ftyp).toList,f.left keepType,f.leftInMvex keepType,?_⟩
    exact {
      data_eq := by rw [hwritten,encodeAll_append,encodeAll_cons,encodeAll_nil,List.append_nil]
      front_fits := hfront
      moov_fits := ⟨rfl,h.size⟩
      fits := Film.left_fits
      traks := Film.left_filter_trak
      mvex := by rw [Film.left_filter_mvex,hmvex]
      boxes_fits := Film.leftInMvex_fits.1
      ids := h.ids }

/-- The content of the new `moov` before its `mvex` consists of boxes, with the `mvex` boxes of the
film. -/
theorem moovContent_boxes (p : RegularMp4) {moov : Mp4Box} (hmoov : moov.content = f.content) :
    ∃ bs, p.moovContent moov = encodeAll bs ∧ (∀ b ∈ bs, b.Fits) ∧
      bs.filter (fun b => b.kind == tagMvex) =
        (f.children.filterMap FilmChild.mvex?).map (fun boxes => ⟨tagMvex,encodeAll boxes⟩) := by
  have hboxes : f.moov.children.map MoovChild.box = f.children.map FilmChild.box := by
    unfold Film.moov
    rw [List.map_map]
    rfl
  have hmvex := Film.filter_mvex f.children
  have hne : tagMvex ≠ tagTrak := by decide
  rw [← hboxes] at hmvex
  unfold RegularMp4.moovContent
  rw [hmoov]
  split_ifs
  · refine ⟨(f.moov.children.map MoovChild.box).filter (fun b =>
      !(b.kind == tagTrak && !isVideoTrack b.encode)),?_,?_,?_⟩
    · have hcreate := f.moov.createVideoOnlyMoov_eq
      rw [show f.content = f.moov.content from rfl,hcreate]
      generalize f.moov.children = cs
      induction cs with
      | nil => rfl
      | cons c cs ih =>
        rw [List.flatMap_cons,ih,List.map_cons,List.filter_cons]
        by_cases hkind : c.box.kind = tagTrak
        · simp only [hkind,true_and,beq_self_eq_true,Bool.true_and,Bool.not_not]
          cases isVideoTrack c.box.encode <;> rfl
        · simp [hkind]
    · intro b hb
      exact f.moov.box_fits b (List.mem_filter.mp hb).1
    · rw [← hmvex,List.filter_filter]
      apply List.filter_congr
      intro b _
      by_cases hkind : b.kind = tagMvex
      · simp [hkind,hne]
      · simp [hkind]
  · exact ⟨f.moov.children.map MoovChild.box,rfl,f.moov.box_fits,hmvex⟩

/-- A segment with an `mvex` of its own is only valid if the film has none. -/
theorem no_mvex_of_combined {p : RegularMp4} {moov : Mp4Box} {init : MseSegment}
    {tracks : List HeadedTrak} (hlast : p.lastBox tagMoov = some moov)
    (hmoov : moov.content = f.content) (h : p.initSegment = .ok init)
    (hvalid : ValidInit init.data tracks) : f.lastMvex = none := by
  obtain ⟨mvex,hmvex,hlength⟩ := p.createMvexBox_ok
  obtain ⟨bs,hbs,hfits,hkinds⟩ := moovContent_boxes p hmoov
  obtain ⟨front,children,boxes,hinit⟩ := hvalid
  have hftyps := serializeBox_ftyps p.boxes
  unfold RegularMp4.initSegment at h
  dsimp only at h
  rw [hlast] at h
  obtain ⟨data,hdata,h⟩ := bind_eq_ok.mp h
  cases h
  have hcreate : p.createMseCompatibleMoov moov = wrapBox tagMoov (p.moovContent moov++mvex) := by
    unfold RegularMp4.createMseCompatibleMoov
    rw [hmvex]
    rfl
  rw [hcreate] at hdata
  obtain ⟨size,hsize,hdata⟩ := wrapBox_eq_ok hdata
  have hcontent := hinit.content_eq (fun b hb => ftyp_fits hb) hsize
    (by dsimp only; rw [hftyps,hdata])
  rw [hbs] at hcontent
  obtain ⟨post,hpost,hmvexBytes⟩ := append_encodeAll_eq hfits hinit.fits hcontent.symm
  -- What is appended begins with an `mvex`, so that there is none before it.
  have hone := hinit.mvex
  rw [hpost,List.filter_append,hkinds] at hone
  cases post with
  | nil =>
    rw [hmvexBytes,encodeAll_nil,List.length_nil] at hlength
    omega
  | cons c post =>
    obtain ⟨size',hsize',hmvex'⟩ : ∃ size : Bytes, size.length = 4 ∧
        ∃ content, mvex = size++tagMvex++content := by
      obtain ⟨trexes,_,hwrap⟩ := bind_eq_ok.mp hmvex
      obtain ⟨size,hsize,hbytes⟩ := wrapBox_eq_ok hwrap
      exact ⟨size,hsize,_,hbytes⟩
    obtain ⟨content,hbytes⟩ := hmvex'
    have hc : c.Fits := hinit.fits c (by rw [hpost]; simp)
    have hkind : c.kind = tagMvex := by
      rw [← hc.read_kind (encodeAll post),← encodeAll_cons,← hmvexBytes,hbytes,
        List.append_assoc,List.drop_left' hsize']
      rfl
    rw [List.filter_cons,if_pos (by simpa using hkind)] at hone
    have hlengths := congrArg List.length hone
    simp only [List.length_append,List.length_map,List.length_cons,List.length_nil] at hlengths
    have hnil : f.children.filterMap FilmChild.mvex? = [] :=
      List.length_eq_zero_iff.mp (by omega)
    unfold Film.lastMvex
    rw [hnil]
    rfl

/-- A parser that has parsed a film with a track of pictures. -/
structure ParsedFilm where
  state : ParserState
  film : Film
  ftyp : Mp4Box
  moov : Mp4Box
  last_ftyp : state.regular.lastBox tagFtyp = some ftyp
  last_moov : state.regular.lastBox tagMoov = some moov
  content : moov.content = film.content
  video : state.hasVideoTrack = true

namespace ParsedFilm

variable (p : ParsedFilm)

/-- The segment of the regular path holds all tracks, and the separate ones those of their type. -/
structure InitsValid : Prop where
  combined : p.state.isFragmented = false → ∃ init, p.state.regular.initSegment = .ok init ∧
    ValidInit init.data p.film.allTracks
  separate : ∃ video audio, p.state.generateSeparateInitSegments = .ok (video,audio) ∧
    ValidInit video (p.film.tracksOf tagVide) ∧
    (p.state.hasAudioTrack → ∃ data, audio = some data ∧
      ValidInit data (p.film.tracksOf ParserState.tagSoun))

theorem ftyp_kind : p.ftyp.header.boxType = tagFtyp := by
  have hmem := (List.mem_filter.mp (List.mem_of_getLast? p.last_ftyp)).2
  simpa using hmem

theorem separate_iff : (∃ video audio, p.state.generateSeparateInitSegments = .ok (video,audio) ∧
      ValidInit video (p.film.tracksOf tagVide) ∧
      (p.state.hasAudioTrack → ∃ data, audio = some data ∧
        ValidInit data (p.film.tracksOf ParserState.tagSoun))) ↔
    p.film.Listed tagVide ∧ (p.state.hasAudioTrack → p.film.Listed ParserState.tagSoun) := by
  rw [← @separateInit_valid_iff p.film tagVide _ p.ftyp_kind,
    ← @separateInit_valid_iff p.film ParserState.tagSoun _ p.ftyp_kind]
  unfold ParserState.generateSeparateInitSegments
  rw [p.last_ftyp,p.last_moov]
  dsimp only
  rw [p.content,p.video]
  simp only [Bool.not_true,Bool.false_eq_true,if_false]
  constructor
  · intro h
    obtain ⟨video,audio,hrun,hvideo,haudio⟩ := h
    obtain ⟨data,hdata,hrun⟩ := bind_eq_ok.mp hrun
    split_ifs at hrun with hsound
    · obtain ⟨sound,hsoundData,hrun⟩ := bind_eq_ok.mp hrun
      cases hrun
      obtain ⟨data',hdata',hvalid⟩ := haudio hsound
      cases hdata'
      exact ⟨⟨_,hdata,hvideo⟩,fun _ => ⟨_,hsoundData,hvalid⟩⟩
    · cases hrun
      exact ⟨⟨_,hdata,hvideo⟩,fun hyes => absurd hyes hsound⟩
  · intro h
    obtain ⟨⟨video,hvideo,hvalid⟩,haudio⟩ := h
    rw [hvideo]
    dsimp only [bind,Except.bind]
    by_cases hsound : p.state.hasAudioTrack = true
    · obtain ⟨audio,haudio,hvalid'⟩ := haudio hsound
      rw [if_pos hsound,haudio]
      exact ⟨video,some audio,rfl,hvalid,fun _ => ⟨audio,rfl,hvalid'⟩⟩
    · rw [if_neg hsound]
      exact ⟨video,none,rfl,hvalid,fun hyes => absurd hyes hsound⟩

/-- The segments are valid exactly if the film is fragmented and its last `mvex` has, of the `trex`
boxes with the ids that are read in the tracks of a type, just those of these tracks. -/
theorem initsValid_iff : p.InitsValid ↔ p.state.isFragmented = true ∧ p.film.Listed tagVide ∧
    (p.state.hasAudioTrack → p.film.Listed ParserState.tagSoun) := by
  constructor
  · intro h
    have hlisted := p.separate_iff.mp h.separate
    refine ⟨?_,hlisted⟩
    by_contra hregular
    obtain ⟨init,hinit,hvalid⟩ := h.combined (by simpa using hregular)
    have hnone := no_mvex_of_combined p.last_moov p.content hinit hvalid
    apply hlisted.1.some_left
    unfold Film.leftInMvex
    rw [hnone]
    rfl
  · intro h
    obtain ⟨hfragmented,hlisted⟩ := h
    refine ⟨fun hregular => ?_,p.separate_iff.mpr hlisted⟩
    rw [hfragmented] at hregular
    cases hregular

/-- A track of pictures with headers of version 0. -/
def plainTrak : HeadedTrak where
  header := ⟨.v0,[0,0,7],0,0,1,5000,List.replicate 60 0,HeadedTrak.trackFlags_length,by decide⟩
  mediaHeader := ⟨.v0,[0,0,0],0,0,1000,5000,[0x55,0xc4,0,0],HeadedTrak.mediaFlags_length,
    by decide,by decide⟩
  handler := List.replicate 8 0++tagVide++List.replicate 13 0
  boxes := [⟨tagTkhd,TrackHeader.body ⟨.v0,[0,0,7],0,0,1,5000,List.replicate 60 0,
      HeadedTrak.trackFlags_length,by decide⟩⟩,
    ⟨tagMdia,encodeAll [⟨tagMdhd,MediaHeader.body ⟨.v0,[0,0,0],0,0,1000,5000,[0x55,0xc4,0,0],
      HeadedTrak.mediaFlags_length,by decide,by decide⟩⟩,
      ⟨tagHdlr,List.replicate 8 0++tagVide++List.replicate 13 0⟩]⟩]
  media := [⟨tagMdhd,MediaHeader.body ⟨.v0,[0,0,0],0,0,1000,5000,[0x55,0xc4,0,0],
      HeadedTrak.mediaFlags_length,by decide,by decide⟩⟩,
    ⟨tagHdlr,List.replicate 8 0++tagVide++List.replicate 13 0⟩]
  fits := by
    intro b hb
    rcases List.mem_pair.mp hb with rfl | rfl <;> exact ⟨rfl,by decide⟩
  media_fits := by
    intro b hb
    rcases List.mem_pair.mp hb with rfl | rfl <;> exact ⟨rfl,by decide⟩
  tkhd := by decide
  mdia := by decide
  mdhd := by decide
  hdlr := by decide
  handler_length := WellFormedMoov.pictureHandler_length

def plainFilm : Film where
  children := [.trak plainTrak]
  fits := by
    intro c hc
    cases List.mem_singleton.mp hc
    exact ⟨rfl,by decide +kernel⟩

/-- With an `mvex` for its track, a fragmented film is as it should be. -/
def extendedFilm : Film where
  children := [.trak plainTrak,.mvex [RegularMp4.trexBox 1] (by
    intro b hb
    cases List.mem_singleton.mp hb
    exact ⟨RegularMp4.trexBox_fits 1,fun _ => by decide⟩)]
  fits := by
    intro c hc
    rcases List.mem_pair.mp hc with rfl | rfl
    · exact ⟨rfl,by decide +kernel⟩
    · exact ⟨rfl,by decide +kernel⟩

example : extendedFilm.Listed tagVide :=
  ⟨by decide +kernel,by decide +kernel,by decide +kernel⟩

def plainFile : Bytes := encodeAll [⟨tagFtyp,[]⟩,⟨tagMoov,plainFilm.content⟩]

/-- The film as it is parsed. -/
def plainParsed : ParsedFilm where
  state := (ParserState.new.parse plainFile).toOption.getD .new
  film := plainFilm
  ftyp := ⟨⟨tagFtyp,8,8⟩,[]⟩
  moov := ⟨⟨tagMoov,(8+plainFilm.content.length),16⟩,plainFilm.content⟩
  last_ftyp := by decide +kernel
  last_moov := by decide +kernel
  content := rfl
  video := by decide +kernel

/-- The separate segment of the film has no `mvex`. -/
theorem plainParsed_not_valid : ParserState.new.parse plainFile = .ok plainParsed.state ∧
    plainParsed.state.generateSeparateInitSegments = .ok (plainFile,none) ∧
    ¬ plainParsed.InitsValid := by
  refine ⟨by decide +kernel,by decide +kernel,?_⟩
  intro h
  have hnone : plainFilm.lastMvex = none := rfl
  have hlisted : plainFilm.Listed tagVide := (plainParsed.separate_iff.mp h.separate).1
  apply hlisted.some_left
  unfold Film.leftInMvex
  rw [hnone]
  rfl

end ParsedFilm

end Init

end OpenBroadcast.Media
