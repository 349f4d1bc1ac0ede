import OpenBroadcast.Media.SeparateInit

namespace OpenBroadcast.Media

open RawBox

section Walks

variable {bs pre post : List RawBox} {kind body : Bytes}

theorem drop_header_encode (h : kind.length = 4) : (RawBox.mk kind body).encode.drop 8 = body := by
  have hlength : (toBe 4 (RawBox.mk kind body).size++kind).length = 8 := by
    rw [List.length_append,length_toBe,h]
  rw [encode,List.drop_left' hlength]

/-- A box that is the only one of its kind stands between others. -/
theorem split_of_unique (hone : bs.filter (fun b => b.kind == kind) = [⟨kind,body⟩]) :
    ∃ pre post, bs = pre++⟨kind,body⟩::post ∧ (∀ b ∈ pre, b.kind ≠ kind) ∧
      ∀ b ∈ post, b.kind ≠ kind := by
  obtain ⟨pre,post,rfl,hpre,_,hpost⟩ := List.filter_eq_cons_iff.mp hone
  refine ⟨pre,post,rfl,?_,?_⟩
  · intro b hb
    simpa using hpre b hb
  · intro b hb
    simpa using List.filter_eq_nil_iff.mp hpost b hb

theorem kind_of_unique (hone : bs.filter (fun b => b.kind == kind) = [⟨kind,body⟩]) {b : RawBox}
    (hb : b ∈ bs) (hkind : b.kind = kind) : b = ⟨kind,body⟩ := by
  have hmem : b ∈ bs.filter (fun b => b.kind == kind) :=
    List.mem_filter.mpr ⟨hb,by simpa using hkind⟩
  rw [hone] at hmem
  exact List.mem_singleton.mp hmem

/-- A search that looks no further than a box itself is one among the boxes that are written. -/
theorem findSome?_boxesIn {α : Type} {f : BoxAt → Option α} {g : RawBox → Option α}
    (h : ∀ b ∈ bs, b.Fits)
    (hfg : ∀ b ∈ bs, ∀ rest, f ⟨b.kind,b.size,b.encode++rest⟩ = g b) :
    (boxesIn (encodeAll bs)).findSome? f = bs.findSome? g := by
  induction bs with
  | nil => rfl
  | cons b bs ih =>
    have htail := ih (fun c hc => h c (List.mem_cons_of_mem _ hc))
      (fun c hc => hfg c (List.mem_cons_of_mem _ hc))
    rw [encodeAll_cons,boxesIn_encode (h b List.mem_cons_self),List.findSome?_cons,
      List.findSome?_cons,hfg b List.mem_cons_self,htail]

theorem findSome?_of_unique {α : Type} {g : RawBox → Option α}
    (hone : bs.filter (fun b => b.kind == kind) = [⟨kind,body⟩])
    (hother : ∀ b ∈ bs, b.kind ≠ kind → g b = none) : bs.findSome? g = g ⟨kind,body⟩ := by
  obtain ⟨pre,post,rfl,hpre,hpost⟩ := split_of_unique hone
  have hbefore : pre.findSome? g = none := by
    apply List.findSome?_eq_none_iff.mpr
    intro b hb
    exact hother b (List.mem_append_left _ hb) (hpre b hb)
  have hafter : post.findSome? g = none := by
    apply List.findSome?_eq_none_iff.mpr
    intro b hb
    exact hother b (List.mem_append_right _ (List.mem_cons_of_mem _ hb)) (hpost b hb)
  rw [List.findSome?_append,hbefore,Option.none_or,List.findSome?_cons,hafter]
  cases g ⟨kind,body⟩ <;> rfl

/-- The first box that is looked for, and where it is found. -/
theorem find?_boxesIn {b : RawBox} {p : BoxAt → Bool} (h : ∀ c ∈ pre++b::post, c.Fits)
    (hpre : ∀ c ∈ pre, ∀ rest, p ⟨c.kind,c.size,c.encode++rest⟩ = false)
    (hb : p ⟨b.kind,b.size,b.encode++encodeAll post⟩ = true) :
    (boxesIn (encodeAll (pre++b::post))).find? p =
      some ⟨b.kind,b.size,b.encode++encodeAll post⟩ := by
  induction pre with
  | nil =>
    rw [List.nil_append,encodeAll_cons,boxesIn_encode (h b List.mem_cons_self),
      List.find?_cons_of_pos hb]
  | cons c pre ih =>
    have htail := ih (fun d hd => h d (List.mem_cons_of_mem _ hd))
      (fun d hd => hpre d (List.mem_cons_of_mem _ hd))
    have hc := hpre c List.mem_cons_self (encodeAll (pre++b::post))
    rw [List.cons_append,encodeAll_cons,boxesIn_encode (h c List.mem_cons_self),
      List.find?_cons_of_neg (ne_true_of_eq_false hc)]
    exact htail

/-- A field of a box that is all there does not depend on what is behind the box. -/
theorem field_encode {b : RawBox} (h : b.Fits) {i n : Nat} (hin : i+n ≤ b.body.length)
    (rest : Bytes) : ((b.encode++rest).drop (8+i)).take n = (b.body.drop i).take n := by
  rw [← List.drop_drop,h.drop_header,List.drop_append_of_le_length (by omega),
    List.take_append_of_le_length (by rw [List.length_drop]; omega)]

end Walks

section Handlers

/-- The content of a `trak` with one `mdia` that has one `hdlr`, which has room for the handler
type. -/
structure HandledTrak where
  boxes : List RawBox
  media : List RawBox
  handler : Bytes
  fits : ∀ b ∈ boxes, b.Fits
  media_fits : ∀ b ∈ media, b.Fits
  mdia : boxes.filter (fun b => b.kind == tagMdia) = [⟨tagMdia,encodeAll media⟩]
  hdlr : media.filter (fun b => b.kind == tagHdlr) = [⟨tagHdlr,handler⟩]
  handler_length : 12 ≤ handler.length

namespace HandledTrak

variable (t : HandledTrak)

def box : RawBox := ⟨tagTrak,encodeAll t.boxes⟩

/-- Behind the version and the flags are a reserved field and the handler type. -/
def preDefined : Bytes := (t.handler.drop 4).take 4

def handlerType : Bytes := (t.handler.drop 8).take 4

theorem drop_header : t.box.encode.drop 8 = encodeAll t.boxes := drop_header_encode rfl

theorem mdiaIsVideo_eq :
    mdiaIsVideo (RawBox.mk tagMdia (encodeAll t.media)).encode = some (t.preDefined == tagVide) := by
  have hlong := t.handler_length
  have hsearch := findSome?_boxesIn t.media_fits
    (f := fun b => if b.kind = tagHdlr ∧ 16 ≤ b.rest.length then
      some ((b.rest.drop 12).take 4 == tagVide) else none)
    (g := fun b => if b.kind = tagHdlr then some ((b.body.drop 4).take 4 == tagVide) else none)
  unfold mdiaIsVideo
  rw [drop_header_encode rfl,hsearch,findSome?_of_unique t.hdlr (fun _ _ hb => if_neg hb),
    if_pos rfl]
  · rfl
  · intro b hb rest
    dsimp only
    by_cases hkind : b.kind = tagHdlr
    · have hbody : b.body = t.handler := by rw [kind_of_unique t.hdlr hb hkind]
      have hb := t.media_fits b hb
      have hlength : 16 ≤ (b.encode++rest).length := by
        rw [List.length_append,hb.length_encode,RawBox.size,hbody]
        omega
      have hfield := field_encode hb (i := 4) (n := 4) (by rw [hbody]; omega) rest
      rw [if_pos ⟨hkind,hlength⟩,if_pos hkind,hfield]
    · rw [if_neg (fun hand => hkind hand.1),if_neg hkind]

/-- The one reader looks at the reserved field. -/
theorem isVideoTrack_eq : isVideoTrack t.box.encode = (t.preDefined == tagVide) := by
  have hsearch := findSome?_boxesIn t.fits
    (f := fun b => if b.kind = tagMdia then mdiaIsVideo b.bytes else none)
    (g := fun b => if b.kind = tagMdia then mdiaIsVideo b.encode else none)
  unfold isVideoTrack
  rw [t.drop_header,hsearch,findSome?_of_unique t.mdia (fun _ _ hb => if_neg hb),if_pos rfl,
    t.mdiaIsVideo_eq]
  · rfl
  · intro b hb rest
    have hbytes : BoxAt.bytes ⟨b.kind,b.size,b.encode++rest⟩ = b.encode :=
      (t.fits b hb).take_size rest
    dsimp only
    rw [hbytes]

/-- Where the other reader finds the handler type in the `mdia`. -/
theorem handlerType_mdia {rest : Bytes} (h : (RawBox.mk tagMdia (encodeAll t.media)).Fits)
    (bs : List BoxAt) :
    Media.handlerType (⟨tagMdia,(RawBox.mk tagMdia (encodeAll t.media)).size,
      (RawBox.mk tagMdia (encodeAll t.media)).encode++rest⟩::bs) = .ok (some t.handlerType) := by
  obtain ⟨pre,post,hsplit,hpre,_⟩ := split_of_unique t.hdlr
  have hlong := t.handler_length
  have hhdlr : (RawBox.mk tagHdlr t.handler).Fits := by
    apply t.media_fits
    rw [hsplit]
    exact List.mem_append_right _ List.mem_cons_self
  have hlength : 20 ≤ ((RawBox.mk tagHdlr t.handler).encode++encodeAll post).length := by
    rw [List.length_append,hhdlr.length_encode,RawBox.size]
    dsimp only
    omega
  have hbytes : BoxAt.content ⟨tagMdia,(RawBox.mk tagMdia (encodeAll t.media)).size,
      (RawBox.mk tagMdia (encodeAll t.media)).encode++rest⟩ = encodeAll t.media := by
    unfold BoxAt.content BoxAt.bytes
    dsimp only
    rw [h.take_size,drop_header_encode rfl]
  have hfind : findHdlr ⟨tagMdia,(RawBox.mk tagMdia (encodeAll t.media)).size,
      (RawBox.mk tagMdia (encodeAll t.media)).encode++rest⟩ =
      some ⟨tagHdlr,(RawBox.mk tagHdlr t.handler).size,
        (RawBox.mk tagHdlr t.handler).encode++encodeAll post⟩ := by
    unfold findHdlr
    rw [hbytes,hsplit]
    apply find?_boxesIn (by rw [← hsplit]; exact t.media_fits)
    · intro c hc rest'
      simp [hpre c hc]
    · simp only [beq_self_eq_true,Bool.true_and,decide_eq_true_eq]
      omega
  have hmedia : encodeAll t.media = encodeAll pre++
      ((RawBox.mk tagHdlr t.handler).encode++encodeAll post) := by
    rw [hsplit,encodeAll_append,encodeAll_cons]
  have hsize : (RawBox.mk tagMdia (encodeAll t.media)).size-
      ((RawBox.mk tagHdlr t.handler).encode++encodeAll post).length =
      8+(encodeAll pre).length := by
    unfold RawBox.size
    dsimp only
    rw [hmedia,List.length_append]
    omega
  have hplace : childInTrak ⟨tagMdia,(RawBox.mk tagMdia (encodeAll t.media)).size,
      (RawBox.mk tagMdia (encodeAll t.media)).encode++rest⟩
      ⟨tagHdlr,(RawBox.mk tagHdlr t.handler).size,
        (RawBox.mk tagHdlr t.handler).encode++encodeAll post⟩ =
      (RawBox.mk tagHdlr t.handler).encode++(encodeAll post++rest) := by
    unfold childInTrak
    dsimp only
    rw [hsize,← List.drop_drop,h.drop_header]
    dsimp only
    rw [hmedia,List.append_assoc,List.drop_left,List.append_assoc]
  have hslice : 20 ≤ ((RawBox.mk tagHdlr t.handler).encode++(encodeAll post++rest)).length := by
    rw [← List.append_assoc,List.length_append]
    omega
  have hfield := field_encode hhdlr (i := 8) (n := 4) (by dsimp only; omega)
    (encodeAll post++rest)
  rw [Media.handlerType,if_pos rfl,hfind]
  dsimp only
  rw [hplace,sliceAt_ok (by omega) hslice,hfield]
  rfl

theorem handlerType_boxesIn : Media.handlerType (boxesIn (encodeAll t.boxes)) =
    .ok (some t.handlerType) := by
  obtain ⟨pre,post,hsplit,hpre,_⟩ := split_of_unique t.mdia
  have hfits := t.fits
  rw [hsplit] at hfits ⊢
  clear hsplit
  induction pre with
  | nil =>
    have hmdia : (RawBox.mk tagMdia (encodeAll t.media)).Fits := hfits _ List.mem_cons_self
    rw [List.nil_append,encodeAll_cons,boxesIn_encode hmdia]
    exact t.handlerType_mdia hmdia _
  | cons b pre ih =>
    rw [List.cons_append,encodeAll_cons,boxesIn_encode (hfits b List.mem_cons_self),
      Media.handlerType,if_neg (hpre b List.mem_cons_self)]
    exact ih (fun c hc => hpre c (List.mem_cons_of_mem _ hc))
      (fun c hc => hfits c (List.mem_cons_of_mem _ hc))

/-- The other reader looks at the handler type. -/
theorem trackHasHandlerType_eq (keepType : Bytes) :
    trackHasHandlerType t.box.encode keepType = .ok (t.handlerType == keepType) := by
  unfold trackHasHandlerType
  rw [t.drop_header,t.handlerType_boxesIn]
  rfl

end HandledTrak

end Handlers

section Filters

/-- A child of a `moov`: a `trak`, or a box of another kind. -/
inductive MoovChild where
  | trak (t : HandledTrak)
  | other (b : RawBox) (h : b.kind ≠ tagTrak)

namespace MoovChild

def box : MoovChild → RawBox
  | trak t => t.box
  | other b _ => b

/-- All children but the tracks of other handler types. -/
def isKept (keepType : Bytes) : MoovChild → Bool
  | trak t => t.handlerType == keepType
  | other _ _ => true

def isMvex (c : MoovChild) : Bool := c.box.kind == tagMvex

end MoovChild

structure WellFormedMoov where
  children : List MoovChild
  fits : ∀ c ∈ children, c.box.Fits

namespace WellFormedMoov

variable (m : WellFormedMoov)

def content : Bytes := encodeAll (m.children.map MoovChild.box)

/-- The children that stay, in their order. -/
def kept (keepType : Bytes) : List RawBox :=
  (m.children.filter (MoovChild.isKept keepType)).map MoovChild.box

/-- The children that stay and are not an `mvex`. -/
def keptApart (keepType : Bytes) : List RawBox :=
  (m.children.filter (fun c => c.isKept keepType && !c.isMvex)).map MoovChild.box

/-- Both filters leave the tracks with the handler type of video, and they agree on every track. -/
structure TracksFiltered : Prop where
  videoOnly : createVideoOnlyMoov m.content = encodeAll (m.kept tagVide)
  filtered : ∃ mvex : Option RawBox, (∀ b ∈ mvex, b.kind = tagMvex) ∧
    filterMoovForTrackType m.content tagVide =
      .ok (encodeAll (m.keptApart tagVide)++encodeAll mvex.toList)
  agree : ∀ t, MoovChild.trak t ∈ m.children →
    trackHasHandlerType t.box.encode tagVide = .ok (isVideoTrack t.box.encode)

theorem box_fits : ∀ b ∈ m.children.map MoovChild.box, b.Fits := by
  intro b hb
  obtain ⟨c,hc,rfl⟩ := List.mem_map.mp hb
  exact m.fits c hc

/-- What is kept of a child apart from an `mvex`, and its track id. -/
def keptOf (keepType : Bytes) : MoovChild → Bytes × Option UInt32
  | .trak t => if t.handlerType == keepType then
      (t.box.encode,extractTrackIdFromTrak t.box.encode) else ([],none)
  | .other b _ => (if b.kind = tagMvex then [] else b.encode,none)

theorem keepChild_box (c : MoovChild) (keepType : Bytes) {b : BoxAt}
    (hkind : b.kind = c.box.kind) (hbytes : b.bytes = c.box.encode) :
    keepChild keepType b = .ok (keptOf keepType c) := by
  unfold keepChild
  rw [hkind,hbytes]
  cases c with
  | trak t =>
    have htrak : (MoovChild.trak t).box.kind = tagTrak := rfl
    rw [if_pos htrak]
    simp only [MoovChild.box,t.trackHasHandlerType_eq,keptOf]
    cases t.handlerType == keepType <;> rfl
  | other b h =>
    have hother : (MoovChild.other b h).box.kind ≠ tagTrak := h
    rw [if_neg hother]
    rfl

/-- Every child is found by the walk. -/
theorem children_found : List.Forall₂ (fun b c => b.kind = c.box.kind ∧ b.bytes = c.box.encode)
    (boxesIn m.content) m.children := by
  have hwalk := boxesIn_encodeAll m.box_fits
  rw [List.map_map] at hwalk
  have hpairs : List.Forall₂ (fun p q => p = q)
      ((boxesIn m.content).map (fun b => (b.kind,b.bytes)))
      (m.children.map ((fun b => (b.kind,b.encode)) ∘ MoovChild.box)) := by
    rw [List.forall₂_eq_eq_eq]
    exact hwalk
  rw [List.forall₂_map_left_iff,List.forall₂_map_right_iff] at hpairs
  exact hpairs.imp (fun _ _ h => Prod.mk.inj h)

theorem mapM_keepChild (keepType : Bytes) :
    (boxesIn m.content).mapM (keepChild keepType) = .ok (m.children.map (keptOf keepType)) := by
  rw [mapM_eq_ok_iff,List.forall₂_map_right_iff]
  exact m.children_found.imp (fun _ c h => keepChild_box c keepType h.1 h.2)

theorem flatMap_keptOf (keepType : Bytes) (cs : List MoovChild) :
    (cs.map (keptOf keepType)).flatMap Prod.fst =
      encodeAll ((cs.filter (fun c => c.isKept keepType && !c.isMvex)).map MoovChild.box) := by
  induction cs with
  | nil => rfl
  | cons c cs ih =>
    rw [List.map_cons,List.flatMap_cons,ih]
    cases c with
    | trak t =>
      have hmvex : (MoovChild.trak t).isMvex = false := rfl
      cases hkept : t.handlerType == keepType <;>
        simp [keptOf,MoovChild.isKept,hmvex,hkept,MoovChild.box]
    | other b h =>
      by_cases hkind : b.kind = tagMvex <;>
        simp [keptOf,MoovChild.isKept,MoovChild.isMvex,MoovChild.box,hkind]

/-- What is left of an `mvex` is an `mvex`, or nothing. -/
theorem filterMvexForTracks_eq {mvex : Bytes} (h8 : 8 ≤ mvex.length) (hlt : mvex.length < 2^32)
    (ids : List UInt32) : ∃ left : Option RawBox, (∀ b ∈ left, b.kind = tagMvex) ∧
      filterMvexForTracks mvex ids = .ok (encodeAll left.toList) := by
  have hle : ((boxesIn (mvex.drop 8)).flatMap (keptInMvex ids)).length ≤ (mvex.drop 8).length := by
    apply length_flatMap_boxesFrom_le
    intro b
    unfold keptInMvex
    split_ifs <;> simp
  rw [List.length_drop] at hle
  unfold filterMvexForTracks
  dsimp only
  split_ifs
  · exact ⟨none,by simp,rfl⟩
  · refine ⟨some ⟨tagMvex,(boxesIn (mvex.drop 8)).flatMap (keptInMvex ids)⟩,by simp,?_⟩
    rw [wrapBox_ok tagMvex (by omega),Option.toList_some,encodeAll_cons,encodeAll_nil,
      List.append_nil]

/-- The filter by handler type always leaves the right tracks. -/
theorem filterMoovForTrackType_eq (keepType : Bytes) :
    ∃ mvex : Option RawBox, (∀ b ∈ mvex, b.kind = tagMvex) ∧
      filterMoovForTrackType m.content keepType =
        .ok (encodeAll (m.keptApart keepType)++encodeAll mvex.toList) := by
  unfold filterMoovForTrackType
  rw [m.mapM_keepChild]
  dsimp only [bind,Except.bind]
  rw [flatMap_keptOf]
  cases hlast : ((boxesIn m.content).filter (fun b => b.kind == tagMvex)).getLast? with
  | none => exact ⟨none,by simp,rfl⟩
  | some b =>
    have hmem : b ∈ boxesIn m.content := (List.mem_filter.mp (List.mem_of_getLast? hlast)).1
    obtain ⟨c,hc,_,hbytes⟩ := forall₂_mem_left m.children_found hmem
    have hlength := (m.fits c hc).length_encode
    have hsize := (m.fits c hc).size
    have h8 := c.box.eight_le_size
    obtain ⟨left,hleft,hfilter⟩ := @filterMvexForTracks_eq b.bytes
      (by rw [hbytes,hlength]; exact h8) (by rw [hbytes,hlength]; exact hsize)
      ((m.children.map (keptOf keepType)).filterMap Prod.snd)
    refine ⟨left,hleft,?_⟩
    dsimp only
    rw [hfilter]
    rfl

/-- The other filter leaves the tracks whose reserved field says so. -/
theorem createVideoOnlyMoov_eq : createVideoOnlyMoov m.content =
    m.children.flatMap (fun c =>
      if c.box.kind = tagTrak ∧ !isVideoTrack c.box.encode then [] else c.box.encode) := by
  have hwalk : createVideoOnlyMoov m.content =
      ((boxesIn m.content).map (fun b => (b.kind,b.bytes))).flatMap
        (fun b => if b.1 = tagTrak ∧ !isVideoTrack b.2 then [] else b.2) := by
    unfold createVideoOnlyMoov
    rw [List.flatMap_map]
  rw [hwalk]
  unfold content
  rw [boxesIn_encodeAll m.box_fits,List.flatMap_map,List.flatMap_map]

theorem videoOnly_of_agree (h : ∀ t, MoovChild.trak t ∈ m.children →
    (t.preDefined == tagVide) = (t.handlerType == tagVide)) :
    createVideoOnlyMoov m.content = encodeAll (m.kept tagVide) := by
  rw [m.createVideoOnlyMoov_eq]
  unfold kept
  generalize m.children = cs at h
  induction cs with
  | nil => rfl
  | cons c cs ih =>
    rw [List.flatMap_cons,ih (fun t ht => h t (List.mem_cons_of_mem _ ht))]
    cases c with
    | trak t =>
      have hagree := h t List.mem_cons_self
      have hvideo : isVideoTrack (MoovChild.trak t).box.encode = (t.handlerType == tagVide) :=
        t.isVideoTrack_eq.trans hagree
      have hkind : (MoovChild.trak t).box.kind = tagTrak := rfl
      rw [hvideo,hkind]
      cases hkept : t.handlerType == tagVide <;> simp [MoovChild.isKept,hkept]
    | other b hother =>
      have hkind : (MoovChild.other b hother).box.kind ≠ tagTrak := hother
      have hkept : (MoovChild.other b hother).isKept tagVide = true := rfl
      rw [if_neg (fun hand => hkind hand.1),List.filter_cons_of_pos hkept]
      rfl

/-- Both filters agree exactly if the reserved field of every handler is as good as its type. -/
theorem tracksFiltered_iff : m.TracksFiltered ↔ ∀ t, MoovChild.trak t ∈ m.children →
    (t.preDefined = tagVide ↔ t.handlerType = tagVide) := by
  constructor
  · intro h t ht
    have hagree := h.agree t ht
    rw [t.trackHasHandlerType_eq,t.isVideoTrack_eq] at hagree
    have hbeq := Except.ok.inj hagree
    have hpre : t.preDefined = tagVide ↔ (t.preDefined == tagVide) = true := beq_iff_eq.symm
    have htype : t.handlerType = tagVide ↔ (t.handlerType == tagVide) = true := beq_iff_eq.symm
    rw [hpre,htype,hbeq]
  · intro h
    have hbeq : ∀ t, MoovChild.trak t ∈ m.children →
        (t.preDefined == tagVide) = (t.handlerType == tagVide) := by
      intro t ht
      rw [Bool.eq_iff_iff,beq_iff_eq,beq_iff_eq]
      exact h t ht
    refine ⟨m.videoOnly_of_agree hbeq,m.filterMoovForTrackType_eq tagVide,?_⟩
    intro t ht
    rw [t.trackHasHandlerType_eq,t.isVideoTrack_eq,hbeq t ht]

theorem pictureHandler_length :
    12 ≤ (List.replicate 8 0++tagVide++List.replicate 13 0).length := by
  decide

/-- A track of pictures whose handler is as the standard wants it. -/
def pictureTrak : HandledTrak where
  boxes := [⟨tagMdia,encodeAll [⟨tagHdlr,List.replicate 8 0++tagVide++List.replicate 13 0⟩]⟩]
  media := [⟨tagHdlr,List.replicate 8 0++tagVide++List.replicate 13 0⟩]
  handler := List.replicate 8 0++tagVide++List.replicate 13 0
  fits := by
    intro b hb
    cases List.mem_singleton.mp hb
    exact ⟨rfl,by decide⟩
  media_fits := by
    intro b hb
    cases List.mem_singleton.mp hb
    exact ⟨rfl,by decide⟩
  mdia := by decide
  hdlr := by decide
  handler_length := pictureHandler_length

def pictureMoov : WellFormedMoov where
  children := [.trak pictureTrak]
  fits := by
    intro c hc
    cases List.mem_singleton.mp hc
    exact ⟨rfl,by decide⟩

/-- The only track of a film is filtered out. -/
theorem pictureMoov_emptied : createVideoOnlyMoov pictureMoov.content = [] ∧
    filterMoovForTrackType pictureMoov.content tagVide = .ok pictureMoov.content ∧
    ¬ pictureMoov.TracksFiltered := by
  refine ⟨by decide,by decide,?_⟩
  intro h
  have hagree := h.agree pictureTrak List.mem_cons_self
  rw [pictureTrak.trackHasHandlerType_eq,pictureTrak.isVideoTrack_eq] at hagree
  revert hagree
  decide

end WellFormedMoov

end Filters

end OpenBroadcast.Media
