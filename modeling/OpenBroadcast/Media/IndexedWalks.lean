import OpenBroadcast.Media.SeparateInit
import Mathlib.Data.List.Find

namespace OpenBroadcast.Media

/-! The walks over the boxes of a `moov` as the code indexes them. -/

namespace Indexed

section Walk

/-- A box at a cursor. -/
structure Place where
  kind : Bytes
  cursor : Nat
  size : Nat

/-- The loop over the boxes from a cursor on, up to an end that may be before that of the data. -/
def placesFrom (data : Bytes) (stop : Nat) : Nat → Nat → Except Mp4Error (List Place)
  | 0,_ => .ok []
  | n+1,cursor =>
    if stop < cursor+8 then .ok []
    else do
      let size ← u32At data cursor
      if size.toNat < 8 ∨ stop < cursor+size.toNat then return []
      else do
        let kind ← sliceAt data (cursor+4) (cursor+8)
        let places ← placesFrom data stop n (cursor+size.toNat)
        return ⟨kind,cursor,size.toNat⟩::places

/-- The cursor of a box that is met on the way to an end. -/
def placeOf (stop : Nat) (b : BoxAt) : Place := ⟨b.kind,stop-b.rest.length,b.size⟩

variable {data : Bytes} {stop : Nat}

theorem take_drop_take {cursor n : Nat} (h : cursor+n ≤ stop) :
    ((data.take stop).drop cursor).take n = (data.drop cursor).take n := by
  rw [List.drop_take,List.take_take,Nat.min_eq_left (by omega)]

theorem readU32_toNat (offset : Nat) (data : Bytes) :
    (readU32 offset data).toNat = beNat ((data.drop offset).take 4) := by
  have hlt := beNat_lt ((data.drop offset).take 4)
  have hle : 256^((data.drop offset).take 4).length ≤ 256^4 :=
    Nat.pow_le_pow_right (by decide) (by rw [List.length_take]; omega)
  rw [readU32,UInt32.toNat_ofNat']
  exact Nat.mod_eq_of_lt (by omega)

/-- The walk never reads behind the data. -/
theorem placesFrom_eq (hstop : stop ≤ data.length) (n cursor : Nat) :
    placesFrom data stop n cursor =
      .ok ((boxesFrom n ((data.take stop).drop cursor)).map (placeOf stop)) := by
  induction n generalizing cursor with
  | zero => rfl
  | succ n ih =>
    have hlength : ((data.take stop).drop cursor).length = stop-cursor := by
      rw [List.length_drop,List.length_take,Nat.min_eq_left hstop]
    rw [placesFrom,boxesFrom]
    by_cases hheader : stop < cursor+8
    · rw [if_pos hheader,if_pos (by omega)]
      rfl
    have hsize : (readU32 cursor data).toNat = beNat (((data.take stop).drop cursor).take 4) := by
      rw [readU32_toNat,take_drop_take (by omega)]
    rw [if_neg hheader,u32At_ok (by omega)]
    dsimp only [bind,Except.bind]
    rw [hsize]
    by_cases hend : beNat (((data.take stop).drop cursor).take 4) < 8 ∨
        stop < cursor+beNat (((data.take stop).drop cursor).take 4)
    · rw [if_pos hend,if_pos (by omega)]
      rfl
    · have hkind : (data.drop (cursor+4)).take 4 =
          (((data.take stop).drop cursor).drop 4).take 4 := by
        rw [List.drop_drop,take_drop_take (by omega)]
      have hwidth : cursor+8-(cursor+4) = 4 := by omega
      have hplace : stop-((data.take stop).drop cursor).length = cursor := by omega
      rw [if_neg hend,if_neg (by omega),sliceAt_ok (by omega) (by omega),hwidth,hkind]
      have hskip : (data.take stop).drop (cursor+beNat (((data.take stop).drop cursor).take 4)) =
          ((data.take stop).drop cursor).drop (beNat (((data.take stop).drop cursor).take 4)) :=
        List.drop_drop.symm
      dsimp only
      rw [ih,hskip,List.map_cons]
      dsimp only [placeOf]
      rw [hplace]
      rfl

/-- The boxes from a cursor on. -/
def places (data : Bytes) (start stop : Nat) : Except Mp4Error (List Place) :=
  placesFrom data stop data.length start

theorem places_eq (hstop : stop ≤ data.length) (start : Nat) :
    places data start stop = .ok ((boxesIn ((data.take stop).drop start)).map (placeOf stop)) := by
  have hlength : ((data.take stop).drop start).length ≤ data.length := by
    rw [List.length_drop,List.length_take]
    omega
  unfold places boxesIn
  rw [placesFrom_eq hstop,boxesFrom_enough hlength (le_refl _)]

theorem mem_boxesFrom {n : Nat} {data : Bytes} {b : BoxAt} (h : b ∈ boxesFrom n data) :
    b.rest = data.drop (data.length-b.rest.length) ∧ b.size ≤ b.rest.length ∧
      b.rest.length ≤ data.length := by
  induction n generalizing data with
  | zero => cases h
  | succ n ih =>
    rw [boxesFrom] at h
    split_ifs at h with hstop
    · cases h
    rcases List.mem_cons.mp h with rfl | h
    · refine ⟨?_,by dsimp only; omega,le_refl _⟩
      dsimp only
      rw [Nat.sub_self,List.drop_zero]
    · obtain ⟨hrest,hsize,hle⟩ := ih h
      rw [List.length_drop] at hrest hle
      refine ⟨?_,hsize,by omega⟩
      rw [hrest,List.drop_drop,List.length_drop]
      congr 1
      omega

/-- What stands at the cursor of a box that is found. -/
theorem placeOf_rest (hstop : stop ≤ data.length) {start : Nat} {b : BoxAt}
    (h : b ∈ boxesIn ((data.take stop).drop start)) :
    b.rest = (data.take stop).drop (placeOf stop b).cursor ∧
      (placeOf stop b).cursor+b.rest.length = stop ∧ b.size ≤ b.rest.length := by
  have hlength : (data.take stop).length = stop := by rw [List.length_take,Nat.min_eq_left hstop]
  obtain ⟨hrest,hsize,hle⟩ := mem_boxesFrom h
  rw [List.length_drop,hlength] at hrest hle
  have hcursor : (placeOf stop b).cursor = stop-b.rest.length := rfl
  refine ⟨?_,by omega,hsize⟩
  rw [hcursor]
  by_cases hnil : b.rest.length = 0
  · rw [List.eq_nil_of_length_eq_zero hnil]
    symm
    rw [List.drop_eq_nil_iff]
    simp only [List.length_nil]
    omega
  · rw [List.drop_drop] at hrest
    have hsum : start+(stop-start-b.rest.length) = stop-b.rest.length := by omega
    rw [hsum] at hrest
    exact hrest

/-- The bytes of a box are all there. -/
theorem sliceAt_placeOf (hstop : stop ≤ data.length) {start : Nat} {b : BoxAt}
    (h : b ∈ boxesIn ((data.take stop).drop start)) :
    sliceAt data (placeOf stop b).cursor ((placeOf stop b).cursor+b.size) = .ok b.bytes := by
  obtain ⟨hrest,hend,hsize⟩ := placeOf_rest hstop h
  have hwidth : (placeOf stop b).cursor+b.size-(placeOf stop b).cursor = b.size :=
    Nat.add_sub_cancel_left _ _
  rw [sliceAt_ok (by omega) (by omega),hwidth,BoxAt.bytes,hrest,take_drop_take (by omega)]

end Walk

section Filters

/-- The handler type in the first `mdia` that has an `hdlr`. -/
def handlerType (trak : Bytes) : List Place → Except Mp4Error (Option Bytes)
  | [] => .ok none
  | b::bs =>
    if b.kind = tagMdia then do
      let inner ← places trak (b.cursor+8) (b.cursor+b.size)
      match inner.find? (fun c =>
        c.kind == tagHdlr && decide (c.cursor+16 ≤ b.cursor+b.size)) with
      | some hdlr => (sliceAt trak (hdlr.cursor+16) (hdlr.cursor+20)).map some
      | none => handlerType trak bs
    else handlerType trak bs

def trackHasHandlerType (trak keepType : Bytes) : Except Mp4Error Bool := do
  let boxes ← places trak 8 trak.length
  let found ← handlerType trak boxes
  return found == some keepType

def trackIdAmong (trak : Bytes) : List Place → Except Mp4Error (Option UInt32)
  | [] => .ok none
  | b::bs =>
    if b.kind = tagTkhd ∧ b.cursor+24 ≤ trak.length then (u32At trak (b.cursor+20)).map some
    else trackIdAmong trak bs

def extractTrackIdFromTrak (trak : Bytes) : Except Mp4Error (Option UInt32) := do
  let boxes ← places trak 8 trak.length
  trackIdAmong trak boxes

def keptInMvex (mvex : Bytes) (keptTrackIds : List UInt32) (b : Place) : Except Mp4Error Bytes :=
  if b.kind = tagTrex then
    if b.cursor+16 ≤ mvex.length then do
      let trackId ← u32At mvex (b.cursor+12)
      if trackId ∈ keptTrackIds then sliceAt mvex b.cursor (b.cursor+b.size) else return []
    else .ok []
  else sliceAt mvex b.cursor (b.cursor+b.size)

def filterMvexForTracks (mvex : Bytes) (keptTrackIds : List UInt32) : Except Mp4Error Bytes :=
  if mvex.length < 8 then .ok []
  else do
    let boxes ← places mvex 8 mvex.length
    let content ← boxes.mapM (keptInMvex mvex keptTrackIds)
    if content.flatten.isEmpty then return [] else wrapBox tagMvex content.flatten

def keepChild (content keepType : Bytes) (b : Place) :
    Except Mp4Error (Bytes × Option UInt32) :=
  if b.kind = tagTrak then do
    let trak ← sliceAt content b.cursor (b.cursor+b.size)
    let keep ← trackHasHandlerType trak keepType
    if keep then do
      let trackId ← extractTrackIdFromTrak trak
      return (trak,trackId)
    else return ([],none)
  else if b.kind = tagMvex then .ok ([],none)
  else do
    let bytes ← sliceAt content b.cursor (b.cursor+b.size)
    return (bytes,none)

def filterMoovForTrackType (content keepType : Bytes) : Except Mp4Error Bytes := do
  let boxes ← places content 0 content.length
  let kept ← boxes.mapM (keepChild content keepType)
  let mvex ←
    match (boxes.filter (fun b => b.kind == tagMvex)).getLast? with
    | some b => do
      let mvex ← sliceAt content b.cursor (b.cursor+b.size)
      filterMvexForTracks mvex (kept.filterMap Prod.snd)
    | none => .ok []
  return kept.flatMap Prod.fst++mvex

variable {trak content : Bytes}

theorem readU32_placeOf {data : Bytes} {start offset : Nat} {b : BoxAt}
    (h : b ∈ boxesIn ((data.take data.length).drop start)) (hoffset : offset+4 ≤ b.rest.length) :
    u32At data ((placeOf data.length b).cursor+offset) = .ok (readU32 offset b.rest) := by
  obtain ⟨hrest,hend,_⟩ := placeOf_rest (le_refl _) h
  rw [u32At_ok (by omega),← readU32_drop]
  rw [List.take_length] at hrest
  rw [← hrest]

/-- Where an `mdia` and an `hdlr` in it are. -/
theorem childInTrak_eq {b c : BoxAt} (hb : b ∈ boxesIn ((trak.take trak.length).drop 8))
    (hc : c ∈ boxesIn b.content) :
    childInTrak b c = trak.drop (placeOf ((placeOf trak.length b).cursor+b.size) c).cursor := by
  obtain ⟨hrest,hend,hsize⟩ := placeOf_rest (le_refl _) hb
  obtain ⟨_,_,hle⟩ := mem_boxesFrom hc
  have hcontent := b.length_content_le
  have hcursor : (placeOf ((placeOf trak.length b).cursor+b.size) c).cursor =
      (placeOf trak.length b).cursor+(b.size-c.rest.length) := by
    have hdef : (placeOf ((placeOf trak.length b).cursor+b.size) c).cursor =
        (placeOf trak.length b).cursor+b.size-c.rest.length := rfl
    omega
  rw [List.take_length] at hrest
  unfold childInTrak
  rw [hcursor,← List.drop_drop,← hrest]

theorem sliceAt_drop (data : Bytes) (skip start stop : Nat) (hskip : skip ≤ data.length) :
    sliceAt (data.drop skip) start stop = sliceAt data (skip+start) (skip+stop) := by
  have hwidth : skip+stop-(skip+start) = stop-start := by omega
  unfold sliceAt
  rw [List.length_drop,List.drop_drop,hwidth]
  congr 1
  rw [eq_iff_iff]
  omega

theorem findHdlr_eq (trak : Bytes) (b : BoxAt) :
    ((boxesIn b.content).map (placeOf ((placeOf trak.length b).cursor+b.size))).find? (fun c =>
      c.kind == tagHdlr && decide (c.cursor+16 ≤ (placeOf trak.length b).cursor+b.size)) =
      (findHdlr b).map (placeOf ((placeOf trak.length b).cursor+b.size)) := by
  unfold findHdlr
  rw [List.find?_map]
  congr 1
  apply List.find?_congr
  intro c hc
  obtain ⟨_,_,hle⟩ := mem_boxesFrom hc
  have hcontent := b.length_content_le
  have hkind : (placeOf ((placeOf trak.length b).cursor+b.size) c).kind = c.kind := rfl
  have hcursor : (placeOf ((placeOf trak.length b).cursor+b.size) c).cursor =
      (placeOf trak.length b).cursor+b.size-c.rest.length := rfl
  rw [Function.comp_apply,hkind,hcursor]
  congr 1
  rw [decide_eq_decide]
  omega

theorem handlerType_eq {bs : List BoxAt}
    (h : ∀ b ∈ bs, b ∈ boxesIn ((trak.take trak.length).drop 8)) :
    handlerType trak (bs.map (placeOf trak.length)) = Media.handlerType bs := by
  induction bs with
  | nil => rfl
  | cons b bs ih =>
    have hb := h b List.mem_cons_self
    have htail := ih (fun c hc => h c (List.mem_cons_of_mem _ hc))
    obtain ⟨hrest,hend,hsize⟩ := placeOf_rest (le_refl _) hb
    have hkind : (placeOf trak.length b).kind = b.kind := rfl
    have hwidth : (placeOf trak.length b).size = b.size := rfl
    rw [List.map_cons,handlerType,Media.handlerType,hkind,hwidth]
    by_cases hmdia : b.kind = tagMdia
    · have hcontent : (trak.take ((placeOf trak.length b).cursor+b.size)).drop
          ((placeOf trak.length b).cursor+8) = b.content := by
        rw [List.take_length] at hrest
        unfold BoxAt.content BoxAt.bytes
        rw [hrest,List.drop_take,List.drop_take,List.drop_drop]
        congr 1
        omega
      rw [if_pos hmdia,if_pos hmdia,places_eq (by omega),hcontent]
      dsimp only [bind,Except.bind]
      rw [findHdlr_eq]
      cases hfind : findHdlr b with
      | none => exact htail
      | some c =>
        have hc : c ∈ boxesIn b.content := List.mem_of_find?_eq_some hfind
        have hplace : (placeOf ((placeOf trak.length b).cursor+b.size) c).cursor ≤ trak.length := by
          have hdef : (placeOf ((placeOf trak.length b).cursor+b.size) c).cursor =
              (placeOf trak.length b).cursor+b.size-c.rest.length := rfl
          omega
        dsimp only [Option.map]
        rw [childInTrak_eq hb hc,sliceAt_drop _ _ _ _ hplace]
    · rw [if_neg hmdia,if_neg hmdia]
      exact htail

theorem trackHasHandlerType_eq (trak keepType : Bytes) :
    trackHasHandlerType trak keepType = Media.trackHasHandlerType trak keepType := by
  have htake : trak.take trak.length = trak := List.take_length
  unfold trackHasHandlerType Media.trackHasHandlerType
  rw [places_eq (le_refl _)]
  dsimp only [bind,Except.bind]
  rw [handlerType_eq (fun _ hb => hb),htake]

theorem trackIdAmong_eq {bs : List BoxAt}
    (h : ∀ b ∈ bs, b ∈ boxesIn ((trak.take trak.length).drop 8)) :
    trackIdAmong trak (bs.map (placeOf trak.length)) = .ok (bs.findSome? (fun b =>
      if b.kind = tagTkhd ∧ 24 ≤ b.rest.length then some (readU32 20 b.rest) else none)) := by
  induction bs with
  | nil => rfl
  | cons b bs ih =>
    have hb := h b List.mem_cons_self
    have htail := ih (fun c hc => h c (List.mem_cons_of_mem _ hc))
    obtain ⟨_,hend,_⟩ := placeOf_rest (le_refl _) hb
    have hkind : (placeOf trak.length b).kind = b.kind := rfl
    rw [List.map_cons,trackIdAmong,List.findSome?_cons,hkind]
    by_cases htkhd : b.kind = tagTkhd ∧ 24 ≤ b.rest.length
    · have hguard : b.kind = tagTkhd ∧ (placeOf trak.length b).cursor+24 ≤ trak.length :=
        ⟨htkhd.1,by omega⟩
      rw [if_pos hguard,if_pos htkhd,readU32_placeOf hb (by omega)]
      rfl
    · have hguard : ¬ (b.kind = tagTkhd ∧ (placeOf trak.length b).cursor+24 ≤ trak.length) :=
        fun hand => htkhd ⟨hand.1,by omega⟩
      rw [if_neg hguard,if_neg htkhd]
      exact htail

theorem extractTrackIdFromTrak_eq (trak : Bytes) :
    extractTrackIdFromTrak trak = .ok (Media.extractTrackIdFromTrak trak) := by
  have htake : trak.take trak.length = trak := List.take_length
  unfold extractTrackIdFromTrak Media.extractTrackIdFromTrak
  rw [places_eq (le_refl _)]
  dsimp only [bind,Except.bind]
  rw [trackIdAmong_eq (fun _ hb => hb),htake]

theorem keptInMvex_eq {mvex : Bytes} {b : BoxAt}
    (hb : b ∈ boxesIn ((mvex.take mvex.length).drop 8)) (ids : List UInt32) :
    keptInMvex mvex ids (placeOf mvex.length b) = .ok (Media.keptInMvex ids b) := by
  obtain ⟨_,hend,_⟩ := placeOf_rest (le_refl _) hb
  have hkind : (placeOf mvex.length b).kind = b.kind := rfl
  have hwidth : (placeOf mvex.length b).size = b.size := rfl
  unfold keptInMvex Media.keptInMvex
  rw [hkind,hwidth,sliceAt_placeOf (le_refl _) hb]
  by_cases htrex : b.kind = tagTrex
  · rw [if_pos htrex,if_pos htrex]
    by_cases hlong : 16 ≤ b.rest.length
    · rw [if_pos (by omega),readU32_placeOf hb (by omega)]
      dsimp only [bind,Except.bind]
      by_cases hid : readU32 12 b.rest ∈ ids
      · rw [if_pos hid,if_pos ⟨hlong,hid⟩]
      · rw [if_neg hid,if_neg (fun hand => hid hand.2)]
        rfl
    · rw [if_neg (by omega),if_neg (fun hand => hlong hand.1)]
  · rw [if_neg htrex,if_neg htrex]

theorem filterMvexForTracks_eq (mvex : Bytes) (ids : List UInt32) :
    filterMvexForTracks mvex ids = Media.filterMvexForTracks mvex ids := by
  have htake : mvex.take mvex.length = mvex := List.take_length
  have hcontent : ((boxesIn ((mvex.take mvex.length).drop 8)).map (placeOf mvex.length)).mapM
      (keptInMvex mvex ids) =
      .ok ((boxesIn ((mvex.take mvex.length).drop 8)).map (Media.keptInMvex ids)) := by
    rw [List.mapM_map,mapM_eq_ok_iff,List.forall₂_map_right_iff,List.forall₂_same]
    intro b hb
    exact keptInMvex_eq hb ids
  unfold filterMvexForTracks Media.filterMvexForTracks
  by_cases hshort : mvex.length < 8
  · have hnil : mvex.drop 8 = [] := List.drop_eq_nil_iff.mpr (by omega)
    rw [if_pos hshort,hnil]
    rfl
  · rw [if_neg hshort,places_eq (le_refl _)]
    dsimp only [bind,Except.bind]
    rw [hcontent,htake]
    dsimp only
    rw [← List.flatMap_def]
    rfl

theorem keepChild_eq {b : BoxAt} (hb : b ∈ boxesIn ((content.take content.length).drop 0))
    (keepType : Bytes) :
    keepChild content keepType (placeOf content.length b) = Media.keepChild keepType b := by
  have hkind : (placeOf content.length b).kind = b.kind := rfl
  have hwidth : (placeOf content.length b).size = b.size := rfl
  unfold keepChild Media.keepChild
  rw [hkind,hwidth,sliceAt_placeOf (le_refl _) hb]
  dsimp only [bind,Except.bind]
  by_cases htrak : b.kind = tagTrak
  · rw [if_pos htrak,if_pos htrak,trackHasHandlerType_eq]
    cases Media.trackHasHandlerType b.bytes keepType with
    | error e => rfl
    | ok keep =>
      cases keep with
      | false => rfl
      | true =>
        dsimp only
        rw [extractTrackIdFromTrak_eq]
        rfl
  · rw [if_neg htrak,if_neg htrak]
    split_ifs <;> rfl

theorem mapM_congr_mem {α β ε : Type} {f g : α → Except ε β} {l : List α}
    (h : ∀ a ∈ l, f a = g a) : l.mapM f = l.mapM g := by
  induction l with
  | nil => rfl
  | cons a l ih =>
    rw [List.mapM_cons,List.mapM_cons,h a List.mem_cons_self,
      ih (fun b hb => h b (List.mem_cons_of_mem _ hb))]

/-- The filter reads behind what it looks at where the model says so, and nowhere else. -/
theorem filterMoovForTrackType_eq (content keepType : Bytes) :
    filterMoovForTrackType content keepType = Media.filterMoovForTrackType content keepType := by
  have htake : (content.take content.length).drop 0 = content := List.take_length
  have hkept : ((boxesIn content).map (placeOf content.length)).mapM (keepChild content keepType) =
      (boxesIn content).mapM (Media.keepChild keepType) := by
    rw [List.mapM_map]
    apply mapM_congr_mem
    intro b hb
    apply keepChild_eq
    rw [htake]
    exact hb
  have hlast : (((boxesIn content).map (placeOf content.length)).filter
      (fun b => b.kind == tagMvex)).getLast? =
      (((boxesIn content).filter (fun b => b.kind == tagMvex)).getLast?).map
        (placeOf content.length) := by
    rw [List.filter_map,List.getLast?_map]
    rfl
  unfold filterMoovForTrackType Media.filterMoovForTrackType
  rw [places_eq (le_refl _),htake]
  dsimp only [bind,Except.bind]
  rw [hkept,hlast]
  cases (boxesIn content).mapM (Media.keepChild keepType) with
  | error e => rfl
  | ok kept =>
    dsimp only
    cases hmvex : ((boxesIn content).filter (fun b => b.kind == tagMvex)).getLast? with
    | none => rfl
    | some b =>
      have hb : b ∈ boxesIn ((content.take content.length).drop 0) := by
        rw [htake]
        exact (List.mem_filter.mp (List.mem_of_getLast? hmvex)).1
      have hwidth : (placeOf content.length b).size = b.size := rfl
      dsimp only [Option.map]
      rw [hwidth,sliceAt_placeOf (le_refl _) hb]
      dsimp only
      rw [filterMvexForTracks_eq]

end Filters

end Indexed

end OpenBroadcast.Media
