import OpenBroadcast.Media.IndexedWalks
import OpenBroadcast.Media.TrackHandlers

namespace OpenBroadcast.Media

open RawBox

section Loops

variable {α β ε : Type}

/-- A loop that only fails at some elements fails if there is one of them. -/
theorem mapM_eq_ite {f : α → Except ε β} {g : α → β} {Bad : α → Prop} [DecidablePred Bad] {e : ε}
    (h : ∀ a, f a = if Bad a then .error e else .ok (g a)) (l : List α) :
    l.mapM f = if ∃ a ∈ l, Bad a then .error e else .ok (l.map g) := by
  induction l with
  | nil => simp [pure,Except.pure]
  | cons a l ih =>
    rw [List.mapM_cons,h,ih]
    by_cases ha : Bad a
    · have hany : ∃ b ∈ a::l, Bad b := ⟨a,List.mem_cons_self,ha⟩
      rw [if_pos ha,if_pos hany]
      rfl
    · have hany : (∃ b ∈ a::l, Bad b) ↔ ∃ b ∈ l, Bad b := by simp [ha]
      rw [if_neg ha]
      by_cases hl : ∃ b ∈ l, Bad b
      · rw [if_pos hl,if_pos (hany.mpr hl)]
        rfl
      · rw [if_neg hl,if_neg (fun hx => hl (hany.mp hx))]
        rfl

/-- A box that the walk finds has a size of four bytes and is all there. -/
theorem size_of_mem_boxesIn {data : Bytes} {b : BoxAt} (h : b ∈ boxesIn data) :
    8 ≤ b.bytes.length ∧ b.bytes.length < 2^32 := by
  obtain ⟨bs,hfits,hmap⟩ := boxesFrom_encode data.length data
  have hmem : (b.kind,b.bytes) ∈ (boxesFrom data.length data).map (fun b => (b.kind,b.bytes)) :=
    List.mem_map_of_mem h
  rw [hmap] at hmem
  obtain ⟨r,hr,heq⟩ := List.mem_map.mp hmem
  have hbytes : r.encode = b.bytes := (Prod.mk.inj heq).2
  have hlength := (hfits r hr).length_encode
  have hsize := (hfits r hr).size
  have h8 := r.eight_le_size
  rw [← hbytes]
  omega

end Loops

section Handlers

/-- What stands in a `trak` from the `hdlr` on that is looked at. -/
def hdlrInTrak (trak : Bytes) : Option Bytes :=
  (boxesIn (trak.drop 8)).findSome? (fun b =>
    if b.kind = tagMdia then (findHdlr b).map (childInTrak b) else none)

/-- The `trak` ends before the handler type does. -/
def ShortHandler (trak : Bytes) : Prop := ∃ d ∈ hdlrInTrak trak, d.length < 20

instance (trak : Bytes) : Decidable (ShortHandler trak) :=
  decidable_of_iff ((hdlrInTrak trak).any (fun d => decide (d.length < 20)) = true) (by
    unfold ShortHandler
    cases hdlrInTrak trak <;> simp)

def hasHandler (trak keepType : Bytes) : Bool :=
  (hdlrInTrak trak).any (fun d => (d.drop 16).take 4 == keepType)

variable {trak keepType : Bytes}

theorem handlerType_eq (bs : List BoxAt) : handlerType bs =
    match bs.findSome? (fun b =>
      if b.kind = tagMdia then (findHdlr b).map (childInTrak b) else none) with
    | none => .ok none
    | some d => (sliceAt d 16 20).map some := by
  induction bs with
  | nil => rfl
  | cons b bs ih =>
    rw [handlerType,List.findSome?_cons]
    by_cases hmdia : b.kind = tagMdia
    · rw [if_pos hmdia,if_pos hmdia]
      cases findHdlr b with
      | none => exact ih
      | some hdlr => rfl
    · rw [if_neg hmdia,if_neg hmdia]
      exact ih

theorem trackHasHandlerType_eq_ite : trackHasHandlerType trak keepType =
    if ShortHandler trak then .error .panic else .ok (hasHandler trak keepType) := by
  have hfound : handlerType (boxesIn (trak.drop 8)) =
      match hdlrInTrak trak with
      | none => .ok none
      | some d => (sliceAt d 16 20).map some := handlerType_eq _
  unfold trackHasHandlerType
  rw [hfound]
  cases hd : hdlrInTrak trak with
  | none =>
    have hshort : ¬ ShortHandler trak := by
      unfold ShortHandler
      simp [hd]
    have hno : hasHandler trak keepType = false := by
      unfold hasHandler
      simp [hd]
    rw [if_neg hshort,hno]
    rfl
  | some d =>
    have hhas : hasHandler trak keepType = ((d.drop 16).take 4 == keepType) := by
      unfold hasHandler
      simp [hd]
    have hshort : ShortHandler trak ↔ d.length < 20 := by
      unfold ShortHandler
      simp [hd]
    dsimp only
    by_cases hlength : d.length < 20
    · have hslice : sliceAt d 16 20 = .error .panic := if_neg (by omega)
      rw [hslice,if_pos (hshort.mpr hlength)]
      rfl
    · have hslice : sliceAt d 16 20 = .ok ((d.drop 16).take 4) := if_pos (by omega)
      rw [hslice,if_neg (fun h => hlength (hshort.mp h)),hhas]
      rfl

/-- A `trak` at which the filter fails. -/
def ShortTrak (b : BoxAt) : Prop := b.kind = tagTrak ∧ ShortHandler b.bytes

instance (b : BoxAt) : Decidable (ShortTrak b) := inferInstanceAs (Decidable (_ ∧ _))

/-- What is kept of a child where it does not fail. -/
def keptPart (keepType : Bytes) (b : BoxAt) : Bytes × Option UInt32 :=
  if b.kind = tagTrak then
    if hasHandler b.bytes keepType then (b.bytes,extractTrackIdFromTrak b.bytes) else ([],none)
  else (if b.kind = tagMvex then [] else b.bytes,none)

theorem keepChild_eq_ite (b : BoxAt) : keepChild keepType b =
    if ShortTrak b then .error .panic else .ok (keptPart keepType b) := by
  unfold keepChild keptPart
  rw [trackHasHandlerType_eq_ite]
  by_cases htrak : b.kind = tagTrak
  · rw [if_pos htrak]
    by_cases hshort : ShortHandler b.bytes
    · have hboth : ShortTrak b := ⟨htrak,hshort⟩
      rw [if_pos hshort,if_pos hboth]
      rfl
    · have hboth : ¬ ShortTrak b := fun hand => hshort hand.2
      rw [if_neg hshort,if_neg hboth,if_pos htrak]
      rfl
  · have hboth : ¬ ShortTrak b := fun hand => htrak hand.1
    rw [if_neg htrak,if_neg hboth,if_neg htrak]

/-- What is left of a `moov`, where the filter does not fail. -/
def leftOver (content keepType : Bytes) : Bytes :=
  let kept := (boxesIn content).map (keptPart keepType)
  let mvex := ((boxesIn content).filter (fun b => b.kind == tagMvex)).getLast?
  kept.flatMap Prod.fst++mvex.elim [] (fun mvex =>
    (filterMvexForTracks mvex.bytes (kept.filterMap Prod.snd)).toOption.getD [])

theorem filterMoovForTrackType_eq_ite (content keepType : Bytes) :
    filterMoovForTrackType content keepType =
      if ∃ b ∈ boxesIn content, ShortTrak b then .error .panic
      else .ok (leftOver content keepType) := by
  unfold filterMoovForTrackType leftOver
  rw [mapM_eq_ite keepChild_eq_ite]
  by_cases hshort : ∃ b ∈ boxesIn content, ShortTrak b
  · rw [if_pos hshort,if_pos hshort]
    rfl
  rw [if_neg hshort,if_neg hshort]
  dsimp only [bind,Except.bind]
  cases hlast : ((boxesIn content).filter (fun b => b.kind == tagMvex)).getLast? with
  | none => rfl
  | some mvex =>
    obtain ⟨h8,hlt⟩ := size_of_mem_boxesIn (List.mem_filter.mp (List.mem_of_getLast? hlast)).1
    obtain ⟨left,_,hleft⟩ := WellFormedMoov.filterMvexForTracks_eq h8 hlt
      (((boxesIn content).map (keptPart keepType)).filterMap Prod.snd)
    dsimp only [Option.elim]
    rw [hleft]
    rfl

end Handlers

namespace ParserState

variable (s : ParserState)

/-- The size of a `moov` with this content can be written. -/
def Sized (content : Bytes) : Prop := 8+content.length%2^32 < 2^32

/-- What makes the generation of one segment fail. -/
def Unfit (content keepType : Bytes) : Prop :=
  (∃ trak ∈ traks content, ShortHandler trak.bytes) ∨ ¬ Sized (leftOver content keepType)

theorem separateInit_cases (ftyp : Mp4Box) (content keepType : Bytes) :
    (Unfit content keepType ∧ separateInit ftyp content keepType = .error .panic) ∨
      (¬ Unfit content keepType ∧ ∃ data, separateInit ftyp content keepType = .ok data) := by
  have htraks : (∃ b ∈ boxesIn content, ShortTrak b) ↔
      ∃ trak ∈ traks content, ShortHandler trak.bytes := by
    unfold traks ShortTrak
    simp only [List.mem_filter,beq_iff_eq,and_assoc]
  unfold separateInit Unfit
  rw [filterMoovForTrackType_eq_ite,← htraks]
  by_cases hshort : ∃ b ∈ boxesIn content, ShortTrak b
  · rw [if_pos hshort]
    exact Or.inl ⟨Or.inl hshort,rfl⟩
  · rw [if_neg hshort]
    by_cases hsize : Sized (leftOver content keepType)
    · obtain ⟨moov,hmoov⟩ := (wrapBox_eq_ok_iff tagMoov (leftOver content keepType)).mpr hsize
      refine Or.inr ⟨by simp [hshort,hsize],serializeBox ftyp++moov,?_⟩
      unfold buildMoovBox
      dsimp only [bind,Except.bind]
      rw [hmoov]
      rfl
    · have hpanic : wrapBox tagMoov (leftOver content keepType) = .error .panic := by
        have hpanic : boxSize32 (leftOver content keepType).length = .error .panic := if_neg hsize
        unfold wrapBox
        rw [hpanic]
        rfl
      refine Or.inl ⟨Or.inr hsize,?_⟩
      unfold buildMoovBox
      dsimp only [bind,Except.bind]
      rw [hpanic]

theorem generateSeparateInitSegments_returns_iff :
    s.generateSeparateInitSegments ≠ .error .panic ↔
      ∀ moov, (s.regular.lastBox tagFtyp).isSome → s.regular.lastBox tagMoov = some moov →
        s.hasVideoTrack → (∀ trak ∈ traks moov.content, ¬ ShortHandler trak.bytes) ∧
          Sized (leftOver moov.content tagVide) ∧
          (s.hasAudioTrack → Sized (leftOver moov.content tagSoun)) := by
  unfold generateSeparateInitSegments
  cases hftyp : s.regular.lastBox tagFtyp with
  | none => simp
  | some ftyp =>
    cases hmoov : s.regular.lastBox tagMoov with
    | none => simp
    | some moov =>
      cases hvideo : s.hasVideoTrack with
      | false => simp
      | true =>
        have hshape : ((∀ trak ∈ traks moov.content, ¬ ShortHandler trak.bytes) ∧
            Sized (leftOver moov.content tagVide) ∧
            (s.hasAudioTrack → Sized (leftOver moov.content tagSoun))) ↔
            ¬ Unfit moov.content tagVide ∧
              (s.hasAudioTrack → ¬ Unfit moov.content tagSoun) := by
          unfold Unfit
          push Not
          constructor
          · intro h
            exact ⟨⟨h.1,h.2.1⟩,fun haudio => ⟨h.1,h.2.2 haudio⟩⟩
          · intro h
            exact ⟨h.1.1,h.1.2,fun haudio => (h.2 haudio).2⟩
        simp only [Option.isSome_some,Option.some.injEq,forall_const,forall_eq']
        rw [hshape]
        rcases separateInit_cases ftyp moov.content tagVide with ⟨hunfit,hpanic⟩ | ⟨hfit,data,hok⟩
        · simp [hpanic,hunfit,bind,Except.bind]
        · cases haudio : s.hasAudioTrack with
          | false => simp [hok,hfit,bind,Except.bind,pure,Except.pure]
          | true =>
            rcases separateInit_cases ftyp moov.content tagSoun with
              ⟨hunfit,hpanic⟩ | ⟨hfit',data',hok'⟩
            · simp [hok,hpanic,hunfit,bind,Except.bind]
            · simp [hok,hok',hfit,hfit',bind,Except.bind,pure,Except.pure]

/-- The segments or an error are returned, and the places that are read are those that are looked
at here. -/
structure SeparateInitIsTotal : Prop where
  returns : s.generateSeparateInitSegments ≠ .error .panic
  walks : ∀ content keepType, Indexed.filterMoovForTrackType content keepType =
    filterMoovForTrackType content keepType

/-- This is so exactly if the handler type of every `trak` of the last `moov` is inside it and the
results are not too large. -/
theorem separateInitIsTotal_iff : s.SeparateInitIsTotal ↔
    ∀ moov, (s.regular.lastBox tagFtyp).isSome → s.regular.lastBox tagMoov = some moov →
      s.hasVideoTrack → (∀ trak ∈ traks moov.content, ¬ ShortHandler trak.bytes) ∧
        Sized (leftOver moov.content tagVide) ∧
        (s.hasAudioTrack → Sized (leftOver moov.content tagSoun)) := by
  rw [← s.generateSeparateInitSegments_returns_iff]
  exact ⟨SeparateInitIsTotal.returns,fun h => ⟨h,Indexed.filterMoovForTrackType_eq⟩⟩

/-- A track of pictures, and one that ends with an `hdlr` of 16 bytes. -/
def shortHdlrFile : Bytes :=
  encodeAll [⟨tagFtyp,[]⟩,⟨tagMoov,(RegularMp4.trakBox 1 1000 tagVide []).encode++
    encode ⟨tagTrak,encode ⟨tagMdia,encode ⟨tagHdlr,List.replicate 8 0⟩⟩⟩⟩]

/-- The file can be parsed, but the handler type is looked for behind its end. -/
theorem shortHdlrFile_panics :
    (∃ s, new.parse shortHdlrFile = .ok s ∧ s.generateSeparateInitSegments = .error .panic) ∧
    ¬ ∀ data s, new.parse data = .ok s → s.SeparateInitIsTotal := by
  have hrun : (match new.parse shortHdlrFile with
      | .ok s => decide (s.generateSeparateInitSegments = .error .panic)
      | .error _ => false) = true := by decide +kernel
  cases hparse : new.parse shortHdlrFile with
  | error e =>
    rw [hparse] at hrun
    cases hrun
  | ok s =>
    rw [hparse] at hrun
    have hpanic := of_decide_eq_true hrun
    exact ⟨⟨s,rfl,hpanic⟩,fun h => (h shortHdlrFile s hparse).returns hpanic⟩

end ParserState

end OpenBroadcast.Media
