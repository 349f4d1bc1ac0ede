import OpenBroadcast.Framework.Utf8
import OpenBroadcast.Media.Parser
import OpenBroadcast.Media.SampleAddressing

namespace OpenBroadcast.Media

open RawBox

inductive BoxContent where
  | fileType (majorBrand : String) (minorVersion : UInt32) (compatibleBrands : List String)
  | movieHeader (creationTime modificationTime : UInt64) (timescale : UInt32) (duration : UInt64)
  | track (trackId : UInt32) (duration : UInt64) (mediaType : String)
  | raw (data : Bytes)
  deriving DecidableEq, Repr

/-- What is written of a content. -/
def BoxContent.data : BoxContent → Bytes
  | .fileType majorBrand minorVersion compatibleBrands =>
    asBytes majorBrand++toBe 4 minorVersion.toNat++compatibleBrands.flatMap asBytes
  | .raw data => data
  | _ => []

/-- A box with its type as text, which is how `parse_box` keeps it. -/
structure TextBox where
  boxType : String
  size : Nat
  contentStart : Nat
  content : BoxContent
  deriving DecidableEq, Repr

namespace TextBox

/-- What `parse_box` makes of the bytes of the type. -/
def ofBox (b : Mp4Box) : TextBox :=
  ⟨fromUtf8Lossy b.header.boxType,b.header.size,b.header.contentStart,.raw b.content⟩

def toBox (b : TextBox) : Mp4Box := ⟨⟨asBytes b.boxType,b.size,b.contentStart⟩,b.content.data⟩

/-- `serialize_box`. The data is checked once more after it has been written. -/
def serializeBox (b : TextBox) : Except Mp4Error Bytes :=
  if (asBytes b.boxType).length ≠ 4 then .ok []
  else if maxBoxSize < b.content.data.length then .ok []
  else do
    let totalSize ← boxSize32 b.content.data.length
    if maxBoxSize < totalSize then return []
    let data := toBe 4 totalSize++asBytes b.boxType++b.content.data
    if 8 ≤ data.length then
      if beNat (data.take 4) ≠ data.length%2^32 then return []
      if fromUtf8Lossy ((data.drop 4).take 4) ≠ b.boxType then return []
    return data

/-- The data that is written passes the checks, so that they make no difference. -/
theorem serializeBox_eq (b : TextBox) : b.serializeBox = .ok (Media.serializeBox b.toBox) := by
  unfold serializeBox Media.serializeBox toBox
  dsimp only
  by_cases hkind : (asBytes b.boxType).length ≠ 4
  · rw [if_pos hkind,if_pos hkind]
  rw [if_neg hkind,if_neg hkind]
  by_cases hcontent : maxBoxSize < b.content.data.length
  · rw [if_pos hcontent,if_pos hcontent]
  rw [if_neg hcontent,if_neg hcontent]
  have hmax : maxBoxSize = 100000000 := rfl
  have htotal : boxSize32 b.content.data.length = .ok (8+b.content.data.length) := by
    rw [boxSize32,Nat.mod_eq_of_lt (by omega),if_pos (by omega)]
  rw [htotal]
  simp only [bind,Except.bind]
  by_cases hsize : maxBoxSize < 8+b.content.data.length
  · rw [if_pos hsize,if_pos hsize]
    rfl
  rw [if_neg hsize,if_neg hsize]
  have hfits : (RawBox.mk (asBytes b.boxType) b.content.data).Fits := by
    constructor
    · show (asBytes b.boxType).length = 4
      omega
    · show 8+b.content.data.length < 2^32
      omega
  have hread := hfits.read_size []
  have hname := hfits.read_kind []
  have hlength := hfits.length_encode
  rw [List.append_nil] at hread hname
  simp only [RawBox.encode,RawBox.size] at hread hname hlength
  have hmod : (8+b.content.data.length)%2^32 = 8+b.content.data.length := Nat.mod_eq_of_lt (by omega)
  rw [hread,hname,hlength,hmod,fromUtf8Lossy_asBytes]
  simp [pure,Except.pure]

end TextBox

/-- A box at the top level of a file: its type is text, and it is not too large to be written. -/
structure TopLevelBox where
  box : RawBox
  boxType : String
  kind : box.kind.length = 4
  text : fromUtf8 box.kind = some boxType
  small : box.size ≤ maxBoxSize

namespace TopLevelBox

variable (b : TopLevelBox) (bs : List TopLevelBox)

theorem fits : b.box.Fits := by
  have hmax : maxBoxSize = 100000000 := rfl
  have hsmall := b.small
  exact ⟨b.kind,by omega⟩

/-- The file that consists of the boxes. -/
def file : Bytes := encodeAll (bs.map box)

/-- The boxes as they are in a file from some place on. -/
def placed : Nat → List TopLevelBox → List TextBox
  | _,[] => []
  | start,b::bs => ⟨b.boxType,b.box.size,start+8,.raw b.box.body⟩::placed (start+b.box.size) bs

theorem parseBoxes_file (n start : Nat) (hn : (file bs).length ≤ n) :
    ∃ read, parseBoxesFrom n start (file bs) = .ok read ∧
      read.map TextBox.ofBox = placed start bs := by
  induction bs generalizing n start with
  | nil => exact ⟨[],by cases n <;> rfl,rfl⟩
  | cons b bs ih =>
    have hcons : file (b::bs) = b.box.encode++file bs := rfl
    have height := b.box.eight_le_size
    rw [hcons,List.length_append,b.fits.length_encode] at hn
    cases n with
    | zero => omega
    | succ n =>
      obtain ⟨read,hread,hplaced⟩ := ih n (start+b.box.size) (by omega)
      refine ⟨⟨⟨b.box.kind,b.box.size,start+8⟩,b.box.body⟩::read,?_,?_⟩
      · rw [hcons,parseBoxesFrom_encode b.fits,hread]
        rfl
      · have htext : fromUtf8Lossy b.box.kind = b.boxType := by
          rw [fromUtf8_eq_some b.text,fromUtf8Lossy_asBytes]
        rw [List.map_cons,hplaced,placed,TextBox.ofBox,htext]

theorem serialize_placed (start : Nat) :
    ∃ pieces, (placed start bs).mapM TextBox.serializeBox = .ok pieces ∧
      pieces.flatten = file bs := by
  induction bs generalizing start with
  | nil => exact ⟨[],rfl,rfl⟩
  | cons b bs ih =>
    obtain ⟨pieces,hpieces,hflatten⟩ := ih (start+b.box.size)
    have hkind := fromUtf8_eq_some b.text
    have hsmall := b.small
    have hone : TextBox.serializeBox ⟨b.boxType,b.box.size,start+8,.raw b.box.body⟩ =
        .ok b.box.encode := by
      have hbox : b.box.size = 8+b.box.body.length := rfl
      have hfour := b.kind
      rw [TextBox.serializeBox_eq,serializeBox,TextBox.toBox,BoxContent.data]
      dsimp only
      rw [← hkind,if_neg (by omega),if_neg (by omega),if_neg (by omega)]
      rfl
    refine ⟨b.box.encode::pieces,?_,?_⟩
    · rw [placed,List.mapM_cons,hone,hpieces]
      rfl
    · rw [List.flatten_cons,hflatten]
      rfl

/-- The boxes of a file are those that it was made of, and written one after the other they are
the file. -/
theorem parse_serializeBox {s s' : ParserState} (h : s.parse (file bs) = .ok s') :
    s'.boxes.map TextBox.ofBox = placed 0 bs ∧
      ∃ pieces, (s'.boxes.map TextBox.ofBox).mapM TextBox.serializeBox = .ok pieces ∧
        pieces.flatten = file bs := by
  obtain ⟨read,m,hread,_,rfl⟩ := ParserState.parse_eq_ok.mp h
  obtain ⟨read',hread',hplaced⟩ := parseBoxes_file bs (file bs).length 0 le_rfl
  have hsame : read = read' := Except.ok.inj (hread.symm.trans hread')
  subst hsame
  dsimp only
  rw [hplaced]
  exact ⟨rfl,serialize_placed bs 0⟩

/-- A box whose type has three characters in its four bytes. -/
def placeBox : RawBox := ⟨[0xc2,0xa9,0x78,0x79],[1,2,3]⟩

theorem placeBox_text : fromUtf8 placeBox.kind = some "©xy" := by rfl

theorem placeBox_small : placeBox.size ≤ maxBoxSize := by decide

def freeBox : RawBox := ⟨[0x66,0x72,0x65,0x65],[4,5]⟩

def placeBoxes : List TopLevelBox :=
  [⟨placeBox,"©xy",rfl,placeBox_text,placeBox_small⟩,⟨freeBox,"free",rfl,by rfl,by decide⟩,
    ⟨placeBox,"©xy",rfl,placeBox_text,placeBox_small⟩]

theorem parse_serializeBox_placeBox : ∃ s', ParserState.new.parse (file placeBoxes) = .ok s' ∧
    s'.boxes.map TextBox.ofBox = [⟨"©xy",11,8,.raw [1,2,3]⟩,⟨"free",10,19,.raw [4,5]⟩,
        ⟨"©xy",11,29,.raw [1,2,3]⟩] ∧
      ∃ pieces, (s'.boxes.map TextBox.ofBox).mapM TextBox.serializeBox = .ok pieces ∧
        pieces.flatten = file placeBoxes := by
  have hparse : (ParserState.new.parse (file placeBoxes)).toBool = true := by decide
  obtain ⟨s',hs'⟩ := exists_ok hparse
  exact ⟨s',hs',parse_serializeBox placeBoxes hs'⟩

end TopLevelBox

end OpenBroadcast.Media
