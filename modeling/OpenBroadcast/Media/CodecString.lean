import OpenBroadcast.Media.MoovParser

namespace OpenBroadcast.Media

open RawBox

section Digits

/-- The upper case digits of some bytes. -/
def hexText (b : Bytes) : String := String.ofList ((b.flatMap hexByte).map Char.toUpper)

theorem digit_injective : ∀ m < 16, ∀ n < 16,
    (Nat.digitChar m).toUpper = (Nat.digitChar n).toUpper → m = n := by decide

theorem hexByte_injective {b c : UInt8}
    (h : (hexByte b).map Char.toUpper = (hexByte c).map Char.toUpper) : b = c := by
  have hb : b.toNat < 256 := b.toNat_lt
  have hc : c.toNat < 256 := c.toNat_lt
  simp only [hexByte,List.map_cons,List.map_nil,List.cons.injEq,and_true] at h
  obtain ⟨hhigh,hlow⟩ := h
  have hdiv := digit_injective (b.toNat/16) (by omega) (c.toNat/16) (by omega) hhigh
  have hmod := digit_injective (b.toNat%16) (by omega) (c.toNat%16) (by omega) hlow
  apply UInt8.toNat_inj.mp
  omega

theorem hexText_injective {b c : Bytes} (h : hexText b = hexText c) : b = c := by
  have hlist : (b.flatMap hexByte).map Char.toUpper = (c.flatMap hexByte).map Char.toUpper :=
    String.ofList_injective h
  clear h
  induction b generalizing c with
  | nil =>
    cases c with
    | nil => rfl
    | cons y c => cases hlist
  | cons x b ih =>
    cases c with
    | nil => cases hlist
    | cons y c =>
      simp only [List.flatMap_cons,List.map_append] at hlist
      have hpair := List.append_inj hlist (by simp [hexByte])
      rw [hexByte_injective hpair.1,ih hpair.2]

end Digits

section Entry

def tagAvc1 : Bytes := [0x61,0x76,0x63,0x31]

/-- The content of an `stsd` that begins with a sample entry for `avc1`: fixed fields that begin
with six reserved bytes, and child boxes with an `avcC` among them. -/
structure VisualStsd where
  versionAndCount : Bytes
  fixedFields : Bytes
  before : List RawBox
  config : Bytes
  after : List RawBox
  others : Bytes
  versionAndCount_length : versionAndCount.length = 8
  fixedFields_length : fixedFields.length = 78
  reserved : fixedFields.take 6 = List.replicate 6 0
  before_fits : ∀ b ∈ before, b.Fits
  after_fits : ∀ b ∈ after, b.Fits
  config_length : 4 ≤ config.length
  size_lt : 86+(encodeAll (before++⟨tagAvcC,config⟩::after)).length < 2^32

namespace VisualStsd

variable (e : VisualStsd)

def children : List RawBox := e.before++⟨tagAvcC,e.config⟩::e.after

def entry : RawBox := ⟨tagAvc1,e.fixedFields++encodeAll e.children⟩

def content : Bytes := e.versionAndCount++e.entry.encode++e.others

/-- Profile, compatibility and level. -/
def profile : Bytes := (e.config.drop 1).take 3

/-- The codec is named with the three bytes of the `avcC`. -/
def CodecKept : Prop :=
  ∃ info, parseStsdBox e.content "vide" = .ok info ∧ info.params = some (hexText e.profile) ∧
    info.mimeType = "video/mp4; codecs=\"avc1."++hexText e.profile++"\""

/-- The search for the `avcC` begins at the reserved bytes, which it takes for a size. -/
theorem findEntry_fixedFields (rest : Bytes) :
    findEntry tagAvcC 11 (e.fixedFields++rest) = none := by
  have hlength := e.fixedFields_length
  have hfour : (e.fixedFields++rest).take 4 = List.replicate 4 0 := by
    rw [List.take_append_of_le_length (by omega),show 4 = min 4 6 from rfl,← List.take_take,
      e.reserved]
    rfl
  have hzero : beNat ((e.fixedFields++rest).take 4) = 0 := by
    rw [hfour]
    rfl
  obtain ⟨n,hn⟩ : ∃ n, (e.fixedFields++rest).length = n+1 :=
    ⟨(e.fixedFields++rest).length-1,by rw [List.length_append]; omega⟩
  have hlong : ¬ (e.fixedFields++rest).length < 8 := by
    rw [List.length_append]
    omega
  rw [findEntry,hn,findEntryFrom,if_neg hlong,hzero,if_neg (fun hand => absurd hand.2 (by omega)),if_neg (by omega)]

/-- Every file gets the default profile. -/
theorem parseStsdBox_content : parseStsdBox e.content "vide" =
    .ok ⟨"H.264","video/mp4; codecs=\"avc1.42E01E\"",some "42E01E"⟩ := by
  have hdrop : e.content.drop 8 = toBe 4 e.entry.size++(tagAvc1++(e.fixedFields++
      (encodeAll e.children++e.others))) := by
    unfold content encode
    rw [List.append_assoc,List.drop_left' e.versionAndCount_length]
    simp [entry]
  have hlength : (e.content.drop 8).length = 4+(4+(78+(encodeAll e.children++e.others).length)) := by
    rw [hdrop]
    simp only [List.length_append,length_toBe,e.fixedFields_length]
    rfl
  have hformat : ((e.content.drop 8).drop 4).take 4 = tagAvc1 := by
    rw [hdrop,List.drop_left' (length_toBe 4 _)]
    rfl
  have hrest : (e.content.drop 8).drop 8 = e.fixedFields++(encodeAll e.children++e.others) := by
    rw [show 8 = 4+4 from rfl,← List.drop_drop,hdrop,List.drop_left' (length_toBe 4 _)]
    rfl
  have hlong : ¬ e.content.length < 8 := by
    have hdrops : (e.content.drop 8).length = e.content.length-8 := List.length_drop
    omega
  unfold parseStsdBox
  rw [if_neg hlong]
  dsimp only
  rw [if_neg (by omega),hformat,if_pos ⟨rfl,by decide⟩,hrest]
  unfold extractAvcProfile
  rw [e.findEntry_fixedFields]
  rfl

/-- The codec is that of the file exactly if it is the default. -/
theorem codecKept_iff : e.CodecKept ↔ e.profile = [0x42,0xe0,0x1e] := by
  have hdefault : hexText [0x42,0xe0,0x1e] = "42E01E" := by decide
  unfold CodecKept
  rw [e.parseStsdBox_content]
  constructor
  · intro h
    obtain ⟨info,hinfo,hparams,_⟩ := h
    cases hinfo
    have htext : hexText [0x42,0xe0,0x1e] = hexText e.profile :=
      hdefault.trans (Option.some.inj hparams)
    exact (hexText_injective htext).symm
  · intro h
    refine ⟨_,rfl,?_,?_⟩
    · rw [h,hdefault]
    · rw [h,hdefault]
      rfl

/-- A file in the high profile, level 3.1. -/
def highStsd : VisualStsd where
  versionAndCount := [0,0,0,0,0,0,0,1]
  fixedFields := List.replicate 7 0++[1]++List.replicate 70 0
  before := []
  config := [1,0x64,0,0x1f,0xff,0xe1,0,0,0]
  after := []
  others := []
  versionAndCount_length := rfl
  fixedFields_length := rfl
  reserved := rfl
  before_fits := by simp
  after_fits := by simp
  config_length := by decide
  size_lt := by decide

theorem highStsd_not_kept : hexText highStsd.profile = "64001F" ∧
    parseStsdBox highStsd.content "vide" =
      .ok ⟨"H.264","video/mp4; codecs=\"avc1.42E01E\"",some "42E01E"⟩ ∧
    ¬ highStsd.CodecKept := by
  refine ⟨by decide,highStsd.parseStsdBox_content,?_⟩
  intro h
  obtain ⟨info,hinfo,hparams,_⟩ := h
  rw [highStsd.parseStsdBox_content] at hinfo
  cases hinfo
  revert hparams
  decide

end VisualStsd

end Entry

end OpenBroadcast.Media
