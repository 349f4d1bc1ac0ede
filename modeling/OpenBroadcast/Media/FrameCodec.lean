import Mathlib.Algebra.Order.Group.Int
import Mathlib.Tactic.Ring
import OpenBroadcast.Framework.Boxes
import OpenBroadcast.Framework.FoldErrors
import OpenBroadcast.Framework.Overflow

namespace OpenBroadcast

namespace Overflow

/-- `a * b` of two `u32`, or a panic. -/
def mulU32 (o : Overflow) (a b : UInt32) : Option UInt32 :=
  if a.toNat*b.toNat < 2^32 then some (a*b)
  else match o with
    | .panics => none
    | .wraps => some (a*b)

theorem mulU32_eq_some {o : Overflow} {a b c : UInt32} (h : o.mulU32 a b = some c) :
    c.toNat = a.toNat*b.toNat%2^32 := by
  have hc : c = a*b := by
    unfold mulU32 at h
    split_ifs at h
    · exact (Option.some.inj h).symm
    · cases o with
      | panics => cases h
      | wraps => exact (Option.some.inj h).symm
  rw [hc,UInt32.toNat_mul]

theorem mulU32_of_lt (o : Overflow) {a b : UInt32} (h : a.toNat*b.toNat < 2^32) :
    ∃ c, o.mulU32 a b = some c ∧ c.toNat = a.toNat*b.toNat := by
  refine ⟨a*b,if_pos h,?_⟩
  rw [UInt32.toNat_mul]
  exact Nat.mod_eq_of_lt h

end Overflow

end OpenBroadcast

namespace OpenBroadcast.Media

inductive CodecError where
  | openH264Error (err : String)
  | opusError (err : String)
  | general (msg : String)
  | initializationFailed (msg : String)
  | encodingFailed (msg : String)
  | decodingFailed (msg : String)
  | unsupportedFormat (msg : String)
  | invalidParameters (msg : String)
  deriving DecidableEq, Repr

/-- `(factor * x as f32) as i32`. -/
def scale (factor : Float32) (x : Int) : Int := (factor*Float32.ofInt x).toInt32.toInt

def clampByte (x : Int) : UInt8 := UInt8.ofNat (max 0 (min x 255)).toNat

def rgb (y u v : UInt8) : Bytes :=
  let y : Int := y.toNat
  let u : Int := u.toNat-128
  let v : Int := v.toNat-128
  let r := y+scale 1.402 v
  let g := y-scale 0.344 u-scale 0.714 v
  let b := y+scale 1.772 u
  [clampByte r,clampByte g,clampByte b]

section Planes

variable (yPlane uPlane vPlane : Bytes) (width height : Nat)

def yIdx (row col : Nat) : Nat := row*width+col

def uvIdx (row col : Nat) : Nat := row/2*(width/2)+col/2

/-- The body of both loops. -/
def pushPixel (row : Nat) (rgbData : Bytes) (col : Nat) : Except CodecError Bytes :=
  let y := yIdx width row col
  let uv := uvIdx width row col
  if y ≥ yPlane.length ∨ uv ≥ uPlane.length ∨ uv ≥ vPlane.length then
    .error (.invalidParameters "YUV plane index out of bounds")
  else .ok (rgbData++rgb (yPlane.getD y 0) (uPlane.getD uv 0) (vPlane.getD uv 0))

def yuv420pToRgb24 : Except CodecError Bytes :=
  (List.range height).foldlM
    (fun rgbData row => (List.range width).foldlM (pushPixel yPlane uPlane vPlane width row) rgbData)
    []

/-- The chroma sample of the last pixel. -/
def lastUv : Nat := (height-1)/2*(width/2)+(width-1)/2

/-- The three planes have a sample for every pixel. -/
def Covers : Prop :=
  width = 0 ∨ height = 0 ∨
    (width*height ≤ yPlane.length ∧ lastUv width height < uPlane.length ∧
      lastUv width height < vPlane.length)

/-- The picture, row by row and three bytes for each pixel. -/
def picture : Bytes :=
  (List.range height).flatMap fun row => (List.range width).flatMap fun col =>
    rgb (yPlane.getD (yIdx width row col) 0) (uPlane.getD (uvIdx width row col) 0)
      (vPlane.getD (uvIdx width row col) 0)

def HasPixel (row col : Nat) : Prop :=
  yIdx width row col < yPlane.length ∧ uvIdx width row col < uPlane.length ∧
    uvIdx width row col < vPlane.length

theorem pushPixel_ok_iff (row : Nat) (rgbData : Bytes) (col : Nat) (out : Bytes) :
    pushPixel yPlane uPlane vPlane width row rgbData col = .ok out ↔
      HasPixel yPlane uPlane vPlane width row col ∧
        out = rgbData++rgb (yPlane.getD (yIdx width row col) 0)
          (uPlane.getD (uvIdx width row col) 0) (vPlane.getD (uvIdx width row col) 0) := by
  unfold pushPixel HasPixel
  by_cases hbad : yIdx width row col ≥ yPlane.length ∨ uvIdx width row col ≥ uPlane.length ∨
      uvIdx width row col ≥ vPlane.length
  · have hmissing : ¬ (yIdx width row col < yPlane.length ∧
        uvIdx width row col < uPlane.length ∧ uvIdx width row col < vPlane.length) := by
      omega
    simp [hbad,hmissing]
  · have hthere : yIdx width row col < yPlane.length ∧
        uvIdx width row col < uPlane.length ∧ uvIdx width row col < vPlane.length := by
      omega
    simp [hbad,hthere,eq_comm]

/-- No pixel needs a later sample than the last one. -/
theorem hasPixels_iff_covers :
    (∀ row < height, ∀ col < width, HasPixel yPlane uPlane vPlane width row col) ↔
      Covers yPlane uPlane vPlane width height := by
  constructor
  · intro h
    by_cases hw : width = 0
    · exact .inl hw
    · by_cases hh : height = 0
      · exact .inr (.inl hh)
      · obtain ⟨hy,hu,hv⟩ := h (height-1) (by omega) (width-1) (by omega)
        have hlast : (height-1)*width+(width-1)+1 = width*height := by
          obtain ⟨k,rfl⟩ := Nat.exists_eq_succ_of_ne_zero hh
          rw [Nat.succ_sub_one,Nat.mul_succ,Nat.mul_comm]
          omega
        exact .inr (.inr ⟨by rw [← hlast]; exact hy,hu,hv⟩)
  · rintro (hw | hh | ⟨hy,hu,hv⟩) row hrow col hcol
    · omega
    · omega
    · have hluma : yIdx width row col < width*height := by
        calc yIdx width row col < row*width+width := by unfold yIdx; omega
          _ = (row+1)*width := by rw [Nat.add_mul,Nat.one_mul]
          _ ≤ height*width := Nat.mul_le_mul_right width hrow
          _ = width*height := Nat.mul_comm height width
      have hrows : row/2*(width/2) ≤ (height-1)/2*(width/2) :=
        Nat.mul_le_mul_right _ (Nat.div_le_div_right (by omega))
      have hchroma : uvIdx width row col ≤ lastUv width height := by
        have hcols : col/2 ≤ (width-1)/2 := Nat.div_le_div_right (by omega)
        unfold uvIdx lastUv
        omega
      exact ⟨by omega,by omega,by omega⟩

/-- The conversion gives the picture exactly if no plane is too short for it. -/
theorem yuv420pToRgb24_ok_iff (out : Bytes) :
    yuv420pToRgb24 yPlane uPlane vPlane width height = .ok out ↔
      Covers yPlane uPlane vPlane width height ∧
        out = picture yPlane uPlane vPlane width height := by
  have rows : ∀ row ∈ List.range height, ∀ acc out,
      (List.range width).foldlM (pushPixel yPlane uPlane vPlane width row) acc = .ok out ↔
        (∀ col ∈ List.range width, HasPixel yPlane uPlane vPlane width row col) ∧
          out = acc++(List.range width).flatMap fun col =>
            rgb (yPlane.getD (yIdx width row col) 0) (uPlane.getD (uvIdx width row col) 0)
              (vPlane.getD (uvIdx width row col) 0) :=
    fun row _ acc out => foldlM_append_iff
      (fun col _ acc out => pushPixel_ok_iff yPlane uPlane vPlane width row acc col out) acc out
  have all := foldlM_append_iff rows [] out
  rw [← hasPixels_iff_covers]
  simpa [yuv420pToRgb24,picture] using all

end Planes

/-- `data[start..stop]`, or a panic. -/
def frameRange (data : Bytes) (start stop : Nat) : Option Bytes :=
  if start ≤ stop ∧ stop ≤ data.length then some ((data.drop start).take (stop-start)) else none

theorem frameRange_eq_some {data part : Bytes} {start stop : Nat}
    (h : frameRange data start stop = some part) :
    start ≤ stop ∧ stop ≤ data.length ∧ part.length = stop-start := by
  unfold frameRange at h
  split_ifs at h with hin
  obtain ⟨hle,hstop⟩ := hin
  cases h
  refine ⟨hle,hstop,?_⟩
  rw [List.length_take,List.length_drop]
  omega

/-- What the codec uses of OpenH264; `none` is a panic. -/
structure OpenH264 (ε δ YUVBuffer : Type) where
  withRgb : Nat → Nat → Bytes → Option YUVBuffer
  encode : ε → YUVBuffer → ε × Except String Bytes
  decode : δ → Bytes → δ × Except String (Option (Bytes × Bytes × Bytes))

structure OpenH264Codec (ε δ : Type) where
  encoder : Option ε
  decoder : Option δ
  width : UInt32
  height : UInt32

namespace OpenH264Codec

variable {ε δ YUVBuffer : Type} (lib : OpenH264 ε δ YUVBuffer)

/-- What `encode` makes of a frame before it hands it to the encoder. -/
def frameToRgb (o : Overflow) (width height : UInt32) (frame : Bytes) :
    Option (Except CodecError Bytes) := do
  let expectedSize := ((← o.mulU32 (← o.mulU32 width height) 3)/2).toNat
  if frame.length ≠ expectedSize then
    return .error (.invalidParameters ("Expected frame size "++toString expectedSize++
      " bytes, got "++toString frame.length))
  let ySize := (← o.mulU32 width height).toNat
  let uvSize := ySize/4
  let yPlane ← frameRange frame 0 ySize
  let uPlane ← frameRange frame ySize (ySize+uvSize)
  let vPlane ← frameRange frame (ySize+uvSize) (ySize+uvSize*2)
  return yuv420pToRgb24 yPlane uPlane vPlane width.toNat height.toNat

def encode (o : Overflow) (c : OpenH264Codec ε δ) (frame : Bytes) :
    Option (OpenH264Codec ε δ × Except CodecError Bytes) :=
  match c.encoder with
  | none => some (c,.error (.encodingFailed "Encoder not initialized"))
  | some encoder => do
    match ← frameToRgb o c.width c.height frame with
    | .error e => return (c,.error e)
    | .ok rgbData =>
      let yuvBuffer ← lib.withRgb c.width.toNat c.height.toNat rgbData
      let (encoder,result) := lib.encode encoder yuvBuffer
      let c := { c with encoder := some encoder }
      match result with
      | .error e => return (c,.error (.openH264Error ("Encoding failed: "++e)))
      | .ok bitstream => return (c,.ok bitstream)

def decode (c : OpenH264Codec ε δ) (data : Bytes) : OpenH264Codec ε δ × Except CodecError Bytes :=
  match c.decoder with
  | none => (c,.error (.decodingFailed "Decoder not initialized"))
  | some decoder =>
    let (decoder,result) := lib.decode decoder data
    let c := { c with decoder := some decoder }
    match result with
    | .error e => (c,.error (.openH264Error ("Decoding failed: "++e)))
    | .ok none => (c,.ok [])
    | .ok (some (y,u,v)) => (c,.ok (y++u++v))

/-- The dimensions of which a frame of the expected size has all the chroma samples that the
conversion looks for. -/
def Convertible (width height : Nat) : Prop :=
  width = 0 ∨ height = 0 ∨ (2 ∣ width ∧ 2 ∣ height) ∨ (¬ 2 ∣ width ∧ 2 ∣ height ∧ 4 ≤ height) ∨
    (¬ 2 ∣ width ∧ ¬ 2 ∣ height ∧ width+4 ≤ height)

theorem lastUv_lt_iff {width height : Nat} (hw : 0 < width) (hh : 0 < height) :
    lastUv width height < width*height/4 ↔ Convertible width height := by
  obtain ⟨a,ha | ha⟩ := Nat.even_or_odd' width
  · obtain ⟨b,hb | hb⟩ := Nat.even_or_odd' height
    · have harea : width*height = 4*(b*a) := by rw [ha,hb]; ring
      have hrows : (height-1)/2 = b-1 := by omega
      have hcols : width/2 = a := by omega
      have hprod : (b-1)*a+a = b*a := by
        obtain ⟨k,rfl⟩ := Nat.exists_eq_succ_of_ne_zero (show b ≠ 0 by omega)
        simp [Nat.succ_mul]
      unfold lastUv Convertible
      rw [harea,hrows,hcols]
      generalize (b-1)*a = p at hprod ⊢
      generalize b*a = q at hprod ⊢
      omega
    · have harea : width*height = 4*(b*a)+2*a := by rw [ha,hb]; ring
      have hrows : (height-1)/2 = b := by omega
      have hcols : width/2 = a := by omega
      unfold lastUv Convertible
      rw [harea,hrows,hcols]
      generalize b*a = q
      omega
  · obtain ⟨b,hb | hb⟩ := Nat.even_or_odd' height
    · have harea : width*height = 4*(b*a)+2*b := by rw [ha,hb]; ring
      have hrows : (height-1)/2 = b-1 := by omega
      have hcols : width/2 = a := by omega
      have hprod : (b-1)*a+a = b*a := by
        obtain ⟨k,rfl⟩ := Nat.exists_eq_succ_of_ne_zero (show b ≠ 0 by omega)
        simp [Nat.succ_mul]
      unfold lastUv Convertible
      rw [harea,hrows,hcols]
      generalize (b-1)*a = p at hprod ⊢
      generalize b*a = q at hprod ⊢
      omega
    · have harea : width*height = 4*(b*a)+2*a+2*b+1 := by rw [ha,hb]; ring
      have hrows : (height-1)/2 = b := by omega
      have hcols : width/2 = a := by omega
      unfold lastUv Convertible
      rw [harea,hrows,hcols]
      generalize b*a = q
      omega

section Frame

variable {frame : Bytes} {product : Nat}

/-- A frame that holds three planes is cut into them. -/
theorem frameRange_planes (h : product+product/4*2 ≤ frame.length) :
    frameRange frame 0 product = some (frame.take product) ∧
      frameRange frame product (product+product/4) =
        some ((frame.drop product).take (product/4)) ∧
      frameRange frame (product+product/4) (product+product/4*2) =
        some ((frame.drop (product+product/4)).take (product/4)) := by
  refine ⟨?_,?_,?_⟩
  · simp only [frameRange,Nat.zero_le,true_and]
    rw [if_pos (by omega),List.drop_zero,Nat.sub_zero]
  · rw [frameRange,if_pos (by omega),Nat.add_sub_cancel_left]
  · have hlength : product+product/4*2-(product+product/4) = product/4 := by omega
    rw [frameRange,if_pos (by omega),hlength]

theorem yuv420pToRgb24_planes (h : product+product/4*2 ≤ frame.length) (width height : Nat)
    (rgbData : Bytes) :
    yuv420pToRgb24 (frame.take product) ((frame.drop product).take (product/4))
        ((frame.drop (product+product/4)).take (product/4)) width height = .ok rgbData ↔
      (width = 0 ∨ height = 0 ∨
        (width*height ≤ product ∧ lastUv width height < product/4)) ∧
        rgbData = picture (frame.take product) ((frame.drop product).take (product/4))
          ((frame.drop (product+product/4)).take (product/4)) width height := by
  have hy : (frame.take product).length = product := by
    rw [List.length_take]
    omega
  have hu : ((frame.drop product).take (product/4)).length = product/4 := by
    rw [List.length_take,List.length_drop]
    omega
  have hv : ((frame.drop (product+product/4)).take (product/4)).length = product/4 := by
    rw [List.length_take,List.length_drop]
    omega
  rw [yuv420pToRgb24_ok_iff,Covers,hy,hu,hv,and_self_iff]

theorem frameToRgb_eq_some {o : Overflow} {width height : UInt32} {rgbData : Bytes}
    (h : frameToRgb o width height frame = some (.ok rgbData)) :
    let area := width.toNat*height.toNat%2^32
    frame.length = area*3%2^32/2 ∧ area+area/4*2 ≤ frame.length ∧
      yuv420pToRgb24 (frame.take area) ((frame.drop area).take (area/4))
        ((frame.drop (area+area/4)).take (area/4)) width.toNat height.toNat = .ok rgbData := by
  intro area
  simp only [frameToRgb,Option.bind_eq_bind,Option.bind_eq_some_iff] at h
  obtain ⟨product,hproduct,tripled,htripled,h⟩ := h
  have harea : product.toNat = area := Overflow.mulU32_eq_some hproduct
  have htripled := Overflow.mulU32_eq_some htripled
  split_ifs at h with hlength
  · cases h
  · simp only [hproduct,Option.bind_some,Option.bind_eq_some_iff,harea] at h
    obtain ⟨yPlane,hy,uPlane,hu,vPlane,hv,h⟩ := h
    have hfits := (frameRange_eq_some hv).2.1
    obtain ⟨hy',hu',hv'⟩ := frameRange_planes hfits
    obtain rfl := Option.some.inj (hy'.symm.trans hy)
    obtain rfl := Option.some.inj (hu'.symm.trans hu)
    obtain rfl := Option.some.inj (hv'.symm.trans hv)
    refine ⟨?_,hfits,Option.some.inj h⟩
    have htriple : tripled.toNat = area*3%2^32 := by
      rw [htripled,harea]
      rfl
    rw [← htriple]
    simpa [UInt32.toNat_div] using hlength

theorem frameToRgb_of_fits (o : Overflow) {width height : UInt32} {rgbData : Bytes}
    (hfits : width.toNat*height.toNat*3 < 2^32)
    (hlength : frame.length = width.toNat*height.toNat*3/2)
    (h : yuv420pToRgb24 (frame.take (width.toNat*height.toNat))
        ((frame.drop (width.toNat*height.toNat)).take (width.toNat*height.toNat/4))
        ((frame.drop (width.toNat*height.toNat+width.toNat*height.toNat/4)).take
          (width.toNat*height.toNat/4)) width.toNat height.toNat = .ok rgbData) :
    frameToRgb o width height frame = some (.ok rgbData) := by
  have three : (3 : UInt32).toNat = 3 := rfl
  obtain ⟨product,hproduct,hvalue⟩ := o.mulU32_of_lt (a := width) (b := height) (by omega)
  obtain ⟨tripled,htripled,hvalue3⟩ :=
    o.mulU32_of_lt (a := product) (b := 3) (by rw [three]; omega)
  rw [three,hvalue] at hvalue3
  have hsize : ¬ frame.length ≠ (tripled/2).toNat := by
    rw [not_not,UInt32.toNat_div,hvalue3]
    exact hlength
  obtain ⟨hy,hu,hv⟩ := frameRange_planes
    (show width.toNat*height.toNat+width.toNat*height.toNat/4*2 ≤ frame.length by omega)
  simp only [frameToRgb,hproduct,htripled,Option.bind_eq_bind,Option.bind_some,if_neg hsize,
    hvalue,hy,hu,hv,h,Option.pure_def]

theorem frameToRgb_ok_iff (o : Overflow) (width height : UInt32) (frame rgbData : Bytes) :
    let area := width.toNat*height.toNat
    frameToRgb o width height frame = some (.ok rgbData) ↔
      area*3 < 2^32 ∧ frame.length = area*3/2 ∧ Convertible width.toNat height.toNat ∧
        rgbData = picture (frame.take area) ((frame.drop area).take (area/4))
          ((frame.drop (area+area/4)).take (area/4)) width.toNat height.toNat := by
  intro area
  have hdef : width.toNat*height.toNat = area := rfl
  constructor
  · intro h
    obtain ⟨hlength,hplanes,hrgb⟩ := frameToRgb_eq_some h
    rw [hdef] at hlength hplanes hrgb
    obtain ⟨hcovers,hpicture⟩ := (yuv420pToRgb24_planes hplanes _ _ _).mp hrgb
    rw [hdef] at hcovers
    -- A product that does not fit leaves the first plane or the frame too short.
    have hfits : area*3 < 2^32 ∧ area%2^32 = area := by
      rcases hcovers with hzero | hzero | ⟨harea,_⟩
      · have harea : area = 0 := by simp [area,hzero]
        omega
      · have harea : area = 0 := by simp [area,hzero]
        omega
      · omega
    obtain ⟨hfits,hmod⟩ := hfits
    rw [hmod,Nat.mod_eq_of_lt hfits] at hlength
    rw [hmod] at hcovers hpicture
    refine ⟨hfits,hlength,?_,hpicture⟩
    rcases hcovers with hzero | hzero | ⟨_,hlast⟩
    · exact .inl hzero
    · exact .inr (.inl hzero)
    · by_cases hw : width.toNat = 0
      · exact .inl hw
      · by_cases hh : height.toNat = 0
        · exact .inr (.inl hh)
        · exact (lastUv_lt_iff (by omega) (by omega)).mp hlast
  · rintro ⟨hfits,hlength,hconvertible,hpicture⟩
    have hcovers : width.toNat = 0 ∨ height.toNat = 0 ∨
        (area ≤ area ∧ lastUv width.toNat height.toNat < area/4) := by
      by_cases hw : width.toNat = 0
      · exact .inl hw
      · by_cases hh : height.toNat = 0
        · exact .inr (.inl hh)
        · exact .inr (.inr ⟨le_refl _,(lastUv_lt_iff (by omega) (by omega)).mpr hconvertible⟩)
    have hplanes : area+area/4*2 ≤ frame.length := by omega
    exact frameToRgb_of_fits o hfits hlength
      ((yuv420pToRgb24_planes hplanes _ _ _).mpr ⟨hcovers,hpicture⟩)

end Frame

end OpenH264Codec

/-- What the codec uses of Opus. The encoder is given a bound on what it writes; the decoder writes
its samples, one channel after the other for each instant, into a buffer and says for how many
instants it has. -/
structure Opus (ε δ : Type) where
  encode : ε → List Int16 → Nat → ε × Except String Bytes
  decode : δ → Bytes → List Int16 → δ × Except String (Nat × List Int16)

structure OpusEncoder (ε : Type) where
  encoder : ε
  frameSize : Nat

structure OpusCodec (ε δ : Type) where
  encoder : Option (OpusEncoder ε)
  decoder : Option δ
  sampleRate : UInt32
  channels : UInt16

namespace OpusCodec

variable {ε δ : Type} (lib : Opus ε δ)

/-- 20 ms. -/
def frameSize (c : OpusCodec ε δ) : Nat := (c.sampleRate/50).toNat

/-- `chunks_exact(2)` and `i16::from_le_bytes`. -/
def samplesOf : Bytes → List Int16
  | low::high::rest => (low.toUInt16+high.toUInt16*256).toInt16::samplesOf rest
  | _ => []

/-- `to_le_bytes`. -/
def bytesOf (samples : List Int16) : Bytes :=
  samples.flatMap (fun s => [s.toUInt16.toUInt8,(s.toUInt16/256).toUInt8])

def encode (c : OpusCodec ε δ) (frame : Bytes) : OpusCodec ε δ × Except CodecError Bytes :=
  match c.encoder with
  | none => (c,.error (.encodingFailed "Encoder not initialized"))
  | some encoder =>
    if frame.length%2 ≠ 0 then
      (c,.error (.invalidParameters "Frame length must be even for 16-bit samples"))
    else
      let samples := samplesOf frame
      let expectedSamples := encoder.frameSize*c.channels.toNat
      if samples.length ≠ expectedSamples then
        (c,.error (.invalidParameters ("Expected "++toString expectedSamples++" samples, got "++
          toString samples.length)))
      else
        let (inner,result) := lib.encode encoder.encoder samples 4000
        let c := { c with encoder := some { encoder with encoder := inner } }
        match result with
        | .error e => (c,.error (.opusError ("Encoding failed: "++e)))
        | .ok output => (c,.ok output)

/-- `none` is a panic. -/
def decode (c : OpusCodec ε δ) (data : Bytes) :
    Option (OpusCodec ε δ × Except CodecError Bytes) :=
  match c.decoder with
  | none => some (c,.error (.decodingFailed "Decoder not initialized"))
  | some decoder =>
    let output := List.replicate (c.frameSize*c.channels.toNat) 0
    let (inner,result) := lib.decode decoder data output
    let c := { c with decoder := some inner }
    match result with
    | .error e => some (c,.error (.opusError ("Decoding failed: "++e)))
    | .ok (decodedSamples,output) =>
      if decodedSamples ≤ output.length then
        some (c,.ok (bytesOf (output.take decodedSamples)))
      else none

theorem twoBytes (x : UInt16) : x.toUInt8.toUInt16+(x/256).toUInt8.toUInt16*256 = x := by
  apply UInt16.toNat_inj.mp
  have hx := x.toNat_lt
  simp [UInt16.toNat_add,UInt16.toNat_mul]
  omega

theorem samplesOf_bytesOf (samples : List Int16) : samplesOf (bytesOf samples) = samples := by
  induction samples with
  | nil => rfl
  | cons s samples ih =>
    have hs : (s.toUInt16.toUInt8.toUInt16+(s.toUInt16/256).toUInt8.toUInt16*256).toInt16 = s := by
      rw [twoBytes]
      simp
    show _::samplesOf (bytesOf samples) = _
    rw [ih,hs]

/-- Of the samples of `n` instants, as many are given back as there are instants: all of them for
mono, and half of them for stereo. -/
theorem decode_whole_iff {c : OpusCodec ε δ} {decoder inner : δ} {data : Bytes} {n : Nat}
    {pcm : List Int16} (hdecoder : c.decoder = some decoder)
    (hpcm : lib.decode decoder data (List.replicate (c.frameSize*c.channels.toNat) 0) =
      (inner,.ok (n,pcm)))
    (hlength : pcm.length = c.frameSize*c.channels.toNat) (hn : n ≤ c.frameSize)
    (hchannels : 1 ≤ c.channels.toNat) :
    ∃ frame, decode lib c data = some ({ c with decoder := some inner },.ok frame) ∧
      samplesOf frame = pcm.take n ∧
      (samplesOf frame = pcm.take (n*c.channels.toNat) ↔ c.channels.toNat = 1 ∨ n = 0) := by
  have hmany : n*c.channels.toNat ≤ pcm.length := by
    rw [hlength]
    exact Nat.mul_le_mul_right _ hn
  have hfew : n ≤ n*c.channels.toNat := Nat.le_mul_of_pos_right n hchannels
  refine ⟨bytesOf (pcm.take n),?_,samplesOf_bytesOf _,?_⟩
  · simp [decode,hdecoder,hpcm,hfew.trans hmany]
  · rw [samplesOf_bytesOf]
    constructor
    · intro h
      have hlengths := congrArg List.length h
      rw [List.length_take,List.length_take,Nat.min_eq_left (hfew.trans hmany),
        Nat.min_eq_left hmany] at hlengths
      by_cases hzero : n = 0
      · exact .inr hzero
      · exact .inl (Nat.eq_of_mul_eq_mul_left (by omega) (by omega : n*c.channels.toNat = n*1))
    · rintro (hone | rfl)
      · rw [hone,Nat.mul_one]
      · simp

end OpusCodec

end OpenBroadcast.Media
