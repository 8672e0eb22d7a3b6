/-
**Adjustments.**

The steps that make an image from the image they receive and from nothing else.  Their arguments
are values, so that sizes and amounts may depend on the image.

What an adjustment does to samples it leaves to tools.  Which sizes are asked for, and what is refused,
does not depend on them; all that an adjustment relies on is that a tool keeps the size of an image, or
brings it to the size asked for.  What the tools at hand make of the samples, as of an amount that is
not a number or of samples wider than a byte, matters to the pixels of a result and to nothing that is
shown about runs.

Main definitions:

* `PhotoPipeline.Toolbox` — the tools, with `PhotoPipeline.Toolbox.KeepsSizes`;
* `PhotoPipeline.Adjustment` — the adjustments;
* `PhotoPipeline.checkSize` — refuses images that are empty or too large;
* `PhotoPipeline.Adjustment.apply` — what an adjustment makes of an image.

Main results:

* `PhotoPipeline.Toolbox.keepsSizes_standard` — the tools at hand keep sizes;
* `PhotoPipeline.checkSize_eq_ok_iff` — which sizes pass;
* `PhotoPipeline.Adjustment.apply_none` — without an image all but a canvas fail.
-/
import PhotoPipeline.Image.Geometry
import PhotoPipeline.Image.Resample
import PhotoPipeline.Image.Tone
import PhotoPipeline.Value

set_option relaxedAutoImplicit false
set_option autoImplicit false

namespace PhotoPipeline

/-! ### Sizes -/

/-- The greatest size of an image, in bytes at four bytes a pixel. -/
def maxImageBytes : UInt64 := 1073741824

/-- A product, if it fits 64 bits. -/
def checkedMul (a b : UInt64) : Option UInt64 :=
  if a.toNat * b.toNat < UInt64.size then some (a * b) else none

/-- The bytes of an image at four bytes a pixel, if they fit 64 bits. -/
def sizeInBytes (width height : UInt32) : Option UInt64 :=
  (checkedMul width.toUInt64 height.toUInt64).bind fun pixels => checkedMul pixels 4

/-- Refuses sizes without pixels and sizes beyond the limit. -/
def checkSize (element : Text) (width height : UInt32) : Except Error Unit :=
  if width = 0 ∨ height = 0 then
    .error (.step element (.emptySize width.toNat height.toNat))
  else
    match sizeInBytes width height with
    | some bytes =>
      if bytes ≤ maxImageBytes then .ok ()
      else .error (.step element (.largeSize width.toNat height.toNat maxImageBytes.toNat))
    | none => .error (.step element (.largeSize width.toNat height.toNat maxImageBytes.toNat))

theorem toNat_checkedMul {a b c : UInt64} (h : checkedMul a b = some c) :
    c.toNat = a.toNat * b.toNat := by
  rw [checkedMul] at h
  split at h
  · next hlt =>
    obtain rfl := Option.some.inj h
    rw [UInt64.toNat_mul, Nat.mod_eq_of_lt hlt]
  · exact nomatch h

theorem sizeInBytes_eq {width height : UInt32} :
    sizeInBytes width height =
      if 4 * (width.toNat * height.toNat) < UInt64.size then
        some (width.toUInt64 * height.toUInt64 * 4) else none := by
  have h1 : width.toUInt64.toNat * height.toUInt64.toNat = width.toNat * height.toNat := by
    simp
  have hlt : width.toNat * height.toNat < UInt64.size := by
    have hw := width.toNat_lt
    have hh := height.toNat_lt
    calc width.toNat * height.toNat ≤ width.toNat * UInt32.size := Nat.mul_le_mul_left _ (Nat.le_of_lt hh)
      _ < UInt32.size * UInt32.size := Nat.mul_lt_mul_of_pos_right hw (by decide)
      _ = UInt64.size := by decide
  have h2 : checkedMul width.toUInt64 height.toUInt64 =
      some (width.toUInt64 * height.toUInt64) := by
    rw [checkedMul, h1, if_pos hlt]
  have h3 := toNat_checkedMul h2
  rw [sizeInBytes, h2, Option.bind_some, checkedMul, h3, h1, Nat.mul_comm]
  rfl

/-- A size passes exactly when it has pixels and stays within the limit. -/
theorem checkSize_eq_ok_iff {element : Text} {width height : UInt32} :
    checkSize element width height = .ok () ↔
      0 < width.toNat ∧ 0 < height.toNat ∧ 4 * (width.toNat * height.toNat) ≤ maxImageBytes.toNat := by
  have hm : maxImageBytes.toNat = 1073741824 := rfl
  have hs : UInt64.size = 18446744073709551616 := rfl
  have hz : (width = 0 ∨ height = 0) ↔ (width.toNat = 0 ∨ height.toNat = 0) := by
    rw [← UInt32.toNat_inj, ← UInt32.toNat_inj]; rfl
  rw [checkSize, sizeInBytes_eq]
  by_cases h0 : width = 0 ∨ height = 0
  · rw [if_pos h0]
    have := hz.1 h0
    simp only [reduceCtorEq, false_iff]
    omega
  · rw [if_neg h0]
    have := mt hz.2 h0
    by_cases hb : 4 * (width.toNat * height.toNat) < UInt64.size
    · rw [if_pos hb]
      have hn : (width.toUInt64 * height.toUInt64 * 4).toNat =
          4 * (width.toNat * height.toNat) := by
        rw [UInt64.toNat_mul, UInt64.toNat_mul]
        simp only [UInt32.toNat_toUInt64, UInt64.reduceToNat]
        rw [Nat.mod_eq_of_lt (a := width.toNat * height.toNat) (by omega),
          Nat.mod_eq_of_lt (by omega), Nat.mul_comm]
      have hle : width.toUInt64 * height.toUInt64 * 4 ≤ maxImageBytes ↔
          4 * (width.toNat * height.toNat) ≤ maxImageBytes.toNat := by
        rw [UInt64.le_iff_toNat_le, hn]
      dsimp only
      by_cases hl : 4 * (width.toNat * height.toNat) ≤ maxImageBytes.toNat
      · rw [if_pos (hle.2 hl)]
        simp only [true_iff]
        omega
      · rw [if_neg (fun h => hl (hle.1 h))]
        simp only [reduceCtorEq, false_iff]
        omega
    · rw [if_neg hb]
      simp only [reduceCtorEq, false_iff]
      omega

/-! ### Tools -/

/-- What is done to the samples of an image. -/
structure Toolbox where
  resize : Image → UInt32 → UInt32 → Image
  blur : Image → Float32 → Image
  contrast : Image → Float32 → Image
  brighten : Image → Int32 → Image
  grey : Image → Image
  invert : Image → Image

namespace Toolbox

/-- The tools at hand. -/
def standard : Toolbox :=
  ⟨Image.resize, Image.blur, Image.contrast, Image.brighten, Image.grey, Image.invert⟩

/-- A resized image has the size asked for, and the other tools keep the number of pixels. -/
structure KeepsSizes (t : Toolbox) : Prop where
  width_resize : ∀ i w h, (t.resize i w h).width = w
  height_resize : ∀ i w h, (t.resize i w h).height = h
  area_blur : ∀ i x, (t.blur i x).area = i.area
  area_contrast : ∀ i x, (t.contrast i x).area = i.area
  area_brighten : ∀ i n, (t.brighten i n).area = i.area
  area_grey : ∀ i, (t.grey i).area = i.area
  area_invert : ∀ i, (t.invert i).area = i.area

theorem keepsSizes_standard : standard.KeepsSizes where
  width_resize := Image.width_resize
  height_resize := Image.height_resize
  area_blur := Image.area_blur
  area_contrast i x := i.area_mapSamples (contrastMap x)
  area_brighten i n := i.area_mapColourSamples (brightnessMap n)
  area_grey := Image.area_grey
  area_invert i := i.area_mapColourSamples invertMap

end Toolbox

/-! ### Adjustments -/

/-- A step that depends on the image alone. -/
inductive Adjustment where
  | canvas (width height : Value) (colour : Colour)
  | contrast (amount : Value)
  | brightness (amount : Value)
  | rotate (turns : Int64)
  | resize (width height : Value)
  | crop (x y width height : Value)
  | blur (deviation : Value)
  | grayscale
  | invert
  | saturate (percent : Value)
  | tint (colour : Colour) (amount : Value)

namespace Adjustment

/-- The name of an adjustment. -/
def name : Adjustment → Text
  | canvas .. => "canvas".toList
  | contrast _ => "contrast".toList
  | brightness _ => "brightness".toList
  | rotate _ => "rotate".toList
  | resize .. => "resize".toList
  | crop .. => "crop".toList
  | blur _ => "blur".toList
  | grayscale => "grayscale".toList
  | invert => "invert".toList
  | saturate _ => "saturate".toList
  | tint .. => "tint".toList

/-- A solid image; its size may depend on the image at hand. -/
def applyCanvas (element : Text) (width height : Value) (colour : Colour)
    (image : Option Image) : Except Error Image := do
  let w ← width.pixels element image
  let h ← height.pixels element image
  checkSize element w h
  return .solid w h colour

/-- The image at another size. -/
def applyResize (tools : Toolbox) (element : Text) (width height : Value) (image : Image) :
    Except Error Image := do
  let w ← width.pixels element (some image)
  let h ← height.pixels element (some image)
  checkSize element w h
  return tools.resize image w h

/-- A rectangle of the image; what lies outside the image is cut off first. -/
def applyCrop (element : Text) (x y width height : Value) (image : Image) :
    Except Error Image := do
  let x ← x.pixels element (some image)
  let x := min x image.width
  let y ← y.pixels element (some image)
  let y := min y image.height
  let w ← width.pixels element (some image)
  let w := min w (image.width - x)
  let h ← height.pixels element (some image)
  let h := min h (image.height - y)
  if w = 0 ∨ h = 0 then
    throw (.step element
      (.emptyCut x.toNat y.toNat image.width.toNat image.height.toNat))
  return image.cut x y w h

/-- Whether a deviation is too small, too large or not a number. -/
def isOutOfRange (x : Float32) : Bool := x.isNaN || x.isInf || x == 0 || isSubnormal x

/-- The image softened; a deviation of zero changes nothing. -/
def applyBlur (tools : Toolbox) (element : Text) (deviation : Value) (image : Image) :
    Except Error Image := do
  let d ← deviation.float element (some image)
  if d < 0 then
    throw (.step element .negativeDeviation)
  else if d == 0 then
    return image
  else if isOutOfRange d.toFloat32 then
    throw (.step element (.deviationOutOfRange deviation.source))
  else
    return tools.blur image d.toFloat32

/-- What an adjustment makes of an image that is there, with given tools. -/
def applyToWith (tools : Toolbox) (a : Adjustment) (image : Image) : Except Error Image :=
  match a with
  | canvas width height colour => applyCanvas a.name width height colour (some image)
  | contrast amount =>
    (amount.float a.name (some image)).map fun x => tools.contrast image x.toFloat32
  | brightness amount =>
    (amount.float a.name (some image)).map fun x => tools.brighten image (roundFloat x).toInt32
  | rotate turns => .ok (image.turn turns.toInt)
  | resize width height => applyResize tools a.name width height image
  | crop x y width height => applyCrop a.name x y width height image
  | blur deviation => applyBlur tools a.name deviation image
  | grayscale => .ok (tools.grey image)
  | invert => .ok (tools.invert image)
  | saturate percent =>
    (percent.float a.name (some image)).map fun x =>
      image.mapColours fun c => c.saturate x.toFloat32
  | tint colour amount =>
    (amount.float a.name (some image)).map fun x =>
      image.mapColours fun c => c.mix colour x.toFloat32

/-- What an adjustment makes of an image that is there. -/
def applyTo (a : Adjustment) (image : Image) : Except Error Image := a.applyToWith .standard image

/-- What an adjustment makes of the image at hand, if there is one, with given tools. -/
def applyWith (tools : Toolbox) (a : Adjustment) : Option Image → Except Error Image
  | some image => a.applyToWith tools image
  | none =>
    match a with
    | canvas width height colour => applyCanvas a.name width height colour none
    | _ => .error (.needsImage a.name)

/-- What an adjustment makes of the image at hand, if there is one. -/
def apply (a : Adjustment) (image : Option Image) : Except Error Image := a.applyWith .standard image

theorem apply_none {a : Adjustment} (h : ∀ w h c, a ≠ canvas w h c) :
    a.apply none = .error (.needsImage a.name) := by
  cases a with
  | canvas w ht c => exact absurd rfl (h w ht c)
  | _ => rfl

end Adjustment

end PhotoPipeline
