/-
**The sizes of images.**

An image should have pixels, and at four bytes a pixel it should take no more than a gibibyte.  An
adjustment that makes an image of a new size checks the size first; a cut is no larger than what it is
cut from; and every other adjustment keeps the number of pixels.  So what an adjustment makes of an
image of a proper size has a proper size too.

Sizes are numbers of 32 bits, and their products are taken in 64 bits.  The check comes to the same as
in exact numbers.  A cut is written out here a second time, with every difference that is not exact
refused; it comes to the same as well, since an offset is brought inside the image before it is subtracted
from its side.

Main definitions:

* `PhotoPipeline.Image.Fits` — an image of a proper size;
* `PhotoPipeline.ExactSize` — a size that is checked as in exact numbers;
* `PhotoPipeline.exactSub?`, `PhotoPipeline.Adjustment.cropExactly` — differences that may be refused, and
  a cut that uses them;
* `PhotoPipeline.Adjustment.Exact` — an adjustment that computes sizes and offsets exactly.

Main results:

* `PhotoPipeline.exactSize` — no product wraps;
* `PhotoPipeline.Adjustment.run_cropExactly` — **no difference is refused**;
* `PhotoPipeline.Adjustment.exact` — **adjustments compute sizes and offsets exactly**;
* `PhotoPipeline.Adjustment.fits_of_applyWith` — **adjustments make images of a proper size**, whatever
  tools they use.
-/
import PhotoPipeline.Element.Adjustment

set_option relaxedAutoImplicit false
set_option autoImplicit false

namespace PhotoPipeline

/-! ### Images of a proper size -/

namespace Image

/-- The image has pixels, and takes at most `2 ^ 30` bytes at four bytes a pixel. -/
structure Fits (i : Image) : Prop where
  pos : 0 < i.area
  le : 4 * i.area ≤ Nat.pow 2 30

instance (i : Image) : Decidable i.Fits :=
  decidable_of_iff (0 < i.area ∧ 4 * i.area ≤ Nat.pow 2 30)
    ⟨fun h => ⟨h.1, h.2⟩, fun h => ⟨h.pos, h.le⟩⟩

/-- Only the number of pixels matters. -/
theorem Fits.of_area {i j : Image} (h : i.Fits) (harea : j.area = i.area) : j.Fits :=
  ⟨harea ▸ h.pos, harea ▸ h.le⟩

/-- A rectangle with pixels that is no larger than the image. -/
theorem Fits.cut {i : Image} (h : i.Fits) {x y width height : UInt32} (hwidth : width ≠ 0)
    (hheight : height ≠ 0) (hw : width ≤ i.width) (hh : height ≤ i.height) :
    (i.cut x y width height).Fits := by
  have hle : width.toNat * height.toNat ≤ i.area := Nat.mul_le_mul hw hh
  constructor
  · exact Nat.mul_pos (Nat.pos_of_ne_zero fun hz => hwidth (UInt32.toNat_inj.1 hz))
      (Nat.pos_of_ne_zero fun hz => hheight (UInt32.toNat_inj.1 hz))
  · exact Nat.le_trans (Nat.mul_le_mul_left 4 hle) h.le

end Image

/-! ### Exact arithmetic -/

/-- The size is checked as in exact numbers: neither the number of pixels nor the number of bytes
wraps around, and a size passes exactly if it is proper. -/
structure ExactSize (width height : UInt32) : Prop where
  pixels : (width.toUInt64 * height.toUInt64).toNat = width.toNat * height.toNat
  bytes : ∀ n, sizeInBytes width height = some n → n.toNat = 4 * (width.toNat * height.toNat)
  passes : ∀ element, checkSize element width height = .ok () ↔
    0 < width.toNat * height.toNat ∧ 4 * (width.toNat * height.toNat) ≤ Nat.pow 2 30

theorem exactSize (width height : UInt32) : ExactSize width height where
  pixels := by
    have hlt := Nat.mul_lt_mul'' width.toNat_lt height.toNat_lt
    rw [UInt64.toNat_mul, UInt32.toNat_toUInt64, UInt32.toNat_toUInt64]
    exact Nat.mod_eq_of_lt hlt
  bytes n hn := by
    obtain ⟨pixels, hpixels, hbytes⟩ := Option.bind_eq_some_iff.1 hn
    rw [toNat_checkedMul hbytes, toNat_checkedMul hpixels, UInt32.toNat_toUInt64,
      UInt32.toNat_toUInt64, Nat.mul_comm]
    rfl
  passes element := by
    rw [checkSize_eq_ok_iff, ← and_assoc]
    refine and_congr_left fun _ => ⟨fun h => Nat.mul_pos h.1 h.2, fun h => ?_⟩
    exact ⟨Nat.pos_of_mul_pos_right h, Nat.pos_of_mul_pos_left h⟩

/-- A difference, which is refused if it is not exact. -/
def exactSub? (a b : UInt32) : Option UInt32 := if b ≤ a then some (a - b) else none

theorem toNat_of_exactSub? {a b c : UInt32} (h : exactSub? a b = some c) :
    c.toNat + b.toNat = a.toNat := by
  rw [exactSub?] at h
  split at h
  · next hle =>
      obtain rfl := Option.some.inj h
      rw [UInt32.toNat_sub_of_le a b hle, Nat.sub_add_cancel (UInt32.le_iff_toNat_le.1 hle)]
  · cases h

theorem min_le_side (offset side : UInt32) : min offset side ≤ side := by
  show (if offset ≤ side then offset else side) ≤ side
  split
  · assumption
  · exact UInt32.le_refl side

/-- An offset that has been brought inside the side is not refused. -/
theorem exactSub?_min (side offset : UInt32) :
    exactSub? side (min offset side) = some (side - min offset side) :=
  if_pos (min_le_side offset side)

namespace Adjustment

/-- A rectangle of the image, found as `applyCrop` finds it, where every difference of sizes that is not
exact is refused. -/
def cropExactly (element : Text) (x y width height : Value) (image : Image) :
    ExceptT Error Option Image := do
  let x ← ExceptT.mk (some (x.pixels element (some image)))
  let x := min x image.width
  let y ← ExceptT.mk (some (y.pixels element (some image)))
  let y := min y image.height
  let w ← ExceptT.mk (some (width.pixels element (some image)))
  let w := min w (← ExceptT.lift (exactSub? image.width x))
  let h ← ExceptT.mk (some (height.pixels element (some image)))
  let h := min h (← ExceptT.lift (exactSub? image.height y))
  if w = 0 ∨ h = 0 then
    throw (.step element
      (.emptyCut x.toNat y.toNat image.width.toNat image.height.toNat))
  return image.cut x y w h

/-- What comes after a result is not refused if it is not for any value. -/
theorem run_bind_of_forall {α β : Type} (r : Except Error α) {f : α → ExceptT Error Option β}
    {g : α → Except Error β} (h : ∀ a, (f a).run = some (g a)) :
    (ExceptT.mk (some r) >>= f).run = some (r >>= g) := by
  cases r with
  | error => rfl
  | ok a => exact h a

/-- The rest of a side behind an offset that has been brought inside is not refused. -/
theorem run_exactSub?_bind {β : Type} (side offset : UInt32) (f : UInt32 → ExceptT Error Option β) :
    (ExceptT.lift (exactSub? side (min offset side)) >>= f).run =
      (f (side - min offset side)).run := by
  rw [exactSub?_min]
  rfl

/-- **No difference is refused**, and the rectangle, or the error, is the same. -/
theorem run_cropExactly (element : Text) (x y width height : Value) (image : Image) :
    (cropExactly element x y width height image).run =
      some (applyCrop element x y width height image) := by
  rw [cropExactly, applyCrop]
  refine run_bind_of_forall _ fun left => ?_
  refine run_bind_of_forall _ fun top => ?_
  refine run_bind_of_forall _ fun w => ?_
  refine (run_exactSub?_bind ..).trans ?_
  refine run_bind_of_forall _ fun h => ?_
  refine (run_exactSub?_bind ..).trans ?_
  by_cases hempty : min w (image.width - min left image.width) = 0 ∨
      min h (image.height - min top image.height) = 0
  · exact (if_pos hempty).trans (congrArg some (if_pos hempty).symm)
  · exact (if_neg hempty).trans (congrArg some (if_neg hempty).symm)

/-- Whatever numbers its arguments come to, the adjustment computes sizes and offsets as in exact
numbers: the check of a size does, and a rectangle is found without a difference that wraps. -/
def Exact (a : Adjustment) (image : Option Image) : Prop :=
  match a with
  | canvas width height _ | resize width height =>
    ∀ w h, width.pixels a.name image = .ok w → height.pixels a.name image = .ok h → ExactSize w h
  | crop x y width height =>
    ∀ i ∈ image, (cropExactly a.name x y width height i).run = some (a.apply image)
  | _ => True

/-- **Adjustments compute sizes and offsets exactly.** -/
theorem exact (a : Adjustment) (image : Option Image) : a.Exact image := by
  cases a with
  | canvas width height colour => exact fun w h _ _ => exactSize w h
  | resize width height => exact fun w h _ _ => exactSize w h
  | crop x y width height =>
      rintro i ⟨⟩
      exact run_cropExactly _ x y width height i
  | contrast | brightness | rotate | blur | grayscale | invert | saturate | tint => trivial

/-! ### Adjusted images -/

theorem exists_of_bind {α β : Type} {r : Except Error α} {f : α → Except Error β} {b : β}
    (h : r >>= f = .ok b) : ∃ a, r = .ok a ∧ f a = .ok b := by
  cases r with
  | error => cases h
  | ok a => exact ⟨a, rfl, h⟩

theorem exists_of_map {α β : Type} {r : Except Error α} {f : α → β} {b : β}
    (h : r.map f = .ok b) : ∃ a, f a = b := by
  cases r with
  | error => cases h
  | ok a => exact ⟨a, Except.ok.inj h⟩

/-- An image of a size that has passed the check. -/
theorem fits_of_checkSize (element : Text) {i : Image}
    (h : checkSize element i.width i.height = .ok ()) : i.Fits :=
  ⟨((exactSize _ _).passes element |>.1 h).1, ((exactSize _ _).passes element |>.1 h).2⟩

theorem fits_of_applyCanvas {element : Text} {width height : Value} {colour : Colour}
    {image : Option Image} {i : Image}
    (h : applyCanvas element width height colour image = .ok i) : i.Fits := by
  obtain ⟨w, -, h⟩ := exists_of_bind h
  obtain ⟨ht, -, h⟩ := exists_of_bind h
  obtain ⟨_, hcheck, h⟩ := exists_of_bind h
  obtain rfl := Except.ok.inj h
  exact fits_of_checkSize element hcheck

theorem fits_of_applyResize {tools : Toolbox} (htools : tools.KeepsSizes) {element : Text}
    {width height : Value} {image i : Image}
    (h : applyResize tools element width height image = .ok i) : i.Fits := by
  obtain ⟨w, -, h⟩ := exists_of_bind h
  obtain ⟨ht, -, h⟩ := exists_of_bind h
  obtain ⟨_, hcheck, h⟩ := exists_of_bind h
  obtain rfl := Except.ok.inj h
  refine fits_of_checkSize element ?_
  rw [htools.width_resize, htools.height_resize]
  exact hcheck

/-- What is cut off is no larger than the side. -/
theorem min_rest_le (side offset length : UInt32) :
    min length (side - min offset side) ≤ side := by
  have hrest := toNat_of_exactSub? (exactSub?_min side offset)
  have hle := UInt32.le_iff_toNat_le.1 (min_le_side length (side - min offset side))
  rw [UInt32.le_iff_toNat_le]
  omega

theorem fits_of_applyCrop {element : Text} {x y width height : Value} {image i : Image}
    (himage : image.Fits) (h : applyCrop element x y width height image = .ok i) : i.Fits := by
  obtain ⟨left, -, h⟩ := exists_of_bind h
  obtain ⟨top, -, h⟩ := exists_of_bind h
  obtain ⟨w, -, h⟩ := exists_of_bind h
  obtain ⟨ht, -, h⟩ := exists_of_bind h
  dsimp only at h
  split at h
  · cases h
  · next hne =>
      obtain ⟨hw, hh⟩ := not_or.1 hne
      obtain rfl := Except.ok.inj h
      exact himage.cut hw hh (min_rest_le image.width left w) (min_rest_le image.height top ht)

theorem fits_of_applyBlur {tools : Toolbox} (htools : tools.KeepsSizes) {element : Text}
    {deviation : Value} {image i : Image} (himage : image.Fits)
    (h : applyBlur tools element deviation image = .ok i) : i.Fits := by
  obtain ⟨d, -, h⟩ := exists_of_bind h
  split at h
  · cases h
  · split at h
    · obtain rfl := Except.ok.inj h
      exact himage
    · split at h
      · cases h
      · obtain rfl := Except.ok.inj h
        exact himage.of_area (htools.area_blur ..)

section

variable {tools : Toolbox} (htools : tools.KeepsSizes) {a : Adjustment} {i : Image}
include htools

/-- What an adjustment makes of an image of a proper size. -/
theorem fits_of_applyToWith {image : Image} (himage : image.Fits)
    (h : a.applyToWith tools image = .ok i) : i.Fits := by
  cases a with
  | canvas => exact fits_of_applyCanvas h
  | resize => exact fits_of_applyResize htools h
  | crop => exact fits_of_applyCrop himage h
  | blur => exact fits_of_applyBlur htools himage h
  | contrast =>
      obtain ⟨x, rfl⟩ := exists_of_map h
      exact himage.of_area (htools.area_contrast ..)
  | brightness =>
      obtain ⟨x, rfl⟩ := exists_of_map h
      exact himage.of_area (htools.area_brighten ..)
  | saturate | tint =>
      obtain ⟨x, rfl⟩ := exists_of_map h
      exact himage.of_area (Image.area_mapColours ..)
  | rotate =>
      obtain rfl := Except.ok.inj h
      exact himage.of_area (Image.area_turn ..)
  | grayscale =>
      obtain rfl := Except.ok.inj h
      exact himage.of_area (htools.area_grey ..)
  | invert =>
      obtain rfl := Except.ok.inj h
      exact himage.of_area (htools.area_invert ..)

/-- **Adjustments make images of a proper size** from images of a proper size, and from none, whatever
the tools do to samples. -/
theorem fits_of_applyWith {image : Option Image} (himage : ∀ j ∈ image, j.Fits)
    (h : a.applyWith tools image = .ok i) : i.Fits := by
  cases image with
  | some image => exact fits_of_applyToWith htools (himage image rfl) h
  | none =>
      cases a with
      | canvas => exact fits_of_applyCanvas h
      | contrast | brightness | rotate | resize | crop | blur | grayscale | invert | saturate
      | tint => cases h

end

theorem fits_of_apply {a : Adjustment} {image : Option Image} {i : Image}
    (himage : ∀ j ∈ image, j.Fits) (h : a.apply image = .ok i) : i.Fits :=
  fits_of_applyWith Toolbox.keepsSizes_standard himage h

end Adjustment

end PhotoPipeline
