/-
**Tone.**

Contrast, brightness, inversion and the conversion to grey.  Contrast is computed in single
precision, one rounding for each operation, and cut off to whole samples; the other three are
computed in whole numbers for whole samples.  A grey of single precision samples is computed in
double precision and is still held as red, green and blue.

Main definitions:

* `PhotoPipeline.Image.contrast`, `PhotoPipeline.Image.brighten`, `PhotoPipeline.Image.invert`,
  `PhotoPipeline.Image.grey`.

Main results:

* `PhotoPipeline.Image.area_grey` — the size is kept.
-/
import PhotoPipeline.Image.Sample

set_option relaxedAutoImplicit false
set_option autoImplicit false

namespace PhotoPipeline

/-! ### Contrast -/

/-- What the distance of a sample from the middle is multiplied by. -/
def contrastFactor (amount : Float32) : Float32 :=
  let share := (100 + amount) / 100
  share * share

/-- A sample moved away from the middle of its range. -/
def contrastSample (factor top sample : Float32) : Float32 :=
  clampSingle 0 top (((sample / top - 0.5) * factor + 0.5) * top)

/-- The change of contrast. -/
def contrastMap (amount : Float32) : SampleMap :=
  let factor := contrastFactor amount
  { byte := fun s => (contrastSample factor 255 s.toFloat32).toUInt8
    word := fun s => (contrastSample factor 65535 s.toFloat32).toUInt16
    single := fun s => contrastSample factor 1 s }

/-! ### Brightness -/

/-- A whole sample, moved and kept in its range.  The sum is held in 32 bits, so that an amount too
close to the greatest makes it negative. -/
def moveSample (amount : Int32) (top sample : Nat) : Nat :=
  min (Int32.ofNat sample + amount).toInt.toNat top

/-- The change of brightness. -/
def brightnessMap (amount : Int32) : SampleMap where
  byte s := UInt8.ofNat (moveSample amount 255 s.toNat)
  word s := UInt16.ofNat (moveSample amount 65535 s.toNat)
  single s := Float32.ofNat (moveSample amount 1 s.toUInt8.toNat)

/-! ### Inversion -/

/-- The opposite of a byte. -/
def invertByte (s : UInt8) : UInt8 := 255 - s

/-- The change to the opposite. -/
def invertMap : SampleMap where
  byte := invertByte
  word s := 65535 - s
  single s := 1 - s

/-! ### Grey -/

/-- The brightness of a colour, in ten-thousandths of its parts. -/
def luma (red green blue : Nat) : Nat := (2126 * red + 7152 * green + 722 * blue) / 10000

/-- The brightness of a colour in single precision parts. -/
def lumaSingle (red green blue : Float32) : Float32 :=
  ((2126 * red.toFloat + 7152 * green.toFloat + 722 * blue.toFloat) / 10000).toFloat32

/-- The format that remains when colour is removed. -/
def Format.grey : Format → Format
  | .l8 | .rgb8 => .l8
  | .la8 | .rgba8 => .la8
  | .l16 | .rgb16 => .l16
  | .la16 | .rgba16 => .la16
  | .rgb32f => .rgb32f
  | .rgba32f => .rgba32f

namespace Image

/-- Changes the contrast; opacities take part. -/
def contrast (i : Image) (amount : Float32) : Image := i.mapSamples (contrastMap amount)

/-- Adds an amount to every sample but the opacities. -/
def brighten (i : Image) (amount : Int32) : Image := i.mapColourSamples (brightnessMap amount)

/-- Turns every sample but the opacities into its opposite. -/
def invert (i : Image) : Image := i.mapColourSamples invertMap

/-- A byte of a pixel whose colour has been removed. -/
def greyByte (i : Image) (x y k : Nat) : UInt8 :=
  match i.format.depth with
  | .byte =>
    if k = 0 then
      UInt8.ofNat (luma (i.byte x y 0).toNat (i.byte x y 1).toNat (i.byte x y 2).toNat)
    else i.byte x y 3
  | .word =>
    if k < 2 then
      byteOf (luma (i.word x y 0).toNat (i.word x y 2).toNat (i.word x y 4).toNat) k
    else i.byte x y (k + 4)
  | .single =>
    if k < 12 then
      byteOf (lumaSingle (i.single x y 0) (i.single x y 4) (i.single x y 8)).toBits.toNat (k % 4)
    else i.byte x y k

/-- The image without colour; what has no colour stays as it is. -/
def grey (i : Image) : Image :=
  if i.format.channels < 3 then i
  else generate i.width i.height i.format.grey fun x y k => i.greyByte x y k

theorem area_grey (i : Image) : i.grey.area = i.area := by
  rw [grey]; split <;> rfl

end Image

end PhotoPipeline
