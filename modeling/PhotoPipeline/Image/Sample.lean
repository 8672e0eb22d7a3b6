/-
**Samples.**

The samples of a pixel as numbers, whatever the depth of the format, and images whose samples are
changed one by one or whose pixels are replaced by colours.

Main definitions:

* `PhotoPipeline.SampleMap` — a change of samples, one function for each depth;
* `PhotoPipeline.Image.mapSamples` — an image with every sample changed;
* `PhotoPipeline.Image.whole` — an image with whole numbers as samples;
* `PhotoPipeline.Image.colour` — a pixel as a colour;
* `PhotoPipeline.Image.mapColours` — an image of colours made from the colours of another.

Main results:

* `PhotoPipeline.Image.area_mapSamples`, `PhotoPipeline.Image.area_mapColours` — the size is kept.
-/
import PhotoPipeline.Image.Basic
import PhotoPipeline.Colour.Blend

set_option relaxedAutoImplicit false
set_option autoImplicit false

namespace PhotoPipeline

/-- The format of whole numbers that comes closest. -/
def Format.whole : Format → Format
  | .rgb32f => .rgb16
  | .rgba32f => .rgba16
  | f => f

/-- A change of samples. -/
structure SampleMap where
  byte : UInt8 → UInt8
  word : UInt16 → UInt16
  single : Float32 → Float32

/-- Byte `k` of a number, the least significant first. -/
def byteOf (n k : Nat) : UInt8 := UInt8.ofNat (n >>> (8 * k))

namespace Image

/-- The two-byte number at a place in a pixel. -/
def word (i : Image) (x y k : Nat) : UInt16 :=
  UInt16.ofNat ((i.byte x y k).toNat + 256 * (i.byte x y (k + 1)).toNat)

/-- The single precision number at a place in a pixel. -/
def single (i : Image) (x y k : Nat) : Float32 :=
  Float32.ofBits <| UInt32.ofNat
    ((i.word x y k).toNat + 65536 * (i.word x y (k + 2)).toNat)

/-- Byte `k` of a pixel after its samples have been changed. -/
def mappedByte (i : Image) (f : SampleMap) (x y k : Nat) : UInt8 :=
  match i.format.depth with
  | .byte => f.byte (i.byte x y k)
  | .word => byteOf (f.word (i.word x y (k - k % 2))).toNat (k % 2)
  | .single => byteOf (f.single (i.single x y (k - k % 4))).toBits.toNat (k % 4)

/-- Whether byte `k` of a pixel belongs to its opacity. -/
def isAlphaByte (format : Format) (k : Nat) : Bool :=
  format.hasAlpha && k / format.depth.bytes + 1 == format.channels

/-- The image with every sample changed, opacities too. -/
def mapSamples (i : Image) (f : SampleMap) : Image :=
  generate i.width i.height i.format fun x y k => i.mappedByte f x y k

/-- The image with every sample changed but the opacities. -/
def mapColourSamples (i : Image) (f : SampleMap) : Image :=
  generate i.width i.height i.format fun x y k =>
    if isAlphaByte i.format k then i.byte x y k else i.mappedByte f x y k

/-- A single precision sample on a scale from zero to `top`; what is not a number counts as
full. -/
def scaleSingle (top s : Float32) : Float32 := ((if s < 1 then clampSingle 0 1 s else 1) * top).round

/-- The image with whole numbers as samples; those of single precision become words. -/
def whole (i : Image) : Image :=
  match i.format.depth with
  | .single =>
    generate i.width i.height i.format.whole fun x y k =>
      byteOf (scaleSingle 65535 (i.single x y (4 * (k / 2)))).toUInt16.toNat (k % 2)
  | _ => i

/-! ### Pixels as colours -/

/-- A sample as a byte. -/
def sampleByte (i : Image) (x y channel : Nat) : UInt8 :=
  match i.format.depth with
  | .byte => i.byte x y channel
  | .word => UInt8.ofNat (((i.word x y (2 * channel)).toNat + 128) / 257)
  | .single => (scaleSingle 255 (i.single x y (4 * channel))).toUInt8

/-- The colour of a pixel; a grey is repeated in each part. -/
def colour (i : Image) (x y : Nat) : Colour :=
  let s := i.sampleByte x y
  match i.format.channels with
  | 1 => ⟨s 0, s 0, s 0, 255⟩
  | 2 => ⟨s 0, s 0, s 0, s 1⟩
  | 3 => ⟨s 0, s 1, s 2, 255⟩
  | _ => ⟨s 0, s 1, s 2, s 3⟩

end Image

/-- Part `k` of a colour, in the order of the bytes of a pixel. -/
def Colour.part (c : Colour) : Nat → UInt8
  | 0 => c.red
  | 1 => c.green
  | 2 => c.blue
  | _ => c.alpha

namespace Image

/-- The image whose colours are those of another, changed. -/
def mapColours (i : Image) (f : Colour → Colour) : Image :=
  generate i.width i.height .rgba8 fun x y k => (f (i.colour x y)).part k

/-- The image of one colour. -/
def solid (width height : UInt32) (c : Colour) : Image :=
  generate width height .rgba8 fun _ _ k => c.part k

theorem area_mapSamples (i : Image) (f : SampleMap) : (i.mapSamples f).area = i.area := rfl

theorem area_mapColourSamples (i : Image) (f : SampleMap) :
    (i.mapColourSamples f).area = i.area := rfl

theorem area_mapColours (i : Image) (f : Colour → Colour) : (i.mapColours f).area = i.area := rfl

end Image

end PhotoPipeline
