/-
**Changing colours.**

The saturation of a colour is changed in the hue, saturation and lightness space; a colour is
mixed with another part by part.  All arithmetic is in single precision, one rounding for each
operation.

Main definitions:

* `PhotoPipeline.Hsl` — hue in degrees, saturation and lightness;
* `PhotoPipeline.Hsl.ofColour`, `PhotoPipeline.Hsl.toColour` — the two conversions;
* `PhotoPipeline.Colour.saturate` — a change of saturation by a percentage;
* `PhotoPipeline.Colour.mix` — a blend of two colours.

Main results:

* `PhotoPipeline.Colour.alpha_saturate`, `PhotoPipeline.Colour.alpha_mix` — neither touches the
  opacity.
-/
import PhotoPipeline.Colour.Basic

set_option relaxedAutoImplicit false
set_option autoImplicit false

namespace PhotoPipeline

/-- The nearest number between two bounds; what is not a number stays as it is. -/
def clampSingle (low high x : Float32) : Float32 :=
  if x < low then low else if x > high then high else x

/-- A share of the whole, between zero and one, as a byte. -/
def byteOfShare (x : Float32) : UInt8 := (x * 255).round.toUInt8

/-- Whether a number is too small to be held in full precision. -/
def isSubnormal (x : Float32) : Bool :=
  let bits := x.toBits.toNat % 0x80000000
  decide (0 < bits ∧ bits < 0x800000)

/-- Hue in degrees, saturation and lightness as shares. -/
structure Hsl where
  hue : Float32
  saturation : Float32
  lightness : Float32

namespace Hsl

/-- The greatest and the least part of a colour, the difference that gives the hue its place
within a sixth of the circle, and the number of sixths before it. -/
structure Spread where
  greatest : Float32
  least : Float32
  difference : Float32
  sixths : Float32

/-- The spread of three parts. -/
def spread (r g b : Float32) : Spread :=
  let s : Spread := if r > g then ⟨r, g, g - b, 0⟩ else ⟨g, r, b - r, 2⟩
  if b > s.greatest then ⟨b, s.least, r - g, 4⟩
  else if b < s.least then { s with least := b }
  else s

/-- The hue, saturation and lightness of three parts. -/
def ofShares (r g b : Float32) : Hsl :=
  let s := spread r g b
  let sum := s.greatest + s.least
  let lightness := clampSingle 0 1 (sum / 2)
  if s.greatest == s.least then ⟨0, 0, lightness⟩
  else
    let d := s.greatest - s.least
    let saturation := if sum > 1 then d / (2 - sum) else d / sum
    ⟨(s.difference / d + s.sixths) * 60, clampSingle 0 1 saturation, lightness⟩

/-- The hue, saturation and lightness of a colour. -/
def ofColour (c : Colour) : Hsl :=
  ofShares (c.red.toFloat32 / 255) (c.green.toFloat32 / 255) (c.blue.toFloat32 / 255)

/-- The hue turned into the range from zero to six. -/
def sector (hue : Float32) : Float32 :=
  let turned := hue - (hue / 360).floor * 360
  (if isSubnormal turned || turned ≥ 360 then 0 else turned) / 60

/-- The three parts before the lightness is added, by the sixth of the circle. -/
def chroma (h c x : Float32) : Float32 × Float32 × Float32 :=
  if h < 1 then (c, x, 0)
  else if h < 2 then (x, c, 0)
  else if h < 3 then (0, c, x)
  else if h < 4 then (0, x, c)
  else if h < 5 then (x, 0, c)
  else (c, 0, x)

/-- The colour with a given opacity. -/
def toColour (v : Hsl) (alpha : UInt8) : Colour :=
  let c := (1 - (v.lightness * 2 - 1).abs) * v.saturation
  let h := sector v.hue
  let x := c * (1 - ((h - (h * 0.5).floor * 2) - 1).abs)
  let m := v.lightness - c * 0.5
  let parts := chroma h c x
  { red := byteOfShare (clampSingle 0 1 (parts.1 + m))
    green := byteOfShare (clampSingle 0 1 (parts.2.1 + m))
    blue := byteOfShare (clampSingle 0 1 (parts.2.2 + m))
    alpha := alpha }

end Hsl

namespace Colour

/-- Moves the saturation by a percentage of what is left: upwards of the way to full saturation,
downwards of the way to grey. -/
def saturate (c : Colour) (percent : Float32) : Colour :=
  let v := Hsl.ofColour c
  let delta := percent / 100
  let moved :=
    if delta > 0 then v.saturation + (1 - v.saturation) * delta
    else v.saturation + v.saturation * delta
  Hsl.toColour { v with saturation := clampSingle 0 1 moved } c.alpha

/-- One part of a blend. -/
def blendPart (factor : Float32) (a b : UInt8) : UInt8 :=
  (a.toFloat32 * (1 - factor) + b.toFloat32 * factor).round.toUInt8

/-- Moves a colour toward another by a factor between zero and one; the opacity stays. -/
def mix (c other : Colour) (factor : Float32) : Colour :=
  let f := clampSingle 0 1 factor
  { red := blendPart f c.red other.red
    green := blendPart f c.green other.green
    blue := blendPart f c.blue other.blue
    alpha := c.alpha }

@[simp] theorem alpha_saturate (c : Colour) (percent : Float32) :
    (c.saturate percent).alpha = c.alpha := rfl

@[simp] theorem alpha_mix (c other : Colour) (factor : Float32) :
    (c.mix other factor).alpha = c.alpha := rfl

end Colour

end PhotoPipeline
