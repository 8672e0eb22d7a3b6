/-
**Binary floating point, exactly.**

A finite double is a whole number of units `2 ^ exponent`.  This module takes a double apart into
sign, significand and exponent, finds the double nearest to a ratio of natural numbers, ties to the
even significand, and brings a double to a whole number.

Main definitions:

* `PhotoPipeline.Binary` — sign, significand and exponent of a finite double;
* `PhotoPipeline.Binary.ofFloat` — the parts of a double;
* `PhotoPipeline.nearestBits`, `PhotoPipeline.nearestFloat` — the double nearest to a ratio;
* `PhotoPipeline.roundFloat` — the whole number nearest to a double.
-/

set_option relaxedAutoImplicit false
set_option autoImplicit false

namespace PhotoPipeline

/-- The parts of a finite double: it is `± significand * 2 ^ exponent`. -/
structure Binary where
  negative : Bool
  significand : Nat
  exponent : Int
  deriving DecidableEq, Repr

namespace Binary

/-- The significand of the smallest normal double, which opens every binade. -/
def leading : Nat := 1 <<< 52

/-- The parts of a double; of an infinity or a NaN they are those that the bits spell. -/
def ofFloat (x : Float) : Binary :=
  let bits := x.toBits.toNat
  let fraction := bits % leading
  let biased := bits / leading % 2048
  let negative := decide (bits / leading / 2048 = 1)
  if biased = 0 then ⟨negative, fraction, -1074⟩
  else ⟨negative, fraction + leading, (biased : Int) - 1075⟩

end Binary

/-! ### Rounding a ratio -/

/-- The natural number nearest to `num / den`; a tie goes to the even one. -/
def roundedQuotient (num den : Nat) : Nat :=
  let q := num / den
  let r := num % den
  if 2 * r < den then q
  else if den < 2 * r then q + 1
  else q + q % 2

/-- A ratio times a power of two, as a ratio. -/
def scaleRatio (num den : Nat) (e : Int) : Nat × Nat :=
  if e < 0 then (num, den <<< e.natAbs) else (num <<< e.natAbs, den)

/-- The exponent of the unit that a double near `num / den` counts in: the quotient by it has
53 binary digits, unless that would pass the least exponent. -/
def unitExponent (num den : Nat) : Int :=
  let guess : Int := (Nat.log2 num : Int) - Nat.log2 den - 53
  let scaled := scaleRatio num den (-guess)
  let exact := if scaled.1 / scaled.2 < 2 * Binary.leading then guess else guess + 1
  max exact (-1074)

/-- The bits of the double nearest to the ratio; past the largest finite double, infinity. -/
def nearestBits (num den : Nat) : Nat :=
  let e := unitExponent num den
  let scaled := scaleRatio num den (-e)
  let units := roundedQuotient scaled.1 scaled.2
  min ((e + 1074).toNat * Binary.leading + units) (2047 * Binary.leading)

/-- The double nearest to `± num / den`. -/
def nearestFloat (negative : Bool) (num den : Nat) : Float :=
  let bits := if num = 0 then 0 else nearestBits num den
  Float.ofBits (UInt64.ofNat (if negative then bits + 2048 * Binary.leading else bits))

/-! ### Whole numbers -/

/-- The whole number nearest to a double; a half goes away from zero.  A double whose unit is at least
one is whole already. -/
def roundFloat (x : Float) : Float :=
  if x.isNaN || x.isInf then x
  else
    let parts := Binary.ofFloat x
    if 0 ≤ parts.exponent then x
    else
      let one := 1 <<< parts.exponent.natAbs
      nearestFloat parts.negative ((parts.significand + one / 2) / one) 1

end PhotoPipeline
