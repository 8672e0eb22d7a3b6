/-
**The exact remainder of two doubles.**

The remainder of `a` by `b` has the sign of `a` and is smaller than `b`; it is always a double, so
no rounding takes place.  Both operands are brought to the smaller of their two exponents, and the
remainder is that of the two whole numbers.

Main definitions:

* `PhotoPipeline.remainder` — the remainder, with the usual answers for infinities and NaN.
-/
import PhotoPipeline.Number.Binary

set_option relaxedAutoImplicit false
set_option autoImplicit false

namespace PhotoPipeline

/-- The remainder of the magnitudes of two finite doubles, in units of the smaller exponent. -/
def remainderUnits (a b : Binary) : Nat :=
  let e := min a.exponent b.exponent
  (a.significand <<< (a.exponent - e).toNat) % (b.significand <<< (b.exponent - e).toNat)

/-- The remainder of a division that rounds toward zero. -/
def remainder (a b : Float) : Float :=
  if a.isNaN || b.isNaN || a.isInf || b == 0 then 0 / 0
  else if b.isInf then a
  else
    let x := Binary.ofFloat a
    let y := Binary.ofFloat b
    let ratio := scaleRatio (remainderUnits x y) 1 (min x.exponent y.exponent)
    nearestFloat x.negative ratio.1 ratio.2

end PhotoPipeline
