/-
**Two decimals.**

A double that is not negative, to two decimals: the exact value is rounded to the nearest
hundredth, a tie to the even one.

Main definitions:

* `PhotoPipeline.hundredths` — the nearest number of hundredths;
* `PhotoPipeline.twoDecimals` — a number of hundredths as a text.
-/
import PhotoPipeline.Number.Binary
import PhotoPipeline.Text.Basic

set_option relaxedAutoImplicit false
set_option autoImplicit false

namespace PhotoPipeline

/-- The number of hundredths nearest to a double that is not negative. -/
def hundredths (x : Float) : Nat :=
  let b := Binary.ofFloat x
  let r := scaleRatio (100 * b.significand) 1 b.exponent
  roundedQuotient r.1 r.2

/-- A number of hundredths, with the digits of the whole part before the point. -/
def twoDecimals (n : Nat) : Text :=
  decimal (n / 100) ++ ['.', (n / 10 % 10).digitChar, (n % 10).digitChar]

end PhotoPipeline
