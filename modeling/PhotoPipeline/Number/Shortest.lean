/-
**The shortest decimal text of a double.**

A double is written with the fewest significant digits that read back as the same double; of
several such numbers the one nearest to the double is taken, the upper of two that are equally
near.  The digits are laid out positionally, however large or small the number is: no exponent is
ever written, and a whole number has no point.

Digits are selected by exact arithmetic on natural numbers.  On the grid of decimals with `n`
significant digits only the two neighbours of the double matter; the first grid on which one of
them rounds to the double is used.

Main definitions:

* `PhotoPipeline.Decimal` — a whole number of units `10 ^ exponent`;
* `PhotoPipeline.shortest` — the shortest decimal that rounds to a double;
* `PhotoPipeline.Decimal.positional` — its text;
* `PhotoPipeline.floatText` — the text of any double.
-/
import PhotoPipeline.Text.Basic
import PhotoPipeline.Number.Binary

set_option relaxedAutoImplicit false
set_option autoImplicit false

namespace PhotoPipeline

/-- The number `digits * 10 ^ exponent`. -/
structure Decimal where
  digits : Nat
  exponent : Int
  deriving DecidableEq, Repr

namespace Decimal

/-- The same number without the trailing zeros after the point. -/
def strip : Nat → Decimal → Decimal
  | 0, d => d
  | fuel + 1, d =>
    if d.exponent < 0 ∧ d.digits % 10 = 0 then strip fuel ⟨d.digits / 10, d.exponent + 1⟩ else d

/-- The digits laid out around the point. -/
def positional (d : Decimal) : Text :=
  let ds := decimal d.digits
  let places := d.exponent.natAbs
  if 0 ≤ d.exponent then ds ++ List.replicate places '0'
  else if places < ds.length then
    ds.take (ds.length - places) ++ '.' :: ds.drop (ds.length - places)
  else '0' :: '.' :: (List.replicate (places - ds.length) '0' ++ ds)

/-- Compares `digits * 10 ^ exponent` with `units * 2 ^ scale`. -/
def compareBinary (d : Decimal) (units : Nat) (scale : Int) : Ordering :=
  compare ((d.digits * Nat.pow 10 d.exponent.toNat) <<< (-scale).toNat)
    ((units * Nat.pow 10 (-d.exponent).toNat) <<< scale.toNat)

end Decimal

/-- The reals that round to a double, in quarters of its unit: an interval around
`4 * significand`, whose ends belong to it when the significand is even. -/
structure RoundingInterval where
  low : Nat
  centre : Nat
  high : Nat
  closed : Bool
  /-- The quarters are of size `2 ^ scale`. -/
  scale : Int

/-- The reals that round to the double with these parts.  Below a power of two the doubles lie
twice as close. -/
def RoundingInterval.of (b : Binary) : RoundingInterval :=
  { low := 4 * b.significand - (if b.significand = Binary.leading then 1 else 2)
    centre := 4 * b.significand
    high := 4 * b.significand + 2
    closed := b.significand % 2 == 0
    scale := b.exponent - 2 }

namespace RoundingInterval

/-- Whether the decimal, at or below the centre, is in the interval. -/
def reachesDown (i : RoundingInterval) (d : Decimal) : Bool :=
  match d.compareBinary i.low i.scale with
  | .gt => true
  | .eq => i.closed
  | .lt => false

/-- Whether the decimal, at or above the centre, is in the interval. -/
def reachesUp (i : RoundingInterval) (d : Decimal) : Bool :=
  match d.compareBinary i.high i.scale with
  | .lt => true
  | .eq => i.closed
  | .gt => false

/-- Whether the decimal half a unit above `d` is above the centre. -/
def centreBelowHalf (i : RoundingInterval) (d : Decimal) : Bool :=
  Decimal.compareBinary ⟨2 * d.digits + 1, d.exponent⟩ (2 * i.centre) i.scale == .gt

/-- The largest decimal with the given unit that is not above the centre. -/
def below (i : RoundingInterval) (exponent : Int) : Decimal :=
  ⟨((i.centre * Nat.pow 10 (-exponent).toNat) <<< i.scale.toNat) /
      (Nat.pow 10 exponent.toNat <<< (-i.scale).toNat), exponent⟩

/-- The better of the two neighbours with the given unit, if either rounds to the double. -/
def neighbour? (i : RoundingInterval) (exponent : Int) : Option Decimal :=
  let lower := i.below exponent
  let upper : Decimal := ⟨lower.digits + 1, exponent⟩
  match i.reachesDown lower, i.reachesUp upper with
  | true, true => some (if i.centreBelowHalf lower then lower else upper)
  | true, false => some lower
  | false, true => some upper
  | false, false => none

/-- The exponent of the leading decimal digit of the centre. -/
def order (i : RoundingInterval) : Int :=
  ((decimal (i.below (-400)).digits).length : Int) - 401

end RoundingInterval

/-- The shortest decimal that rounds to the double with these parts; seventeen digits always
suffice. -/
def shortest (b : Binary) : Decimal :=
  let i := RoundingInterval.of b
  let candidate := (List.range 17).findSome? fun (n : Nat) => i.neighbour? (i.order - n)
  (candidate.getD (i.below (i.order - 16))).strip 20

/-- The text of a double. -/
def floatText (x : Float) : Text :=
  if x.isNaN then "NaN".toList
  else
    let b := Binary.ofFloat x
    let sign : Text := if b.negative then ['-'] else []
    if x.isInf then sign ++ "inf".toList
    else if b.significand = 0 then sign ++ ['0']
    else sign ++ (shortest b).positional

end PhotoPipeline
