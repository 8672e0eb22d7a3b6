/-
**Numerals.**

The texts that stand for numbers in a script.  An integer is an optional sign and decimal digits.
A real number is an optional sign and either a word for infinity or "not a number", in any case of
letters, or decimal digits with an optional point and an optional exponent.

Main definitions:

* `PhotoPipeline.integer?` — the integer a text stands for;
* `PhotoPipeline.int64?` — the same, within 64 bits;
* `PhotoPipeline.Numeral` — what a text for a real number says;
* `PhotoPipeline.float?` — the double nearest to it.

Main results:

* `PhotoPipeline.integer?_signedDecimal` — a written integer reads back.
-/
import PhotoPipeline.Text.Basic
import PhotoPipeline.Number.Binary

set_option relaxedAutoImplicit false
set_option autoImplicit false

namespace PhotoPipeline

/-! ### Integers -/

/-- The number that a nonempty run of decimal digits stands for. -/
def natural? (t : Text) : Option Nat :=
  if t ≠ [] ∧ t.all Char.isDigit then some (Nat.ofDigitChars 10 t 0) else none

/-- The integer that an optionally signed run of decimal digits stands for. -/
def integer? : Text → Option Int
  | '-' :: t => (natural? t).map fun (n : Nat) => -(n : Int)
  | '+' :: t => (natural? t).map fun (n : Nat) => (n : Int)
  | t => (natural? t).map fun (n : Nat) => (n : Int)

/-- The integer that a text stands for, if it fits 64 bits. -/
def int64? (t : Text) : Option Int64 :=
  match integer? t with
  | none => none
  | some i => if Int64.minValue.toInt ≤ i ∧ i ≤ Int64.maxValue.toInt then some (Int64.ofInt i) else none

theorem natural?_decimal (n : Nat) : natural? (decimal n) = some n := by
  have hne : decimal n ≠ [] := Nat.toDigits_ne_nil
  have hall : (decimal n).all Char.isDigit = true :=
    List.all_eq_true.2 fun _ h => isDigit_of_mem_decimal h
  rw [natural?, if_pos ⟨hne, hall⟩, ofDigitChars_decimal]

theorem integer?_decimal (n : Nat) : integer? (decimal n) = some (n : Int) := by
  have hall : ∀ c ∈ decimal n, c.isDigit = true := fun _ h => isDigit_of_mem_decimal h
  rw [integer?]
  · rw [natural?_decimal]; rfl
  · intro t ht
    have := hall '-' (ht ▸ List.mem_cons_self)
    exact absurd this (by decide)
  · intro t ht
    have := hall '+' (ht ▸ List.mem_cons_self)
    exact absurd this (by decide)

theorem integer?_signedDecimal (i : Int) : integer? (signedDecimal i) = some i := by
  rw [signedDecimal]
  split
  · have h : -(i.natAbs : Int) = i := by omega
    rw [integer?, natural?_decimal, Option.map_some, h]
  · rw [integer?_decimal]
    exact congrArg some (by omega)

/-! ### Real numbers -/

/-- What the text of a real number says. -/
inductive Numeral where
  /-- An infinity. -/
  | infinite (negative : Bool)
  /-- The word for "not a number". -/
  | undefined
  /-- The number `± digits * 10 ^ exponent`. -/
  | finite (negative : Bool) (digits : Nat) (exponent : Int)
  deriving DecidableEq, Repr

namespace Numeral

/-- A word without regard to the case of its letters. -/
def folded (t : Text) : Text := t.map Char.toLower

/-- The power of ten after the digits: nothing, or `e` and a signed run of digits. -/
def exponent? : Text → Option Int
  | [] => some 0
  | 'e' :: t => integer? t
  | 'E' :: t => integer? t
  | _ => none

/-- The part of an unsigned number after its whole digits. -/
def fraction : Text → Text × Text
  | '.' :: t => (t.takeWhile Char.isDigit, t.dropWhile Char.isDigit)
  | t => ([], t)

/-- Reads an unsigned number. -/
def magnitude? (negative : Bool) (t : Text) : Option Numeral :=
  let whole := t.takeWhile Char.isDigit
  let part := fraction (t.dropWhile Char.isDigit)
  let digits := whole ++ part.1
  if digits = [] then none
  else (exponent? part.2).map fun e =>
    finite negative (Nat.ofDigitChars 10 digits 0) (e - part.1.length)

/-- Reads what follows the sign. -/
def unsigned? (negative : Bool) (t : Text) : Option Numeral :=
  let word := folded t
  if word = "inf".toList ∨ word = "infinity".toList then some (infinite negative)
  else if word = "nan".toList then some undefined
  else magnitude? negative t

/-- Reads the text of a real number. -/
def ofText? : Text → Option Numeral
  | '-' :: t => unsigned? true t
  | '+' :: t => unsigned? false t
  | t => unsigned? false t

/-- The double nearest to the number.  Exponents that put the number far outside the range of
doubles are answered at once. -/
def toFloat : Numeral → Float
  | undefined => 0 / 0
  | infinite negative => if negative then -1 / 0 else 1 / 0
  | finite negative digits exponent =>
    let order : Int := (decimal digits).length + exponent
    if digits = 0 || order < -400 then nearestFloat negative 0 1
    else if 400 < order then if negative then -1 / 0 else 1 / 0
    else if exponent < 0 then nearestFloat negative digits (Nat.pow 10 exponent.natAbs)
    else nearestFloat negative (digits * Nat.pow 10 exponent.natAbs) 1

end Numeral

/-- The double nearest to the number that a text stands for. -/
def float? (t : Text) : Option Float :=
  (Numeral.ofText? t).map Numeral.toFloat

end PhotoPipeline
