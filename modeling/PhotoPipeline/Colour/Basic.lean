/-
**Colours.**

A colour has a red, a green and a blue part and an opacity, each a byte.  In a script it is
written as hexadecimal digits, with or without a `#` in front: one or two digits for each part,
and the opacity may be left out.

Main definitions:

* `PhotoPipeline.Colour` — colours;
* `PhotoPipeline.Colour.ofHex` — the colour of a text;
* `PhotoPipeline.Colour.text` — the written form.

Main results:

* `PhotoPipeline.Colour.ofDigits_text` — the digits of a written colour read back.
-/
import PhotoPipeline.Text.Basic

set_option relaxedAutoImplicit false
set_option autoImplicit false

namespace PhotoPipeline

/-- A colour with its opacity. -/
structure Colour where
  red : UInt8
  green : UInt8
  blue : UInt8
  alpha : UInt8
  deriving DecidableEq, Repr, Inhabited

/-- What can be wrong with the text of a colour. -/
inductive ColourError where
  /-- A character is not a hexadecimal digit. -/
  | notHexadecimal (text : Text)
  /-- The number of digits is not one that colours have. -/
  | wrongLength (text : Text)
  deriving DecidableEq, Repr

/-- The wording of an error. -/
def ColourError.message : ColourError → String
  | notHexadecimal text => "invalid hex colour: " ++ shown text
  | wrongLength text =>
    "invalid hex colour: " ++ shown text ++ " (use #RGB, #RGBA, #RRGGBB or #RRGGBBAA)"

/-! ### Hexadecimal digits -/

/-- The value of a hexadecimal digit of either case. -/
def hexValue? (c : Char) : Option UInt8 :=
  let n := c.toNat
  if 48 ≤ n ∧ n ≤ 57 then some (UInt8.ofNat (n - 48))
  else if 65 ≤ n ∧ n ≤ 70 then some (UInt8.ofNat (n - 55))
  else if 97 ≤ n ∧ n ≤ 102 then some (UInt8.ofNat (n - 87))
  else none

/-- The values of hexadecimal digits, if there is nothing else in the text. -/
def hexValues? : Text → Option (List UInt8)
  | [] => some []
  | c :: cs =>
    match hexValue? c, hexValues? cs with
    | some v, some vs => some (v :: vs)
    | _, _ => none

/-- The two capital hexadecimal digits of a byte. -/
def hexDigits (b : UInt8) : Text :=
  [(Nat.digitChar (b.toNat / 16)).toUpper, (Nat.digitChar (b.toNat % 16)).toUpper]

namespace Colour

/-- No colour at all. -/
def transparent : Colour := ⟨0, 0, 0, 0⟩

/-- The colour of digit values: one or two for each part, with or without opacity. -/
def ofDigits : List UInt8 → Option Colour
  | [r, g, b] => some ⟨17 * r, 17 * g, 17 * b, 255⟩
  | [r, g, b, a] => some ⟨17 * r, 17 * g, 17 * b, 17 * a⟩
  | [r, r', g, g', b, b'] => some ⟨16 * r + r', 16 * g + g', 16 * b + b', 255⟩
  | [r, r', g, g', b, b', a, a'] => some ⟨16 * r + r', 16 * g + g', 16 * b + b', 16 * a + a'⟩
  | _ => none

/-- The text without a leading `#`. -/
def dropHash : Text → Text
  | '#' :: t => t
  | t => t

/-- The colour of a text; blanks around it do not matter. -/
def ofHex (t : Text) : Except ColourError Colour :=
  let t := t.trim
  match hexValues? (dropHash t) with
  | none => .error (.notHexadecimal t)
  | some vs =>
    match ofDigits vs with
    | none => .error (.wrongLength t)
    | some c => .ok c

/-- The digits of a colour; the opacity is left out when it is full. -/
def digits (c : Colour) : Text :=
  hexDigits c.red ++ hexDigits c.green ++ hexDigits c.blue ++
    if c.alpha = 255 then [] else hexDigits c.alpha

/-- The written form of a colour. -/
def text (c : Colour) : Text := '#' :: c.digits

/-! ### Reading back what was written -/

theorem hexValues?_append (a b : Text) :
    hexValues? (a ++ b) =
      match hexValues? a, hexValues? b with
      | some v, some w => some (v ++ w)
      | _, _ => none := by
  induction a with
  | nil => cases h : hexValues? b <;> simp [hexValues?, h]
  | cons c a ih =>
    rw [List.cons_append, hexValues?, hexValues?, ih]
    cases hexValue? c <;> cases hexValues? a <;> cases hexValues? b <;> rfl

theorem hexValues?_hexDigits (b : UInt8) : hexValues? (hexDigits b) = some [b / 16, b % 16] := by
  have h : ∀ i : Fin 256, hexValues? (hexDigits (UInt8.ofFin i)) =
      some [UInt8.ofFin i / 16, UInt8.ofFin i % 16] := by decide +kernel
  exact h b.toFin

theorem join_nibbles (b : UInt8) : 16 * (b / 16) + b % 16 = b := by
  have h : ∀ i : Fin 256, 16 * (UInt8.ofFin i / 16) + UInt8.ofFin i % 16 = UInt8.ofFin i := by
    decide +kernel
  exact h b.toFin

theorem ofDigits_text (c : Colour) :
    (hexValues? (dropHash c.text)).bind ofDigits = some c := by
  obtain ⟨r, g, b, a⟩ := c
  simp only [text, dropHash, digits, hexValues?_append, hexValues?_hexDigits]
  by_cases h : a = 255
  · subst h
    simp [hexValues?, ofDigits, join_nibbles]
  · simp [h, hexValues?_hexDigits, ofDigits, join_nibbles]

end Colour

end PhotoPipeline
