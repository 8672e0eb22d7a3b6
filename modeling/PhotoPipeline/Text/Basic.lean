/-
**Text.**

A script, and everything that a script holds, is a list of characters.  This module has the
operations on such lists that the rest of the library shares: writing numbers in decimal,
trimming, cutting into lines, and the bytes of the UTF-8 form.

Main definitions:

* `PhotoPipeline.Text` — a list of characters;
* `PhotoPipeline.shown` — the string of a text, for messages;
* `PhotoPipeline.decimal`, `PhotoPipeline.signedDecimal` — integers in decimal;
* `PhotoPipeline.Text.trim`, `PhotoPipeline.Text.lines`, `PhotoPipeline.Text.utf8`.

Main results:

* `PhotoPipeline.ofDigitChars_decimal` — a written number reads back;
* `PhotoPipeline.Text.intercalate_lines` — the lines of a text joined by newlines are the text.
-/
import PhotoPipeline.Text.Blank

set_option relaxedAutoImplicit false
set_option autoImplicit false

namespace PhotoPipeline

/-- A text is a list of characters. -/
abbrev Text := List Char

/-- The string of a text. -/
def shown (t : Text) : String := String.ofList t

@[simp] theorem toList_shown (t : Text) : (shown t).toList = t := by
  simp [shown]

/-! ### Integers in decimal -/

/-- The decimal digits of a natural number. -/
def decimal (n : Nat) : Text := Nat.toDigits 10 n

/-- An integer in decimal, with a minus sign if it is negative. -/
def signedDecimal (i : Int) : Text :=
  if i < 0 then '-' :: decimal i.natAbs else decimal i.natAbs

theorem ofDigitChars_decimal (n : Nat) : Nat.ofDigitChars 10 (decimal n) 0 = n :=
  Nat.ofDigitChars_toDigits (by decide) (by decide)

theorem isDigit_of_mem_decimal {n : Nat} {c : Char} (h : c ∈ decimal n) : c.isDigit = true :=
  Nat.isDigit_of_mem_toDigits (by decide) (by decide) h

namespace Text

/-! ### Trimming -/

/-- The text without its leading blanks. -/
def trimStart (t : Text) : Text := t.dropWhile isBlank

/-- The text without its trailing blanks. -/
def trimEnd (t : Text) : Text := (t.reverse.dropWhile isBlank).reverse

/-- The text without the blanks at either end. -/
def trim (t : Text) : Text := trimEnd (trimStart t)

/-! ### Lines -/

/-- The pieces between newlines; a text with no newline is one piece. -/
def lines : Text → List Text
  | [] => [[]]
  | c :: cs =>
    match c == '\n', lines cs with
    | true, ls => [] :: ls
    | false, [] => [[c]]
    | false, l :: ls => (c :: l) :: ls

theorem lines_ne_nil (t : Text) : lines t ≠ [] := by
  cases t with
  | nil => simp [lines]
  | cons c cs =>
    rw [lines]
    cases c == '\n' <;> cases lines cs <;> simp

theorem intercalate_lines (t : Text) : List.intercalate ['\n'] (lines t) = t := by
  induction t with
  | nil => rfl
  | cons c cs ih =>
    rw [lines]
    cases hl : lines cs with
    | nil => exact absurd hl (lines_ne_nil cs)
    | cons l ls =>
      rw [hl] at ih
      cases h : c == '\n' with
      | true =>
        obtain rfl : c = '\n' := by simpa using h
        simpa [List.intercalate] using ih
      | false =>
        cases ls <;> simp_all [List.intercalate]

/-! ### Bytes -/

/-- The bytes of the UTF-8 form. -/
def utf8 (t : Text) : List UInt8 := t.flatMap String.utf8EncodeChar

/-- A blank of the given width. -/
def spaces (n : Nat) : Text := List.replicate n ' '

/-- The text, preceded by as many spaces as bring it to the given width. -/
def padStart (width : Nat) (t : Text) : Text := spaces (width - t.length) ++ t

end Text

end PhotoPipeline
