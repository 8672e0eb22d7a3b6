/-
**Literals.**

How diagnostics show a text so that its ends and its hidden characters can be seen: between
quotes, with a backslash before quotes and backslashes, and with the usual escapes.

Main definitions:

* `PhotoPipeline.literal` — a text as a literal;
* `PhotoPipeline.literalList` — texts as a list of literals.

Main results:

* `PhotoPipeline.literal_of_plain` — a plain text only gets its quotes.
-/
import PhotoPipeline.Text.Basic
import PhotoPipeline.Text.Hidden

set_option relaxedAutoImplicit false
set_option autoImplicit false

namespace PhotoPipeline

/-- An escape by number. -/
def numberEscape (c : Char) : Text :=
  "\\u\x7b".toList ++ Nat.toDigits 16 c.toNat ++ "\x7d".toList

/-- A character inside a literal. -/
def literalChar (c : Char) : Text :=
  if c = '"' ∨ c = '\\' then ['\\', c]
  else if c = '\n' then ['\\', 'n']
  else if c = '\r' then ['\\', 'r']
  else if c = '\t' then ['\\', 't']
  else if c.toNat = 0 then ['\\', '0']
  else if isHidden c then numberEscape c
  else [c]

/-- A text as a literal. -/
def literal (t : Text) : Text := '"' :: (t.flatMap literalChar ++ ['"'])

/-- Texts as a list of literals. -/
def literalList (ts : List Text) : Text :=
  '[' :: (List.intercalate [',', ' '] (ts.map literal) ++ [']'])

/-- Whether a character stands for itself in a literal. -/
def isPlain (c : Char) : Bool := !(c == '"' || c == '\\' || isHidden c)

theorem literalChar_of_plain {c : Char} (h : isPlain c = true) : literalChar c = [c] := by
  have hc : isHidden c = false := by
    cases hc : isHidden c
    · rfl
    · simp [isPlain, hc] at h
  have hq : c ≠ '"' := by rintro rfl; exact absurd h (by decide)
  have hb : c ≠ '\\' := by rintro rfl; exact absurd h (by decide)
  have hn : c ≠ '\n' := by rintro rfl; exact absurd h (by decide)
  have hr : c ≠ '\r' := by rintro rfl; exact absurd h (by decide)
  have ht : c ≠ '\t' := by rintro rfl; exact absurd h (by decide)
  have h0 : c.toNat ≠ 0 := by
    intro h0
    simp [isHidden, h0] at hc
  simp [literalChar, hq, hb, hn, hr, ht, h0, hc]

theorem literal_of_plain {t : Text} (h : ∀ c ∈ t, isPlain c = true) :
    literal t = '"' :: (t ++ ['"']) := by
  have : t.flatMap literalChar = t := by
    induction t with
    | nil => rfl
    | cons c t ih =>
      rw [List.flatMap_cons, literalChar_of_plain (h c (List.mem_cons_self ..)),
        ih fun d hd => h d (List.mem_cons_of_mem c hd)]
      rfl
  rw [literal, this]

end PhotoPipeline
