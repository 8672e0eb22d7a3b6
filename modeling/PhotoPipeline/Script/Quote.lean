/-
**Quoting.**

A text that would not read back as one word is written between quotes, with a backslash before
each quote and each backslash in it.  The empty text, a text that looks like a pipeline's name and
a text that looks like a comment are quoted too.

Main definitions:

* `PhotoPipeline.isBare` — whether a character may stand in a word unquoted;
* `PhotoPipeline.needsQuotes` — whether a text has to be quoted;
* `PhotoPipeline.quote` — the written form of a text.

Main results:

* `PhotoPipeline.quote_eq_self` — a text that needs no quotes is written as it is.
-/
import PhotoPipeline.Script.Entry

set_option relaxedAutoImplicit false
set_option autoImplicit false

namespace PhotoPipeline

/-- The characters with a meaning of their own in a script. -/
def isSpecial (c : Char) : Bool :=
  c == '(' || c == ')' || c == '"' || c == '\\' || c == '\x60' || c == '$'

/-- Whether a character may stand unquoted in any word. -/
def isBare (c : Char) : Bool := !(isBlank c || isSpecial c)

/-- Whether a text starts with a pair of slashes. -/
def looksLikeComment : Text → Bool
  | '/' :: '/' :: _ => true
  | _ => false

/-- Whether a text would not survive as a bare word. -/
def needsQuotes (t : Text) : Bool :=
  t.isEmpty || t.head? == some sigil || looksLikeComment t || !t.all isBare

/-- The text with a backslash before each quote and backslash. -/
def escaped : Text → Text
  | [] => []
  | c :: t => if c = '"' ∨ c = '\\' then '\\' :: c :: escaped t else c :: escaped t

/-- The text between quotes. -/
def quoted (t : Text) : Text := '"' :: (escaped t ++ ['"'])

/-- The written form of a text. -/
def quote (t : Text) : Text := if needsQuotes t then quoted t else t

theorem quote_eq_self {t : Text} (h : needsQuotes t = false) : quote t = t := by
  rw [quote, h]; rfl

theorem quote_eq_quoted {t : Text} (h : needsQuotes t = true) : quote t = quoted t := by
  rw [quote, h]; rfl

theorem escaped_append (a b : Text) : escaped (a ++ b) = escaped a ++ escaped b := by
  induction a with
  | nil => rfl
  | cons c a ih =>
    rw [List.cons_append, escaped, escaped, ih]
    split <;> rfl

end PhotoPipeline
