/-
**Locations in a script.**

A location names a character of a script three ways at once: by the bytes before it, by its line
and by its column.  Lines and columns count from one; columns count characters.

Lines and columns are numbers without a bound here.  A program that keeps them in words of 32 bits has
the same ones as long as they fit, which they do in every script of fewer than 2^32 - 1 characters: the
line and the column behind a text are at most one more than the number of its characters
(`PhotoPipeline.Location.line_behind_le`, `PhotoPipeline.Location.column_behind_le`).  In a longer script
the two part where a line or a column passes the bound, as the word overflows.

Main definitions:

* `PhotoPipeline.Location` — byte offset, line and column;
* `PhotoPipeline.Location.advance` — the location after one character;
* `PhotoPipeline.Location.after` — the location after a text.

Main results:

* `PhotoPipeline.Location.after_append` — advancing over two texts in turn;
* `PhotoPipeline.Location.offset_after` — the offset counts bytes.
-/
import PhotoPipeline.Text.Basic

set_option relaxedAutoImplicit false
set_option autoImplicit false

namespace PhotoPipeline

/-- A place in a script. -/
structure Location where
  /-- Bytes of the UTF-8 form before the place. -/
  offset : Nat
  /-- The line, counted from one. -/
  line : Nat
  /-- The column, counted in characters from one. -/
  column : Nat
  deriving DecidableEq, Repr

namespace Location

/-- The first character of a script. -/
def start : Location := ⟨0, 1, 1⟩

/-- The place after one more character. -/
def advance (l : Location) (c : Char) : Location :=
  if c = '\n' then ⟨l.offset + c.utf8Size, l.line + 1, 1⟩
  else ⟨l.offset + c.utf8Size, l.line, l.column + 1⟩

/-- The place after a text. -/
def after (l : Location) (t : Text) : Location := t.foldl advance l

/-- Line and column, as messages show them. -/
def text (l : Location) : Text := decimal l.line ++ ':' :: decimal l.column

@[simp] theorem after_nil (l : Location) : l.after [] = l := rfl

@[simp] theorem after_cons (l : Location) (c : Char) (t : Text) :
    l.after (c :: t) = (l.advance c).after t := rfl

theorem after_append (l : Location) (a b : Text) : l.after (a ++ b) = (l.after a).after b :=
  List.foldl_append

@[simp] theorem offset_advance (l : Location) (c : Char) :
    (l.advance c).offset = l.offset + c.utf8Size := by
  rw [advance]; split <;> rfl

theorem offset_after (l : Location) (t : Text) :
    (l.after t).offset = l.offset + t.utf8.length := by
  induction t generalizing l with
  | nil => rfl
  | cons c t ih =>
    rw [after_cons, ih, offset_advance, Text.utf8, Text.utf8, List.flatMap_cons, List.length_append,
      String.length_utf8EncodeChar, Nat.add_assoc]

/-- The places before each character of a text and after the last. -/
def trail (l : Location) : Text → List Location
  | [] => [l]
  | c :: t => l :: trail (l.advance c) t

theorem length_trail (l : Location) (t : Text) : (l.trail t).length = t.length + 1 := by
  induction t generalizing l with
  | nil => rfl
  | cons c t ih => rw [trail, List.length_cons, ih, List.length_cons]

end Location

end PhotoPipeline
