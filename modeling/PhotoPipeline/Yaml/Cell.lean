/-
**Characters in their places.**

What a character means in a YAML document depends on its column, and a key has to stand on one
line.  So a document is read as a list of characters with their places.  All line breaks but two
rare ones come to the same.

Main definitions:

* `PhotoPipeline.Yaml.Cell` — a character and its place;
* `PhotoPipeline.Yaml.cells` — the characters of a document in their places;
* `PhotoPipeline.Yaml.isMarker` — whether a document ends or starts here.
-/
import PhotoPipeline.Text.Basic

set_option relaxedAutoImplicit false
set_option autoImplicit false

namespace PhotoPipeline

namespace Yaml

/-- A character and its place, both counted from zero. -/
structure Cell where
  char : Char
  line : Nat
  column : Nat
  deriving DecidableEq, Repr

/-- Whether a character ends a line. -/
def isBreak (c : Char) : Bool :=
  c == '\n' || c == '\r' || c == '\x85' || c == '\u2028' || c == '\u2029'

/-- Whether a character is blank space inside a line. -/
def isSpace (c : Char) : Bool := c == ' ' || c == '\t'

/-- A line break as it counts. -/
def breakValue (c : Char) : Char := if c = '\r' ∨ c = '\x85' then '\n' else c

/-- Whether a character may occur in a document at all. -/
def isPrintable (c : Char) : Bool :=
  let n := c.toNat
  isSpace c || isBreak c || (decide (32 ≤ n) && decide (n ≤ 126)) ||
    (decide (160 ≤ n) && decide (n ≤ 0xFFFD)) || decide (0x10000 ≤ n)

/-- Characters in their places, from a place on. -/
def cellsFrom : Nat → Nat → Text → List Cell
  | _, _, [] => []
  | line, column, '\r' :: '\n' :: t => ⟨'\n', line, column⟩ :: cellsFrom (line + 1) 0 t
  | line, column, c :: t =>
    if isBreak c then ⟨breakValue c, line, column⟩ :: cellsFrom (line + 1) 0 t
    else ⟨c, line, column⟩ :: cellsFrom line (column + 1) t

/-- The characters of a document in their places, if all of them may occur. -/
def cells (t : Text) : Option (List Cell) :=
  if t.all isPrintable then some (cellsFrom 0 0 t) else none

/-! ### Looking ahead -/

/-- Whether a word ends here: at blank space, at a line break or at the end. -/
def endsWord : List Cell → Bool
  | [] => true
  | c :: _ => isSpace c.char || isBreak c.char

/-- Whether a line ends here. -/
def endsLine : List Cell → Bool
  | [] => true
  | c :: _ => isBreak c.char

/-- Whether the next character is one of the given ones. -/
def startsWith (chars : List Char) : List Cell → Bool
  | [] => false
  | c :: _ => chars.contains c.char

/-- Whether a line starts here with three times the given character and nothing more. -/
def isMarkerOf (mark : Char) : List Cell → Bool
  | a :: b :: c :: rest =>
    a.column == 0 && a.char == mark && b.char == mark && c.char == mark && endsWord rest
  | _ => false

/-- Whether a document starts or ends here. -/
def isMarker (s : List Cell) : Bool := isMarkerOf '-' s || isMarkerOf '.' s

/-- What follows the line on which this stands; only blank space and a comment may be left on
it. -/
def nextLine (s : List Cell) : Option (List Cell) :=
  let s := s.dropWhile fun c => isSpace c.char
  let s := if startsWith ['#'] s then s.dropWhile fun c => !isBreak c.char else s
  match s with
  | [] => some []
  | c :: rest => if isBreak c.char then some rest else none

end Yaml

end PhotoPipeline
