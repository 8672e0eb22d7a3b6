/-
**Scalars.**

The text of a scalar that is written over several lines is folded: a single line break counts as a
space, of several breaks the first does not count, and blank space around breaks is dropped.  There are
plain scalars, scalars in single quotes, in double quotes with escapes, and blocks, which keep
their line breaks or fold them.

Main definitions:

* `PhotoPipeline.Yaml.Style` — how a scalar is written;
* `PhotoPipeline.Yaml.Fold` — a text that is being folded;
* `PhotoPipeline.Yaml.scanSingle`, `PhotoPipeline.Yaml.scanDouble`, `PhotoPipeline.Yaml.scanPlain`,
  `PhotoPipeline.Yaml.scanBlock` — the kinds of scalars, each with what follows it.
-/
import PhotoPipeline.Colour.Basic
import PhotoPipeline.Yaml.Cell

set_option relaxedAutoImplicit false
set_option autoImplicit false

namespace PhotoPipeline

namespace Yaml

/-- How a scalar is written. -/
inductive Style where
  | plain
  /-- In single or in double quotes. -/
  | quoted
  /-- As a block that keeps its line breaks. -/
  | literal
  /-- As a block whose line breaks are folded. -/
  | folded
  deriving DecidableEq, Repr

/-! ### Folding -/

/-- A text that is being folded; all texts in it are reversed. -/
structure Fold where
  done : Text
  /-- Blank space that counts if more follows on the line. -/
  blanks : Text
  /-- The first line break since, unless it was escaped, and the breaks after it. -/
  breaks : Option (Option Char × Text)
  deriving DecidableEq, Repr

namespace Fold

/-- Nothing has been read. -/
def start : Fold := ⟨[], [], none⟩

/-- The text with what is pending. -/
def flush (f : Fold) : Text :=
  match f.breaks with
  | none => f.blanks ++ f.done
  | some (some '\n', []) => ' ' :: f.done
  | some (some '\n', more) => more ++ f.done
  | some (some c, more) => more ++ c :: f.done
  | some (none, more) => more ++ f.done

/-- Whether blank space or breaks are pending. -/
def isPending (f : Fold) : Bool := !f.blanks.isEmpty || f.breaks.isSome

/-- Reads blank space. -/
def blank (f : Fold) (c : Char) : Fold :=
  if f.breaks.isSome then f else { f with blanks := c :: f.blanks }

/-- Reads a line break. -/
def newline (f : Fold) (c : Char) : Fold :=
  match f.breaks with
  | none => { f with blanks := [], breaks := some (some c, []) }
  | some (first, more) => { f with breaks := some (first, c :: more) }

/-- Reads a line break that does not count. -/
def escapedNewline (f : Fold) : Fold := ⟨f.flush, [], some (none, [])⟩

/-- Reads any other character. -/
def char (f : Fold) (c : Char) : Fold := ⟨c :: f.flush, [], none⟩

/-- The text with what is pending, in order. -/
def close (f : Fold) : Text := f.flush.reverse

end Fold

/-! ### Quoted scalars -/

/-- Reads the rest of a scalar in single quotes. -/
def scanSingle : Fold → List Cell → Option (Text × List Cell)
  | _, [] => none
  | f, c :: rest =>
    if c.char = '\'' then
      match rest with
      | d :: rest' =>
        if d.char = '\'' then scanSingle (f.char '\'') rest' else some (f.close, d :: rest')
      | [] => some (f.close, [])
    else if isSpace c.char then scanSingle (f.blank c.char) rest
    else if isBreak c.char then
      if isMarker rest then none else scanSingle (f.newline c.char) rest
    else scanSingle (f.char c.char) rest

/-- The character of an escape of one letter. -/
def escapeValue? : Char → Option Char
  | '0' => some '\x00'
  | 'a' => some '\x07'
  | 'b' => some '\x08'
  | 't' | '\t' => some '\t'
  | 'n' => some '\n'
  | 'v' => some '\x0b'
  | 'f' => some '\x0c'
  | 'r' => some '\r'
  | 'e' => some '\x1b'
  | ' ' => some ' '
  | '"' => some '"'
  | '/' => some '/'
  | '\\' => some '\\'
  | 'N' => some '\x85'
  | '_' => some '\xa0'
  | 'L' => some '\u2028'
  | 'P' => some '\u2029'
  | _ => none

/-- The number of digits of an escape by number. -/
def escapeDigits? : Char → Option Nat
  | 'x' => some 2
  | 'u' => some 4
  | 'U' => some 8
  | _ => none

/-- Whether a number is that of a character. -/
def isScalarNumber (n : Nat) : Bool := n < 0xD800 || (0xE000 ≤ n && n ≤ 0x10FFFF)

/-- Reads hexadecimal digits one by one, and then goes on. -/
def hexStep (value : Nat) (c : Char) : Option Nat :=
  (hexValue? c).map fun d => 16 * value + d.toNat

/-- Reads the rest of a scalar in double quotes.  An escape by number that is being read is given
by the number of its digits still to come and the value of those before. -/
def scanDouble : Option (Nat × Nat) → Fold → List Cell → Option (Text × List Cell)
  | _, _, [] => none
  | some (more, value), f, c :: rest =>
    match hexStep value c.char with
    | none => none
    | some value =>
      if more ≤ 1 then
        if isScalarNumber value then scanDouble none (f.char (Char.ofNat value)) rest else none
      else scanDouble (some (more - 1, value)) f rest
  | none, f, c :: rest =>
    if c.char = '"' then some (f.close, rest)
    else if c.char = '\\' then
      match rest with
      | [] => none
      | d :: rest' =>
        if isBreak d.char then
          if isMarker rest' then none else scanDouble none f.escapedNewline rest'
        else
          match escapeValue? d.char, escapeDigits? d.char with
          | some v, _ => scanDouble none (f.char v) rest'
          | none, some digits => scanDouble (some (digits, 0)) f rest'
          | none, none => none
    else if isSpace c.char then scanDouble none (f.blank c.char) rest
    else if isBreak c.char then
      if isMarker rest then none else scanDouble none (f.newline c.char) rest
    else scanDouble none (f.char c.char) rest

/-! ### Plain scalars -/

/-- A plain scalar, whether line breaks follow it, and the rest. -/
structure PlainScalar where
  text : Text
  brokenAfter : Bool
  rest : List Cell

/-- Whether what comes after blank space ends a plain scalar. -/
def endsPlain (flow : Bool) (indent : Nat) (f : Fold) (s : List Cell) : Bool :=
  f.isPending &&
    (isMarker s || startsWith ['#'] s ||
      (f.breaks.isSome && !flow && s.head?.any fun c => c.column < indent))

/-- Whether a character ends a plain scalar wherever it stands. -/
def cutsPlain (flow : Bool) (c : Char) (rest : List Cell) : Bool :=
  (c == ':' && endsWord rest) || (flow && [',', '[', ']', '\x7b', '\x7d'].contains c)

/-- Whether a colon stands where it must not inside brackets. -/
def isStrayColon (flow : Bool) (c : Char) (rest : List Cell) : Bool :=
  flow && c == ':' && startsWith [',', '?', '[', ']', '\x7b', '\x7d'] rest

/-- Reads the rest of a plain scalar; lines that go on have to be indented. -/
def scanPlain (flow : Bool) (indent : Nat) : Fold → List Cell → Option PlainScalar
  | f, [] => some ⟨f.done.reverse, f.breaks.isSome, []⟩
  | f, c :: rest =>
    if isSpace c.char then
      if f.breaks.isSome && c.column < indent && c.char == '\t' then none
      else scanPlain flow indent (f.blank c.char) rest
    else if isBreak c.char then scanPlain flow indent (f.newline c.char) rest
    else if endsPlain flow indent f (c :: rest) then
      some ⟨f.done.reverse, f.breaks.isSome, c :: rest⟩
    else if isStrayColon flow c.char rest then none
    else if cutsPlain flow c.char rest then
      some ⟨f.done.reverse, f.breaks.isSome, c :: rest⟩
    else scanPlain flow indent (f.char c.char) rest

/-! ### Blocks -/

/-- What happens to the line breaks at the end of a block. -/
inductive Chomping where
  | strip
  | clip
  | keep
  deriving DecidableEq, Repr

/-- The head of a block: how it ends, and by how much it is indented if that is said. -/
structure BlockHead where
  chomping : Chomping
  increment : Option Nat
  rest : List Cell

/-- The chomping of a sign. -/
def chomping? : Char → Option Chomping
  | '-' => some .strip
  | '+' => some .keep
  | _ => none

/-- The value of a digit from one to nine. -/
def increment? (c : Char) : Option Nat :=
  if '1' ≤ c ∧ c ≤ '9' then some (c.toNat - 48) else none

/-- The head of a block. -/
def blockHead : List Cell → BlockHead
  | [] => ⟨.clip, none, []⟩
  | c :: rest =>
    match chomping? c.char, increment? c.char with
    | some ch, _ =>
      match rest with
      | d :: rest' =>
        match increment? d.char with
        | some n => ⟨ch, some n, rest'⟩
        | none => ⟨ch, none, d :: rest'⟩
      | [] => ⟨ch, none, []⟩
    | none, some n =>
      match rest with
      | d :: rest' =>
        match chomping? d.char with
        | some ch => ⟨ch, some n, rest'⟩
        | none => ⟨.clip, some n, d :: rest'⟩
      | [] => ⟨.clip, some n, []⟩
    | none, none => ⟨.clip, none, c :: rest⟩

/-- Skips empty lines of a block and the indentation of the line after them.  Gives the furthest
column reached, the line breaks and the rest.  The indentation is zero as long as it is not
known. -/
def skipBreaks (indent : Nat) : Nat → Text → List Cell → Option (Nat × Text × List Cell)
  | far, breaks, [] => some (far, breaks, [])
  | far, breaks, c :: rest =>
    let below := indent == 0 || c.column < indent
    if below && c.char == ' ' then skipBreaks indent far breaks rest
    else if below && c.char == '\t' then none
    else if isBreak c.char then
      skipBreaks indent (max far c.column) (c.char :: breaks) rest
    else some (max far c.column, breaks, c :: rest)

/-- A block that is being read; all texts in it are reversed. -/
structure Block where
  done : Text
  /-- The line break at the end of the last line, and the ones after it. -/
  lineBreak : Text
  emptyLines : Text
  /-- Whether the last line started with blank space. -/
  indentedMore : Bool

/-- The text before a further line. -/
def Block.join (b : Block) (literal blankNext : Bool) : Text :=
  if !literal && b.lineBreak == ['\n'] && !b.indentedMore && !blankNext then
    if b.emptyLines.isEmpty then ' ' :: b.done else b.emptyLines ++ b.done
  else b.emptyLines ++ b.lineBreak ++ b.done

/-- The text of a block that ends here. -/
def Block.close (b : Block) : Chomping → Text
  | .strip => b.done.reverse
  | .clip => (b.lineBreak ++ b.done).reverse
  | .keep => (b.emptyLines ++ b.lineBreak ++ b.done).reverse

/-- The line break at the beginning, and what follows it. -/
def takeBreak : List Cell → Text × List Cell
  | [] => ([], [])
  | c :: rest => ([c.char], rest)

/-- Reads the lines of a block; the fuel is the number of cells. -/
def blockLines (literal : Bool) (indent : Nat) :
    Nat → Block → List Cell → Option (Block × List Cell)
  | 0, b, s => some (b, s)
  | fuel + 1, b, s =>
    match s with
    | [] => some (b, [])
    | c :: rest =>
      if c.column = indent then
        let blank := isSpace c.char
        let line := (c :: rest).takeWhile fun d => !isBreak d.char
        let after := takeBreak ((c :: rest).dropWhile fun d => !isBreak d.char)
        match skipBreaks indent 0 [] after.2 with
        | none => none
        | some (_, breaks, rest) =>
          let done := (line.map Cell.char).reverse ++ b.join literal blank
          blockLines literal indent fuel ⟨done, after.1, breaks, blank⟩ rest
      else some (b, c :: rest)

/-- The indentation of a block inside the given indentation, and its first empty lines. -/
def blockStart (inner : Nat) (increment : Option Nat) (s : List Cell) :
    Option (Nat × Text × List Cell) :=
  match increment with
  | some n =>
    let indent := if inner = 0 then n else inner - 1 + n
    (skipBreaks indent 0 [] s).map fun r => (indent, r.2)
  | none => (skipBreaks 0 0 [] s).map fun r => (max (max r.1 inner) 1, r.2)

/-- Reads a block after its sign.  The least column that is inside the surrounding structure is
given. -/
def scanBlock (literal : Bool) (inner : Nat) (s : List Cell) : Option (Text × List Cell) :=
  let head := blockHead s
  match nextLine head.rest with
  | none => none
  | some s =>
    match blockStart inner head.increment s with
    | none => none
    | some (indent, breaks, s) =>
      match blockLines literal indent (s.length + 1) ⟨[], [], breaks, false⟩ s with
      | none => none
      | some (b, rest) => some (b.close head.chomping, rest)

end Yaml

end PhotoPipeline
