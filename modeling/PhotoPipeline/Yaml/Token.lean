/-
**Tokens.**

The structure of a YAML document is in its indentation and in its brackets.  The scanner makes
both explicit: where a block collection starts and where it ends there is a token, as there is for
a bracket.

That a word is a key is seen only at the colon after it.  So the scanner remembers the place in
front of a word that may turn out to be a key, and puts the token for keys there when the colon
comes.

Main definitions:

* `PhotoPipeline.Yaml.Token` — tokens;
* `PhotoPipeline.Yaml.Scan` — what the scanner remembers;
* `PhotoPipeline.Yaml.tokens` — the tokens of a document, if it is well formed so far.
-/
import PhotoPipeline.Yaml.Scalar
import PhotoPipeline.Yaml.Tag

set_option relaxedAutoImplicit false
set_option autoImplicit false

namespace PhotoPipeline

namespace Yaml

/-- Tokens. -/
inductive Token where
  /-- A directive that names a version. -/
  | version (major minor : Nat)
  /-- A directive that declares a handle, which stands for the beginning of a tag. -/
  | handle (name : Text) (value : Tag)
  | documentStart
  | documentEnd
  | blockSequenceStart
  | blockMappingStart
  | blockEnd
  | flowSequenceStart
  | flowSequenceEnd
  | flowMappingStart
  | flowMappingEnd
  | blockEntry
  | flowEntry
  | key
  | value
  | alias (name : Text)
  | anchor (name : Text)
  /-- A tag, by its handle and what follows that; a tag that is written in full has no handle. -/
  | tag (handle : Text) (rest : Tag)
  | scalar (style : Style) (text : Text)
  deriving DecidableEq, Repr

/-! ### What the scanner remembers -/

/-- A place at which a key may start. -/
structure Candidate where
  /-- Whether there is no other way to go on than with a key. -/
  isRequired : Bool
  /-- The number of tokens before the key. -/
  position : Nat
  line : Nat
  column : Nat
  deriving DecidableEq, Repr

/-- What the scanner remembers. -/
structure Scan where
  /-- The tokens so far, the last one first. -/
  reversed : List Token
  /-- The number of tokens so far. -/
  count : Nat
  /-- The columns of the block collections that are open, the innermost first. -/
  indents : List Nat
  /-- Whether a key may start here. -/
  keyAllowed : Bool
  /-- The place where the key at hand may have started. -/
  candidate : Option Candidate
  /-- The candidates outside the brackets that are open. -/
  outer : List (Option Candidate)
  deriving DecidableEq, Repr

namespace Scan

/-- The beginning of a document. -/
def start : Scan := ⟨[], 0, [], true, none, []⟩

/-- Whether a bracket is open. -/
def inFlow (s : Scan) : Bool := !s.outer.isEmpty

/-- The least column that is inside the innermost block collection. -/
def inner (s : Scan) : Nat :=
  match s.indents with
  | [] => 0
  | column :: _ => column + 1

/-- The tokens in order. -/
def tokens (s : Scan) : List Token := s.reversed.reverse

/-- Adds a token. -/
def push (s : Scan) (t : Token) : Scan :=
  { s with reversed := t :: s.reversed, count := s.count + 1 }

/-- Puts a token in front of those from a position on. -/
def insertAt (s : Scan) (position : Nat) (t : Token) : Scan :=
  let later := s.count - position
  { s with
    reversed := s.reversed.take later ++ t :: s.reversed.drop later
    count := s.count + 1 }

/-- Says whether a key may start next. -/
def allowKey (s : Scan) (b : Bool) : Scan := { s with keyAllowed := b }

/-- The number of block collections that end before a column. -/
def closedBefore (column : Nat) (indents : List Nat) : Nat :=
  (indents.takeWhile fun i => column < i).length

/-- Ends the given number of block collections. -/
def close (s : Scan) (n : Nat) : Scan :=
  { s with
    reversed := List.replicate n .blockEnd ++ s.reversed
    count := s.count + n
    indents := s.indents.drop n }

/-- Ends the block collections that do not reach a column. -/
def unroll (s : Scan) (column : Nat) : Scan :=
  if s.inFlow then s else s.close (closedBefore column s.indents)

/-- Ends all block collections. -/
def unrollAll (s : Scan) : Scan := if s.inFlow then s else s.close s.indents.length

/-- Starts a block collection at a column, unless there is one, in front of a position. -/
def roll (s : Scan) (column position : Nat) (t : Token) : Scan :=
  if s.inFlow then s
  else if s.inner ≤ column then
    { s.insertAt position t with indents := column :: s.indents }
  else s

/-- Gives up the candidate, which must not be required. -/
def dropCandidate (s : Scan) : Option Scan :=
  match s.candidate with
  | some k => if k.isRequired then none else some { s with candidate := none }
  | none => some s

/-- Remembers that a key may start at a cell. -/
def saveCandidate (s : Scan) (c : Cell) : Option Scan :=
  if s.keyAllowed then
    s.dropCandidate.map fun s =>
      { s with
        candidate := some ⟨!s.inFlow && s.inner == c.column + 1, s.count, c.line, c.column⟩ }
  else some s

/-- Whether a key that started at a candidate may still go on at a cell. -/
def isFresh (c : Cell) (k : Candidate) : Bool := k.line == c.line && c.column ≤ k.column + 1024

/-- A candidate as it is at a cell further on; a required one must not grow stale. -/
def refresh (c : Cell) : Option Candidate → Option (Option Candidate)
  | none => some none
  | some k => if isFresh c k then some (some k) else if k.isRequired then none else some none

/-- The candidates as they are at a cell further on. -/
def refreshAll (s : Scan) (c : Cell) : Option Scan := do
  let candidate ← refresh c s.candidate
  let outer ← s.outer.mapM (refresh c)
  return { s with candidate := candidate, outer := outer }

end Scan

/-! ### Words with a sign in front -/

/-- Whether a character may occur in a name. -/
def isNameChar (c : Char) : Bool := c.isAlphanum || c == '-' || c == '_'

/-- The name at the beginning, and the rest. -/
def takeName (s : List Cell) : Text × List Cell :=
  ((s.takeWhile fun c => isNameChar c.char).map Cell.char, s.dropWhile fun c => isNameChar c.char)

/-- The name of an anchor or an alias, and the rest. -/
def scanName (s : List Cell) : Option (Text × List Cell) :=
  let (name, rest) := takeName s
  if name.isEmpty then none
  else if endsWord rest || startsWith ['?', ':', ',', ']', '\x7d', '%', '@', '\x60'] rest then
    some (name, rest)
  else none

/-- Whether a character may occur in a tag; brackets and commas may where that is said. -/
def isTagChar (full : Bool) (c : Char) : Bool :=
  isNameChar c || ";/?:@&=+$.%!~*'()".toList.contains c || (full && [',', '[', ']'].contains c)

/-- The characters of a tag, and the rest. -/
def takeTag (full : Bool) (s : List Cell) : Text × List Cell :=
  ((s.takeWhile fun c => isTagChar full c.char).map Cell.char,
    s.dropWhile fun c => isTagChar full c.char)

/-- The handle of a tag after its exclamation mark, if it is closed by another, and the rest. -/
def takeHandle (s : List Cell) : Text × List Cell :=
  let (name, rest) := takeName s
  match rest with
  | c :: rest => if c.char = '!' then ('!' :: (name ++ ['!']), rest) else (['!'], s)
  | [] => (['!'], s)

/-- A tag after its exclamation mark, by its handle and what follows that, and the rest. -/
def scanTag (flow : Bool) (s : List Cell) : Option (Token × List Cell) :=
  let read : Option (Token × List Cell) :=
    match s with
    | ⟨'<', _, _⟩ :: s =>
      let (uri, rest) := takeTag true s
      match rest with
      | ⟨'>', _, _⟩ :: rest =>
        if uri.isEmpty then none else (Tag.ofText? uri).map fun tag => (.tag [] tag, rest)
      | _ => none
    | _ =>
      let (handle, s) := takeHandle s
      let (suffix, rest) := takeTag false s
      if suffix.isEmpty && handle.length != 1 then none
      else
        (Tag.ofText? suffix).map fun tag =>
          -- an exclamation mark alone is no handle but a tag of its own
          (if handle = ['!'] ∧ tag = [] then .tag [] Tag.unspecified else .tag handle tag, rest)
  match read with
  | some (token, rest) =>
    if endsWord rest || (flow && startsWith [','] rest) then some (token, rest) else none
  | none => none

/-! ### Directives -/

/-- The number at the beginning, of nine digits at most, and the rest. -/
def takeNumber (s : List Cell) : Option (Nat × List Cell) :=
  let digits := s.takeWhile fun c => c.char.isDigit
  if digits.isEmpty || 9 < digits.length then none
  else
    some (digits.foldl (fun n c => 10 * n + (c.char.toNat - 48)) 0,
      s.dropWhile fun c => c.char.isDigit)

/-- A version after its directive's name. -/
def scanVersion (s : List Cell) : Option (Token × List Cell) :=
  match takeNumber (s.dropWhile fun c => isSpace c.char) with
  | some (major, ⟨'.', _, _⟩ :: s) =>
    match takeNumber s with
    | some (minor, s) => (nextLine s).map fun rest => (.version major minor, rest)
    | none => none
  | _ => none

/-- A declaration of a handle after its directive's name. -/
def scanHandle (s : List Cell) : Option (Token × List Cell) :=
  match s.dropWhile fun c => isSpace c.char with
  | ⟨'!', _, _⟩ :: s =>
    let (name, rest) := takeName s
    let (handle, rest) : Text × List Cell :=
      match rest with
      | ⟨'!', _, _⟩ :: rest => ('!' :: (name ++ ['!']), rest)
      | rest => ('!' :: name, rest)
    if handle.length != 1 && handle.getLast? != some '!' then none
    else if !startsWith [' ', '\t'] rest then none
    else
      let (uri, rest) := takeTag true (rest.dropWhile fun c => isSpace c.char)
      if uri.isEmpty || !endsWord rest then none
      else
        match Tag.ofText? uri, nextLine rest with
        | some tag, some rest => some (.handle handle tag, rest)
        | _, _ => none
  | _ => none

/-- A directive after its percent sign. -/
def scanDirective (s : List Cell) : Option (Token × List Cell) :=
  let (name, rest) := takeName s
  if !endsWord rest then none
  else if name = "YAML".toList then scanVersion rest
  else if name = "TAG".toList then scanHandle rest
  else none

/-! ### One token -/

/-- What is left to be scanned, and what is remembered. -/
abbrev Scanned := Option (Scan × List Cell)

/-- Takes a directive or a mark between documents. -/
def fetchMarker (s : Scan) (t : Token) (rest : List Cell) : Scanned :=
  s.unrollAll.dropCandidate.map fun s => ((s.allowKey false).push t, rest)

/-- Opens a bracket. -/
def openFlow (s : Scan) (c : Cell) (t : Token) (rest : List Cell) : Scanned :=
  (s.saveCandidate c).map fun s =>
    ({ (s.push t).allowKey true with outer := s.candidate :: s.outer, candidate := none }, rest)

/-- Closes a bracket. -/
def closeFlow (s : Scan) (t : Token) (rest : List Cell) : Scanned :=
  s.dropCandidate.map fun s =>
    let s := (s.push t).allowKey false
    match s.outer with
    | [] => (s, rest)
    | k :: outer => ({ s with candidate := k, outer := outer }, rest)

/-- Takes a comma. -/
def fetchComma (s : Scan) (rest : List Cell) : Scanned :=
  s.dropCandidate.map fun s => ((s.allowKey true).push .flowEntry, rest)

/-- Starts a block collection at a sign, where that is allowed. -/
def beginBlock (s : Scan) (c : Cell) (t : Token) : Option Scan :=
  if s.inFlow then some s
  else if s.keyAllowed then some (s.roll c.column s.count t)
  else none

/-- Takes the sign of a list item. -/
def fetchDash (s : Scan) (c : Cell) (rest : List Cell) : Scanned := do
  let s ← beginBlock s c .blockSequenceStart
  let s ← s.dropCandidate
  return ((s.allowKey true).push .blockEntry, rest)

/-- Takes the sign of a key. -/
def fetchKey (s : Scan) (c : Cell) (rest : List Cell) : Scanned := do
  let s ← beginBlock s c .blockMappingStart
  let s ← s.dropCandidate
  return ((s.allowKey (!s.inFlow)).push .key, rest)

/-- Takes the colon before a value. -/
def fetchValue (s : Scan) (c : Cell) (rest : List Cell) : Scanned :=
  match s.candidate with
  | some k =>
    -- only now is it known that a key began at the candidate: its sign goes in there
    let s := (s.insertAt k.position .key).roll k.column k.position .blockMappingStart
    some (({ s with candidate := none }.allowKey false).push .value, rest)
  | none =>
    -- a value without a key
    (beginBlock s c .blockMappingStart).map fun s =>
      ((s.allowKey (!s.inFlow)).push .value, rest)

/-- Takes a word that may be part of a key. -/
def fetchWord (s : Scan) (c : Cell) (read : Option (Token × List Cell)) : Scanned := do
  let s ← s.saveCandidate c
  let (t, rest) ← read
  return ((s.allowKey false).push t, rest)

/-- Takes a block. -/
def fetchBlock (s : Scan) (literal : Bool) (rest : List Cell) : Scanned := do
  let s ← s.dropCandidate
  let (text, rest) ← scanBlock literal s.inner rest
  return ((s.allowKey true).push (.scalar (if literal then .literal else .folded) text), rest)

/-- Takes a plain scalar. -/
def fetchPlain (s : Scan) (c : Cell) (rest : List Cell) : Scanned := do
  let s ← s.saveCandidate c
  let p ← scanPlain s.inFlow s.inner .start (c :: rest)
  return ((s.allowKey p.brokenAfter).push (.scalar .plain p.text), p.rest)

/-- The characters that mean something at the beginning of a word. -/
def isIndicator (c : Char) : Bool := "-?:,[]\x7b\x7d#&*!|>'\"%@\x60".toList.contains c

/-- Whether a plain scalar may start with a character. -/
def startsPlain (flow : Bool) (c : Char) (rest : List Cell) : Bool :=
  !(isIndicator c || isSpace c || isBreak c) ||
    (c == '-' && !startsWith [' ', '\t'] rest) ||
    (!flow && (c == '?' || c == ':') && !endsWord rest)

/-- Takes the token that starts at a cell. -/
def fetch (s : Scan) (c : Cell) (rest : List Cell) : Scanned :=
  if c.column = 0 ∧ c.char = '%' then
    (scanDirective rest).bind fun r => fetchMarker s r.1 r.2
  else if isMarkerOf '-' (c :: rest) then fetchMarker s .documentStart (rest.drop 2)
  else if isMarkerOf '.' (c :: rest) then fetchMarker s .documentEnd (rest.drop 2)
  else
    match c.char with
    | '[' => openFlow s c .flowSequenceStart rest
    | '\x7b' => openFlow s c .flowMappingStart rest
    | ']' => closeFlow s .flowSequenceEnd rest
    | '\x7d' => closeFlow s .flowMappingEnd rest
    | ',' => fetchComma s rest
    | '*' => fetchWord s c ((scanName rest).map fun r => (.alias r.1, r.2))
    | '&' => fetchWord s c ((scanName rest).map fun r => (.anchor r.1, r.2))
    | '!' => fetchWord s c (scanTag s.inFlow rest)
    | '\'' => fetchWord s c ((scanSingle .start rest).map fun r => (.scalar .quoted r.1, r.2))
    | '"' => fetchWord s c ((scanDouble none .start rest).map fun r => (.scalar .quoted r.1, r.2))
    | ch =>
      if ch = '-' ∧ endsWord rest then fetchDash s c rest
      else if ch = '?' ∧ (s.inFlow ∨ endsWord rest) then fetchKey s c rest
      else if ch = ':' ∧ (s.inFlow ∨ endsWord rest) then fetchValue s c rest
      else if (ch = '|' ∨ ch = '>') ∧ !s.inFlow then fetchBlock s (ch == '|') rest
      else if startsPlain s.inFlow ch rest then fetchPlain s c rest
      else none

/-! ### All tokens -/

/-- Skips blank space, line breaks, comments, and byte order marks at which a line starts; says
whether a key may start then. -/
def skipBlank (flow : Bool) : Bool → Bool → List Cell → Bool × List Cell
  | _, allowed, [] => (allowed, [])
  | comment, allowed, c :: rest =>
    -- outside brackets a key may start on every new line
    if isBreak c.char then skipBlank flow false (allowed || !flow) rest
    else if comment || c.char == '#' then skipBlank flow true allowed rest
    else if c.char == '\uFEFF' && c.column == 0 then skipBlank flow false allowed rest
    else if c.char == ' ' || (c.char == '\t' && (flow || !allowed)) then
      skipBlank flow false allowed rest
    else (allowed, c :: rest)

/-- The tokens from a cell on; the fuel is the number of cells. -/
def scanFrom : Nat → Scan → List Cell → Option (List Token)
  | 0, _, _ => none
  | fuel + 1, s, cells =>
    match skipBlank s.inFlow false s.keyAllowed cells with
    | (_, []) => s.unrollAll.dropCandidate.map Scan.tokens
    | (allowed, c :: rest) =>
      match (s.allowKey allowed).refreshAll c with
      | none => none
      | some s =>
        match fetch (s.unroll c.column) c rest with
        | none => none
        | some (s, rest) => scanFrom fuel s rest

/-- The tokens of a document. -/
def tokens (t : Text) : Option (List Token) :=
  (cells t).bind fun cs => scanFrom (cs.length + 1) .start cs

end Yaml

end PhotoPipeline
