/-
**Scanning a script.**

The scanner reads a script one character at a time and never looks ahead: what it has to remember
is its mode, the word it is in the middle of, and the argument lists that are open.  Reading a
script is a fold over its characters, so what a text does to the scanner is what its parts do one
after the other.

The rules:

* blanks separate words, `(` and `)` open and close an argument list;
* `"..."` is taken as it stands, and `\` takes the next character as it stands;
* an expression between backticks is taken as it stands, backticks included;
* `${name}`, outside strings, stands for the value of a variable, also inside an expression;
* `//` starts a comment if it is the first thing on its line.

A word may be glued from several such pieces.  A word without text is dropped, unless a part of
it was quoted.  A bracket directly after a word makes the word the head of the list.

Main definitions:

* `PhotoPipeline.Scanner` — what is remembered between two characters;
* `PhotoPipeline.Scanner.feed`, `PhotoPipeline.Scanner.finish` — one character, and the end;
* `PhotoPipeline.parse` — the forest of a script.

Main results:

* `PhotoPipeline.Scanner.feedAll_append` — feeding two texts in turn;
* `PhotoPipeline.Scanner.here_feed` — the scanner knows where it is.
-/
import PhotoPipeline.Script.Entry
import PhotoPipeline.Script.Error

set_option relaxedAutoImplicit false
set_option autoImplicit false

namespace PhotoPipeline

/-- The values of the variables that a script may substitute. -/
abbrev Vars := List (Text × Text)

/-- A word in the making. -/
structure Word where
  /-- Its characters so far, the last one first. -/
  reversed : Text
  /-- Whether a part of it was written in quotes. -/
  quoted : Bool
  /-- Where it starts, once it has. -/
  start : Option Location
  deriving DecidableEq, Repr

namespace Word

/-- The word before its first character. -/
def empty : Word := ⟨[], false, none⟩

/-- The characters of the word. -/
def text (w : Word) : Text := w.reversed.reverse

/-- Whether the word leaves no trace. -/
def isEmpty (w : Word) : Bool := w.reversed.isEmpty && !w.quoted

/-- The word with one more character, which was written at the given place. -/
def push (w : Word) (c : Char) (l : Location) : Word :=
  { w with reversed := c :: w.reversed, start := some (w.start.getD l) }

/-- The word with a whole text appended. -/
def append (w : Word) (t : Text) (l : Location) : Word :=
  { w with reversed := t.reverse ++ w.reversed, start := some (w.start.getD l) }

/-- The word with a quoted part opened. -/
def quote (w : Word) (l : Location) : Word :=
  { w with quoted := true, start := some (w.start.getD l) }

@[simp] theorem text_empty : empty.text = [] := rfl

@[simp] theorem text_push (w : Word) (c : Char) (l : Location) :
    (w.push c l).text = w.text ++ [c] := by
  simp [text, push]

@[simp] theorem text_append (w : Word) (t : Text) (l : Location) :
    (w.append t l).text = w.text ++ t := by
  simp [text, append]

@[simp] theorem text_quote (w : Word) (l : Location) : (w.quote l).text = w.text := rfl

theorem isEmpty_iff (w : Word) : w.isEmpty = true ↔ w.text = [] ∧ w.quoted = false := by
  simp [isEmpty, text]

end Word

/-- An argument list that has been opened and not closed. -/
structure OpenList where
  head : Text
  location : Location
  /-- The entries before it in the list that it stands in, the last one first. -/
  before : List Entry

/-- How the next character is to be taken. -/
inductive ScanMode where
  | plain
  /-- After a backslash, which stands at the place. -/
  | escape (backslash : Location)
  /-- After a `$` that may begin a substitution. -/
  | dollar (place : Location)
  /-- After a `/` that may begin a comment. -/
  | slash (place : Location)
  | comment
  /-- Inside a string. -/
  | string (opened : Location)
  /-- Inside a string, after a backslash. -/
  | stringEscape (opened backslash : Location)
  /-- Inside an expression. -/
  | expression (opened : Location)
  /-- Inside an expression, after a `$` that may begin a substitution. -/
  | expressionDollar (opened place : Location)
  /-- Inside the name of a substitution, whose letters are kept the last one first; the second
  place is that of the expression around it, if there is one. -/
  | variable (place : Location) (reversed : Text) (inside : Option Location)
  deriving DecidableEq, Repr

/-- What is remembered between two characters. -/
structure Scanner where
  mode : ScanMode
  /-- The place of the next character. -/
  here : Location
  word : Word
  /-- Whether only blanks have been seen since the line began. -/
  lineStart : Bool
  /-- The entries of the innermost open list so far, the last one first. -/
  entries : List Entry
  /-- The open lists, the innermost first. -/
  opened : List OpenList
  /-- How many lists may be open at once. -/
  limit : Nat

namespace Scanner

/-- The scanner before the first character. -/
def start : Scanner :=
  { mode := .plain, here := .start, word := .empty, lineStart := true, entries := [], opened := [],
    limit := maxDepth }

/-! ### What a character can do -/

/-- Adds a character to the word and goes on in the given mode. -/
def take (s : Scanner) (c : Char) (l : Location) (mode : ScanMode) : Scanner :=
  { s with mode := mode, word := s.word.push c l, lineStart := false }

/-- Ends the word; unless it leaves no trace it becomes a leaf. -/
def flush (s : Scanner) : Scanner :=
  if s.word.isEmpty then { s with word := .empty }
  else
    { s with
      word := .empty
      entries := .leaf s.word.text (s.word.start.getD s.here) :: s.entries }

/-- Opens a list, with the word as its head. -/
def openList (s : Scanner) (l : Location) : Except ScriptError Scanner :=
  if s.limit ≤ s.opened.length then .error ⟨.tooDeep, l⟩
  else
    let opened : OpenList :=
      if s.word.isEmpty then ⟨anonymousHead, l, s.entries⟩
      else ⟨s.word.text, s.word.start.getD l, s.entries⟩
    .ok { s with word := .empty, lineStart := false, entries := [], opened := opened :: s.opened }

/-- Closes the innermost list. -/
def closeList (s : Scanner) (l : Location) : Except ScriptError Scanner :=
  let s := s.flush
  match s.opened with
  | [] => .error ⟨.unexpectedClose, l⟩
  | o :: rest =>
    .ok { s with
      lineStart := false
      entries := ⟨o.head, s.entries.reverse, o.location⟩ :: o.before
      opened := rest }

/-- Puts the value of a variable into the word and goes on in the given mode. -/
def substitute (vars : Vars) (s : Scanner) (name : Text) (l : Location) (mode : ScanMode) :
    Except ScriptError Scanner :=
  match vars.lookup name with
  | none => .error ⟨.unknownVariable name, l⟩
  | some value =>
    .ok { s with mode := mode, word := s.word.append value l, lineStart := false }

/-! ### One character -/

/-- A character outside strings, expressions and comments. -/
def feedPlain (s : Scanner) (c : Char) (l : Location) : Except ScriptError Scanner :=
  let s := { s with mode := .plain }
  if c = '"' then
    .ok { s with mode := .string l, word := s.word.quote l, lineStart := false }
  else if c = '\x60' then .ok (s.take c l (.expression l))
  else if c = '\\' then .ok { s with mode := .escape l, lineStart := false }
  else if c = '$' then .ok { s with mode := .dollar l }
  else if c = '/' ∧ s.lineStart then .ok { s with mode := .slash l }
  else if c = '(' then s.openList l
  else if c = ')' then s.closeList l
  else if isBlank c then
    -- a line stays at its start while it holds blanks only
    let s := s.flush
    .ok { s with lineStart := s.lineStart || c == '\n' }
  else .ok (s.take c l .plain)

/-- A character inside an expression. -/
def feedExpression (s : Scanner) (opened : Location) (c : Char) (l : Location) : Scanner :=
  if c = '\x60' then s.take c l .plain
  else if c = '$' then { s with mode := .expressionDollar opened l }
  else s.take c l (.expression opened)

/-- A character in the current mode, which stands at the given place. -/
def dispatch (vars : Vars) (s : Scanner) (c : Char) (l : Location) :
    Except ScriptError Scanner :=
  match s.mode with
  | .plain => s.feedPlain c l
  | .escape backslash => .ok (s.take c backslash .plain)
  | .dollar place =>
    if c = '{' then .ok { s with mode := .variable place [] none }
    -- a dollar sign before anything else stands for itself
    else (s.take '$' place .plain).feedPlain c l
  | .slash place =>
    if c = '/' then .ok { s with mode := .comment }
    -- one slash is no comment: it belongs to a word
    else (s.take '/' place .plain).feedPlain c l
  | .comment => .ok (if c = '\n' then { s with mode := .plain, lineStart := true } else s)
  | .string opened =>
    if c = '"' then .ok { s with mode := .plain }
    else if c = '\\' then .ok { s with mode := .stringEscape opened l }
    else .ok (s.take c l (.string opened))
  | .stringEscape opened backslash => .ok (s.take c backslash (.string opened))
  | .expression opened => .ok (s.feedExpression opened c l)
  | .expressionDollar opened place =>
    if c = '{' then .ok { s with mode := .variable place [] (some opened) }
    else .ok ((s.take '$' place (.expression opened)).feedExpression opened c l)
  | .variable place reversed inside =>
    if c = '}' then
      s.substitute vars reversed.reverse place (inside.elim .plain .expression)
    else .ok { s with mode := .variable place (c :: reversed) inside }

/-- The scanner after one more character. -/
def feed (vars : Vars) (s : Scanner) (c : Char) : Except ScriptError Scanner :=
  dispatch vars { s with here := s.here.advance c } c s.here

/-- The scanner after a text. -/
def feedAll (vars : Vars) (s : Scanner) (t : Text) : Except ScriptError Scanner :=
  t.foldlM (feed vars) s

@[simp] theorem feedAll_nil (vars : Vars) (s : Scanner) : s.feedAll vars [] = .ok s := rfl

@[simp] theorem feedAll_cons (vars : Vars) (s : Scanner) (c : Char) (t : Text) :
    s.feedAll vars (c :: t) = s.feed vars c >>= fun s => s.feedAll vars t := rfl

theorem feedAll_append (vars : Vars) (s : Scanner) (a b : Text) :
    s.feedAll vars (a ++ b) = s.feedAll vars a >>= fun s => s.feedAll vars b :=
  List.foldlM_append

/-! ### The end of the script -/

/-- The entries at the end of a script, if every list is closed. -/
def complete (s : Scanner) : Except ScriptError (List Entry) :=
  let s := s.flush
  match s.opened with
  | [] => .ok s.entries.reverse
  | o :: _ => .error ⟨.unclosed o.head, o.location⟩

/-- The entries at the end of a script. -/
def finish (s : Scanner) : Except ScriptError (List Entry) :=
  match s.mode with
  | .plain | .comment => s.complete
  | .dollar place => (s.take '$' place .plain).complete
  | .slash place => (s.take '/' place .plain).complete
  | .escape backslash => .error ⟨.danglingEscape, backslash⟩
  | .string opened => .error ⟨.openString, opened⟩
  | .stringEscape _ backslash => .error ⟨.danglingStringEscape, backslash⟩
  | .expression opened | .expressionDollar opened _ => .error ⟨.openExpression, opened⟩
  | .variable place _ _ => .error ⟨.openSubstitution, place⟩

/-! ### Where the scanner is -/

@[simp] theorem here_flush (s : Scanner) : s.flush.here = s.here := by
  rw [flush]; split <;> rfl

theorem here_openList {s t : Scanner} {l : Location} (h : s.openList l = .ok t) :
    t.here = s.here := by
  rw [openList] at h
  split at h
  · exact nomatch h
  · obtain rfl := Except.ok.inj h; rfl

theorem here_closeList {s t : Scanner} {l : Location} (h : s.closeList l = .ok t) :
    t.here = s.here := by
  simp only [closeList] at h
  split at h
  · exact nomatch h
  · obtain rfl := Except.ok.inj h; exact here_flush s

theorem here_feedPlain {s t : Scanner} {c : Char} {l : Location}
    (h : s.feedPlain c l = .ok t) : t.here = s.here := by
  simp only [feedPlain] at h
  split at h
  · obtain rfl := Except.ok.inj h; rfl
  split at h
  · obtain rfl := Except.ok.inj h; rfl
  split at h
  · obtain rfl := Except.ok.inj h; rfl
  split at h
  · obtain rfl := Except.ok.inj h; rfl
  split at h
  · obtain rfl := Except.ok.inj h; rfl
  split at h
  · exact (here_openList h :)
  split at h
  · exact (here_closeList h :)
  split at h
  · obtain rfl := Except.ok.inj h; exact here_flush _
  · obtain rfl := Except.ok.inj h; rfl

theorem here_feedExpression (s : Scanner) (opened : Location) (c : Char) (l : Location) :
    (s.feedExpression opened c l).here = s.here := by
  rw [feedExpression]; split
  · rfl
  · split <;> rfl

/-- The scanner moves on by the character it was fed. -/
theorem here_feed {vars : Vars} {s t : Scanner} {c : Char} (h : s.feed vars c = .ok t) :
    t.here = s.here.advance c := by
  rw [feed, dispatch] at h
  split at h
  · exact here_feedPlain h
  · obtain rfl := Except.ok.inj h; rfl
  · split at h
    · obtain rfl := Except.ok.inj h; rfl
    · exact here_feedPlain h
  · split at h
    · obtain rfl := Except.ok.inj h; rfl
    · exact here_feedPlain h
  · obtain rfl := Except.ok.inj h; split <;> rfl
  · split at h
    · obtain rfl := Except.ok.inj h; rfl
    · split at h <;> (obtain rfl := Except.ok.inj h; rfl)
  · obtain rfl := Except.ok.inj h; rfl
  · obtain rfl := Except.ok.inj h; exact here_feedExpression ..
  · split at h
    · obtain rfl := Except.ok.inj h; rfl
    · obtain rfl := Except.ok.inj h; exact here_feedExpression ..
  · split at h
    · rw [substitute] at h
      split at h
      · exact nomatch h
      · obtain rfl := Except.ok.inj h; rfl
    · obtain rfl := Except.ok.inj h; rfl

end Scanner

/-- The forest of entries that a script stands for. -/
def parse (source : Text) (vars : Vars) : Except ScriptError (List Entry) :=
  Scanner.start.feedAll vars source >>= Scanner.finish

end PhotoPipeline
