/-
**Paths.**

A path is a text of names separated by slashes.  Repeated slashes and dots that stand for "here"
do not count, except for a dot at the very beginning.

Main definitions:

* `PhotoPipeline.Path.components` — the names on a path;
* `PhotoPipeline.Path.extension?` — what follows the last dot of the last name;
* `PhotoPipeline.Path.parent?`, `PhotoPipeline.Path.join` — one name less, one path after another;
* `PhotoPipeline.Path.stripBase?` — what is left of a path below another.
-/
import PhotoPipeline.Text.Basic

set_option relaxedAutoImplicit false
set_option autoImplicit false

namespace PhotoPipeline

namespace Path

/-- Drops slashes and dots that stand for "here". -/
def skip : Text → Text
  | [] => []
  | ['.'] => []
  | '/' :: t => skip t
  | '.' :: '/' :: t => skip t
  | t => t

/-- Whether a character belongs to a name. -/
def inName (c : Char) : Bool := c != '/'

/-- The first name of a path, apart from its beginning, and the rest. -/
def cut? (t : Text) : Option (Text × Text) :=
  match skip t with
  | [] => none
  | c :: cs => some ((c :: cs).takeWhile inName, (c :: cs).dropWhile inName)

theorem length_skip_le : ∀ t : Text, (skip t).length ≤ t.length
  | [] => Nat.le_refl _
  | c :: cs => by
    rw [skip.eq_def]
    split
    · simp
    · simp
    · next t h =>
      obtain ⟨rfl, rfl⟩ := List.cons.inj h
      exact Nat.le_succ_of_le (length_skip_le _)
    · next t h =>
      obtain ⟨rfl, rfl⟩ := List.cons.inj h
      have := length_skip_le t
      simp only [List.length_cons]
      omega
    · exact Nat.le_refl _

/-- The beginning of a path: the root, a dot, or nothing of note. -/
def opening : Text → List Text × Text
  | '/' :: t => ([['/']], t)
  | ['.'] => ([['.']], [])
  | '.' :: '/' :: t => ([['.']], t)
  | t => ([], t)

/-- The names on a path after its beginning; the fuel is the length of the path. -/
def names : Nat → Text → List Text
  | 0, _ => []
  | fuel + 1, t =>
    match cut? t with
    | none => []
    | some (name, rest) => name :: names fuel rest

/-- The names on a path. -/
def components (t : Text) : List Text :=
  (opening t).1 ++ names t.length (opening t).2

/-- Whether a path starts at the root. -/
def isAbsolute : Text → Bool
  | '/' :: _ => true
  | _ => false

/-! ### The last name -/

/-- The last name, if it is one that a file can have. -/
def fileName? (t : Text) : Option Text :=
  match (components t).getLast? with
  | none => none
  | some name =>
    if name = ['/'] ∨ name = ['.'] ∨ name = ['.', '.'] then none else some name

/-- What follows the last dot of a name, unless the name has no other dot and starts with it. -/
def nameExtension? (name : Text) : Option Text :=
  let after := name.reverse.takeWhile (· != '.')
  let before := name.reverse.dropWhile (· != '.')
  match before with
  | [] => none
  | ['.'] => none
  | _ => some after.reverse

/-- What follows the last dot of the last name. -/
def extension? (t : Text) : Option Text := (fileName? t).bind nameExtension?

/-! ### Below and above -/

/-- Drops slashes and dots that stand for "here" from the end of a path. -/
def trimEnd (t : Text) : Text := go t.reverse
where
  go : Text → Text
    | [] => []
    | ['.'] => []
    | '/' :: r => go r
    | '.' :: '/' :: r => go r
    | r => r.reverse

/-- The path with one name less, if there is a name to leave out. -/
def parent? (t : Text) : Option Text :=
  match (components t).getLast? with
  | none => none
  | some name =>
    if name = ['/'] then none
    else
      let rest := ((trimEnd t).reverse.drop name.length).reverse
      match components rest with
      | [['/']] => some ['/']
      | [['.']] => some ['.']
      | _ => some (trimEnd rest)

/-- A path and then another; an absolute one starts afresh. -/
def join (base t : Text) : Text :=
  if isAbsolute t ∨ base = [] then t
  else if base.getLast? = some '/' then base ++ t
  else base ++ '/' :: t

/-- What is left after the given number of names. -/
def dropNames : Nat → Text → Text
  | 0, t => skip t
  | n + 1, t =>
    match cut? t with
    | none => []
    | some (_, rest) => dropNames n rest

/-- What is left of a path below another, as it is written. -/
def stripBase? (base t : Text) : Option Text :=
  let above := components base
  if above.isPrefixOf (components t) then
    let start := opening t
    some (trimEnd (dropNames (above.length - start.1.length) start.2))
  else none

/-- A path as messages show it: relative to the given directory if it is below it. -/
def display (here t : Text) : Text :=
  match stripBase? here t with
  | some [] => ['.']
  | some rest => rest
  | none => t

end Path

end PhotoPipeline
