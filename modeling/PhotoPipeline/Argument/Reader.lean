/-
**Reading arguments.**

An element is made from the arguments it is written with.  Its decoder reads them from the first
to the last, each as what it expects there: a string, a number, a colour, another element.  What
is wrong with an argument is reported by its position, counted from one.  Reading past the last
argument is an error too, unless a default stands in.

An argument that is an element is decoded only when it is asked for, and what it defines is known
from then on.

Main definitions:

* `PhotoPipeline.Scope` — the pipelines defined so far;
* `PhotoPipeline.Argument` — an entry, with how it is decoded as an element;
* `PhotoPipeline.Cursor` — the arguments of one element and how far they have been read;
* `PhotoPipeline.Reader.string`, `PhotoPipeline.Reader.int`, `PhotoPipeline.Reader.float`,
  `PhotoPipeline.Reader.value`, `PhotoPipeline.Reader.colour`, `PhotoPipeline.Reader.element` — the
  readings, each of which takes one argument.

Main results:

* `PhotoPipeline.Reader.finish_eq_ok_iff` — reading may end exactly when nothing is left;
* `PhotoPipeline.Reader.withDefault_of_nil` — the default stands in when nothing is left.
-/
import PhotoPipeline.Element.Basic
import PhotoPipeline.Number.Numeral

set_option relaxedAutoImplicit false
set_option autoImplicit false

namespace PhotoPipeline

/-! ### What has been decoded -/

/-- What decoding a script has found out so far. -/
structure Scope (ε : Type) where
  /-- The pipelines defined so far with their elements, the latest first. -/
  defined : List (Text × List (Element ε))
  /-- Lines that decoders have noted down, the latest first. -/
  notes : List Text

/-- Nothing is defined at the beginning. -/
def Scope.empty {ε : Type} : Scope ε := ⟨[], []⟩

/-- A step of decoding, which may define pipelines. -/
abbrev Decoding (ε α : Type) := ExceptT Error (StateM (Scope ε)) α

/-- An argument, with how it is decoded as an element. -/
structure Argument (ε : Type) where
  entry : Entry
  decode : Decoding ε (Element ε)

/-- The arguments of one element, and how far they have been read. -/
structure Cursor (ε : Type) where
  /-- The name of the element. -/
  element : Text
  /-- The number of arguments read. -/
  taken : Nat
  /-- The arguments not read yet. -/
  rest : List (Argument ε)
  scope : Scope ε

/-- A step of reading arguments. -/
abbrev Reader (ε α : Type) := ExceptT Error (StateM (Cursor ε)) α

namespace Cursor

variable {ε : Type}

/-- The number of arguments not read yet. -/
def remaining (c : Cursor ε) : Nat := c.rest.length

/-- The number of arguments. -/
def length (c : Cursor ε) : Nat := c.taken + c.remaining

/-- The error of the argument at a position. -/
def errorAt (c : Cursor ε) (index : Nat) (problem : ArgumentProblem) : Error :=
  .argument c.element index problem

/-- The error of the argument read last. -/
def rejection (c : Cursor ε) (problem : ArgumentProblem) : Error :=
  c.errorAt (max c.taken 1) problem

end Cursor

/-! ### Readings -/

namespace Reader

variable {ε α : Type}

/-- Refuses the argument read last. -/
def reject (problem : ArgumentProblem) : Reader ε α := do
  throw ((← get).rejection problem)

/-- Takes the next argument. -/
def next (kind : ArgumentKind) : Reader ε (Argument ε) := do
  let c ← get
  match c.rest with
  | a :: rest =>
    set { c with taken := c.taken + 1, rest := rest }
    return a
  | [] => throw (c.errorAt (c.taken + 1) (.missing kind))

/-- Takes the next argument, which must have no arguments of its own. -/
def scalar (kind : ArgumentKind) : Reader ε Text := do
  let a ← next kind
  if a.entry.isLeaf then return a.entry.value
  else reject (.notScalar kind a.entry.value)

/-- The argument as a string. -/
def string : Reader ε Text := scalar .string

/-- The argument as an integer. -/
def int : Reader ε Int64 := do
  let t ← scalar .integer
  match int64? t with
  | some n => return n
  | none => reject (.notInteger t)

/-- The argument as a number. -/
def float : Reader ε Float := do
  let t ← scalar .number
  match float? t with
  | some x => return x
  | none => reject (.notNumber t)

/-- The argument as a value. -/
def value : Reader ε Value := do
  match Value.parse (← scalar .value) with
  | .ok v => return v
  | .error e => reject (.badExpression e)

/-- The argument as a colour. -/
def colour : Reader ε Colour := do
  match Colour.ofHex (← scalar .colour) with
  | .ok c => return c
  | .error e => reject (.badColour e)

/-- The argument as a mode. -/
def mode : Reader ε Mode := do
  match Mode.ofText (← string) with
  | .ok m => return m
  | .error e => reject (.badMode e)

/-- A step of decoding as a step of reading. -/
def inScope (d : Decoding ε α) : Reader ε α := fun c =>
  let r := d c.scope
  (r.1, { c with scope := r.2 })

/-- The argument as an element. -/
def element : Reader ε (Element ε) := do
  inScope (← next .element).decode

/-- As many elements as there are arguments in the list. -/
def elementsFor : List (Argument ε) → Reader ε (List (Element ε))
  | [] => return []
  | _ :: rest => do
    let e ← element
    let es ← elementsFor rest
    return e :: es

/-- All the arguments that are left as elements. -/
def elements : Reader ε (List (Element ε)) := do
  elementsFor (← get).rest

/-- A default for a reading when nothing is left. -/
def withDefault (default : α) (r : Reader ε α) : Reader ε α := do
  if (← get).rest.isEmpty then return default else r

/-- The argument as a string, or a default. -/
def stringD (default : Text) : Reader ε Text := withDefault default string

/-- The argument as an integer, or a default. -/
def intD (default : Int64) : Reader ε Int64 := withDefault default int

/-- The argument as a number, or a default. -/
def floatD (default : Float) : Reader ε Float := withDefault default float

/-- The argument as a value, or a default. -/
def valueD (default : Value) : Reader ε Value := withDefault default value

/-- The argument as a colour, or a default. -/
def colourD (default : Colour) : Reader ε Colour := withDefault default colour

/-- The argument as an element, if there is one. -/
def element? : Reader ε (Option (Element ε)) := withDefault none (some <$> element)

/-- Nothing may be left. -/
def finish : Reader ε Unit := do
  let c ← get
  match c.rest with
  | [] => return ()
  | a :: _ => throw (c.errorAt (c.taken + 1) (.unexpected a.entry.value))

/-- Notes a line down. -/
def note (line : Text) : Reader ε Unit := do
  modify fun c => { c with scope := { c.scope with notes := line :: c.scope.notes } }

/-- Reads all the arguments of an element. -/
def runAll (element : Text) (arguments : List (Argument ε)) (r : Reader ε α) : Decoding ε α :=
  fun scope =>
    let out := (do let a ← r; finish; return a : Reader ε α) ⟨element, 0, arguments, scope⟩
    (out.1, out.2.scope)

theorem next_cons (kind : ArgumentKind) (c : Cursor ε) (a : Argument ε)
    (rest : List (Argument ε)) (h : c.rest = a :: rest) :
    (next kind : Reader ε (Argument ε)) c =
      (.ok a, { c with taken := c.taken + 1, rest := rest }) := by
  obtain ⟨element, taken, arguments, scope⟩ := c
  obtain rfl : arguments = a :: rest := h
  rfl

theorem next_nil (kind : ArgumentKind) (c : Cursor ε) (h : c.rest = []) :
    (next kind : Reader ε (Argument ε)) c =
      (.error (c.errorAt (c.taken + 1) (.missing kind)), c) := by
  obtain ⟨element, taken, arguments, scope⟩ := c
  obtain rfl : arguments = [] := h
  rfl

theorem withDefault_of_nil (default : α) (r : Reader ε α) (c : Cursor ε) (h : c.rest = []) :
    withDefault default r c = (.ok default, c) := by
  obtain ⟨element, taken, arguments, scope⟩ := c
  obtain rfl : arguments = [] := h
  rfl

theorem withDefault_of_ne_nil (default : α) (r : Reader ε α) (c : Cursor ε) (h : c.rest ≠ []) :
    withDefault default r c = r c := by
  obtain ⟨element, taken, arguments, scope⟩ := c
  cases arguments with
  | nil => exact absurd rfl h
  | cons => rfl

theorem finish_eq_ok_iff (c : Cursor ε) :
    (finish : Reader ε Unit) c = (.ok (), c) ↔ c.rest = [] := by
  obtain ⟨element, taken, arguments, scope⟩ := c
  cases arguments with
  | nil => exact ⟨fun _ => rfl, fun _ => rfl⟩
  | cons a rest =>
    constructor
    · intro h
      exact nomatch congrArg Prod.fst h
    · intro h
      exact nomatch h

end Reader

end PhotoPipeline
