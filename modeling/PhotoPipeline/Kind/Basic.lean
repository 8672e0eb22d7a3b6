/-
**Kinds of elements.**

A kind of element has a name, lines of help, and a way to make an element from its arguments.  A
catalogue lists kinds in the order in which they were added; no two have the same name.

Main definitions:

* `PhotoPipeline.ElementKind` — a kind of element;
* `PhotoPipeline.Catalogue` — the kinds that scripts may use, and what contexts start with;
* `PhotoPipeline.Catalogue.register`, `PhotoPipeline.Catalogue.registerAll`;
* `PhotoPipeline.Catalogue.context` — a fresh context.

Main results:

* `PhotoPipeline.Catalogue.find?_register_self` — what was added is found;
* `PhotoPipeline.Catalogue.find?_register_of_ne` — the other kinds stay what they are.
-/
import PhotoPipeline.Argument.Reader
import PhotoPipeline.Text.Literal

set_option relaxedAutoImplicit false
set_option autoImplicit false

namespace PhotoPipeline

/-- A line of help: how an element is written, and what it does. -/
structure HelpLine where
  usage : Text
  description : Text
  deriving DecidableEq, Repr

/-- A kind of element. -/
structure ElementKind (ε : Type) where
  name : Text
  help : List HelpLine
  /-- Makes an element from its arguments. -/
  read : Reader ε (Element ε)

/-- The kind as diagnostics show it. -/
def ElementKind.summary {ε : Type} (k : ElementKind ε) : Text :=
  "Decodable \x7b name: ".toList ++ literal k.name ++ " \x7d".toList

/-- The kinds that scripts may use, and what contexts start with. -/
structure Catalogue (ε : Type) where
  /-- The kinds in the order in which they were added. -/
  kinds : List (ElementKind ε)
  /-- What fills the resources of a new context, in turn. -/
  hooks : List (Extensions → Extensions)
  /-- The image stores that hooks hand out, by number. -/
  stores : List ImageStore

namespace Catalogue

variable {ε : Type}

/-- The catalogue without kinds. -/
def empty : Catalogue ε := ⟨[], [], []⟩

/-- The kind of a name. -/
def find? (c : Catalogue ε) (name : Text) : Option (ElementKind ε) :=
  c.kinds.find? fun k => k.name == name

/-- Whether a name is in use. -/
def contains (c : Catalogue ε) (name : Text) : Bool := (c.find? name).isSome

/-- The names in the order in which they were added. -/
def names (c : Catalogue ε) : List Text := c.kinds.map ElementKind.name

/-- The number of kinds. -/
def size (c : Catalogue ε) : Nat := c.kinds.length

/-- Adds a kind under a name that is not in use yet. -/
def register (c : Catalogue ε) (k : ElementKind ε) : Except Error (Catalogue ε) :=
  if c.contains k.name then .error (.duplicateElement k.name)
  else .ok { c with kinds := c.kinds ++ [k] }

/-- Adds kinds up to the first one whose name is in use. -/
def registerAll (c : Catalogue ε) : List (ElementKind ε) → Except Error Unit × Catalogue ε
  | [] => (.ok (), c)
  | k :: ks =>
    match c.register k with
    | .ok c => c.registerAll ks
    | .error e => (.error e, c)

/-- Adds a hook. -/
def addHook (c : Catalogue ε) (hook : Extensions → Extensions) : Catalogue ε :=
  { c with hooks := c.hooks ++ [hook] }

/-- Adds one image store for every context to come. -/
def installCache (c : Catalogue ε) (budget : UInt64) : Catalogue ε :=
  let number := c.stores.length
  { c with
    hooks := c.hooks ++ [fun x => x.insert .store storeKey number]
    stores := c.stores ++ [.empty budget] }

/-- A fresh context. -/
def context (c : Catalogue ε) (mode : Mode) : Context := .new mode c.hooks

/-- What the contexts share at the beginning. -/
def shared (c : Catalogue ε) (files : FileTree) : Shared := ⟨c.stores, files⟩

/-- The catalogue as diagnostics show it. -/
def summary (c : Catalogue ε) : Text :=
  "Registry \x7b elements: ".toList ++ literalList c.names ++ ", hooks: ".toList ++
    decimal c.hooks.length ++ " \x7d".toList

theorem register_eq_ok_iff {c : Catalogue ε} {k : ElementKind ε} {d : Catalogue ε} :
    c.register k = .ok d ↔ c.contains k.name = false ∧ { c with kinds := c.kinds ++ [k] } = d := by
  rw [register]
  cases c.contains k.name <;> simp

theorem find?_register_self {c d : Catalogue ε} {k : ElementKind ε} (h : c.register k = .ok d) :
    d.find? k.name = some k := by
  obtain ⟨hc, rfl⟩ := register_eq_ok_iff.1 h
  have hn : c.kinds.find? (fun j => j.name == k.name) = none := by
    simpa [contains, find?] using hc
  simp [find?, List.find?_append, hn]

theorem find?_register_of_ne {c d : Catalogue ε} {k : ElementKind ε} (h : c.register k = .ok d)
    {name : Text} (hne : k.name ≠ name) : d.find? name = c.find? name := by
  obtain ⟨-, rfl⟩ := register_eq_ok_iff.1 h
  simp [find?, List.find?_append, hne]

end Catalogue

end PhotoPipeline
