/-
**Configuration.**

A project may have a configuration: a YAML mapping in which every entry has a default.  Entries
that are not known are ignored; one that is known may occur once.  Texts may be written as any
scalar, and what is left empty is the empty text, list or mapping.

Main definitions:

* `PhotoPipeline.Config` — a configuration;
* `PhotoPipeline.Config.ofText?` — the configuration of a text;
* `PhotoPipeline.Config.mergedVars` — its variables, overridden;
* `PhotoPipeline.Config.isImage` — whether a path has the extension of an image.
-/
import PhotoPipeline.Cache.Store
import PhotoPipeline.Files.Path
import PhotoPipeline.Script.Scanner
import PhotoPipeline.Yaml.Node

set_option relaxedAutoImplicit false
set_option autoImplicit false

namespace PhotoPipeline

/-- A configuration. -/
structure Config where
  /-- The budget of the image store, in bytes. -/
  cacheBudget : UInt64
  verbose : Bool
  vars : Vars
  /-- Where converted images go. -/
  output : Text
  /-- The extensions of images. -/
  extensions : List Text
  deriving DecidableEq

namespace Config

/-- The configuration without entries. -/
def default : Config where
  cacheBudget := defaultBudget
  verbose := false
  vars := []
  output := "dist".toList
  extensions := ["png".toList, "jpg".toList, "jpeg".toList]

/-! ### Scalars -/

open Yaml (Document Node Tag)

/-- A scalar as a text. -/
def text? (d : Document) (n : Node) : Option Text :=
  match d.look n with
  | .scalar _ _ t => some t
  | _ => none

/-- The text of a scalar that may stand for something other than a text: of a plain one, or of a
block that keeps its line breaks and has a tag that says so. -/
def valueText? (d : Document) (tag : Tag) (n : Node) : Option Text :=
  match d.look n with
  | .scalar .plain _ t => some t
  | .scalar .literal given t => if given = tag then some t else none
  | _ => none

/-- A scalar as a truth value. -/
def bool? (d : Document) (n : Node) : Option Bool :=
  (valueText? d (Tag.usual "bool") n).bind fun t =>
    if ["true", "True", "TRUE"].contains (shown t) then some true
    else if ["false", "False", "FALSE"].contains (shown t) then some false
    else none

/-- The value of a digit in a base. -/
def digit? (base : Nat) (c : Char) : Option Nat :=
  (hexValue? c).bind fun d => if d.toNat < base then some d.toNat else none

/-- The number of digits in a base. -/
def digits? (base : Nat) (t : Text) : Option Nat :=
  if t.isEmpty then none
  else t.foldl (fun acc c => acc.bind fun n => (digit? base c).map fun d => base * n + d) (some 0)

/-- The number of digits in a base, if it fits 64 bits. -/
def word? (base : Nat) (t : Text) : Option UInt64 :=
  (digits? base t).bind fun n => if n < UInt64.size then some (UInt64.ofNat n) else none

/-- The number of a text: in base ten without a leading zero, or with a mark for another base. -/
def unsigned? (t : Text) : Option UInt64 :=
  match t with
  | '0' :: 'x' :: t => word? 16 t
  | '0' :: 'o' :: t => word? 8 t
  | '0' :: 'b' :: t => word? 2 t
  | '0' :: _ :: _ => none
  | t => word? 10 t

/-- The text without a plus sign. -/
def dropPlus : Text → Text
  | '+' :: t => t
  | t => t

/-- A scalar as a number of bytes. -/
def bytes? (d : Document) (n : Node) : Option UInt64 :=
  (valueText? d (Tag.usual "int") n).bind fun t => unsigned? (dropPlus t)

/-! ### Collections -/

/-- A sequence of texts. -/
def texts? (d : Document) (n : Node) : Option (List Text) :=
  match d.look n with
  | .sequence items => items.mapM (text? d)
  | n => if n.isEmpty then some [] else none

/-- Sets a variable, in place of the one of the same name. -/
def setVar (vars : Vars) (name value : Text) : Vars :=
  vars.filter (fun v => !(v.1 == name)) ++ [(name, value)]

/-- Adds the entry of a mapping to the variables. -/
def addEntry (d : Document) (vars : Vars) (e : Node × Node) : Option Vars :=
  match text? d e.1, text? d e.2 with
  | some name, some value => some (setVar vars name value)
  | _, _ => none

/-- A mapping from texts to texts; of two entries of one name the last counts. -/
def vars? (d : Document) (n : Node) : Option Vars :=
  match d.look n with
  | .mapping entries => entries.foldlM (addEntry d) []
  | n => if n.isEmpty then some [] else none

/-! ### Entries -/

/-- Reads an entry of the given name into a configuration. -/
def readEntry (d : Document) (c : Config) (name : Text) (n : Node) : Option Config :=
  match shown name with
  | "cache_budget" => (bytes? d n).map fun b => { c with cacheBudget := b }
  | "verbose" => (bool? d n).map fun b => { c with verbose := b }
  | "vars" => (vars? d n).map fun v => { c with vars := v }
  | "output" => (text? d n).map fun t => { c with output := t }
  | "extensions" => (texts? d n).map fun l => { c with extensions := l }
  | _ => some c

/-- The names of entries. -/
def entryNames : List Text :=
  ["cache_budget", "verbose", "vars", "output", "extensions"].map String.toList

/-- Reads entries in turn; the names of the known ones before them are given. -/
def readEntries (d : Document) (c : Config) (seen : List Text) :
    List (Node × Node) → Option Config
  | [] => some c
  | (key, n) :: rest =>
    match text? d key with
    | none => none
    | some name =>
      if seen.contains name && entryNames.contains name then none
      else
        match readEntry d c name n with
        | none => none
        | some c => readEntries d c (name :: seen) rest

/-- The configuration of a YAML document. -/
def ofDocument? (d : Document) : Option Config :=
  match d.root with
  | .mapping entries => readEntries d default [] entries
  | n => if n.isEmpty then some default else none

/-- The configuration of a text. -/
def ofText? (t : Text) : Option Config :=
  if t.all isBlank then some default else (Document.ofText? t).bind ofDocument?

/-! ### What it is for -/

/-- The variables, with others set on top. -/
def mergedVars (c : Config) (overrides : Vars) : Vars :=
  overrides.foldl (fun vars v => setVar vars v.1 v.2) c.vars

/-- Whether a path has the extension of an image, in either case. -/
def isImage (c : Config) (path : Text) : Bool :=
  match Path.extension? path with
  | some e => c.extensions.any fun allowed => allowed.map Char.toLower == e.map Char.toLower
  | none => false

end Config

end PhotoPipeline
