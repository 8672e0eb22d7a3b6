/-
**From scripts to recipes.**

The entries of a script are decoded in their order.  A definition makes a pipeline known from the
end of its arguments on; a reference stands for a pipeline that is known already.  So there are
no references ahead, and no pipeline runs itself.  Any other entry is an element of a kind in the
catalogue, which reads its own arguments.

Main definitions:

* `PhotoPipeline.decodeEntry` — an entry as an element;
* `PhotoPipeline.gatherEntries` — entries as pipelines;
* `PhotoPipeline.Recipe.ofEntries` — the recipe of the entries of a script;
* `PhotoPipeline.Recipe.ofText` — the recipe of a script.

Main results:

* `PhotoPipeline.argumentsOf_eq_map` — arguments are decoded one by one.
-/
import PhotoPipeline.Kind.Basic
import PhotoPipeline.Recipe.Basic
import PhotoPipeline.Script.Scanner

set_option relaxedAutoImplicit false
set_option autoImplicit false

namespace PhotoPipeline

variable {ε : Type}

namespace Scope

/-- The elements of the pipeline of a name. -/
def find? (s : Scope ε) (name : Text) : Option (List (Element ε)) := s.defined.lookup name

/-- Makes a pipeline known. -/
def define (s : Scope ε) (name : Text) (elements : List (Element ε)) : Scope ε :=
  { s with defined := (name, elements) :: s.defined }

@[simp] theorem find?_define_self (s : Scope ε) (name : Text) (es : List (Element ε)) :
    (s.define name es).find? name = some es := by
  simp [find?, define]

end Scope

/-! ### Entries -/

/-- What a reference stands for. -/
def resolve (name : Text) : Decoding ε (Element ε) := do
  match (← get).find? name with
  | some elements => return .group (.reference name) elements
  | none => throw (.undefinedPipeline name)

/-- Decodes the elements of a definition, whose name must not be known yet when its arguments have been
read. -/
def defineElements (name : Text) (arguments : List (Argument ε)) :
    Decoding ε (List (Element ε)) := do
  let elements ← Reader.runAll name arguments Reader.elements
  if ((← get).find? name).isSome then throw (.duplicatePipeline name)
  modify fun s => s.define name elements
  return elements

/-- Decodes a definition. -/
def define (name : Text) (arguments : List (Argument ε)) : Decoding ε (Element ε) := do
  return .group (.definition name) (← defineElements name arguments)

/-- Decodes an element of a kind in the catalogue. -/
def construct (c : Catalogue ε) (name : Text) (arguments : List (Argument ε)) :
    Decoding ε (Element ε) :=
  match c.find? name with
  | some kind => Reader.runAll kind.name arguments kind.read
  | none => throw (.unknownElement name)

/-- Decodes an entry, given its arguments. -/
def decodeHead (c : Catalogue ε) (head : Text) (arguments : List (Argument ε)) :
    Decoding ε (Element ε) :=
  if Entry.isName head then
    if arguments.isEmpty then resolve head else define head arguments
  else construct c head arguments

mutual

/-- Decodes an entry. -/
def decodeEntry (c : Catalogue ε) : Entry → Decoding ε (Element ε)
  | ⟨head, children, _⟩ => decodeHead c head (argumentsOf c children)

/-- Entries as arguments. -/
def argumentsOf (c : Catalogue ε) : List Entry → List (Argument ε)
  | [] => []
  | e :: es => ⟨e, decodeEntry c e⟩ :: argumentsOf c es

end

theorem argumentsOf_eq_map (c : Catalogue ε) (es : List Entry) :
    argumentsOf c es = es.map fun e => ⟨e, decodeEntry c e⟩ := by
  induction es with
  | nil => rfl
  | cons e es ih => rw [argumentsOf, ih, List.map_cons]

/-! ### Scripts -/

/-- Decodes entries in turn and gathers them: a definition ends what is pending, any other entry adds to
it. -/
def gatherEntries (c : Catalogue ε) (g : Gathering ε) : List Entry → Decoding ε (Gathering ε)
  | [] => return g.flush
  | entry :: entries =>
    if entry.isDefinition then do
      let elements ← defineElements entry.value (argumentsOf c entry.children)
      gatherEntries c (g.flush.pushDefinition entry.value elements) entries
    else do
      let e ← decodeEntry c entry
      gatherEntries c (g.push e) entries

namespace Recipe

/-- The recipe of the entries of a script, and what decoding them has found out. -/
def decode (c : Catalogue ε) (entries : List Entry) : Except Error (Recipe ε) × Scope ε :=
  let out := gatherEntries c .empty entries .empty
  (out.1.map fun g => ⟨g.pipelines⟩, out.2)

/-- The recipe of the entries of a script. -/
def ofEntries (c : Catalogue ε) (entries : List Entry) : Except Error (Recipe ε) :=
  (decode c entries).1

/-- The recipe of a script, in which variables stand for texts. -/
def ofText (c : Catalogue ε) (source : Text) (vars : Vars) : Except Error (Recipe ε) :=
  match parse source vars with
  | .ok entries => ofEntries c entries
  | .error e => .error (.script e)

end Recipe

end PhotoPipeline
