/-
**Recipes.**

A recipe is what a script comes to: the pipelines at its top level.  A definition is a pipeline of
its own; the elements between two definitions make up one pipeline without a name, and those
pipelines are counted from one.

Main definitions:

* `PhotoPipeline.Pipeline` — a pipeline at the top level;
* `PhotoPipeline.Gathering` — the pipelines so far, while the top level is gone through;
* `PhotoPipeline.Recipe` — pipelines in the order of the script;
* `PhotoPipeline.Recipe.main?` — the pipeline that runs when none is named;
* `PhotoPipeline.Recipe.text` — the canonical script;
* `PhotoPipeline.Recipe.run` — runs a pipeline.
-/
import PhotoPipeline.Engine.Run

set_option relaxedAutoImplicit false
set_option autoImplicit false

namespace PhotoPipeline

variable {ε : Type}

/-! ### Pipelines -/

/-- A pipeline at the top level of a script. -/
inductive Pipeline (ε : Type) where
  | definition (name : Text) (elements : List (Element ε))
  | anonymous (number : Nat) (elements : List (Element ε))

namespace Pipeline

/-- The name a pipeline is looked up by. -/
def label : Pipeline ε → Text
  | definition name _ => name
  | anonymous number _ => '#' :: decimal number

/-- The name a pipeline was defined under. -/
def name? : Pipeline ε → Option Text
  | definition name _ => some name
  | anonymous .. => none

/-- Whether a pipeline has no name of its own. -/
def isAnonymous (p : Pipeline ε) : Bool := p.name?.isNone

/-- The elements of a pipeline. -/
def elements : Pipeline ε → List (Element ε)
  | definition _ elements => elements
  | anonymous _ elements => elements

/-- A pipeline as an element. -/
def toElement : Pipeline ε → Element ε
  | definition name elements => .group (.definition name) elements
  | anonymous _ elements => .group .anonymous elements

end Pipeline

/-! ### Gathering -/

/-- What is there while the elements at the top level come in one by one. -/
structure Gathering (ε : Type) where
  /-- The pipelines so far. -/
  pipelines : List (Pipeline ε)
  /-- How many of them have no name. -/
  unnamed : Nat
  /-- The elements since the last definition, which are in no pipeline yet. -/
  pending : List (Element ε)

namespace Gathering

/-- Nothing has come in at the beginning. -/
def empty : Gathering ε := ⟨[], 0, []⟩

/-- A definition becomes a pipeline of its own. -/
def pushDefinition (g : Gathering ε) (name : Text) (elements : List (Element ε)) : Gathering ε :=
  { g with pipelines := g.pipelines ++ [.definition name elements] }

/-- Elements become a pipeline without a name, and it is counted. -/
def pushAnonymous (g : Gathering ε) (elements : List (Element ε)) : Gathering ε :=
  { g with
    pipelines := g.pipelines ++ [.anonymous (g.unnamed + 1) elements]
    unnamed := g.unnamed + 1 }

/-- Makes a pipeline of the pending elements, if there are any. -/
def flush (g : Gathering ε) : Gathering ε :=
  if g.pending.isEmpty then g else { g.pushAnonymous g.pending with pending := [] }

/-- Another element is pending. -/
def push (g : Gathering ε) (e : Element ε) : Gathering ε :=
  { g with pending := g.pending ++ [e] }

end Gathering

/-! ### Recipes -/

/-- The pipelines of a script. -/
structure Recipe (ε : Type) where
  pipelines : List (Pipeline ε)

namespace Recipe

/-- The names that pipelines are looked up by. -/
def labels (r : Recipe ε) : List Text := r.pipelines.map Pipeline.label

/-- The pipeline of a name. -/
def find? (r : Recipe ε) (label : Text) : Option (Pipeline ε) :=
  r.pipelines.find? fun p => p.label == label

/-- The pipeline that runs when none is named: the first one without a name, or else the last. -/
def main? (r : Recipe ε) : Option (Pipeline ε) :=
  (r.pipelines.find? Pipeline.isAnonymous).or r.pipelines.getLast?

variable [Plugin ε]

/-- The texts of the elements that a pipeline is written as. -/
def pipelineLines : Pipeline ε → List Text
  | .definition name elements => [(Element.group (.definition name) elements).text]
  | .anonymous _ elements => elements.map Element.text

/-- The canonical script of a recipe. -/
def text (r : Recipe ε) : Text :=
  (r.pipelines.flatMap pipelineLines).flatMap fun line => line ++ ['\n']

/-- Runs a pipeline; without a name the main one, and if there is none the image stays. -/
def run (r : Recipe ε) (label : Option Text) (image : Option Image) (s : RunState) :
    RunOutcome :=
  match label with
  | some label =>
    match r.find? label with
    | some p => runPipeline p.name? p.elements image s
    | none => (.error ⟨.undefinedPipeline label, none⟩, s)
  | none =>
    match r.main? with
    | some p => runPipeline p.name? p.elements image s
    | none => (.ok image, s)

end Recipe

end PhotoPipeline
