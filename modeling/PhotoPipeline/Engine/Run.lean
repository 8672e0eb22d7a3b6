/-
**Running elements.**

A list of elements is run from the first to the last, each receiving the image that the one
before it returned.  Before each element the request to stop is checked.  The first error ends
the run; the image as it was before the failing element is reported with the error.

A group that keeps its result looks it up in the image store of the context, and runs its elements
only if the result is not there.  Without a store the elements simply run.

Main definitions:

* `PhotoPipeline.Halted` — an error and the image it left;
* `PhotoPipeline.Element.apply` — an element applied to an image;
* `PhotoPipeline.Element.run` — elements applied in turn;
* `PhotoPipeline.runPipeline` — a pipeline under its name.

Main results:

* `PhotoPipeline.Element.run_nil`, `PhotoPipeline.Element.run_cons` — how lists run;
* `PhotoPipeline.Element.run_of_cancelled` — a stopped run leaves everything as it was.
-/
import PhotoPipeline.Cache.Fingerprint
import PhotoPipeline.Engine.Context

set_option relaxedAutoImplicit false
set_option autoImplicit false

namespace PhotoPipeline

/-- A run that stopped early: the error, and the image before the failing step. -/
structure Halted where
  error : Error
  partialImage : Option Image
  deriving DecidableEq

/-- The result of an element, and the state it leaves. -/
abbrev Outcome := Except Error (Option Image) × RunState

/-- The result of a list of elements, and the state it leaves. -/
abbrev RunOutcome := Except Halted (Option Image) × RunState

/-- Forgets the image that a failed run leaves. -/
def RunOutcome.settle (r : RunOutcome) : Outcome :=
  match r with
  | (.ok image, s) => (.ok image, s)
  | (.error halted, s) => (.error halted.error, s)

/-- Runs under an announced name, if there is one. -/
def announcing (name : Option Text) (run : RunState → RunOutcome) (s : RunState) : RunOutcome :=
  match name with
  | none => run s
  | some name =>
    let r := run (s.mapContext fun c => c.enter name)
    (r.1, r.2.mapContext Context.leave)

/-- Looks a result up in the image store of the context. -/
def lookUp (number : Nat) (key : Digest) (s : RunState) : Option Image × RunState :=
  match s.shared.stores[number]? with
  | none => (none, s)
  | some store =>
    let found := store.get key
    (found.1, s.setStore number found.2)

/-- Keeps a result in the image store of the context. -/
def keep (number : Nat) (key : Digest) (image : Image) (s : RunState) : RunState :=
  match s.shared.stores[number]? with
  | none => s
  | some store => s.setStore number (store.set key image)

/-- Keeps the image that a run returns. -/
def keepResult (number : Nat) (key : Digest) (r : Outcome) : Outcome :=
  match r with
  | (.ok (some image), s) => (.ok (some image), keep number key image s)
  | r => r

/-- Runs unless the result is stored under the key. -/
def remembering (key : Unit → Digest) (run : RunState → RunOutcome) (s : RunState) : Outcome :=
  match s.storeNumber? with
  | none => (run s).settle
  | some number =>
    let key := key ()
    match lookUp number key s with
    | (some image, s) => (.ok (some image), s)
    | (none, s) => keepResult number key (run s).settle

namespace Element

variable {ε : Type} [Plugin ε]

mutual

/-- Applies an element to the image at hand. -/
def apply : Element ε → Option Image → RunState → Outcome
  | step op, image, s => op.apply image s
  | plugin x _, image, s => Plugin.apply x image s
  | group .cache es, image, s => remembering (fun _ => cacheKey es image) (run es image) s
  | group .once es, image, s => remembering (fun _ => onceKey es) (run es image) s
  | group (.only mode) es, image, s =>
    if s.context.mode = mode then (run es image s).settle else (.ok image, s)
  | group kind es, image, s => (announcing kind.announced? (run es image) s).settle

/-- Applies elements in turn. -/
def run : List (Element ε) → Option Image → RunState → RunOutcome
  | [], image, s => (.ok image, s)
  | e :: es, image, s =>
    if s.context.cancelled then (.error ⟨.cancelled, image⟩, s)
    else
      match apply e image s with
      | (.ok next, s) => run es next s
      | (.error error, s) => (.error ⟨error, image⟩, s)

end

@[simp] theorem run_nil (image : Option Image) (s : RunState) :
    run ([] : List (Element ε)) image s = (.ok image, s) := by
  rw [run]

theorem run_cons (e : Element ε) (es : List (Element ε)) (image : Option Image) (s : RunState) :
    run (e :: es) image s =
      if s.context.cancelled then (.error ⟨.cancelled, image⟩, s)
      else
        match apply e image s with
        | (.ok next, s) => run es next s
        | (.error error, s) => (.error ⟨error, image⟩, s) := by
  rw [run]

/-- A run that has been asked to stop starts nothing and changes nothing. -/
theorem run_of_cancelled {s : RunState} (h : s.context.cancelled = true) (e : Element ε)
    (es : List (Element ε)) (image : Option Image) :
    run (e :: es) image s = (.error ⟨.cancelled, image⟩, s) := by
  rw [run, if_pos h]

end Element

variable {ε : Type} [Plugin ε]

/-- Runs the elements of a pipeline, under its name if it has one. -/
def runPipeline (name : Option Text) (es : List (Element ε)) (image : Option Image)
    (s : RunState) : RunOutcome :=
  announcing name (Element.run es image) s

end PhotoPipeline
