/-
**Running a script once.**

One pipeline of a script runs in script mode, on an image from a file or on none.  The image that
comes out is written if there is a place for it.  If the run fails, the image it had reached is
written there instead.

Main definitions:

* `PhotoPipeline.Work.runScript` — runs a script once.
-/
import PhotoPipeline.Command.Desk

set_option relaxedAutoImplicit false
set_option autoImplicit false

namespace PhotoPipeline

namespace Work

/-- Reads the image of a path, if there is a path. -/
def readInput (path : Option Text) : Work (Option Image) := do
  match path with
  | some path => return some (← readImage path)
  | none => return none

/-- Writes the image that a failed run had reached, if there are an image and a place for it. -/
def writePartial (s : Settings) (image : Option Image) (output : Option Text) : Work Unit := do
  match image, output with
  | some image, some path =>
    writeImage path image
    say "Partial" ("image written to ".toList ++ s.display path)
  | _, _ => return ()

/-- A path and the size of the image there. -/
def writtenText (s : Settings) (path : Text) (image : Image) : Text :=
  s.display path ++ " (".toList ++ (sizeText image.width.toNat image.height.toNat).toList ++ [')']

/-- Writes the image that a run returned, if there are an image and a place for it. -/
def writeOutput (s : Settings) (image : Option Image) (output : Option Text) : Work Unit := do
  match image, output with
  | some image, some path =>
    writeImage path image
    sayTimed "Wrote" (writtenText s path image)
  | none, some _ => say "Skipped" "pipeline produced no image; nothing written".toList
  | _, none => sayTimed "Finished" []

/-- Runs a pipeline of a recipe in script mode; the files it writes stay. -/
def runRecipe (s : Settings) (r : Recipe Empty) (label : Option Text) (image : Option Image) :
    Work (Except Halted (Option Image)) := do
  let out := r.run label image ⟨s.context .script, s.catalogue.shared (← get).files⟩
  setFiles out.2.shared.files
  return out.1

/-- Runs a script once. -/
def runScript (s : Settings) (script : Text) (input output label : Option Text) : Work Unit := do
  let (_, recipe) ← readRecipe s script
  let image ← readInput input
  say "Running" (label.getD "main pipeline".toList ++ " from ".toList ++ s.display script)
  match ← runRecipe s recipe label image with
  | .ok image => writeOutput s image output
  | .error halted =>
    writePartial s halted.partialImage output
    throw halted.error

end Work

end PhotoPipeline
