/-
**Converting images.**

One pipeline of a script runs in convert mode on every image under a directory, one image after
another.  Each image has a fresh context; the image stores and the files outlast it.  An image
that fails does not keep the others from being converted.

Main definitions:

* `PhotoPipeline.Conversion` — what is done to every image;
* `PhotoPipeline.Conversion.one`, `PhotoPipeline.Conversion.all` — converts an image, or images;
* `PhotoPipeline.imagesBelow` — the images under a directory;
* `PhotoPipeline.Work.convert` — converts the images under a directory.
-/
import PhotoPipeline.Command.Desk

set_option relaxedAutoImplicit false
set_option autoImplicit false

namespace PhotoPipeline

/-- What is done to every image, and where it goes. -/
structure Conversion where
  settings : Settings
  recipe : Recipe Empty
  label : Option Text
  /-- The directory that the images are under. -/
  source : Text
  /-- The directory that the results go to. -/
  output : Text

/-- What converting images has led to. -/
structure Batch where
  shared : Shared
  status : List StatusLine
  /-- The number of images that failed. -/
  failed : Nat
  deriving DecidableEq

namespace Conversion

/-- Where the result of an image goes. -/
def target (c : Conversion) (input : Text) : Text :=
  Path.join c.output ((Path.stripBase? c.source input).getD input)

/-- Runs the pipeline on an image. -/
def develop (c : Conversion) (image : Image) (shared : Shared) : RunOutcome :=
  c.recipe.run c.label (some image) ⟨c.settings.context .convert, shared⟩

/-- Writes the result of a run; tells whether there is one. -/
def writeResult (c : Conversion) (input : Text) (r : RunOutcome) : Except Error Bool × Shared :=
  let shared := r.2.shared
  match r.1 with
  | .error halted => (.error halted.error, shared)
  | .ok none => (.ok false, shared)
  | .ok (some image) =>
    let out := shared.files.writeImage (c.target input) image
    (out.1.map fun _ => true, { shared with files := out.2 })

/-- Converts an image; tells whether there is a result. -/
def one (c : Conversion) (shared : Shared) (input : Text) : Except Error Bool × Shared :=
  match shared.files.readImage? input with
  | none => (.error (.file input .readImage), shared)
  | some image => c.writeResult input (c.develop image shared)

/-- What is said about an image. -/
def line (c : Conversion) (input : Text) : Except Error Bool → StatusLine
  | .ok true => ⟨"Converted".toList, c.settings.display (c.target input), false⟩
  | .ok false =>
    ⟨"Skipped".toList, c.settings.display input ++ " (no image produced)".toList, false⟩
  | .error e =>
    ⟨"Failed".toList, c.settings.display input ++ ':' :: ' ' :: e.message.toList, false⟩

/-- Converts one image more. -/
def step (c : Conversion) (b : Batch) (input : Text) : Batch :=
  let out := c.one b.shared input
  { shared := out.2
    status := b.status ++ [c.line input out.1]
    failed := if out.1.isOk then b.failed else b.failed + 1 }

/-- Converts images in turn. -/
def all (c : Conversion) (b : Batch) (inputs : List Text) : Batch := inputs.foldl c.step b

end Conversion

/-- The images under a directory, sorted. -/
def imagesBelow (config : Config) (files : FileTree) (directory : Text) :
    Except Error (List Text) :=
  match files.filesBelow directory with
  | .ok paths => .ok (paths.filter config.isImage)
  | .error fault => .error (.file directory (.listDirectory directory fault))

namespace Work

/-- Converts the images under a directory. -/
def convert (s : Settings) (script directory : Text) (output label : Option Text) :
    Work Unit := do
  let (_, recipe) ← readRecipe s script
  let output := output.getD s.config.output
  let inputs ← ofExcept (imagesBelow s.config (← get).files directory)
  say "Converting" (countedImages inputs.length ++ " from ".toList ++ s.display directory)
  let c : Conversion := ⟨s, recipe, label, directory, output⟩
  let batch := c.all ⟨s.catalogue.shared (← get).files, (← get).status, 0⟩ inputs
  modify fun d => { d with files := batch.shared.files, status := batch.status }
  if batch.failed ≠ 0 then
    throw (.step "convert".toList (.imagesFailed (countedImages batch.failed)))
  sayTimed "Finished" (countedImages inputs.length ++ " to ".toList ++ s.display output)

end Work

end PhotoPipeline
