/-
**Errors.**

Everything that can go wrong between the text of a script and the image at the end, one
constructor for each cause.  The wording of an error, the code it is filed under and the advice
that goes with it are functions of the cause.

Main definitions:

* `PhotoPipeline.Error` — the causes;
* `PhotoPipeline.Error.message`, `PhotoPipeline.Error.code`, `PhotoPipeline.Error.help?`.
-/
import PhotoPipeline.Colour.Basic
import PhotoPipeline.Expr.Token
import PhotoPipeline.Mode
import PhotoPipeline.Script.Error

set_option relaxedAutoImplicit false
set_option autoImplicit false

namespace PhotoPipeline

/-! ### Files -/

/-- Why the file system refuses. -/
inductive FileFault where
  | notFound
  | exists
  | isDirectory
  | notDirectory
  | nameTooLong
  /-- The path has the character zero in it. -/
  | zeroInPath
  | notText
  deriving DecidableEq, Repr

/-- The wording of a refusal. -/
def FileFault.message : FileFault → String
  | notFound => "No such file or directory (os error 2)"
  | .exists => "File exists (os error 17)"
  | isDirectory => "Is a directory (os error 21)"
  | notDirectory => "Not a directory (os error 20)"
  | nameTooLong => "File name too long (os error 36)"
  | zeroInPath => "file name contained an unexpected NUL byte"
  | notText => "stream did not contain valid UTF-8"

/-- What could not be done with a file. -/
inductive FileProblem where
  | readImage
  | writeImage
  | createDirectory (fault : FileFault)
  | readScript (fault : FileFault)
  | writeScript (fault : FileFault)
  | readConfig (fault : FileFault)
  | listDirectory (path : Text) (fault : FileFault)
  deriving DecidableEq, Repr

/-- The wording of a problem with a file. -/
def FileProblem.message : FileProblem → String
  | readImage => "Failed to read image:"
  | writeImage => "Failed to write image:"
  | createDirectory fault => "Failed to create directory: " ++ fault.message
  | readScript fault => "Failed to read script: " ++ fault.message
  | writeScript fault => "Failed to write script: " ++ fault.message
  | readConfig fault => "Failed to read config: " ++ fault.message
  | listDirectory path fault => "IO error for operation on " ++ shown path ++ ": " ++ fault.message

/-! ### Arguments -/

/-- What an element may ask for as an argument. -/
inductive ArgumentKind where
  | string
  | integer
  | number
  | value
  | colour
  | element
  deriving DecidableEq, Repr

/-- The word for a kind of argument. -/
def ArgumentKind.word : ArgumentKind → String
  | string => "string"
  | integer => "integer"
  | number => "number"
  | value => "value"
  | colour => "colour"
  | element => "element"

/-- What is wrong with an argument. -/
inductive ArgumentProblem where
  | missing (kind : ArgumentKind)
  | notScalar (kind : ArgumentKind) (head : Text)
  | notInteger (found : Text)
  | notNumber (found : Text)
  | badExpression (e : ExprError)
  | badColour (e : ColourError)
  | badMode (e : ModeError)
  | unexpected (head : Text)
  | rejected (message : Text)
  deriving DecidableEq, Repr

/-- The wording of a problem with an argument. -/
def ArgumentProblem.message : ArgumentProblem → String
  | missing kind => "missing required " ++ kind.word
  | notScalar kind head =>
    "expected a " ++ kind.word ++ ", found element '" ++ shown head ++ "(...)'"
  | notInteger found => "expected an integer, found '" ++ shown found ++ "'"
  | notNumber found => "expected a number, found '" ++ shown found ++ "'"
  | badExpression e => e.message
  | badColour e => e.message
  | badMode e => e.message
  | unexpected head => "unexpected argument '" ++ shown head ++ "'"
  | rejected message => shown message

/-! ### Steps -/

/-- Things that are lost when a script is replaced by its canonical form. -/
inductive FormattingLoss where
  | comments
  | references
  deriving DecidableEq, Repr

/-- The words for what is lost. -/
def FormattingLoss.message : FormattingLoss → String
  | comments => "comments"
  | references => "$\x7bvar\x7d references"

/-- Why an element, or a command, could not do its work. -/
inductive StepProblem where
  | notNumber (text : Text)
  | notWhole (source : Text)
  | notPixelCount (source : Text)
  | evaluation (source : Text) (e : EvalError)
  | emptySize (width height : Nat)
  | largeSize (width height limit : Nat)
  | emptyCut (x y width height : Nat)
  | negativeDeviation
  | deviationOutOfRange (source : Text)
  | nothingStashed (slot : Text)
  | imagesFailed (count : Text)
  | formattingLoses (path : Text) (loss : FormattingLoss)
  | failed (message : Text)
  deriving DecidableEq, Repr

/-- A size as messages show it. -/
def sizeText (width height : Nat) : String :=
  shown (decimal width) ++ "x" ++ shown (decimal height)

/-- The wording of a problem with a step. -/
def StepProblem.message : StepProblem → String
  | notNumber text => "'" ++ shown text ++ "' is not a number"
  | notWhole source => "'" ++ shown source ++ "' is not a whole number"
  | notPixelCount source => "'" ++ shown source ++ "' is not a valid pixel count"
  | evaluation source e => shown source ++ ": " ++ e.message
  | emptySize width height => sizeText width height ++ " is an empty image"
  | largeSize width height limit =>
    sizeText width height ++ " is larger than the " ++ shown (decimal limit) ++
      " byte image limit"
  | emptyCut x y width height =>
    "crop at " ++ shown (decimal x) ++ "," ++ shown (decimal y) ++ " leaves nothing of a " ++
      sizeText width height ++ " image"
  | negativeDeviation => "sigma must not be negative"
  | deviationOutOfRange source => "sigma '" ++ shown source ++ "' is out of range"
  | nothingStashed slot => "nothing stashed in '" ++ shown slot ++ "'"
  | imagesFailed count => shown count ++ " failed"
  | formattingLoses path loss =>
    "refusing to rewrite " ++ shown path ++ ": it has " ++ loss.message ++
      " the canonical form drops; run without --write"
  | failed message => shown message

/-! ### Errors -/

/-- The cause of a failure. -/
inductive Error where
  /-- A script's bytes are not text. -/
  | notText
  /-- A file could not be used. -/
  | file (path : Text) (problem : FileProblem)
  /-- A script is not well formed. -/
  | script (e : ScriptError)
  | unknownElement (name : Text)
  | duplicatePipeline (name : Text)
  | undefinedPipeline (name : Text)
  /-- An argument is wrong; arguments are counted from one. -/
  | argument (element : Text) (index : Nat) (problem : ArgumentProblem)
  | duplicateElement (name : Text)
  | needsImage (element : Text)
  | cancelled
  /-- An element failed. -/
  | step (element : Text) (problem : StepProblem)
  /-- The configuration cannot be read. -/
  | config
  deriving DecidableEq, Repr

namespace Error

/-- The wording of an error. -/
def message : Error → String
  | notText => "IO error: " ++ FileFault.notText.message
  | file path problem => "IO error with " ++ shown path ++ ": " ++ problem.message
  | script e => e.message
  | unknownElement name => "'" ++ shown name ++ "' is not a defined element"
  | duplicatePipeline name => "duplicate entry for named pipeline '" ++ shown name ++ "'"
  | undefinedPipeline name =>
    "could not find definition for named pipeline '" ++ shown name ++ "'"
  | argument element index problem =>
    shown element ++ ": argument " ++ shown (decimal index) ++ ": " ++ problem.message
  | duplicateElement name => "element '" ++ shown name ++ "' is registered twice"
  | needsImage element => shown element ++ ": needs image input"
  | cancelled => "execution cancelled"
  | step element problem => shown element ++ ": " ++ problem.message
  | config => "Configuration error: Invalid config:"

/-- The code that an error is filed under. -/
def code : Error → String
  | notText | file .. => "darkroom::io"
  | script ⟨.unknownVariable _, _⟩ => "darkroom::parse::variable"
  | script _ => "darkroom::parse"
  | unknownElement _ => "darkroom::decode::unknown"
  | duplicatePipeline _ => "darkroom::decode::duplicate"
  | undefinedPipeline _ => "darkroom::decode::undefined"
  | argument .. => "darkroom::argument"
  | duplicateElement _ => "darkroom::registry::duplicate"
  | needsImage _ => "darkroom::exec::needs_image"
  | cancelled => "darkroom::exec::cancelled"
  | step .. => "darkroom::exec"
  | config => "darkroom::config"

/-- What to do about an error, where there is advice. -/
def help? : Error → Option String
  | script ⟨.unknownVariable _, _⟩ =>
    some "Pass the variable with --var NAME=VALUE or list it under `vars:` in darkroom.yaml"
  | unknownElement _ => some "Run `darkroom list` to see the registered elements"
  | undefinedPipeline _ => some "Named pipelines must be defined before they are referenced"
  | config => some "Check darkroom.yaml syntax"
  | _ => none

/-- Whether an element was run without the image it needs. -/
def isNeedsImage : Error → Bool
  | needsImage _ => true
  | _ => false

end Error

end PhotoPipeline
