/-
**Writing elements.**

The canonical text of an element.  Without arguments it is written `name()`; with arguments on one
line, `name(a b c)`, if the element prefers that and no argument has a line break; else in block
form, one argument a line, indented by two spaces a level.  A reference is written without the
elements that it runs.

Main definitions:

* `PhotoPipeline.layOut` — a name and the texts of its arguments as one text;
* `PhotoPipeline.Element.render` — the text of an element at a level;
* `PhotoPipeline.Element.text` — the text of an element.
-/
import PhotoPipeline.Element.Basic

set_option relaxedAutoImplicit false
set_option autoImplicit false

namespace PhotoPipeline

/-- The blank at the beginning of a line. -/
def indent (depth : Nat) : Text := Text.spaces (2 * depth)

/-- One argument on a line of its own. -/
def argumentLine (depth : Nat) (argument : Text) : Text :=
  indent (depth + 1) ++ argument ++ ['\n']

/-- The block form. -/
def layOutBlock (name : Text) (depth : Nat) (arguments : List Text) : Text :=
  name ++ ['(', '\n'] ++ arguments.flatMap (argumentLine depth) ++ indent depth ++ [')']

/-- The form on one line. -/
def layOutInline (name : Text) (arguments : List Text) : Text :=
  name ++ '(' :: (List.intercalate [' '] arguments ++ [')'])

/-- Whether a text is in one line. -/
def isOneLine (t : Text) : Bool := !t.contains '\n'

/-- A name and the texts of its arguments as one text. -/
def layOut (name : Text) (inline : Bool) (depth : Nat) (arguments : List Text) : Text :=
  if arguments.isEmpty then name ++ ['(', ')']
  else if inline && arguments.all isOneLine then layOutInline name arguments
  else layOutBlock name depth arguments

/-- Puts the texts of elements where the layout has no scalar. -/
def fillLayout : List (Option Scalar) → List Text → List Text
  | [], _ => []
  | some s :: rest, elements => s.render :: fillLayout rest elements
  | none :: rest, e :: elements => e :: fillLayout rest elements
  | none :: rest, [] => fillLayout rest []

/-- The texts of a group's arguments, given those of its elements. -/
def groupArguments (kind : Group) (elements : List Text) : List Text :=
  match kind with
  | .only mode => quote mode.name :: elements
  | _ => elements

namespace Element

variable {ε : Type} [Plugin ε]

mutual

/-- The text of an element that starts at the given level. -/
def render (depth : Nat) : Element ε → Text
  | step op => layOut op.name op.isInline depth (op.scalars.map Scalar.render)
  | group (.reference target) _ => layOut target true depth []
  | group kind es =>
    layOut kind.name kind.isInline depth (groupArguments kind (renderAll (depth + 1) es))
  | plugin x es =>
    layOut (Plugin.name x) (Plugin.isInline x) depth
      (fillLayout (Plugin.layout x) (renderAll (depth + 1) es))

/-- The texts of elements that start at the given level. -/
def renderAll (depth : Nat) : List (Element ε) → List Text
  | [] => []
  | e :: es => render depth e :: renderAll depth es

end

/-- The text of an element. -/
def text (e : Element ε) : Text := e.render 0

end Element

end PhotoPipeline
