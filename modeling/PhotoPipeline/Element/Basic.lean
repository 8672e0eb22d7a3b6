/-
**Elements.**

A decoded script is a tree of elements.  The leaves are operations; the inner nodes are groups,
which run the elements inside them, all of them or under conditions.  A further kind of element
can be plugged in: its type is a parameter of the tree, and an instance says how such an element
is written and what it does.  With the empty type there are the built-in elements and no others.

Main definitions:

* `PhotoPipeline.Plugin` — what has to be said about a further kind of element;
* `PhotoPipeline.Group` — the kinds of groups;
* `PhotoPipeline.Element` — trees of elements.
-/
import PhotoPipeline.Element.Operation

set_option relaxedAutoImplicit false
set_option autoImplicit false

namespace PhotoPipeline

/-- What has to be said about a further kind of element. -/
class Plugin (ε : Type) where
  /-- The name in scripts. -/
  name : ε → Text
  /-- Whether the arguments are written on one line. -/
  isInline : ε → Bool
  /-- The arguments in their order; an element inside is written where there is no scalar. -/
  layout : ε → List (Option Scalar)
  /-- What the element does. -/
  apply : ε → Option Image → RunState → Except Error (Option Image) × RunState

instance : Plugin Empty where
  name := Empty.elim
  isInline := Empty.elim
  layout := Empty.elim
  apply x := x.elim

/-- The kinds of groups. -/
inductive Group where
  /-- Runs its elements. -/
  | anonymous
  /-- Runs its elements under a name, and makes the name known. -/
  | definition (name : Text)
  /-- Runs the elements of the definition of a name. -/
  | reference (name : Text)
  /-- Runs its elements in one mode only. -/
  | only (mode : Mode)
  /-- Runs its elements once for each image. -/
  | cache
  /-- Runs its elements once. -/
  | once
  deriving DecidableEq, Repr

namespace Group

/-- The name of a group. -/
def name : Group → Text
  | anonymous => anonymousHead
  | definition name => name
  | reference name => name
  | only _ => "only".toList
  | cache => "cache".toList
  | once => "once".toList

/-- Whether the arguments are written on one line. -/
def isInline : Group → Bool
  | reference _ => true
  | _ => false

/-- The name that is announced while the group runs. -/
def announced? : Group → Option Text
  | definition name => some name
  | reference name => some name
  | _ => none

end Group

/-- A tree of elements. -/
inductive Element (ε : Type) where
  | step (op : Operation)
  | group (kind : Group) (elements : List (Element ε))
  | plugin (x : ε) (elements : List (Element ε))

namespace Element

variable {ε : Type} [Plugin ε]

/-- The name of an element. -/
def name : Element ε → Text
  | step op => op.name
  | group kind _ => kind.name
  | plugin x _ => Plugin.name x

/-- Whether the arguments of an element are written on one line. -/
def isInline : Element ε → Bool
  | step op => op.isInline
  | group kind _ => kind.isInline
  | plugin x _ => Plugin.isInline x

end Element

end PhotoPipeline
