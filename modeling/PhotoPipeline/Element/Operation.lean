/-
**Operations.**

The built-in steps that hold no other elements: the adjustments, which depend on the image alone,
and the steps that read or change something besides the image, that is files and the images put
aside.

Main definitions:

* `PhotoPipeline.Scalar` — an argument that is not an element, and its written form;
* `PhotoPipeline.Operation` — the operations;
* `PhotoPipeline.Operation.scalars` — the arguments that an operation is written with;
* `PhotoPipeline.Operation.apply` — what an operation does.

Main results:

* `PhotoPipeline.Operation.apply_retrieve`, `PhotoPipeline.Operation.apply_stash` — the two steps
  that share the images put aside.
-/
import PhotoPipeline.Element.Adjustment
import PhotoPipeline.Engine.Context
import PhotoPipeline.Script.Quote

set_option relaxedAutoImplicit false
set_option autoImplicit false

namespace PhotoPipeline

/-! ### Scalars -/

/-- An argument that is not an element. -/
inductive Scalar where
  | string (t : Text)
  | int (n : Int64)
  | float (x : Float)
  | value (v : Value)
  | colour (c : Colour)

namespace Scalar

/-- The written form of a value: an expression stays as it was written. -/
def renderValue : Value → Text
  | .literal t => quote t
  | .expression source _ => source

/-- The written form of a scalar. -/
def render : Scalar → Text
  | string t => quote t
  | int n => signedDecimal n.toInt
  | float x => floatText x
  | value v => renderValue v
  | colour c => c.text

end Scalar

/-! ### Operations -/

/-- A built-in step without elements inside. -/
inductive Operation where
  | adjust (a : Adjustment)
  /-- Reads an image from a file. -/
  | load (path : Text)
  /-- Writes the image to a file. -/
  | save (path : Text)
  /-- Puts the image aside. -/
  | stash (slot : Text)
  /-- Takes up the image put aside last. -/
  | retrieve (slot : Text)

/-- The image at hand, if there is one. -/
def requireImage (element : Text) : Option Image → Except Error Image
  | some i => .ok i
  | none => .error (.needsImage element)

/-- The arguments that an adjustment is written with. -/
def Adjustment.scalars : Adjustment → List Scalar
  | canvas width height colour => [.value width, .value height, .colour colour]
  | contrast amount => [.value amount]
  | brightness amount => [.value amount]
  | rotate turns => [.int turns]
  | resize width height => [.value width, .value height]
  | crop x y width height => [.value x, .value y, .value width, .value height]
  | blur deviation => [.value deviation]
  | grayscale => []
  | invert => []
  | saturate percent => [.value percent]
  | tint colour amount => [.colour colour, .value amount]

namespace Operation

/-- The name of an operation. -/
def name : Operation → Text
  | adjust a => a.name
  | load _ => "load".toList
  | save _ => "save".toList
  | stash _ => "stash".toList
  | retrieve _ => "recall".toList

/-- The arguments that an operation is written with. -/
def scalars : Operation → List Scalar
  | adjust a => a.scalars
  | load path => [.string path]
  | save path => [.string path]
  | stash slot => [.string slot]
  | retrieve slot => [.string slot]

/-- Whether the arguments are written on one line. -/
def isInline : Operation → Bool
  | adjust .grayscale | adjust .invert => false
  | _ => true

/-- Puts an image into a slot. -/
def putAside (slots : Slots) (slot : Text) (image : Image) : Slots :=
  (slot, image) :: slots.filter fun e => !(e.1 == slot)

/-- What an operation does. -/
def apply (op : Operation) (image : Option Image) (s : RunState) :
    Except Error (Option Image) × RunState :=
  match op with
  | adjust a => ((a.apply image).map some, s)
  | load path =>
    match s.shared.files.readImage? path with
    | some i => (.ok (some i), s)
    | none => (.error (.file path .readImage), s)
  | save path =>
    match requireImage op.name image with
    | .error e => (.error e, s)
    | .ok i =>
      let written := s.shared.files.writeImage path i
      (written.1.map fun _ => some i, { s with shared := { s.shared with files := written.2 } })
  | stash slot =>
    match requireImage op.name image with
    | .error e => (.error e, s)
    | .ok i =>
      let found := s.context.extensions.getOrInsert .slots slotsKey []
      let kept := found.2.insert .slots slotsKey (putAside found.1 slot i)
      (.ok (some i), s.mapContext fun c => { c with extensions := kept })
  | retrieve slot =>
    match (s.slots?.getD []).lookup slot with
    | some i => (.ok (some i), s)
    | none => (.error (.step op.name (.nothingStashed slot)), s)

theorem apply_retrieve (slot : Text) (image : Option Image) (s : RunState) :
    apply (retrieve slot) image s =
      (match (s.slots?.getD []).lookup slot with
        | some i => .ok (some i)
        | none => .error (.step (retrieve slot).name (.nothingStashed slot)), s) := by
  rw [apply]
  split <;> simp_all

theorem apply_stash (slot : Text) (i : Image) (s : RunState) :
    (apply (stash slot) (some i) s).1 = .ok (some i) ∧
      (apply (stash slot) (some i) s).2.slots? = some (putAside (s.slots?.getD []) slot i) := by
  refine ⟨rfl, ?_⟩
  simp only [apply, requireImage, RunState.slots?, RunState.mapContext,
    Extensions.get?_insert_self, Extensions.getOrInsert]
  cases s.context.extensions.get? Slot.slots slotsKey <;> rfl

end Operation

end PhotoPipeline
