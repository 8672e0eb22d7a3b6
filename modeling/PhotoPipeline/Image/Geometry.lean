/-
**Turning and cutting images.**

A quarter turn and a cut move pixels and change none: each pixel of the result is a pixel of the
image, bytes and all.

Main definitions:

* `PhotoPipeline.Image.quarterTurn`, `PhotoPipeline.Image.halfTurn`,
  `PhotoPipeline.Image.threeQuarterTurn` — clockwise turns;
* `PhotoPipeline.Image.turn` — any number of quarter turns;
* `PhotoPipeline.Image.cut` — a rectangle of an image.

Main results:

* `PhotoPipeline.Image.format_turn`, `PhotoPipeline.Image.format_cut` — the format is kept.
-/
import PhotoPipeline.Image.Basic

set_option relaxedAutoImplicit false
set_option autoImplicit false

namespace PhotoPipeline

namespace Image

/-- The image of the given size whose pixels are found in another at the given places. -/
def rearrange (i : Image) (width height : UInt32) (column row : Nat → Nat → Nat) : Image :=
  generate width height i.format fun x y k => i.byte (column x y) (row x y) k

/-- A clockwise quarter turn: the bottom left corner comes to the top left. -/
def quarterTurn (i : Image) : Image :=
  i.rearrange i.height i.width (fun _ y => y) (fun x _ => i.height.toNat - 1 - x)

/-- A half turn. -/
def halfTurn (i : Image) : Image :=
  i.rearrange i.width i.height (fun x _ => i.width.toNat - 1 - x)
    (fun _ y => i.height.toNat - 1 - y)

/-- A counter-clockwise quarter turn: the top right corner comes to the top left. -/
def threeQuarterTurn (i : Image) : Image :=
  i.rearrange i.height i.width (fun _ y => i.width.toNat - 1 - y) (fun x _ => x)

/-- The image after any number of clockwise quarter turns; negative ones go the other way. -/
def turn (turns : Int) (i : Image) : Image :=
  match turns % 4 with
  | 1 => i.quarterTurn
  | 2 => i.halfTurn
  | 3 => i.threeQuarterTurn
  | _ => i

/-- The rectangle of the given size whose top left corner is at column `x` and row `y`. -/
def cut (i : Image) (x y width height : UInt32) : Image :=
  i.rearrange width height (fun a _ => x.toNat + a) (fun _ b => y.toNat + b)

@[simp] theorem format_rearrange (i : Image) (w h : UInt32) (c r : Nat → Nat → Nat) :
    (i.rearrange w h c r).format = i.format := rfl

@[simp] theorem format_turn (turns : Int) (i : Image) : (i.turn turns).format = i.format := by
  rw [turn]; split <;> rfl

@[simp] theorem format_cut (i : Image) (x y w h : UInt32) :
    (i.cut x y w h).format = i.format := rfl

theorem byte_rearrange {i : Image} {w h : UInt32} {c r : Nat → Nat → Nat} {x y k : Nat}
    (hx : x < w.toNat) (hy : y < h.toNat) (hk : k < i.format.pixelBytes) :
    (i.rearrange w h c r).byte x y k = i.byte (c x y) (r x y) k :=
  byte_generate hx hy hk

/-- A turn keeps the number of pixels. -/
theorem area_turn (turns : Int) (i : Image) : (i.turn turns).area = i.area := by
  rw [turn]
  split
  · exact Nat.mul_comm ..
  · rfl
  · exact Nat.mul_comm ..
  · rfl

end Image

end PhotoPipeline
