/-
**Resampling.**

A filter makes each sample of a row or a column from the samples near it, weighed by a kernel.
Applied to the columns and then to the rows it gives an image of another size, or a softer one of
the same size.

Main definitions:

* `PhotoPipeline.Kernel` — a weight function and the distance at which it ends;
* `PhotoPipeline.Kernel.weights` — the weights for one line;
* `PhotoPipeline.Image.resample` — an image filtered to a given size;
* `PhotoPipeline.Image.resize`, `PhotoPipeline.Image.blur`.

Main results:

* `PhotoPipeline.Image.width_resize`, `PhotoPipeline.Image.height_resize` — the result has the
  size asked for.
-/
import PhotoPipeline.Image.Sample

set_option relaxedAutoImplicit false
set_option autoImplicit false

namespace PhotoPipeline

/-! ### Kernels -/

/-- A weight for each distance, zero from the given distance on. -/
structure Kernel where
  weight : Float → Float
  support : Float

/-- The sine of an angle over the angle, for an angle in half turns. -/
def sinc (x : Float) : Float :=
  let angle := x * 3.14159265358979323846
  if x == 0 then 1 else angle.sin / angle

/-- The windowed sine with three lobes. -/
def Kernel.lanczos : Kernel where
  weight x := if x.abs < 3 then sinc x * sinc (x / 3) else 0
  support := 3

/-- The bell of a given deviation. -/
def Kernel.bell (deviation : Float) : Kernel where
  weight x := (-(x * x) / (2 * deviation * deviation)).exp
  support := 2 * deviation

/-- The first sample that takes part, and the weights from there on. -/
structure Weights where
  first : Nat
  shares : List Float

/-- The sum of numbers. -/
def sumFloats (xs : List Float) : Float := xs.foldl (· + ·) 0

/-- The weights of a kernel for sample `place` of a line of `target` samples made from one of
`source` samples.  A line that shrinks has its kernel stretched. -/
def Kernel.weightsAt (k : Kernel) (source target place : Nat) : Weights :=
  let ratio := source.toFloat / target.toFloat
  let stretch := if ratio < 1 then 1 else ratio
  let reach := k.support * stretch
  let centre := (place.toFloat + 0.5) * ratio
  let first := min (centre - reach).floor.toUInt32.toNat (source - 1)
  let last := max (first + 1) (min (centre + reach).ceil.toUInt32.toNat source)
  let raw := (List.range (last - first)).map fun n =>
    k.weight (((first + n).toFloat - (centre - 0.5)) / stretch)
  let sum := sumFloats raw
  ⟨first, raw.map (· / sum)⟩

/-- The weights for every sample of a line. -/
def Kernel.weights (k : Kernel) (source target : Nat) : Array Weights :=
  Array.ofFn fun n : Fin target => k.weightsAt source target n.val

/-! ### Planes -/

/-- Samples of an image as numbers, channel by channel within each pixel. -/
structure Plane where
  width : Nat
  height : Nat
  channels : Nat
  values : FloatArray

namespace Plane

/-- A sample; zero outside the plane. -/
def value (p : Plane) (x y channel : Nat) : Float :=
  let n := (y * p.width + x) * p.channels + channel
  if h : n < p.values.size then p.values.get n h else 0

/-- The plane with given samples. -/
def generate (width height channels : Nat) (f : Nat → Nat → Nat → Float) : Plane where
  width := width
  height := height
  channels := channels
  values := Nat.fold (width * height * channels) (fun n _ acc =>
    let pixel := n / channels
    acc.push (f (pixel % width) (pixel / width) (n % channels)))
    (FloatArray.emptyWithCapacity (width * height * channels))

/-- A weighed sum of the samples that `read` gives from the first place on. -/
def weigh (read : Nat → Float) (w : Weights) : Float :=
  (w.shares.foldl (fun acc share => (acc.1 + share * read acc.2, acc.2 + 1))
    ((0 : Float), w.first)).1

/-- The plane with every column filtered to the given height. -/
def filterColumns (p : Plane) (k : Kernel) (height : Nat) : Plane :=
  let table := k.weights p.height height
  generate p.width height p.channels fun x y c =>
    weigh (fun n => p.value x n c) (table.getD y ⟨0, []⟩)

/-- The plane with every row filtered to the given width. -/
def filterRows (p : Plane) (k : Kernel) (width : Nat) : Plane :=
  let table := k.weights p.width width
  generate width p.height p.channels fun x y c =>
    weigh (fun n => p.value n y c) (table.getD x ⟨0, []⟩)

end Plane

namespace Image

/-- The samples of an image as numbers. -/
def plane (i : Image) : Plane :=
  Plane.generate i.width.toNat i.height.toNat i.format.channels fun x y c =>
    match i.format.depth with
    | .byte => (i.byte x y c).toFloat
    | .word => (i.word x y (2 * c)).toFloat
    | .single => (i.single x y (4 * c)).toFloat

/-- The image of a format whose samples are those of a plane, rounded. -/
def ofPlane (width height : UInt32) (format : Format) (p : Plane) : Image :=
  generate width height format fun x y k =>
    match format.depth with
    | .byte => (p.value x y k).round.toUInt8
    | .word => byteOf (p.value x y (k / 2)).round.toUInt16.toNat (k % 2)
    | .single => byteOf (clampSingle 0 1 (p.value x y (k / 4)).toFloat32).toBits.toNat (k % 4)

/-- The image filtered to the given size, columns first. -/
def resample (i : Image) (k : Kernel) (width height : UInt32) : Image :=
  ofPlane width height i.format
    ((i.plane.filterColumns k height.toNat).filterRows k width.toNat)

/-- The image brought to the given size. -/
def resize (i : Image) (width height : UInt32) : Image :=
  if width = i.width ∧ height = i.height then i else i.resample .lanczos width height

/-- The image softened by a bell of the given deviation. -/
def blur (i : Image) (deviation : Float32) : Image :=
  i.resample (.bell deviation.toFloat) i.width i.height

@[simp] theorem width_resize (i : Image) (w h : UInt32) : (i.resize w h).width = w := by
  rw [resize]; split
  · next hs => exact hs.1.symm
  · rfl

@[simp] theorem height_resize (i : Image) (w h : UInt32) : (i.resize w h).height = h := by
  rw [resize]; split
  · next hs => exact hs.2.symm
  · rfl

theorem area_blur (i : Image) (deviation : Float32) : (i.blur deviation).area = i.area := rfl

end Image

end PhotoPipeline
