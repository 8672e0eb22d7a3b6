/-
**Turns compose.**

A quarter turn moves each pixel to a place that the size of the image tells, and four of them move it
back.  The other turns are quarter turns made two and three times over, so any number of turns is as
many quarter turns as it leaves when divided by four.  Hence turns in sequence are one turn by the sum
of their counts.

The counts are numbers of 64 bits, but their sum is taken over the integers: a count of either sign at
the end of the range is divided with remainder like any other, and no sum is ever formed in 64 bits.

Main definitions:

* `PhotoPipeline.Element.rotation` — the element that turns;
* `PhotoPipeline.exactTurns` — the sum of counts of turns;
* `PhotoPipeline.netTurns` — the one count that does the same.

Main results:

* `PhotoPipeline.Image.byte_quarterTurn` — where a quarter turn finds a pixel;
* `PhotoPipeline.Image.turn_eq_iterate` — turns are quarter turns, made several times over;
* `PhotoPipeline.Image.turn_turn` — two turns are one by the sum;
* `PhotoPipeline.Element.run_rotations` — **rotations compose**.
-/
import Mathlib.Dynamics.PeriodicPts.Defs
import PhotoPipeline.Engine.Run

set_option relaxedAutoImplicit false
set_option autoImplicit false

namespace PhotoPipeline

namespace Image

/-! ### Quarter turns -/

section

variable {i : Image} {x y k : Nat}

/-- The columns of a quarter turn are the rows of the image, from the last to the first. -/
theorem byte_quarterTurn (hx : x < i.height.toNat) (hy : y < i.width.toNat)
    (hk : k < i.format.pixelBytes) :
    i.quarterTurn.byte x y k = i.byte y (i.height.toNat - 1 - x) k :=
  byte_rearrange hx hy hk

theorem byte_halfTurn (hx : x < i.width.toNat) (hy : y < i.height.toNat)
    (hk : k < i.format.pixelBytes) :
    i.halfTurn.byte x y k = i.byte (i.width.toNat - 1 - x) (i.height.toNat - 1 - y) k :=
  byte_rearrange hx hy hk

theorem byte_threeQuarterTurn (hx : x < i.height.toNat) (hy : y < i.width.toNat)
    (hk : k < i.format.pixelBytes) :
    i.threeQuarterTurn.byte x y k = i.byte (i.width.toNat - 1 - y) x k :=
  byte_rearrange hx hy hk

end

/-- A place counted from the other end is a place. -/
theorem mirrored_lt {n x : Nat} (hx : x < n) : n - 1 - x < n := by
  omega

/-- A place counted from the other end twice is the place itself. -/
theorem mirrored_mirrored {n x : Nat} (hx : x < n) : n - 1 - (n - 1 - x) = x := by
  omega

theorem quarterTurn_quarterTurn (i : Image) : i.quarterTurn.quarterTurn = i.halfTurn := by
  refine ext_byte rfl rfl rfl fun x y k (hx : x < i.width.toNat) (hy : y < i.height.toNat) hk => ?_
  calc i.quarterTurn.quarterTurn.byte x y k
      = i.quarterTurn.byte y (i.width.toNat - 1 - x) k := byte_quarterTurn hx hy hk
    _ = i.byte (i.width.toNat - 1 - x) (i.height.toNat - 1 - y) k :=
        byte_quarterTurn hy (mirrored_lt hx) hk
    _ = i.halfTurn.byte x y k := (byte_halfTurn hx hy hk).symm

theorem quarterTurn_halfTurn (i : Image) : i.halfTurn.quarterTurn = i.threeQuarterTurn := by
  refine ext_byte rfl rfl rfl fun x y k (hx : x < i.height.toNat) (hy : y < i.width.toNat) hk => ?_
  calc i.halfTurn.quarterTurn.byte x y k
      = i.halfTurn.byte y (i.height.toNat - 1 - x) k := byte_quarterTurn hx hy hk
    _ = i.byte (i.width.toNat - 1 - y) (i.height.toNat - 1 - (i.height.toNat - 1 - x)) k :=
        byte_halfTurn hy (mirrored_lt hx) hk
    _ = i.byte (i.width.toNat - 1 - y) x k := by rw [mirrored_mirrored hx]
    _ = i.threeQuarterTurn.byte x y k := (byte_threeQuarterTurn hx hy hk).symm

theorem quarterTurn_threeQuarterTurn (i : Image) : i.threeQuarterTurn.quarterTurn = i := by
  refine ext_byte rfl rfl rfl fun x y k (hx : x < i.width.toNat) (hy : y < i.height.toNat) hk => ?_
  calc i.threeQuarterTurn.quarterTurn.byte x y k
      = i.threeQuarterTurn.byte y (i.width.toNat - 1 - x) k := byte_quarterTurn hx hy hk
    _ = i.byte (i.width.toNat - 1 - (i.width.toNat - 1 - x)) y k :=
        byte_threeQuarterTurn hy (mirrored_lt hx) hk
    _ = i.byte x y k := by rw [mirrored_mirrored hx]

/-- Four quarter turns lead back. -/
theorem isPeriodicPt_quarterTurn (i : Image) : Function.IsPeriodicPt quarterTurn 4 i := by
  show i.quarterTurn.quarterTurn.quarterTurn.quarterTurn = i
  rw [quarterTurn_quarterTurn i, quarterTurn_halfTurn, quarterTurn_threeQuarterTurn]

/-! ### Any number of turns -/

/-- The quarter turns that a count comes to. -/
theorem turn_eq_iterate (turns : Int) (i : Image) :
    i.turn turns = quarterTurn^[(turns % 4).toNat] i := by
  rw [turn]
  split
  · next h => rw [h]; rfl
  · next h =>
      rw [h]
      exact (quarterTurn_quarterTurn i).symm
  · next h =>
      rw [h]
      show i.threeQuarterTurn = i.quarterTurn.quarterTurn.quarterTurn
      rw [quarterTurn_quarterTurn i, quarterTurn_halfTurn]
  · next hone htwo hthree =>
      have hne : turns % 4 ≠ 1 ∧ turns % 4 ≠ 2 ∧ turns % 4 ≠ 3 := ⟨hone, htwo, hthree⟩
      have hzero : turns % 4 = 0 := by omega
      rw [hzero]
      rfl

/-- Whole rounds do not count. -/
theorem turn_emod (turns : Int) (i : Image) : i.turn (turns % 4) = i.turn turns := by
  rw [turn_eq_iterate, turn_eq_iterate, Int.emod_emod]

theorem turn_zero (i : Image) : i.turn 0 = i := rfl

/-- **Two turns are one** by the sum of their counts. -/
theorem turn_turn (m n : Int) (i : Image) : (i.turn m).turn n = i.turn (m + n) := by
  have hsum : ((n % 4).toNat + (m % 4).toNat) % 4 = ((m + n) % 4).toNat := by omega
  calc (i.turn m).turn n
      = quarterTurn^[(n % 4).toNat] (quarterTurn^[(m % 4).toNat] i) := by
        rw [turn_eq_iterate m, turn_eq_iterate n]
    _ = quarterTurn^[(n % 4).toNat + (m % 4).toNat] i :=
        (Function.iterate_add_apply quarterTurn _ _ i).symm
    _ = quarterTurn^[((n % 4).toNat + (m % 4).toNat) % 4] i :=
        ((isPeriodicPt_quarterTurn i).iterate_mod_apply _).symm
    _ = i.turn (m + n) := by rw [hsum, turn_eq_iterate]

end Image

/-! ### Counts of turns -/

/-- The sum of counts of turns, over the integers. -/
def exactTurns : List Int64 → Int
  | [] => 0
  | n :: turns => n.toInt + exactTurns turns

/-- The count from zero to three that comes to the same. -/
def netTurns (turns : List Int64) : Int64 := Int64.ofInt (exactTurns turns % 4)

/-- The remainder fits. -/
theorem toInt_netTurns (turns : List Int64) : (netTurns turns).toInt = exactTurns turns % 4 := by
  have hlo : 0 ≤ exactTurns turns % 4 := Int.emod_nonneg _ (by decide)
  have hhi : exactTurns turns % 4 < 4 := Int.emod_lt_of_pos _ (by decide)
  exact Int64.toInt_ofInt_of_le (by omega) (by omega)

namespace Adjustment

/-- Rotations, each of what the one before it has made. -/
theorem foldlM_rotate (turns : List Int64) (i : Image) :
    turns.foldlM (fun j n => (rotate n).applyTo j) i = .ok (i.turn (exactTurns turns)) := by
  induction turns generalizing i with
  | nil => rfl
  | cons n turns ih =>
      rw [List.foldlM_cons, exactTurns, ← Image.turn_turn]
      exact ih (i.turn n.toInt)

end Adjustment

/-! ### Running rotations -/

namespace Element

variable {ε : Type}

/-- The element that turns the image. -/
def rotation (turns : Int64) : Element ε := .step (.adjust (.rotate turns))

variable [Plugin ε]

theorem apply_rotation (n : Int64) (i : Image) (s : RunState) :
    apply (rotation n : Element ε) (some i) s = (.ok (some (i.turn n.toInt)), s) := by
  rw [rotation, apply]
  rfl

/-- A run of rotations turns by the sum of their counts and does nothing else. -/
theorem run_map_rotation {s : RunState} (hs : s.context.cancelled = false) (turns : List Int64)
    (i : Image) :
    run (turns.map rotation : List (Element ε)) (some i) s =
      (.ok (some (i.turn (exactTurns turns))), s) := by
  induction turns generalizing i with
  | nil => exact run_nil _ _
  | cons n turns ih =>
      rw [List.map_cons, run_cons, if_neg (by simp [hs]), apply_rotation, exactTurns, ← Image.turn_turn]
      exact ih _

/-- The same in a pipeline, whose name is announced and taken back. -/
theorem runPipeline_map_rotation {s : RunState} (hs : s.context.cancelled = false)
    (name : Option Text) (turns : List Int64) (i : Image) :
    runPipeline name (turns.map rotation : List (Element ε)) (some i) s =
      (.ok (some (i.turn (exactTurns turns))), s) := by
  cases name with
  | none => exact run_map_rotation hs turns i
  | some name =>
      rw [runPipeline, announcing, run_map_rotation (by exact hs)]
      rfl

/-- **Rotations compose.**  Any number of rotations, one after the other, make of an image what one
rotation makes of it whose count is the remainder of the sum of their counts, taken over the integers,
when divided by four; where that is zero, they restore the image.  So it is for the adjustments, applied
each to what the one before it has made, and for elements run as a pipeline in a context that has not
been asked to stop, which is left as it was. -/
theorem run_rotations (turns : List Int64) (i : Image) :
    (turns.foldlM (fun j n => (Adjustment.rotate n).applyTo j) i =
        (Adjustment.rotate (netTurns turns)).applyTo i ∧
      (exactTurns turns % 4 = 0 →
        turns.foldlM (fun j n => (Adjustment.rotate n).applyTo j) i = .ok i)) ∧
    ∀ (name : Option Text) (s : RunState), s.context.cancelled = false →
      runPipeline name (turns.map rotation : List (Element ε)) (some i) s =
          runPipeline name [(rotation (netTurns turns) : Element ε)] (some i) s ∧
        runPipeline name (turns.map rotation : List (Element ε)) (some i) s =
          (.ok (some (i.turn (exactTurns turns))), s) ∧
        (exactTurns turns % 4 = 0 →
          runPipeline name (turns.map rotation : List (Element ε)) (some i) s =
            (.ok (some i), s)) := by
  have hnet : i.turn (netTurns turns).toInt = i.turn (exactTurns turns) := by
    rw [toInt_netTurns, Image.turn_emod]
  have hrestore (hzero : exactTurns turns % 4 = 0) : i.turn (exactTurns turns) = i := by
    rw [← Image.turn_emod, hzero, Image.turn_zero]
  refine ⟨⟨?_, fun hzero => ?_⟩, fun name s hs => ⟨?_, runPipeline_map_rotation hs name turns i,
    fun hzero => ?_⟩⟩
  · rw [Adjustment.foldlM_rotate, Adjustment.applyTo, Adjustment.applyToWith, hnet]
  · rw [Adjustment.foldlM_rotate, hrestore hzero]
  · have hsingle := runPipeline_map_rotation (ε := ε) hs name [netTurns turns] i
    rw [exactTurns, exactTurns, Int.add_zero, hnet] at hsingle
    exact (runPipeline_map_rotation hs name turns i).trans hsingle.symm
  · rw [runPipeline_map_rotation hs, hrestore hzero]

/-- An image of two pixels in a row. -/
def wideImage : Image := ⟨2, 1, .l8, #[10, 20], rfl⟩

/-- A run that has just started, without stores and without files. -/
def startedRun : RunState := ⟨.new .convert [], ⟨[], []⟩⟩

/-- The two ends of the range of counts add up to a counter-clockwise quarter turn; with one turn more,
the image is restored. -/
theorem run_rotations_ends :
    runPipeline none ([Int64.minValue, Int64.maxValue].map rotation : List (Element Empty))
        (some wideImage) startedRun = (.ok (some ⟨1, 2, .l8, #[20, 10], rfl⟩), startedRun) ∧
      runPipeline (some ".p".toList)
        ([Int64.minValue, Int64.maxValue, 1].map rotation : List (Element Empty))
        (some wideImage) startedRun = (.ok (some wideImage), startedRun) := by
  have hturned := (run_rotations (ε := Empty) [Int64.minValue, Int64.maxValue] wideImage).2
    none startedRun rfl
  have hrestored := (run_rotations (ε := Empty) [Int64.minValue, Int64.maxValue, 1] wideImage).2
    (some ".p".toList) startedRun rfl
  exact ⟨hturned.2.1, hrestored.2.2 (by decide)⟩

end Element

end PhotoPipeline
