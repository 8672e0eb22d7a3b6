/-
**The accounts of the image store.**

The store counts bytes and time in 64 bits.  Its operations are written out here over any arithmetic
that may refuse a result: over the one of the machine, which takes results modulo the word, they are
the operations of the store; over the one that refuses every result that is not exact, they come to
the same, as long as sizes and the budget are below half a word and the clock has not come round.  So
no addition, no subtraction and no multiplication ever wraps around, and the books of the store
balance.

Main definitions:

* `PhotoPipeline.Arithmetic` — sums, differences and products of 64 bits, with
  `PhotoPipeline.Arithmetic.wrapping` and `PhotoPipeline.Arithmetic.checked`;
* `PhotoPipeline.Arithmetic.imageBytes`, `PhotoPipeline.Arithmetic.evict`,
  `PhotoPipeline.Arithmetic.set`, `PhotoPipeline.Arithmetic.performAll` — what the store does, over
  any arithmetic;
* `PhotoPipeline.ImageStore.Balanced` — the books of a store balance.

Main results:

* `PhotoPipeline.Arithmetic.wrapping_performAll` — over the arithmetic of the machine;
* `PhotoPipeline.Arithmetic.checked_keepWithin`, `PhotoPipeline.Arithmetic.checked_set` — what fits is
  not refused;
* `PhotoPipeline.ImageStore.Orders.balanced` — the books of a store that is a list by recency;
* `PhotoPipeline.ImageStore.checked_performAll_empty` — **accounting never wraps**.
-/
import PhotoPipeline.Proofs.Cache.Recency

set_option relaxedAutoImplicit false
set_option autoImplicit false

namespace PhotoPipeline

/-! ### Arithmetic -/

/-- Sums, differences and products of 64 bits. -/
structure Arithmetic (m : Type → Type) where
  add : UInt64 → UInt64 → m UInt64
  sub : UInt64 → UInt64 → m UInt64
  mul : UInt64 → UInt64 → m UInt64

namespace Arithmetic

/-- The arithmetic of the machine. -/
def wrapping : Arithmetic Id := ⟨fun a b => a + b, fun a b => a - b, fun a b => a * b⟩

/-- The same, where every result that is not exact is refused. -/
def checked : Arithmetic Option where
  add a b := if (a + b).toNat = a.toNat + b.toNat then some (a + b) else none
  sub a b := if (a - b).toNat + b.toNat = a.toNat then some (a - b) else none
  mul a b := if (a * b).toNat = a.toNat * b.toNat then some (a * b) else none

theorem checked_add {a b : UInt64} (h : a.toNat + b.toNat < UInt64.size) :
    checked.add a b = some (a + b) := if_pos (toNat_add_of_lt h)

theorem checked_sub {a b : UInt64} (h : b.toNat ≤ a.toNat) : checked.sub a b = some (a - b) := by
  refine if_pos ?_
  rw [UInt64.toNat_sub_of_le _ _ (UInt64.le_iff_toNat_le.2 h), Nat.sub_add_cancel h]

theorem checked_mul {a b : UInt64} (h : a.toNat * b.toNat < UInt64.size) :
    checked.mul a b = some (a * b) := if_pos (toNat_mul_of_lt h)

/-! ### The store over any arithmetic -/

section

variable {m : Type → Type} [Monad m] (A : Arithmetic m)

/-- The size of an image in memory. -/
def imageBytes (i : Image) : m UInt64 := do
  let pixels ← A.mul i.width.toUInt64 i.height.toUInt64
  A.mul pixels (UInt64.ofNat i.format.pixelBytes)

/-- The longest run of images that fits the budget together with the bytes already kept. -/
def keepWithin (budget kept : UInt64) : List StoredImage → m (UInt64 × List StoredImage)
  | [] => pure (kept, [])
  | e :: es => do
    let sum ← A.add kept e.bytes
    if sum ≤ budget then
      let rest ← keepWithin budget sum es
      pure (rest.1, e :: rest.2)
    else pure (kept, [])

/-- Drops what does not fit the budget. -/
def evict (s : ImageStore) : m ImageStore := do
  let kept ← A.keepWithin s.budget 0 s.byRecency
  pure { s with total := kept.1, entries := kept.2 }

/-- The image under a key, which becomes the most recently used. -/
def get (s : ImageStore) (key : Digest) : m (Option Image × ImageStore) := do
  let now ← A.add s.clock 1
  match s.find? key with
  | none => pure (none, { s with clock := now })
  | some found =>
    pure (some found.image,
      { s with
        clock := now
        entries := s.entries.map fun e =>
          if e.key == key then { e with lastAccess := now } else e })

/-- Puts an image under a key and drops what does not fit. -/
def set (s : ImageStore) (key : Digest) (image : Image) : m ImageStore := do
  let bytes ← A.imageBytes image
  if s.budget < bytes then pure s
  else
    let now ← A.add s.clock 1
    let others ← A.sub s.total (((s.find? key).map StoredImage.bytes).getD 0)
    let total ← A.add others bytes
    let added : ImageStore :=
      { s with
        clock := now
        total := total
        entries := ⟨key, now, bytes, image⟩ :: s.entries.filter fun e => !(e.key == key) }
    if s.budget < total then A.evict added else pure added

/-- An operation on the store. -/
def perform (s : ImageStore) : StoreOp → m (StoreView × ImageStore)
  | .set key image => do
    let s' ← A.set s key image
    pure (s'.view .nothing, s')
  | .get key => do
    let found ← A.get s key
    pure (found.2.view (.image found.1), found.2)
  | .contains key => pure (s.view (.present (s.contains key)), s)
  | .clear => pure (s.clear.view .nothing, s.clear)

/-- Operations on the store in turn, before each of which its entries are rearranged. -/
def performAll (s : ImageStore) :
    List (Rearrangement × StoreOp) → m (List StoreView × ImageStore)
  | [] => pure ([], s)
  | (r, op) :: ops => do
    let first ← A.perform (s.rearrange r) op
    let others ← performAll first.2 ops
    pure (first.1 :: others.1, others.2)

end

/-! ### Over the arithmetic of the machine -/

theorem wrapping_keepWithin (budget kept : UInt64) (es : List StoredImage) :
    wrapping.keepWithin budget kept es = ImageStore.keepWithin budget kept es := by
  induction es generalizing kept with
  | nil => rfl
  | cons e es ih =>
      rw [ImageStore.keepWithin, ← ih]
      rfl

theorem wrapping_evict (s : ImageStore) : wrapping.evict s = s.evict := by
  rw [ImageStore.evict, ← wrapping_keepWithin]
  rfl

theorem wrapping_set (s : ImageStore) (key : Digest) (image : Image) :
    wrapping.set s key image = s.set key image := by
  simp only [ImageStore.set, ← wrapping_evict]
  rfl

theorem wrapping_perform (s : ImageStore) (op : StoreOp) : wrapping.perform s op = s.perform op := by
  cases op with
  | set key image =>
      rw [ImageStore.perform, ← wrapping_set]
      rfl
  | get key =>
      simp only [ImageStore.perform, ImageStore.get, perform, get]
      cases s.find? key <;> rfl
  | contains key => rfl
  | clear => rfl

/-- **Over the arithmetic of the machine** this is what the store does. -/
theorem wrapping_performAll (s : ImageStore) (steps : List (Rearrangement × StoreOp)) :
    wrapping.performAll s steps = s.performAll steps := by
  induction steps generalizing s with
  | nil => rfl
  | cons step steps ih =>
      obtain ⟨r, op⟩ := step
      rw [ImageStore.performAll, ← wrapping_perform, ← ih]
      rfl

/-! ### Nothing is refused -/

theorem checked_imageBytes {i : Image} (h : exactBytes i < UInt64.size) :
    checked.imageBytes i = some (PhotoPipeline.imageBytes i) := by
  have hpixels : i.width.toUInt64.toNat * i.height.toUInt64.toNat < UInt64.size := by
    rw [UInt32.toNat_toUInt64, UInt32.toNat_toUInt64]
    exact pixels_lt i
  have hproduct : (i.width.toUInt64 * i.height.toUInt64).toNat *
      (UInt64.ofNat i.format.pixelBytes).toNat < UInt64.size := by
    rw [toNat_pixels, toNat_pixelBytes]
    exact h
  exact Option.bind_eq_some_iff.2 ⟨_, checked_mul hpixels, checked_mul hproduct⟩

/-- Keeping what fits adds up no more than all the sizes together. -/
theorem checked_keepWithin {budget kept : UInt64} {held : List StoredImage}
    (hexact : ∀ e ∈ held, e.bytes.toNat = exactBytes e.image)
    (hfits : kept.toNat + (listed held).bytes < UInt64.size) :
    checked.keepWithin budget kept held = some (ImageStore.keepWithin budget kept held) := by
  induction held generalizing kept with
  | nil => rfl
  | cons e held ih =>
      obtain ⟨he, hexact⟩ := List.forall_mem_cons.1 hexact
      rw [bytes_listed_cons, ← he] at hfits
      have hadd : kept.toNat + e.bytes.toNat < UInt64.size := by omega
      have hothers : (kept + e.bytes).toNat + (listed held).bytes < UInt64.size := by
        rw [toNat_add_of_lt hadd]
        omega
      have hrest := ih hexact hothers
      rw [keepWithin, checked_add hadd, ImageStore.keepWithin, Option.bind_eq_bind, Option.bind_some]
      by_cases hfit : kept + e.bytes ≤ budget
      · rw [if_pos hfit, if_pos hfit, hrest]
        rfl
      · rw [if_neg hfit, if_neg hfit]
        rfl

section

variable {s : ImageStore} {held : List StoredImage}

/-- What is kept is part of what the store has, and that is counted already. -/
theorem checked_evict (h : s.Orders held) : checked.evict s = some s.evict := by
  have hfits : (0 : UInt64).toNat + (listed held).bytes < UInt64.size := by
    rw [UInt64.toNat_zero, Nat.zero_add, ← h.total]
    exact s.total.toNat_lt
  rw [evict, ImageStore.evict, h.byRecency, checked_keepWithin h.exact hfits]
  rfl

/-- Time goes on. -/
theorem checked_tick {clock : UInt64} (h : clock.toNat + 1 < UInt64.size) :
    checked.add clock 1 = some (clock + 1) := checked_add h

theorem checked_get (hclock : s.clock.toNat + 1 < UInt64.size) (key : Digest) :
    checked.get s key = some (s.get key) := by
  rw [get, ImageStore.get, checked_tick hclock, Option.bind_eq_bind, Option.bind_some]
  cases s.find? key <;> rfl

/-- Adding an image.  What its key held is part of the total, so it can be taken away, and what is
left is within the budget, so that the sum still fits. -/
theorem checked_set (h : s.Tracks held) (hclock : s.clock.toNat + 1 < UInt64.size) (key : Digest)
    {image : Image} (hfits : (listed held).OpFits s.budget.toNat (.set key image)) :
    checked.set s key image = some (s.set key image) := by
  obtain ⟨hsize, hsum⟩ := hfits
  rw [set, ImageStore.set, checked_imageBytes hsize, Option.bind_eq_bind, Option.bind_some]
  by_cases hlarge : s.budget < PhotoPipeline.imageBytes image
  · rw [if_pos hlarge, if_pos hlarge]
    rfl
  · have hkeep : exactBytes image ≤ s.budget.toNat := by
      rw [← toNat_imageBytes hsize]
      exact UInt64.le_iff_toNat_le.1 (UInt64.not_lt.1 hlarge)
    have horders := h.added hclock hsize (hsum hkeep)
    have hadd : (s.total - ((s.find? key).map StoredImage.bytes).getD 0).toNat +
        (PhotoPipeline.imageBytes image).toNat < UInt64.size := by
      rw [h.toNat_others_add key hsize]
      exact hsum hkeep
    rw [if_neg hlarge, if_neg hlarge, checked_tick hclock, Option.bind_some,
      checked_sub (UInt64.le_iff_toNat_le.1 (h.freed_le key)), Option.bind_some, checked_add hadd,
      Option.bind_some]
    dsimp only
    split
    · exact checked_evict horders
    · rfl

/-- **One operation.** -/
theorem checked_perform (h : s.Tracks held) (hclock : s.clock.toNat + 1 < UInt64.size)
    (op : StoreOp) (hfits : (listed held).OpFits s.budget.toNat op) :
    checked.perform s op = some (s.perform op) := by
  cases op with
  | set key image =>
      rw [perform, checked_set h hclock key hfits]
      rfl
  | get key =>
      rw [perform, checked_get hclock]
      rfl
  | contains key => rfl
  | clear => rfl

end

end Arithmetic

/-! ### Sizes below half a word -/

/-- The image that an operation adds is smaller than half a word. -/
def StoreOp.IsSmall : StoreOp → Prop
  | .set _ image => exactBytes image < 0x8000000000000000
  | _ => True

instance : (op : StoreOp) → Decidable op.IsSmall
  | .set _ image => inferInstanceAs (Decidable (exactBytes image < 0x8000000000000000))
  | .get _ | .contains _ | .clear => inferInstanceAs (Decidable True)

/-- What is kept and what is added are within the budget each, so together they fit. -/
theorem StoreOp.IsSmall.opFits {op : StoreOp} (hop : op.IsSmall) {budget : Nat} {l : Recency}
    (hl : l.bytes ≤ budget) (hbudget : budget < 0x8000000000000000) : l.OpFits budget op := by
  cases op with
  | set key image =>
      have hsize : UInt64.size = 2 * 0x8000000000000000 := rfl
      have hop : exactBytes image < 0x8000000000000000 := hop
      refine ⟨by omega, fun hkeep => ?_⟩
      have hwithout : (l.without key).bytes ≤ l.bytes := Recency.bytes_without_le l key
      rw [Recency.touch, Recency.bytes_cons]
      dsimp only
      omega
  | get key => trivial
  | contains key => trivial
  | clear => trivial

namespace ImageStore

/-! ### The books -/

/-- The bytes that entries are booked with. -/
def bookedBytes : List StoredImage → Nat
  | [] => 0
  | e :: es => e.bytes.toNat + bookedBytes es

/-- The books of a store balance. -/
structure Balanced (s : ImageStore) : Prop where
  total : s.total.toNat = bookedBytes s.entries
  bytes : ∀ e ∈ s.entries, e.bytes = imageBytes e.image
  exact : ∀ e ∈ s.entries, e.bytes.toNat = exactBytes e.image
  stamps : (s.entries.map StoredImage.lastAccess).Nodup
  past : ∀ e ∈ s.entries, e.lastAccess ≤ s.clock

theorem bookedBytes_eq {es : List StoredImage}
    (h : ∀ e ∈ es, e.bytes.toNat = exactBytes e.image) : bookedBytes es = (listed es).bytes := by
  induction es with
  | nil => rfl
  | cons e es ih =>
      obtain ⟨he, hes⟩ := List.forall_mem_cons.1 h
      rw [bookedBytes, ih hes, he, bytes_listed_cons]

section

variable {s : ImageStore} {held : List StoredImage}

/-- **The books of a store that is a list by recency balance.** -/
theorem Orders.balanced (h : s.Orders held) : s.Balanced := by
  have hexact : ∀ e ∈ s.entries, e.bytes.toNat = exactBytes e.image := fun e he =>
    h.exact e (h.perm.mem_iff.2 he)
  refine ⟨?_, fun e he => ?_, hexact, ?_, fun e he => h.past e (h.perm.mem_iff.2 he)⟩
  · rw [h.total, bookedBytes_eq hexact, bytes_listed_perm h.perm]
  · have hsize : exactBytes e.image < UInt64.size := hexact e he ▸ e.bytes.toNat_lt
    exact UInt64.toNat_inj.1 ((hexact e he).trans (toNat_imageBytes hsize).symm)
  · refine (h.perm.map _).nodup_iff.1 (List.pairwise_map.2 ?_)
    exact h.recent.imp fun hlt => (UInt64.ne_of_lt hlt).symm

/-! ### All operations -/

/-- Operations in turn: each of them leaves a store that is a list by recency within its budget, so
the next one fits. -/
theorem Tracks.checked_performAll {steps : List (Rearrangement × StoreOp)} (h : s.Tracks held)
    (hbudget : s.budget.toNat < 0x8000000000000000)
    (hclock : s.clock.toNat + steps.length < UInt64.size)
    (hsmall : ∀ step ∈ steps, step.2.IsSmall) :
    Arithmetic.checked.performAll s steps = some (s.performAll steps) ∧
      ∃ held', (s.performAll steps).2.Tracks held' := by
  induction steps generalizing s held with
  | nil => exact ⟨rfl, held, h⟩
  | cons step steps ih =>
      obtain ⟨r, op⟩ := step
      rw [List.length_cons] at hclock
      obtain ⟨hop, hsmall⟩ := List.forall_mem_cons.1 hsmall
      have hr := h.rearrange r
      have hfits : (listed held).OpFits (s.rearrange r).budget.toNat op :=
        hop.opFits hr.within hbudget
      have htick : (s.rearrange r).clock.toNat + 1 < UInt64.size :=
        Nat.lt_of_le_of_lt (Nat.add_le_add_left (Nat.le_add_left 1 _) _) hclock
      obtain ⟨held', hheld', -⟩ := hr.perform htick op hfits
      have hclock' := clock_perform_le (s.rearrange r) op
      have hsame : (s.rearrange r).clock = s.clock := rfl
      rw [hsame] at hclock'
      obtain ⟨hrest, hlast⟩ := ih hheld' (by rw [budget_perform]; exact hbudget) (by omega) hsmall
      refine ⟨?_, hlast⟩
      rw [Arithmetic.performAll, Arithmetic.checked_perform hr htick op hfits, Option.bind_eq_bind,
        Option.bind_some, hrest]
      rfl

end

/-- **Accounting never wraps.**  Let the budget and the sizes of the images that are added be below
half a word, and let there be fewer operations than a word has values.  Then an arithmetic that
refuses every sum, difference and product that is not exact refuses none, and comes to what the store
comes to; and the books of the store balance: its total is the sum of what its entries are booked
with, which are the sizes of their images, and their stamps are distinct and none is ahead of the
clock.  The operations are any, so this is so after each of them. -/
theorem checked_performAll_empty {budget : UInt64} (hbudget : budget.toNat < 0x8000000000000000)
    {steps : List (Rearrangement × StoreOp)} (hlength : steps.length < UInt64.size)
    (hsmall : ∀ step ∈ steps, step.2.IsSmall) :
    Arithmetic.checked.performAll (empty budget) steps = some ((empty budget).performAll steps) ∧
      ((empty budget).performAll steps).2.Balanced := by
  have hclock : (empty budget).clock.toNat + steps.length < UInt64.size := by
    rw [empty, UInt64.toNat_zero, Nat.zero_add]
    exact hlength
  obtain ⟨hchecked, held, hheld⟩ := (tracks_empty budget).checked_performAll hbudget hclock hsmall
  exact ⟨hchecked, hheld.balanced⟩

/-- After the sample steps, the dot that was added last is replaced by the pair, and what was used
least recently is dropped for it. -/
theorem checked_performAll_replaced :
    let steps := sampleSteps ++ [(⟨id, List.Perm.refl⟩, .set (.replicate 32 4) pairImage)]
    Arithmetic.checked.performAll (empty 3) steps = some ((empty 3).performAll steps) ∧
      ((empty 3).performAll steps).2.Balanced :=
  checked_performAll_empty (by decide) (by decide) (by decide)

end ImageStore

end PhotoPipeline
