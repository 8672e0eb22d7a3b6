/-
**The image store.**

A store keeps images under digests, within a budget of bytes.  Every access is stamped by a clock
that never stands still, so no two images were last used at the same time.  When the images
outgrow the budget, they are kept from the most recently used on for as long as they fit; the
first one that does not fit is dropped, and all older ones with it.

Main definitions:

* `PhotoPipeline.imageBytes` — the size of an image in memory;
* `PhotoPipeline.ImageStore` — the store;
* `PhotoPipeline.ImageStore.get`, `PhotoPipeline.ImageStore.set`,
  `PhotoPipeline.ImageStore.clear`.

Main results:

* `PhotoPipeline.ImageStore.set_of_large` — an image beyond the budget is not kept;
* `PhotoPipeline.ImageStore.entries_clear` — a cleared store is empty.
-/
import PhotoPipeline.Digest.Blake3
import PhotoPipeline.Image.Basic

set_option relaxedAutoImplicit false
set_option autoImplicit false

namespace PhotoPipeline

/-- The size of an image in memory: its pixels times the bytes of one. -/
def imageBytes (i : Image) : UInt64 :=
  i.width.toUInt64 * i.height.toUInt64 * UInt64.ofNat i.format.pixelBytes

/-- An image under its key. -/
structure StoredImage where
  key : Digest
  /-- When the image was last used. -/
  lastAccess : UInt64
  bytes : UInt64
  image : Image
  deriving DecidableEq

/-- Images under digests, bounded by a budget of bytes. -/
structure ImageStore where
  budget : UInt64
  /-- The bytes of all the images together. -/
  total : UInt64
  clock : UInt64
  entries : List StoredImage
  deriving DecidableEq

/-- The budget of a store that is not told otherwise. -/
def defaultBudget : UInt64 := 268435456

namespace ImageStore

/-- The empty store. -/
def empty (budget : UInt64) : ImageStore := ⟨budget, 0, 0, []⟩

/-- The number of images. -/
def size (s : ImageStore) : Nat := s.entries.length

/-- Whether there is no image. -/
def isEmpty (s : ImageStore) : Bool := s.entries.isEmpty

/-- The image under a key. -/
def find? (s : ImageStore) (key : Digest) : Option StoredImage :=
  s.entries.find? fun e => e.key == key

/-- Whether there is an image under a key. -/
def contains (s : ImageStore) (key : Digest) : Bool := (s.find? key).isSome

/-- The image under a key, which becomes the most recently used.  Time passes even if there is no
such image. -/
def get (s : ImageStore) (key : Digest) : Option Image × ImageStore :=
  let now := s.clock + 1
  match s.find? key with
  | none => (none, { s with clock := now })
  | some found =>
    (some found.image,
      { s with
        clock := now
        entries := s.entries.map fun e =>
          if e.key == key then { e with lastAccess := now } else e })

/-- The longest run of images, from the first on, that fits the budget together with the bytes
already kept, and the bytes kept in the end. -/
def keepWithin (budget kept : UInt64) : List StoredImage → UInt64 × List StoredImage
  | [] => (kept, [])
  | e :: es =>
    if kept + e.bytes ≤ budget then
      let rest := keepWithin budget (kept + e.bytes) es
      (rest.1, e :: rest.2)
    else (kept, [])

/-- The images, the most recently used first. -/
def byRecency (s : ImageStore) : List StoredImage :=
  s.entries.mergeSort fun a b => b.lastAccess ≤ a.lastAccess

/-- Drops what does not fit the budget. -/
def evict (s : ImageStore) : ImageStore :=
  let kept := keepWithin s.budget 0 s.byRecency
  { s with total := kept.1, entries := kept.2 }

/-- Puts an image under a key, in place of the one that was there, and drops what does not fit.
An image larger than the whole budget is not kept. -/
def set (s : ImageStore) (key : Digest) (image : Image) : ImageStore :=
  let bytes := imageBytes image
  if s.budget < bytes then s
  else
    let now := s.clock + 1
    -- the bytes of the image that is replaced no longer count
    let freed := ((s.find? key).map StoredImage.bytes).getD 0
    let total := s.total - freed + bytes
    let added : ImageStore :=
      { s with
        clock := now
        total := total
        entries := ⟨key, now, bytes, image⟩ :: s.entries.filter fun e => !(e.key == key) }
    if s.budget < total then added.evict else added

/-- Drops everything. -/
def clear (s : ImageStore) : ImageStore := { s with total := 0, entries := [] }

@[simp] theorem entries_clear (s : ImageStore) : s.clear.entries = [] := rfl

@[simp] theorem total_clear (s : ImageStore) : s.clear.total = 0 := rfl

@[simp] theorem budget_clear (s : ImageStore) : s.clear.budget = s.budget := rfl

theorem budget_get (s : ImageStore) (key : Digest) : (s.get key).2.budget = s.budget := by
  rw [get]
  split <;> rfl

theorem set_of_large {s : ImageStore} {image : Image} (h : s.budget < imageBytes image)
    (key : Digest) : s.set key image = s := by
  simp only [set, if_pos h]

@[simp] theorem budget_set (s : ImageStore) (key : Digest) (image : Image) :
    (s.set key image).budget = s.budget := by
  rw [set]
  split
  · rfl
  · dsimp only
    split <;> rfl

end ImageStore

end PhotoPipeline
