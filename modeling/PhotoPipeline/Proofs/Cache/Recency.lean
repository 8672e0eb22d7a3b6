/-
**The image store is a list by recency.**

The store keeps images under stamps of a clock, a running total of their bytes, and sorts only
when something has to go.  From outside it is a much simpler thing: a list of keys with their
images, the most recently used first.  Reading an image moves it to the front; adding one puts it
in front, in place of what its key held, and then keeps as many images from the front on as fit
the budget.

The entries of the store stand in no particular order, so they may be rearranged between any two
operations.  Sizes and sums of sizes are taken to fit 64 bits, and so is the number of operations,
which the clock counts.

Main definitions:

* `PhotoPipeline.Recency` — the list, with `PhotoPipeline.Recency.get`,
  `PhotoPipeline.Recency.set` and `PhotoPipeline.Recency.fit`, its longest beginning within a
  budget;
* `PhotoPipeline.StoreOp`, `PhotoPipeline.StoreView` — the operations, and what can be seen after
  one;
* `PhotoPipeline.ImageStore.performAll`, `PhotoPipeline.Recency.performAll` — operations in turn;
* `PhotoPipeline.Recency.AllFit` — sizes and sums fit 64 bits;
* `PhotoPipeline.ImageStore.Tracks` — the invariant: the entries by recency.

Main results:

* `PhotoPipeline.Recency.fit_isPrefix`, `PhotoPipeline.Recency.bytes_fit_le`,
  `PhotoPipeline.Recency.prefix_fit` — the longest beginning that fits;
* `PhotoPipeline.ImageStore.Tracks.perform` — one operation;
* `PhotoPipeline.ImageStore.performAll_empty` — **the store shows what the list shows**.
-/
import Mathlib.Data.List.Pairwise
import Mathlib.Data.List.Perm.Basic
import PhotoPipeline.Cache.Store

set_option relaxedAutoImplicit false
set_option autoImplicit false

namespace PhotoPipeline

/-! ### The list -/

/-- The size of an image, however large. -/
def exactBytes (i : Image) : Nat := i.width.toNat * i.height.toNat * i.format.pixelBytes

/-- Keys with their images, the most recently used first. -/
abbrev Recency := List (Digest × Image)

namespace Recency

/-- The bytes of all the images together. -/
def bytes : Recency → Nat
  | [] => 0
  | e :: l => exactBytes e.2 + bytes l

/-- The list without a key. -/
def without (l : Recency) (key : Digest) : Recency := l.filter fun e => !(e.1 == key)

/-- The list with an image in front, in place of what its key held. -/
def touch (l : Recency) (key : Digest) (image : Image) : Recency := (key, image) :: l.without key

/-- The longest beginning of the list within a budget. -/
def fit (budget : Nat) : Recency → Recency
  | [] => []
  | e :: l => if exactBytes e.2 ≤ budget then e :: fit (budget - exactBytes e.2) l else []

/-- The image under a key, which is moved to the front. -/
def get (l : Recency) (key : Digest) : Option Image × Recency :=
  match l.lookup key with
  | none => (none, l)
  | some image => (some image, l.touch key image)

/-- Puts an image in front and keeps what fits; an image larger than the budget is not taken. -/
def set (budget : Nat) (l : Recency) (key : Digest) (image : Image) : Recency :=
  if budget < exactBytes image then l else fit budget (l.touch key image)

theorem bytes_cons (e : Digest × Image) (l : Recency) :
    bytes (e :: l) = exactBytes e.2 + bytes l := rfl

theorem bytes_perm {l l' : Recency} (h : l.Perm l') : l.bytes = l'.bytes := by
  induction h with
  | nil => rfl
  | cons e _ ih => rw [bytes_cons, bytes_cons, ih]
  | swap e f l =>
      rw [bytes_cons, bytes_cons, bytes_cons, bytes_cons]
      omega
  | trans _ _ ih ih' => exact ih.trans ih'

theorem bytes_without_le (l : Recency) (key : Digest) : (l.without key).bytes ≤ l.bytes := by
  induction l with
  | nil => exact Nat.le_refl 0
  | cons e l ih =>
      rw [bytes_cons, without, List.filter_cons]
      split
      · exact Nat.add_le_add_left ih _
      · exact Nat.le_add_left_of_le ih

theorem fit_isPrefix (budget : Nat) (l : Recency) : fit budget l <+: l := by
  induction l generalizing budget with
  | nil => exact List.prefix_refl []
  | cons e l ih =>
      rw [fit]
      split
      · exact List.cons_prefix_cons.2 ⟨rfl, ih _⟩
      · exact List.nil_prefix

theorem bytes_fit_le (budget : Nat) (l : Recency) : bytes (fit budget l) ≤ budget := by
  induction l generalizing budget with
  | nil => exact Nat.zero_le budget
  | cons e l ih =>
      rw [fit]
      split
      · next h =>
          have := ih (budget - exactBytes e.2)
          rw [bytes_cons]
          omega
      · exact Nat.zero_le budget

/-- No longer beginning fits. -/
theorem prefix_fit {budget : Nat} {l p : Recency} (hp : p <+: l) (h : bytes p ≤ budget) :
    p <+: fit budget l := by
  induction l generalizing budget p with
  | nil => exact List.prefix_nil.1 hp ▸ List.nil_prefix
  | cons e l ih =>
      cases p with
      | nil => exact List.nil_prefix
      | cons f p =>
          obtain ⟨rfl, htail⟩ := List.cons_prefix_cons.1 hp
          rw [bytes_cons] at h
          rw [fit, if_pos (by omega)]
          exact List.cons_prefix_cons.2 ⟨rfl, ih htail (by omega)⟩

theorem fit_eq_self {budget : Nat} {l : Recency} (h : bytes l ≤ budget) : fit budget l = l :=
  List.IsPrefix.eq_of_length_le (fit_isPrefix budget l)
    (prefix_fit (List.prefix_refl l) h).length_le

/-- The image just added is kept. -/
theorem set_eq_cons {budget : Nat} {image : Image} (h : exactBytes image ≤ budget) (l : Recency)
    (key : Digest) : ∃ l', l.set budget key image = (key, image) :: l' := by
  rw [set, if_neg (Nat.not_lt.2 h), touch, fit, if_pos h]
  exact ⟨_, rfl⟩

end Recency

/-! ### Operations -/

/-- What can be asked of a store. -/
inductive StoreOp where
  | set (key : Digest) (image : Image)
  | get (key : Digest)
  | contains (key : Digest)
  | clear

/-- What an operation answers. -/
inductive StoreAnswer where
  | nothing
  | image (found : Option Image)
  | present (b : Bool)
  deriving DecidableEq

/-- What can be seen after an operation. -/
structure StoreView where
  answer : StoreAnswer
  size : Nat
  isEmpty : Bool
  total : Nat
  deriving DecidableEq

namespace Recency

/-- What the list shows. -/
def view (l : Recency) (answer : StoreAnswer) : StoreView := ⟨answer, l.length, l.isEmpty, l.bytes⟩

/-- An operation on the list. -/
def perform (budget : Nat) (l : Recency) : StoreOp → StoreView × Recency
  | .set key image => ((l.set budget key image).view .nothing, l.set budget key image)
  | .get key => ((l.get key).2.view (.image (l.get key).1), (l.get key).2)
  | .contains key => (l.view (.present (l.lookup key).isSome), l)
  | .clear => (view [] .nothing, [])

/-- Operations on the list in turn. -/
def performAll (budget : Nat) : Recency → List StoreOp → List StoreView × Recency
  | l, [] => ([], l)
  | l, op :: ops =>
    let first := l.perform budget op
    let others := performAll budget first.2 ops
    (first.1 :: others.1, others.2)

/-- The last operation of several. -/
theorem performAll_concat (budget : Nat) (l : Recency) (ops : List StoreOp) (op : StoreOp) :
    l.performAll budget (ops ++ [op]) =
      ((l.performAll budget ops).1 ++ [((l.performAll budget ops).2.perform budget op).1],
        ((l.performAll budget ops).2.perform budget op).2) := by
  induction ops generalizing l with
  | nil => rfl
  | cons first ops ih =>
      rw [List.cons_append, performAll, ih, performAll]
      rfl

/-- The sizes that an operation computes fit 64 bits. -/
def OpFits (budget : Nat) (l : Recency) : StoreOp → Prop
  | .set key image => exactBytes image < UInt64.size ∧
      (exactBytes image ≤ budget → bytes (l.touch key image) < UInt64.size)
  | _ => True

/-- The sizes that the operations compute fit 64 bits. -/
def AllFit (budget : Nat) : Recency → List StoreOp → Prop
  | _, [] => True
  | l, op :: ops => OpFits budget l op ∧ AllFit budget (l.perform budget op).2 ops

instance (budget : Nat) (l : Recency) : (op : StoreOp) → Decidable (OpFits budget l op)
  | .set key image => inferInstanceAs (Decidable (exactBytes image < UInt64.size ∧
      (exactBytes image ≤ budget → bytes (l.touch key image) < UInt64.size)))
  | .get _ | .contains _ | .clear => inferInstanceAs (Decidable True)

instance decidableAllFit (budget : Nat) :
    (l : Recency) → (ops : List StoreOp) → Decidable (AllFit budget l ops)
  | _, [] => inferInstanceAs (Decidable True)
  | l, op :: ops =>
    have := decidableAllFit budget (l.perform budget op).2 ops
    inferInstanceAs (Decidable (OpFits budget l op ∧ AllFit budget (l.perform budget op).2 ops))

end Recency

/-- A way to rearrange entries. -/
structure Rearrangement where
  apply : List StoredImage → List StoredImage
  perm : ∀ l, (apply l).Perm l

namespace ImageStore

/-- What the store shows. -/
def view (s : ImageStore) (answer : StoreAnswer) : StoreView :=
  ⟨answer, s.size, s.isEmpty, s.total.toNat⟩

/-- An operation on the store. -/
def perform (s : ImageStore) : StoreOp → StoreView × ImageStore
  | .set key image => ((s.set key image).view .nothing, s.set key image)
  | .get key => ((s.get key).2.view (.image (s.get key).1), (s.get key).2)
  | .contains key => (s.view (.present (s.contains key)), s)
  | .clear => (s.clear.view .nothing, s.clear)

/-- The store with its entries in another order. -/
def rearrange (s : ImageStore) (r : Rearrangement) : ImageStore :=
  { s with entries := r.apply s.entries }

/-- Operations on the store in turn, before each of which its entries are rearranged. -/
def performAll : ImageStore → List (Rearrangement × StoreOp) → List StoreView × ImageStore
  | s, [] => ([], s)
  | s, (r, op) :: ops =>
    let first := (s.rearrange r).perform op
    let others := performAll first.2 ops
    (first.1 :: others.1, others.2)

end ImageStore

/-! ### The invariant -/

/-- The keys and images of entries. -/
def listed (held : List StoredImage) : Recency := held.map fun e => (e.key, e.image)

/-- The entries of the store by recency are `held`, and its total is theirs. -/
structure ImageStore.Orders (s : ImageStore) (held : List StoredImage) : Prop where
  perm : held.Perm s.entries
  recent : held.Pairwise fun a b => b.lastAccess < a.lastAccess
  past : ∀ e ∈ held, e.lastAccess ≤ s.clock
  exact : ∀ e ∈ held, e.bytes.toNat = exactBytes e.image
  distinct : (held.map StoredImage.key).Nodup
  total : s.total.toNat = (listed held).bytes

/-- The same, and what is held is within the budget. -/
structure ImageStore.Tracks (s : ImageStore) (held : List StoredImage) : Prop extends
    s.Orders held where
  within : (listed held).bytes ≤ s.budget.toNat

/-! ### Entries by key -/

section

variable {held entries : List StoredImage} {key : Digest} {e : StoredImage}

theorem find?_key_eq_some_iff (h : (held.map StoredImage.key).Nodup) :
    held.find? (fun e => e.key == key) = some e ↔ e ∈ held ∧ e.key = key := by
  constructor
  · intro he
    have hkey := List.find?_some he
    exact ⟨List.mem_of_find?_eq_some he, eq_of_beq hkey⟩
  · rintro ⟨hmem, rfl⟩
    induction held with
    | nil => exact nomatch hmem
    | cons f held ih =>
        obtain ⟨hf, hheld⟩ := List.nodup_cons.1 h
        rw [List.find?_cons]
        rcases List.mem_cons.1 hmem with rfl | hmem
        · rw [beq_self_eq_true]
        · have hne : (f.key == e.key) = false := by
            rw [Bool.eq_false_iff]
            intro heq
            exact hf (eq_of_beq heq ▸ List.mem_map_of_mem hmem)
          rw [hne]
          exact ih hheld hmem

/-- Looking a key up does not depend on the order of the entries. -/
theorem find?_key_perm (hperm : held.Perm entries) (h : (held.map StoredImage.key).Nodup) :
    entries.find? (fun e => e.key == key) = held.find? fun e => e.key == key := by
  have h' : (entries.map StoredImage.key).Nodup := (hperm.map _).nodup_iff.1 h
  refine Option.ext fun e => ?_
  rw [find?_key_eq_some_iff h, find?_key_eq_some_iff h', hperm.mem_iff]

theorem lookup_listed (held : List StoredImage) (key : Digest) :
    (listed held).lookup key = (held.find? fun e => e.key == key).map StoredImage.image := by
  induction held with
  | nil => rfl
  | cons e held ih =>
      rw [listed, List.map_cons, List.lookup_cons, List.find?_cons]
      have hsymm : (key == e.key) = (e.key == key) := BEq.comm
      rw [hsymm]
      cases e.key == key with
      | true => rfl
      | false => exact ih

/-- The entries without a key. -/
def dropping (key : Digest) (held : List StoredImage) : List StoredImage :=
  held.filter fun e => !(e.key == key)

theorem listed_dropping (key : Digest) (held : List StoredImage) :
    listed (dropping key held) = (listed held).without key := by
  rw [listed, dropping, Recency.without, listed, List.filter_map]
  rfl

theorem dropping_eq_self (h : held.find? (fun e => e.key == key) = none) :
    dropping key held = held := by
  rw [dropping, List.filter_eq_self]
  intro e he
  have := List.find?_eq_none.1 h e he
  simpa using this

theorem key_notMem_dropping (key : Digest) (held : List StoredImage) :
    key ∉ (dropping key held).map StoredImage.key := by
  intro h
  obtain ⟨e, he, rfl⟩ := List.mem_map.1 h
  simp [dropping] at he

/-- Entries with different keys are one entry and those without its key. -/
theorem perm_cons_dropping (h : (held.map StoredImage.key).Nodup) (he : e ∈ held) :
    held.Perm (e :: dropping e.key held) := by
  induction held with
  | nil => exact nomatch he
  | cons f held ih =>
      obtain ⟨hf, hheld⟩ := List.nodup_cons.1 h
      rcases List.mem_cons.1 he with rfl | he
      · have hdrop : dropping e.key (e :: held) = held := by
          rw [dropping, List.filter_cons_of_neg (by simp)]
          refine dropping_eq_self (List.find?_eq_none.2 fun g hg heq => ?_)
          exact hf (eq_of_beq heq ▸ List.mem_map_of_mem hg)
        rw [hdrop]
      · have hne : f.key ≠ e.key := by
          intro heq
          exact hf (heq ▸ List.mem_map_of_mem he)
        have hdrop : dropping e.key (f :: held) = f :: dropping e.key held := by
          rw [dropping, List.filter_cons_of_pos (by simpa using hne)]
          rfl
        rw [hdrop]
        exact ((ih hheld he).cons f).trans (List.Perm.swap e f _)

theorem bytes_listed_perm {held' : List StoredImage} (h : held.Perm held') :
    (listed held).bytes = (listed held').bytes :=
  Recency.bytes_perm (h.map _)

end

/-! ### Sizes -/

theorem toNat_add_of_lt {a b : UInt64} (h : a.toNat + b.toNat < UInt64.size) :
    (a + b).toNat = a.toNat + b.toNat := by
  rw [UInt64.toNat_add]
  exact Nat.mod_eq_of_lt h

theorem toNat_mul_of_lt {a b : UInt64} (h : a.toNat * b.toNat < UInt64.size) :
    (a * b).toNat = a.toNat * b.toNat := by
  rw [UInt64.toNat_mul]
  exact Nat.mod_eq_of_lt h

/-- The pixels of an image can be counted with 64 bits. -/
theorem pixels_lt (i : Image) : i.width.toNat * i.height.toNat < UInt64.size := by
  have hsides : i.width.toNat * i.height.toNat ≤ 4294967295 * 4294967295 :=
    Nat.mul_le_mul (Nat.le_of_lt_succ i.width.toNat_lt) (Nat.le_of_lt_succ i.height.toNat_lt)
  exact Nat.lt_of_le_of_lt hsides (by decide)

theorem toNat_pixelBytes (i : Image) :
    (UInt64.ofNat i.format.pixelBytes).toNat = i.format.pixelBytes := by
  have hp := i.format.pixelBytes_le
  have hsize : UInt64.size = 2 ^ 64 := rfl
  exact UInt64.toNat_ofNat_of_lt' (by omega)

theorem toNat_pixels (i : Image) : (i.width.toUInt64 * i.height.toUInt64).toNat =
    i.width.toNat * i.height.toNat := by
  rw [← UInt32.toNat_toUInt64, ← UInt32.toNat_toUInt64]
  exact toNat_mul_of_lt (pixels_lt i)

theorem toNat_imageBytes {i : Image} (h : exactBytes i < UInt64.size) :
    (imageBytes i).toNat = exactBytes i := by
  have hproduct : (i.width.toUInt64 * i.height.toUInt64).toNat *
      (UInt64.ofNat i.format.pixelBytes).toNat = exactBytes i := by
    rw [toNat_pixels, toNat_pixelBytes, exactBytes]
  rw [imageBytes, toNat_mul_of_lt (hproduct ▸ h), hproduct]

theorem bytes_listed_cons (e : StoredImage) (held : List StoredImage) :
    (listed (e :: held)).bytes = exactBytes e.image + (listed held).bytes := rfl

/-- Whatever the sizes, a beginning is kept. -/
theorem keepWithin_isPrefix (budget kept : UInt64) (held : List StoredImage) :
    (ImageStore.keepWithin budget kept held).2 <+: held := by
  induction held generalizing kept with
  | nil => exact List.prefix_refl []
  | cons e held ih =>
      rw [ImageStore.keepWithin]
      split
      · exact List.cons_prefix_cons.2 ⟨rfl, ih _⟩
      · exact List.nil_prefix

/-- Keeping what fits, with bytes of 64 bits that do not overflow. -/
theorem keepWithin_spec {budget kept : UInt64} {held : List StoredImage}
    (hexact : ∀ e ∈ held, e.bytes.toNat = exactBytes e.image)
    (hfits : kept.toNat + (listed held).bytes < UInt64.size) (hkept : kept ≤ budget) :
    listed (ImageStore.keepWithin budget kept held).2 =
        Recency.fit (budget.toNat - kept.toNat) (listed held) ∧
      (ImageStore.keepWithin budget kept held).1.toNat =
        kept.toNat + (listed (ImageStore.keepWithin budget kept held).2).bytes := by
  induction held generalizing kept with
  | nil => exact ⟨rfl, rfl⟩
  | cons e held ih =>
      have he : e.bytes.toNat = exactBytes e.image := hexact e List.mem_cons_self
      rw [bytes_listed_cons] at hfits
      -- nothing wraps around, as all the sizes together fit
      have hsum : (kept + e.bytes).toNat = kept.toNat + exactBytes e.image := by
        rw [toNat_add_of_lt (by omega), he]
      have hle : kept.toNat ≤ budget.toNat := UInt64.le_iff_toNat_le.1 hkept
      by_cases hfit : kept + e.bytes ≤ budget
      · have hfit' : exactBytes e.image ≤ budget.toNat - kept.toNat := by
          rw [UInt64.le_iff_toNat_le, hsum] at hfit
          omega
        obtain ⟨hlist, htotal⟩ := ih (fun f hf => hexact f (List.mem_cons_of_mem e hf))
          (by rw [hsum]; omega) hfit
        rw [hsum] at hlist htotal
        simp only [ImageStore.keepWithin, if_pos hfit]
        constructor
        · have hsub : budget.toNat - (kept.toNat + exactBytes e.image) =
              budget.toNat - kept.toNat - exactBytes e.image := by omega
          rw [listed, List.map_cons, listed, List.map_cons, Recency.fit, if_pos hfit', ← hsub]
          exact congrArg _ hlist
        · rw [htotal, bytes_listed_cons]
          omega
      · have hfit' : ¬ exactBytes e.image ≤ budget.toNat - kept.toNat := by
          rw [UInt64.le_iff_toNat_le, hsum] at hfit
          omega
        simp only [ImageStore.keepWithin, if_neg hfit]
        refine ⟨?_, rfl⟩
        rw [listed, listed, List.map_cons, Recency.fit, if_neg hfit']
        rfl

/-! ### One operation -/

namespace ImageStore

variable {s : ImageStore} {held : List StoredImage}

theorem tracks_empty (budget : UInt64) : (empty budget).Tracks [] where
  perm := List.Perm.refl []
  recent := List.Pairwise.nil
  past := fun _ he => nomatch he
  exact := fun _ he => nomatch he
  distinct := List.nodup_nil
  total := rfl
  within := Nat.zero_le _

theorem tracks_clear (s : ImageStore) : s.clear.Tracks [] where
  perm := List.Perm.refl []
  recent := List.Pairwise.nil
  past := fun _ he => nomatch he
  exact := fun _ he => nomatch he
  distinct := List.nodup_nil
  total := rfl
  within := Nat.zero_le _

/-- The order of the entries does not matter. -/
theorem Orders.rearrange (h : s.Orders held) (r : Rearrangement) : (s.rearrange r).Orders held :=
  { h with perm := h.perm.trans (r.perm s.entries).symm }

theorem Tracks.rearrange (h : s.Tracks held) (r : Rearrangement) : (s.rearrange r).Tracks held :=
  ⟨h.toOrders.rearrange r, h.within⟩

theorem Orders.find? (h : s.Orders held) (key : Digest) :
    s.find? key = held.find? fun e => e.key == key := find?_key_perm h.perm h.distinct

/-- The image under a key is the one that the list has. -/
theorem Orders.lookup (h : s.Orders held) (key : Digest) :
    (listed held).lookup key = (s.find? key).map StoredImage.image := by
  rw [lookup_listed, h.find?]

theorem Orders.view (h : s.Orders held) (answer : StoreAnswer) :
    s.view answer = (listed held).view answer := by
  have hlength : s.entries.length = (listed held).length := by
    rw [listed, List.length_map, h.perm.length_eq]
  have hempty : s.entries.isEmpty = (listed held).isEmpty := by
    rw [Bool.eq_iff_iff, List.isEmpty_iff, List.isEmpty_iff, ← List.length_eq_zero_iff, hlength,
      List.length_eq_zero_iff]
  rw [ImageStore.view, Recency.view, h.total, size, isEmpty, hlength, hempty]

/-- Time goes on by one. -/
theorem lt_tick {clock t : UInt64} (hclock : clock.toNat + 1 < UInt64.size) (h : t ≤ clock) :
    t < clock + 1 := by
  have htick : (clock + 1).toNat = clock.toNat + 1 := toNat_add_of_lt hclock
  rw [UInt64.lt_iff_toNat_lt, htick]
  exact Nat.lt_succ_of_le (UInt64.le_iff_toNat_le.1 h)

/-- An entry with the latest stamp comes first; nothing else has its key. -/
theorem Orders.cons_dropping (h : s.Orders held) (new : StoredImage) {key : Digest}
    (hclock : s.clock.toNat + 1 < UInt64.size) (hkey : new.key = key)
    (hstamp : new.lastAccess = s.clock + 1) (hexact : new.bytes.toNat = exactBytes new.image) :
    (new :: dropping key held).Pairwise (fun a b => b.lastAccess < a.lastAccess) ∧
      (∀ e ∈ new :: dropping key held, e.lastAccess ≤ s.clock + 1) ∧
      (∀ e ∈ new :: dropping key held, e.bytes.toNat = exactBytes e.image) ∧
      ((new :: dropping key held).map StoredImage.key).Nodup := by
  have hsub : (dropping key held).Sublist held := List.filter_sublist
  refine ⟨?_, ?_, ?_, ?_⟩
  · refine List.pairwise_cons.2 ⟨fun e he => ?_, h.recent.sublist hsub⟩
    rw [hstamp]
    exact lt_tick hclock (h.past e (hsub.mem he))
  · refine List.forall_mem_cons.2 ⟨UInt64.le_of_eq hstamp, fun e he => ?_⟩
    exact UInt64.le_of_lt (lt_tick hclock (h.past e (hsub.mem he)))
  · exact List.forall_mem_cons.2 ⟨hexact, fun e he => h.exact e (hsub.mem he)⟩
  · rw [List.map_cons, hkey]
    exact List.nodup_cons.2 ⟨key_notMem_dropping key held, h.distinct.sublist (hsub.map _)⟩

/-- Reading an image moves it to the front; reading none only lets time pass. -/
theorem Tracks.get (h : s.Tracks held) (hclock : s.clock.toNat + 1 < UInt64.size) (key : Digest) :
    ∃ held', (s.get key).2.Tracks held' ∧
      (listed held).get key = ((s.get key).1, listed held') := by
  rw [Recency.get, h.lookup, ImageStore.get]
  cases hfind : s.find? key with
  | none =>
      refine ⟨held, { h with past := fun e he => ?_ }, rfl⟩
      exact UInt64.le_of_lt (lt_tick hclock (h.past e he))
  | some e =>
      obtain ⟨hmem, hkey⟩ := (find?_key_eq_some_iff h.distinct).1 ((h.find? key).symm.trans hfind)
      -- the entry found comes first under its new stamp; the others keep their order
      let used : StoredImage := { e with lastAccess := s.clock + 1 }
      have hsplit : held.Perm (e :: dropping key held) :=
        hkey ▸ perm_cons_dropping h.distinct hmem
      have hperm : (used :: dropping key held).Perm (s.entries.map fun f =>
          if f.key == key then { f with lastAccess := s.clock + 1 } else f) := by
        refine List.Perm.trans (List.Perm.of_eq ?_) ((h.perm.symm.trans hsplit).map _).symm
        rw [List.map_cons, if_pos (beq_iff_eq.2 hkey), List.map_congr_left (g := id), List.map_id]
        intro f hf
        have hne := (List.mem_filter.1 hf).2
        rw [Bool.not_eq_true'] at hne
        rw [hne]
        rfl
      have hbytes : (listed (used :: dropping key held)).bytes = (listed held).bytes :=
        (bytes_listed_perm hsplit).symm
      obtain ⟨hrecent, hpast, hexact, hdistinct⟩ :=
        h.cons_dropping used hclock hkey rfl (h.exact e hmem)
      refine ⟨used :: dropping key held, ⟨⟨hperm, hrecent, hpast, hexact, hdistinct, ?_⟩, ?_⟩, ?_⟩
      · exact h.total.trans hbytes.symm
      · exact Nat.le_trans (Nat.le_of_eq hbytes) h.within
      · rw [← hkey]
        exact congrArg (fun l => (some e.image, (e.key, e.image) :: l)) (listed_dropping _ _).symm

theorem Orders.eq_of_lastAccess_eq (h : s.Orders held) {a b : StoredImage} (ha : a ∈ held)
    (hb : b ∈ held) (heq : a.lastAccess = b.lastAccess) : a = b := by
  have hdiffer : held.Pairwise fun a b => a.lastAccess ≠ b.lastAccess :=
    h.recent.imp fun hlt => (UInt64.ne_of_lt hlt).symm
  by_contra hne
  have : Std.Symm fun a b : StoredImage => a.lastAccess ≠ b.lastAccess := ⟨fun _ _ h => h.symm⟩
  exact hdiffer.forall ha hb hne heq

/-- Sorting the entries gives the list. -/
theorem Orders.byRecency (h : s.Orders held) : s.byRecency = held := by
  have hsorted : s.byRecency.Pairwise fun a b => b.lastAccess ≤ a.lastAccess := by
    refine (List.pairwise_mergeSort (fun a b c hab hbc => ?_) (fun a b => ?_) s.entries).imp
      of_decide_eq_true
    · exact decide_eq_true (UInt64.le_trans (of_decide_eq_true hbc) (of_decide_eq_true hab))
    · rw [Bool.or_eq_true, decide_eq_true_iff, decide_eq_true_iff]
      exact UInt64.le_total b.lastAccess a.lastAccess
  have hperm : s.byRecency.Perm held := (List.mergeSort_perm _ _).trans h.perm.symm
  -- no two stamps are equal, so only one order of the entries is sorted
  refine List.Perm.eq_of_pairwise (fun a b ha hb hba hab => ?_) hsorted
    (h.recent.imp UInt64.le_of_lt) hperm
  exact h.eq_of_lastAccess_eq (hperm.mem_iff.1 ha) hb (UInt64.le_antisymm hab hba)

/-- What is kept is the longest beginning of the list that fits. -/
theorem Orders.evict (h : s.Orders held) :
    ∃ held', s.evict.Tracks held' ∧ listed held' = (listed held).fit s.budget.toNat := by
  have hfits : (0 : UInt64).toNat + (listed held).bytes < UInt64.size := by
    rw [UInt64.toNat_zero, Nat.zero_add, ← h.total]
    exact s.total.toNat_lt
  obtain ⟨hlist, htotal⟩ := keepWithin_spec h.exact hfits (UInt64.zero_le (a := s.budget))
  have hsub := (keepWithin_isPrefix s.budget 0 held).sublist
  rw [UInt64.toNat_zero, Nat.sub_zero] at hlist
  rw [UInt64.toNat_zero, Nat.zero_add] at htotal
  rw [ImageStore.evict, h.byRecency]
  refine ⟨_, ⟨⟨List.Perm.refl _, h.recent.sublist hsub, fun e he => h.past e (hsub.mem he),
    fun e he => h.exact e (hsub.mem he), h.distinct.sublist (hsub.map _), htotal⟩, ?_⟩, hlist⟩
  rw [hlist]
  exact Recency.bytes_fit_le _ _

/-- What the image under a key takes of the total. -/
theorem Orders.bytes_dropping (h : s.Orders held) (key : Digest) :
    (listed held).bytes = (((s.find? key).map StoredImage.bytes).getD 0).toNat +
      ((listed held).without key).bytes := by
  rw [← listed_dropping, h.find?]
  cases hfind : held.find? (fun e => e.key == key) with
  | none =>
      rw [dropping_eq_self hfind]
      exact (Nat.zero_add _).symm
  | some e =>
      obtain ⟨hmem, rfl⟩ := (find?_key_eq_some_iff h.distinct).1 hfind
      rw [bytes_listed_perm (perm_cons_dropping h.distinct hmem), bytes_listed_cons,
        ← h.exact e hmem]
      rfl

/-- What the image under a key takes of the total can be taken away from it. -/
theorem Orders.freed_le (h : s.Orders held) (key : Digest) :
    ((s.find? key).map StoredImage.bytes).getD 0 ≤ s.total := by
  rw [UInt64.le_iff_toNat_le, h.total, h.bytes_dropping key]
  exact Nat.le_add_right _ _

/-- The other images have what is left. -/
theorem Orders.toNat_others (h : s.Orders held) (key : Digest) :
    (s.total - ((s.find? key).map StoredImage.bytes).getD 0).toNat =
      ((listed held).without key).bytes := by
  rw [UInt64.toNat_sub_of_le _ _ (h.freed_le key), h.total, h.bytes_dropping key]
  exact Nat.add_sub_cancel_left _ _

/-- Together with the image that is added, that is the list with the image in front. -/
theorem Orders.toNat_others_add (h : s.Orders held) (key : Digest) {image : Image}
    (hsize : exactBytes image < UInt64.size) :
    (s.total - ((s.find? key).map StoredImage.bytes).getD 0).toNat + (imageBytes image).toNat =
      ((listed held).touch key image).bytes := by
  rw [h.toNat_others, toNat_imageBytes hsize, Recency.touch, Recency.bytes_cons, Nat.add_comm]

/-- The total goes along when an image takes the place of what its key held. -/
theorem Orders.toNat_total (h : s.Orders held) {key : Digest} {image : Image}
    (hsize : exactBytes image < UInt64.size)
    (hsum : ((listed held).touch key image).bytes < UInt64.size) :
    (s.total - ((s.find? key).map StoredImage.bytes).getD 0 + imageBytes image).toNat =
      ((listed held).touch key image).bytes := by
  have hadd := h.toNat_others_add key hsize
  rw [toNat_add_of_lt (hadd ▸ hsum), hadd]

/-- The store with an image added, before anything is dropped. -/
theorem Orders.added (h : s.Orders held) (hclock : s.clock.toNat + 1 < UInt64.size) {key : Digest}
    {image : Image} (hsize : exactBytes image < UInt64.size)
    (hsum : ((listed held).touch key image).bytes < UInt64.size) :
    ({ s with
      clock := s.clock + 1
      total := s.total - ((s.find? key).map StoredImage.bytes).getD 0 + imageBytes image
      entries := ⟨key, s.clock + 1, imageBytes image, image⟩ ::
        s.entries.filter fun e => !(e.key == key) } : ImageStore).Orders
      (⟨key, s.clock + 1, imageBytes image, image⟩ :: dropping key held) := by
  let new : StoredImage := ⟨key, s.clock + 1, imageBytes image, image⟩
  have htouch : (listed held).touch key image = listed (new :: dropping key held) :=
    congrArg (List.cons _) (listed_dropping key held).symm
  obtain ⟨hrecent, hpast, hexact, hdistinct⟩ :=
    h.cons_dropping new hclock rfl rfl (toNat_imageBytes hsize)
  exact ⟨(h.perm.filter _).cons new, hrecent, hpast, hexact, hdistinct,
    (h.toNat_total hsize hsum).trans (congrArg Recency.bytes htouch)⟩

/-- Adding an image puts it in front and keeps what fits. -/
theorem Tracks.set (h : s.Tracks held) (hclock : s.clock.toNat + 1 < UInt64.size) (key : Digest)
    (image : Image) (hfits : (listed held).OpFits s.budget.toNat (.set key image)) :
    ∃ held', (s.set key image).Tracks held' ∧
      listed held' = (listed held).set s.budget.toNat key image := by
  obtain ⟨hsize, hsum⟩ := hfits
  have hlarge : s.budget < imageBytes image ↔ s.budget.toNat < exactBytes image := by
    rw [UInt64.lt_iff_toNat_lt, toNat_imageBytes hsize]
  by_cases hbudget : s.budget < imageBytes image
  · rw [set_of_large hbudget, Recency.set, if_pos (hlarge.1 hbudget)]
    exact ⟨held, h, rfl⟩
  · have hkeep : ¬ s.budget.toNat < exactBytes image := fun hlt => hbudget (hlarge.2 hlt)
    have horders := h.added hclock hsize (hsum (Nat.le_of_not_lt hkeep))
    let new : StoredImage := ⟨key, s.clock + 1, imageBytes image, image⟩
    have htouch : (listed held).touch key image = listed (new :: dropping key held) :=
      congrArg (List.cons _) (listed_dropping key held).symm
    rw [Recency.set, if_neg hkeep, htouch]
    simp only [ImageStore.set, if_neg hbudget]
    -- what is over the budget is dropped, and else the whole list fits
    split
    · exact horders.evict
    · next hwithin =>
        have hwithin : (listed (new :: dropping key held)).bytes ≤ s.budget.toNat := by
          rw [← horders.total, ← UInt64.le_iff_toNat_le]
          exact UInt64.not_lt.1 hwithin
        exact ⟨new :: dropping key held, ⟨horders, hwithin⟩, (Recency.fit_eq_self hwithin).symm⟩

/-- **One operation.**  It shows what the operation on the list shows. -/
theorem Tracks.perform (h : s.Tracks held) (hclock : s.clock.toNat + 1 < UInt64.size)
    (op : StoreOp) (hfits : (listed held).OpFits s.budget.toNat op) :
    ∃ held', (s.perform op).2.Tracks held' ∧
      (listed held).perform s.budget.toNat op = ((s.perform op).1, listed held') := by
  cases op with
  | set key image =>
      obtain ⟨held', htracks, hlist⟩ := h.set hclock key image hfits
      refine ⟨held', htracks, ?_⟩
      rw [Recency.perform, ← hlist, ImageStore.perform, htracks.view]
  | get key =>
      obtain ⟨held', htracks, hlist⟩ := h.get hclock key
      refine ⟨held', htracks, ?_⟩
      rw [Recency.perform, hlist, ImageStore.perform, htracks.view]
  | contains key =>
      refine ⟨held, h, ?_⟩
      rw [Recency.perform, h.lookup, ImageStore.perform, h.view, Option.isSome_map]
      rfl
  | clear =>
      refine ⟨[], tracks_clear s, ?_⟩
      rw [Recency.perform, ImageStore.perform, (tracks_clear s).view]
      rfl

theorem budget_perform (s : ImageStore) (op : StoreOp) : (s.perform op).2.budget = s.budget := by
  cases op with
  | set key image => exact budget_set s key image
  | get key => exact budget_get s key
  | contains key => rfl
  | clear => rfl

/-- An operation takes at most one tick. -/
theorem clock_perform_le (s : ImageStore) (op : StoreOp) :
    (s.perform op).2.clock.toNat ≤ s.clock.toNat + 1 := by
  have htick : (s.clock + 1).toNat ≤ s.clock.toNat + 1 := by
    rw [UInt64.toNat_add]
    exact Nat.mod_le _ _
  cases op with
  | set key image =>
      simp only [perform, set]
      split
      · exact Nat.le_succ _
      · split <;> exact htick
  | get key =>
      simp only [perform, get]
      split <;> exact htick
  | contains key => exact Nat.le_succ _
  | clear => exact Nat.le_succ _

/-- Operations in turn. -/
theorem Tracks.performAll {steps : List (Rearrangement × StoreOp)} (h : s.Tracks held)
    (hclock : s.clock.toNat + steps.length < UInt64.size)
    (hfits : (listed held).AllFit s.budget.toNat (steps.map Prod.snd)) :
    ∃ held', (s.performAll steps).2.Tracks held' ∧ (s.performAll steps).2.budget = s.budget ∧
      (listed held).performAll s.budget.toNat (steps.map Prod.snd) =
        ((s.performAll steps).1, listed held') := by
  induction steps generalizing s held with
  | nil => exact ⟨held, h, rfl, rfl⟩
  | cons step steps ih =>
      obtain ⟨r, op⟩ := step
      rw [List.length_cons] at hclock
      obtain ⟨hop, hrest⟩ := hfits
      have hbudget : ((s.rearrange r).perform op).2.budget = s.budget := budget_perform _ op
      have hsame : (s.rearrange r).clock = s.clock := rfl
      -- a step takes one tick at most, so there are enough left for the others
      have hticks := clock_perform_le (s.rearrange r) op
      rw [hsame] at hticks
      obtain ⟨held', htracks, hstep⟩ :=
        (h.rearrange r).perform (by rw [hsame]; omega) op hop
      have hstep : (listed held).perform s.budget.toNat op =
          (((s.rearrange r).perform op).1, listed held') := hstep
      rw [hstep, ← hbudget] at hrest
      obtain ⟨held'', hlast, hkept, hsteps⟩ := ih htracks (by omega) hrest
      refine ⟨held'', hlast, hkept.trans hbudget, ?_⟩
      rw [List.map_cons, Recency.performAll, hstep, ← hbudget]
      dsimp only
      rw [hsteps]
      rfl

theorem fst_get (s : ImageStore) (key : Digest) :
    (s.get key).1 = (s.find? key).map StoredImage.image := by
  rw [ImageStore.get]
  cases s.find? key with
  | none => rfl
  | some e => rfl

/-- **The store is the list.**  Whatever is asked of an empty store, in whatever order its entries
come, it shows what the list shows.  Its total is then that of the images it has and within the
budget, and it has the image that was last added, unless that is larger than the budget. -/
theorem performAll_empty (budget : UInt64) (steps : List (Rearrangement × StoreOp))
    (hlength : steps.length < UInt64.size)
    (hfits : Recency.AllFit budget.toNat [] (steps.map Prod.snd)) :
    let shown := (empty budget).performAll steps
    shown.1 = (Recency.performAll budget.toNat [] (steps.map Prod.snd)).1 ∧
      shown.2.total.toNat = (listed shown.2.entries).bytes ∧ shown.2.total ≤ budget ∧
      ∀ earlier r key image, steps = earlier ++ [(r, .set key image)] →
        exactBytes image ≤ budget.toNat → (shown.2.get key).1 = some image := by
  obtain ⟨held, htracks, hbudget, hshown⟩ := (tracks_empty budget).performAll
    (by rw [empty, UInt64.toNat_zero, Nat.zero_add]; exact hlength) hfits
  have hshown : Recency.performAll budget.toNat [] (steps.map Prod.snd) =
      (((empty budget).performAll steps).1, listed held) := hshown
  have hwithin := htracks.within
  rw [hbudget] at hwithin
  refine ⟨by rw [hshown], ?_, ?_, fun earlier r key image hsteps hsize => ?_⟩
  · exact htracks.total.trans (bytes_listed_perm htracks.perm)
  · rw [UInt64.le_iff_toNat_le, htracks.total]
    exact hwithin
  · have hlast : listed held = Recency.set budget.toNat
        (Recency.performAll budget.toNat [] (earlier.map Prod.snd)).2 key image := by
      rw [hsteps, List.map_append] at hshown
      exact (congrArg Prod.snd hshown).symm.trans
        (congrArg Prod.snd (Recency.performAll_concat _ _ _ _))
    obtain ⟨l, hfront⟩ := Recency.set_eq_cons hsize
      (Recency.performAll budget.toNat [] (earlier.map Prod.snd)).2 key
    rw [fst_get, ← htracks.lookup, hlast, hfront, List.lookup_cons_self]

/-- A dot. -/
def dotImage : Image := ⟨1, 1, .l8, #[7], rfl⟩

/-- Two dots. -/
def pairImage : Image := ⟨2, 1, .l8, #[8, 9], rfl⟩

/-- Images are added and read, and the entries turned around now and then. -/
def sampleSteps : List (Rearrangement × StoreOp) :=
  let keep : Rearrangement := ⟨id, List.Perm.refl⟩
  let turn : Rearrangement := ⟨List.reverse, List.reverse_perm⟩
  [(keep, .set (.replicate 32 1) dotImage), (turn, .set (.replicate 32 2) pairImage),
    (turn, .get (.replicate 32 1)), (keep, .set (.replicate 32 3) dotImage),
    (turn, .contains (.replicate 32 2)), (turn, .set (.replicate 32 4) dotImage)]

/-- In a store of three bytes, the dot that is read in between outlives the pair added after it. -/
theorem performAll_empty_sampleSteps :
    ((empty 3).performAll sampleSteps).1 = [
      ⟨.nothing, 1, false, 1⟩, ⟨.nothing, 2, false, 3⟩, ⟨.image (some dotImage), 2, false, 3⟩,
      ⟨.nothing, 2, false, 2⟩, ⟨.present false, 2, false, 2⟩, ⟨.nothing, 3, false, 3⟩] ∧
      (((empty 3).performAll sampleSteps).2.get (.replicate 32 4)).1 = some dotImage := by
  have hfits : Recency.AllFit (3 : UInt64).toNat [] (sampleSteps.map Prod.snd) := by
    decide
  obtain ⟨hshown, -, -, hlast⟩ := performAll_empty 3 sampleSteps (by decide) hfits
  refine ⟨hshown.trans (by decide), hlast sampleSteps.dropLast _ _ _ rfl (by decide)⟩

end ImageStore

end PhotoPipeline
