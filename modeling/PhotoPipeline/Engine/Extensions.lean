/-
**The extension store.**

A context carries resources under names, for elements to keep things between steps and for
whoever sets the context up to hand things to elements.  A resource has one of several types; to
read it one has to ask for its type, and asking for another finds nothing.

Main definitions:

* `PhotoPipeline.Resource` — a resource;
* `PhotoPipeline.Slot` — a type of resource, with how to wrap it and how to take it out;
* `PhotoPipeline.Extensions` — resources by name.

Main results:

* `PhotoPipeline.Extensions.get?_insert_self`, `PhotoPipeline.Extensions.get?_insert_of_ne` — what
  inserting does to reading.
-/
import PhotoPipeline.Files.Tree
import PhotoPipeline.Image.Basic
import PhotoPipeline.Text.Literal

set_option relaxedAutoImplicit false
set_option autoImplicit false

namespace PhotoPipeline

/-- Images by slot. -/
abbrev Slots := List (Text × Image)

/-- A resource of a context. -/
inductive Resource where
  /-- A shared image store, by its number. -/
  | store (number : Nat)
  /-- The images that an execution has put aside. -/
  | slots (images : Slots)
  | number (n : UInt64)
  | text (t : Text)
  | flag (b : Bool)
  deriving DecidableEq

/-- A type of resource. -/
structure Slot (α : Type) where
  wrap : α → Resource
  unwrap : Resource → Option α
  unwrap_wrap : ∀ a, unwrap (wrap a) = some a

namespace Slot

/-- Shared image stores, by number. -/
def store : Slot Nat where
  wrap := .store
  unwrap | .store n => some n | _ => none
  unwrap_wrap _ := rfl

/-- Images put aside. -/
def slots : Slot Slots where
  wrap := .slots
  unwrap | .slots s => some s | _ => none
  unwrap_wrap _ := rfl

/-- Numbers. -/
def number : Slot UInt64 where
  wrap := .number
  unwrap | .number n => some n | _ => none
  unwrap_wrap _ := rfl

/-- Texts. -/
def text : Slot Text where
  wrap := .text
  unwrap | .text t => some t | _ => none
  unwrap_wrap _ := rfl

/-- Flags. -/
def flag : Slot Bool where
  wrap := .flag
  unwrap | .flag b => some b | _ => none
  unwrap_wrap _ := rfl

end Slot

/-- Resources by name; each name occurs once. -/
structure Extensions where
  resources : List (Text × Resource)
  deriving DecidableEq

namespace Extensions

/-- No resources. -/
def empty : Extensions := ⟨[]⟩

/-- The resource under a name, whatever its type. -/
def find? (x : Extensions) (key : Text) : Option Resource := x.resources.lookup key

/-- Whether there is a resource under a name. -/
def contains (x : Extensions) (key : Text) : Bool := (x.find? key).isSome

/-- Without the resource under a name. -/
def remove (x : Extensions) (key : Text) : Extensions :=
  ⟨x.resources.filter fun e => !(e.1 == key)⟩

/-- Puts a resource under a name, in place of the one that was there. -/
def put (x : Extensions) (key : Text) (r : Resource) : Extensions :=
  ⟨(key, r) :: (x.remove key).resources⟩

/-- The names in use. -/
def keys (x : Extensions) : List Text := x.resources.map Prod.fst

/-- The names in use, sorted. -/
def sortedKeys (x : Extensions) : List Text := x.keys.mergeSort FileTree.textLe

/-- The store as diagnostics show it. -/
def summary (x : Extensions) : Text :=
  "Extensions \x7b keys: ".toList ++ literalList x.sortedKeys ++ " \x7d".toList

variable {α : Type}

/-- The resource under a name, if it has the type asked for. -/
def get? (x : Extensions) (slot : Slot α) (key : Text) : Option α := (x.find? key).bind slot.unwrap

/-- Puts a resource under a name, in place of the one that was there. -/
def insert (x : Extensions) (slot : Slot α) (key : Text) (a : α) : Extensions :=
  x.put key (slot.wrap a)

/-- The resource under a name; if there is none of the type asked for, one is put there first. -/
def getOrInsert (x : Extensions) (slot : Slot α) (key : Text) (initial : α) : α × Extensions :=
  match x.get? slot key with
  | some a => (a, x)
  | none => (initial, x.insert slot key initial)

/-- Changes the resource under a name, if it has the type asked for. -/
def update (x : Extensions) (slot : Slot α) (key : Text) (f : α → α) : Option α × Extensions :=
  match x.get? slot key with
  | some a => (some (f a), x.insert slot key (f a))
  | none => (none, x)

theorem lookup_filter_ne {β : Type} {key other : Text} (h : key ≠ other) (l : List (Text × β)) :
    (l.filter fun e => !(e.1 == other)).lookup key = l.lookup key := by
  induction l with
  | nil => rfl
  | cons e l ih =>
    obtain ⟨k, r⟩ := e
    by_cases hk : k = other
    · subst hk
      have hne : (key == k) = false := by simpa using h
      simp [List.lookup_cons, hne, ih]
    · have hko : (k == other) = false := by simpa using hk
      cases hkk : key == k <;> simp [hko, List.lookup_cons, hkk, ih]

@[simp] theorem find?_put_self (x : Extensions) (key : Text) (r : Resource) :
    (x.put key r).find? key = some r := by
  simp [find?, put]

theorem find?_put_of_ne (x : Extensions) {key other : Text} (h : key ≠ other) (r : Resource) :
    (x.put other r).find? key = x.find? key := by
  have hne : (key == other) = false := by simpa using h
  simp [find?, put, remove, List.lookup_cons, hne, lookup_filter_ne h]

@[simp] theorem get?_insert_self (x : Extensions) (slot : Slot α) (key : Text) (a : α) :
    (x.insert slot key a).get? slot key = some a := by
  simp [get?, insert, slot.unwrap_wrap]

theorem get?_insert_of_ne {β : Type} (x : Extensions) (slot : Slot α) (other : Slot β)
    {key key' : Text} (h : key ≠ key') (b : β) :
    (x.insert other key' b).get? slot key = x.get? slot key := by
  rw [get?, insert, find?_put_of_ne x h, get?]

end Extensions

end PhotoPipeline
