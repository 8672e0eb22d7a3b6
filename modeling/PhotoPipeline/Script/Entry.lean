/-
**Entries.**

A script is a forest of entries.  An entry is a head and the list of its arguments, which are
entries again; an entry without arguments is a leaf, and only its reader decides whether it is
meant as a literal or as an element that takes nothing.

A head that starts with a dot and goes on names a pipeline: with arguments the entry defines the
pipeline, without arguments it refers to it.

Main definitions:

* `PhotoPipeline.Entry` — head, arguments and the place of the head;
* `PhotoPipeline.Entry.isDefinition`, `PhotoPipeline.Entry.isReference`;
* `PhotoPipeline.Entry.same` — equality up to places;
* `PhotoPipeline.Entry.preorder` — every entry of a tree with its depth.

Main results:

* `PhotoPipeline.Entry.same_iff_bare_eq` — two entries are the same when they agree once the
  places are forgotten;
* `PhotoPipeline.Entry.isNamed_iff` — a name is a definition or a reference, and never both.
-/
import PhotoPipeline.Script.Location

set_option relaxedAutoImplicit false
set_option autoImplicit false

namespace PhotoPipeline

/-- The first character of a pipeline's name. -/
def sigil : Char := '.'

/-- The head of a list that was written without one. -/
def anonymousHead : Text := "pipeline".toList

/-- A head and its arguments. -/
structure Entry where
  value : Text
  children : List Entry
  /-- Where the head starts; not part of what the entry means. -/
  location : Location

namespace Entry

/-- An entry without arguments. -/
def leaf (value : Text) (location : Location) : Entry := ⟨value, [], location⟩

/-! ### Kinds of entries -/

/-- Whether the entry has no arguments. -/
def isLeaf (e : Entry) : Bool := e.children.isEmpty

/-- Whether a head names a pipeline: a dot and at least one more character. -/
def isName : Text → Bool
  | c :: _ :: _ => c == sigil
  | _ => false

/-- Whether the head names a pipeline. -/
def isNamed (e : Entry) : Bool := isName e.value

/-- A name with arguments defines a pipeline. -/
def isDefinition (e : Entry) : Bool := e.isNamed && !e.isLeaf

/-- A name without arguments refers to a pipeline. -/
def isReference (e : Entry) : Bool := e.isNamed && e.isLeaf

theorem isNamed_iff (e : Entry) :
    e.isNamed = true ↔ (e.isDefinition = true) ≠ (e.isReference = true) := by
  cases h : e.isNamed <;> cases h' : e.isLeaf <;> simp [isDefinition, isReference, h, h']

/-! ### Equality up to places -/

mutual

/-- Whether two entries agree in heads and arguments. -/
def same : Entry → Entry → Bool
  | ⟨v, cs, _⟩, ⟨v', cs', _⟩ => v == v' && sameAll cs cs'

/-- Whether two lists of entries agree in heads and arguments. -/
def sameAll : List Entry → List Entry → Bool
  | [], [] => true
  | e :: es, e' :: es' => same e e' && sameAll es es'
  | _, _ => false

end

mutual

/-- The entry with every place forgotten. -/
def bare : Entry → Entry
  | ⟨v, cs, _⟩ => ⟨v, bareAll cs, Location.start⟩

/-- The entries with every place forgotten. -/
def bareAll : List Entry → List Entry
  | [] => []
  | e :: es => bare e :: bareAll es

end

mutual

theorem same_iff_bare_eq : ∀ a b : Entry, same a b = true ↔ bare a = bare b
  | ⟨v, cs, _⟩, ⟨v', cs', _⟩ => by
    rw [same, bare, bare, Bool.and_eq_true, sameAll_iff_bareAll_eq cs cs']
    simp

theorem sameAll_iff_bareAll_eq : ∀ as bs : List Entry,
    sameAll as bs = true ↔ bareAll as = bareAll bs
  | [], [] => by simp [sameAll]
  | [], _ :: _ => by simp [sameAll, bareAll]
  | _ :: _, [] => by simp [sameAll, bareAll]
  | a :: as, b :: bs => by
    rw [sameAll, bareAll, bareAll, Bool.and_eq_true, same_iff_bare_eq a b,
      sameAll_iff_bareAll_eq as bs, List.cons.injEq]

end

/-! ### Every entry of a forest -/

mutual

/-- The entry and everything below it, heads before arguments, each with its depth. -/
def preorder (depth : Nat) : Entry → List (Nat × Entry)
  | ⟨v, cs, l⟩ => (depth, ⟨v, cs, l⟩) :: preorderAll (depth + 1) cs

/-- The entries of a forest, heads before arguments, each with its depth. -/
def preorderAll (depth : Nat) : List Entry → List (Nat × Entry)
  | [] => []
  | e :: es => preorder depth e ++ preorderAll depth es

end

theorem preorderAll_append (depth : Nat) (as bs : List Entry) :
    preorderAll depth (as ++ bs) = preorderAll depth as ++ preorderAll depth bs := by
  induction as with
  | nil => rfl
  | cons a as ih => rw [List.cons_append, preorderAll, preorderAll, ih, List.append_assoc]

end Entry

end PhotoPipeline
