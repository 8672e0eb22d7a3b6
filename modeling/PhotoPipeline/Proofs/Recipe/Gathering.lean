/-
**Gathering the top level.**

The entries of a script are decoded and gathered in one pass: elements are pending until a definition
comes or the script ends, and what is pending becomes a pipeline then.  What comes out can be said without
the pass.  The elements at the top level fall into stretches, each of them a definition or a longest run of
other elements, and those without a name are counted.

The pass keeps an invariant.  At any time, what it will come to is the pipelines it has, and behind them
the stretches of the pending elements and of those that have not come yet, counted on.  An element that is
pending only moves from one side of that list to the other; a definition ends the first stretch.

Main definitions:

* `PhotoPipeline.gather` — the stretches of the top level;
* `PhotoPipeline.Gathering.upcoming` — what a gathering will come to;
* `PhotoPipeline.Recipe.assemble` — the recipe of the elements at the top level.

Main results:

* `PhotoPipeline.Recipe.elements_gather` — gathering keeps every element in its place;
* `PhotoPipeline.Gathering.upcoming_push`, `PhotoPipeline.Gathering.upcoming_definition`,
  `PhotoPipeline.Gathering.pipelines_flush` — what the steps of the pass keep;
* `PhotoPipeline.Recipe.decode_eq` — **one pass over the entries** decodes and gathers them.
-/
import PhotoPipeline.Proofs.Recipe.Decode

set_option relaxedAutoImplicit false
set_option autoImplicit false

namespace PhotoPipeline

variable {ε : Type}

/-! ### Stretches -/

/-- A stretch of the top level: a definition, or elements between definitions. -/
inductive Stretch (ε : Type) where
  | definition (name : Text) (elements : List (Element ε))
  | loose (elements : List (Element ε))

/-- The elements that a stretch was gathered from. -/
def Stretch.elements : Stretch ε → List (Element ε)
  | definition name elements => [.group (.definition name) elements]
  | loose elements => elements

/-- An element that is no definition in front of stretches. -/
def prepend (e : Element ε) : List (Stretch ε) → List (Stretch ε)
  | .loose es :: rest => .loose (e :: es) :: rest
  | rest => .loose [e] :: rest

/-- The stretches of the elements at the top level, each of which comes with whether its entry is a
definition there.  What another element makes of a definition inside of it is no definition. -/
def gather : List (Bool × Element ε) → List (Stretch ε)
  | [] => []
  | (true, .group (.definition name) inner) :: es => .definition name inner :: gather es
  | (_, e) :: es => prepend e (gather es)

/-- Counts the stretches without a name. -/
def numberFrom : Nat → List (Stretch ε) → List (Pipeline ε)
  | _, [] => []
  | n, .definition name elements :: rest => .definition name elements :: numberFrom n rest
  | n, .loose elements :: rest => .anonymous n elements :: numberFrom (n + 1) rest

theorem elements_prepend (e : Element ε) (l : List (Stretch ε)) :
    (prepend e l).flatMap Stretch.elements = e :: l.flatMap Stretch.elements := by
  cases l with
  | nil => rfl
  | cons s rest => cases s <;> rfl

namespace Recipe

theorem elements_gather (es : List (Bool × Element ε)) :
    (gather es).flatMap Stretch.elements = es.map Prod.snd := by
  fun_induction gather es with
  | case1 => rfl
  | case2 name inner es ih => rw [List.flatMap_cons, ih]; rfl
  | case3 fst e es _ ih => rw [elements_prepend, ih]; rfl

/-- The recipe of the elements at the top level, each of which comes with whether its entry is a
definition there. -/
def assemble (es : List (Bool × Element ε)) : Recipe ε := ⟨numberFrom 1 (gather es)⟩

end Recipe

/-- Elements whose entries are no definitions. -/
def unmarked (es : List (Element ε)) : List (Bool × Element ε) := es.map fun e => (false, e)

/-- Elements whose entries are no definitions are one stretch, if there are any. -/
theorem gather_unmarked (e : Element ε) (es : List (Element ε)) :
    gather (unmarked (e :: es)) = [.loose (e :: es)] := by
  induction es generalizing e with
  | nil => rfl
  | cons next es ih =>
      show prepend e (gather (unmarked (next :: es))) = _
      rw [ih]
      rfl

/-- In front of a definition as well. -/
theorem gather_unmarked_definition (e : Element ε) (es : List (Element ε)) (name : Text)
    (inner : List (Element ε)) (rest : List (Bool × Element ε)) :
    gather (unmarked (e :: es) ++ (true, .group (.definition name) inner) :: rest) =
      .loose (e :: es) :: .definition name inner :: gather rest := by
  induction es generalizing e with
  | nil => rfl
  | cons next es ih =>
      show prepend e (gather (unmarked (next :: es) ++ _)) = _
      rw [ih]
      rfl

/-! ### The pass -/

namespace Gathering

/-- What a gathering will come to when the given elements have come in: the pipelines it has, and the
stretches of what is pending and of what has not come yet, counted on. -/
def upcoming (g : Gathering ε) (es : List (Bool × Element ε)) : List (Pipeline ε) :=
  g.pipelines ++ numberFrom (g.unnamed + 1) (gather (unmarked g.pending ++ es))

/-- An element that is no definition moves to those that are pending. -/
theorem upcoming_push (g : Gathering ε) (e : Element ε) (es : List (Bool × Element ε)) :
    (g.push e).upcoming es = g.upcoming ((false, e) :: es) := by
  rw [upcoming, push, unmarked, List.map_append, List.append_assoc]
  rfl

/-- A definition ends what is pending. -/
theorem upcoming_definition (g : Gathering ε) (name : Text) (inner : List (Element ε))
    (es : List (Bool × Element ε)) :
    (g.flush.pushDefinition name inner).upcoming es =
      g.upcoming ((true, .group (.definition name) inner) :: es) := by
  obtain ⟨pipelines, unnamed, pending⟩ := g
  cases pending with
  | nil => exact List.append_assoc ..
  | cons e pending =>
      show (pipelines ++ [_]) ++ [_] ++ numberFrom (unnamed + 1 + 1) (gather es) =
        pipelines ++ numberFrom (unnamed + 1) (gather (unmarked (e :: pending) ++ _))
      rw [gather_unmarked_definition, List.append_assoc, List.append_assoc]
      rfl

/-- The end of the script ends what is pending. -/
theorem pipelines_flush (g : Gathering ε) : g.flush.pipelines = g.upcoming [] := by
  obtain ⟨pipelines, unnamed, pending⟩ := g
  cases pending with
  | nil => exact (List.append_nil pipelines).symm
  | cons e pending =>
      rw [upcoming, List.append_nil, gather_unmarked]
      rfl

end Gathering

/-! ### Entries -/

variable {c : Catalogue ε}

/-- At the top level and elsewhere, a definition is decoded alike. -/
theorem decodeEntry_of_isDefinition {entry : Entry} (h : entry.isDefinition = true) :
    decodeEntry c entry =
      Element.group (.definition entry.value) <$>
        defineElements entry.value (argumentsOf c entry.children) := by
  obtain ⟨head, children, l⟩ := entry
  obtain ⟨hname, hleaf⟩ := Bool.and_eq_true_iff.1 h
  have hargs : (argumentsOf c children).isEmpty = children.isEmpty := by
    rw [argumentsOf_eq_map, List.isEmpty_map]
  have hname : Entry.isName head = true := hname
  have hleaf : children.isEmpty = false := by simpa [Entry.isLeaf] using hleaf
  rw [decodeEntry, decodeHead, if_pos hname, hargs, hleaf, if_neg Bool.false_ne_true, define,
    bind_pure_comp]

/-- **The invariant of the pass**: whatever has come in, it comes to what was upcoming. -/
theorem pipelines_gatherEntries (g : Gathering ε) (entries : List Entry) :
    Gathering.pipelines <$> gatherEntries c g entries =
      (fun es => g.upcoming ((entries.map Entry.isDefinition).zip es)) <$> decodeAll c entries := by
  induction entries generalizing g with
  | nil =>
      rw [gatherEntries, decodeAll, map_pure, map_pure, g.pipelines_flush]
      rfl
  | cons entry entries ih =>
      simp only [gatherEntries, decodeAll, bind_pure_comp]
      cases h : entry.isDefinition with
      | true =>
          simp only [if_true, decodeEntry_of_isDefinition h, map_bind, bind_map_left, ih,
            Gathering.upcoming_definition, Functor.map_map, List.map_cons, h, List.zip_cons_cons]
      | false =>
          simp only [Bool.false_eq_true, if_false, map_bind, ih, Gathering.upcoming_push,
            Functor.map_map, List.map_cons, h, List.zip_cons_cons]

namespace Recipe

/-- **One pass over the entries** decodes them in turn, and gathers the elements. -/
theorem decode_eq (c : Catalogue ε) (entries : List Entry) :
    decode c entries =
      ((decodeAll c entries .empty).1.map fun es =>
        assemble ((entries.map Entry.isDefinition).zip es), (decodeAll c entries .empty).2) := by
  have hpass : (Gathering.pipelines <$> gatherEntries c .empty entries : Decoding ε _) .empty = _ :=
    congrFun (pipelines_gatherEntries .empty entries) .empty
  rw [run_map, run_map, Prod.mk.injEq] at hpass
  obtain ⟨hresult, hscope⟩ := hpass
  have hrecipe : ∀ {α : Type} (f : α → List (Pipeline ε)) (x : Except Error α),
      (x.map fun a => (⟨f a⟩ : Recipe ε)) = (x.map f).map Recipe.mk := by
    intro α f x
    cases x <;> rfl
  simp only [decode, hscope]
  rw [hrecipe, hresult, ← hrecipe]
  rfl

end Recipe

end PhotoPipeline
