/-
**The elements that a run starts.**

A run is traced: besides its outcome there is the list of all elements that are applied on the way, at
any depth and in their order, each with the image and the state that it is given, and with the place
where it stands.  Tracing changes nothing about the outcome, so what the trace shows is what the run
did.

The place of an element is made up of the lists that are being run around it.  Each of them has a part
that has not been started yet: what comes after the element, or after the group that it is inside of.

Main definitions:

* `PhotoPipeline.Frame`, `PhotoPipeline.Start` — a place in a list, and an element that is applied;
* `PhotoPipeline.Element.applyTraced`, `PhotoPipeline.Element.runTraced` — applying and running with a
  trace;
* `PhotoPipeline.Element.inside`, `PhotoPipeline.Element.starts` — the elements that are started while
  an element is applied, and while elements are run;
* `PhotoPipeline.Start.unstarted` — what has not been started yet;
* `PhotoPipeline.runPipelineTraced` — running a pipeline with a trace.

Main results:

* `PhotoPipeline.Element.fst_applyTraced`, `PhotoPipeline.Element.fst_runTraced` — **tracing changes
  nothing**;
* `PhotoPipeline.runPipelineTraced_eq` — the trace of a pipeline belongs to its run;
* `PhotoPipeline.Element.starts_cons` — the trace of a list;
* `PhotoPipeline.Element.starts_cons_split`, `PhotoPipeline.Element.mem_starts_cons` — what can be in
  it.
-/
import PhotoPipeline.Proofs.Engine.Group

set_option relaxedAutoImplicit false
set_option autoImplicit false

namespace PhotoPipeline

/-! ### Places -/

/-- An element and those after it in its list. -/
structure Frame (ε : Type) where
  element : Element ε
  rest : List (Element ε)

/-- An element that is applied to an image in a state. -/
structure Start (ε : Type) where
  element : Element ε
  image : Option Image
  state : RunState
  /-- The elements after it in its list. -/
  rest : List (Element ε)
  /-- The groups that it is inside of, the innermost first. -/
  around : List (Frame ε)

namespace Start

variable {ε : Type}

/-- The start seen from one level further out, where it is inside of an element. -/
def under (x : Start ε) (e : Element ε) (rest : List (Element ε)) : Start ε :=
  { x with around := x.around ++ [⟨e, rest⟩] }

/-- The elements that have not been started yet in the lists that are being run. -/
def unstarted (x : Start ε) : List (Element ε) := x.rest ++ x.around.flatMap Frame.rest

@[simp] theorem unstarted_under (x : Start ε) (e : Element ε) (rest : List (Element ε)) :
    (x.under e rest).unstarted = x.unstarted ++ rest := by
  simp [unstarted, under]

end Start

/-! ### Traced runs -/

namespace Element

variable {ε : Type} [Plugin ε]

/-- Whether the element is no group. -/
def isLeaf : Element ε → Bool
  | group _ _ => false
  | _ => true

mutual

/-- Applies an element, and lists the elements that are started on the way. -/
def applyTraced : Element ε → Option Image → RunState → Outcome × List (Start ε)
  | step op, image, s => (op.apply image s, [])
  | plugin x _, image, s => (Plugin.apply x image s, [])
  | group kind es, image, s =>
    match kind.enter es image s with
    | .inl answer => (answer, [])
    | .inr t =>
      let r := runTraced es image t
      (kind.leave es image s r.1, r.2)

/-- Applies elements in turn, and lists the elements that are started on the way. -/
def runTraced : List (Element ε) → Option Image → RunState → RunOutcome × List (Start ε)
  | [], image, s => ((.ok image, s), [])
  | e :: es, image, s =>
    if s.context.cancelled then ((.error ⟨.cancelled, image⟩, s), [])
    else
      let a := applyTraced e image s
      let begun := ⟨e, image, s, es, []⟩ :: a.2.map fun x => x.under e es
      match a.1 with
      | (.ok next, s) =>
        let r := runTraced es next s
        (r.1, begun ++ r.2)
      | (.error error, s) => ((.error ⟨error, image⟩, s), begun)

end

mutual

/-- **Tracing changes nothing** about an element. -/
theorem fst_applyTraced : ∀ (e : Element ε) (image : Option Image) (s : RunState),
    (applyTraced e image s).1 = apply e image s
  | step op, image, s => by
      rw [applyTraced, apply]
  | plugin x _, image, s => by
      rw [applyTraced, apply]
  | group kind es, image, s => by
      rw [applyTraced, apply_group]
      cases kind.enter es image s with
      | inl answer => rfl
      | inr t =>
          dsimp only
          rw [fst_runTraced es image t]

/-- **Tracing changes nothing** about a run. -/
theorem fst_runTraced : ∀ (es : List (Element ε)) (image : Option Image) (s : RunState),
    (runTraced es image s).1 = run es image s
  | [], image, s => by
      rw [runTraced, run_nil]
  | e :: es, image, s => by
      rw [runTraced, run_cons, ← fst_applyTraced e image s]
      split
      · rfl
      · dsimp only
        rcases (applyTraced e image s).1 with ⟨error | next, t⟩
        · rfl
        · exact fst_runTraced es next t

end

/-- The elements that are started while an element is applied. -/
def inside (e : Element ε) (image : Option Image) (s : RunState) : List (Start ε) :=
  (applyTraced e image s).2

/-- The elements that are started while elements are applied in turn. -/
def starts (es : List (Element ε)) (image : Option Image) (s : RunState) : List (Start ε) :=
  (runTraced es image s).2

section

variable {e : Element ε} {es : List (Element ε)} {image : Option Image} {s t : RunState}

theorem inside_of_isLeaf (h : e.isLeaf = true) (image : Option Image) (s : RunState) :
    inside e image s = [] := by
  cases e with
  | step | plugin => rw [inside, applyTraced]
  | group => cases h

theorem inside_group_of_inl {kind : Group} {answer : Outcome}
    (h : kind.enter es image s = .inl answer) : inside (group kind es) image s = [] := by
  rw [inside, applyTraced, h]

theorem inside_group_of_inr {kind : Group} (h : kind.enter es image s = .inr t) :
    inside (group kind es) image s = starts es image t := by
  rw [inside, applyTraced, h]
  rfl

@[simp] theorem starts_nil (image : Option Image) (s : RunState) :
    starts ([] : List (Element ε)) image s = [] := by
  rw [starts, runTraced]

theorem starts_of_cancelled (h : s.context.cancelled = true) (es : List (Element ε))
    (image : Option Image) : starts es image s = [] := by
  cases es with
  | nil => exact starts_nil image s
  | cons e es => rw [starts, runTraced, if_pos h]

/-- The elements that are started after an element with a given outcome. -/
def startsAfter (es : List (Element ε)) : Outcome → List (Start ε)
  | (.ok next, t) => starts es next t
  | (.error _, _) => []

/-- The first element is started, with all that is started inside of it, and then what comes after
it. -/
theorem starts_cons (h : s.context.cancelled = false) (e : Element ε) (es : List (Element ε))
    (image : Option Image) :
    starts (e :: es) image s =
      ⟨e, image, s, es, []⟩ :: ((inside e image s).map fun x => x.under e es) ++
        startsAfter es (apply e image s) := by
  rw [starts, runTraced, h, if_neg Bool.false_ne_true, ← fst_applyTraced e image s]
  dsimp only
  rcases (applyTraced e image s).1 with ⟨error | next, t⟩
  · exact (List.append_nil _).symm
  · rfl

/-- An element that is started in a list splits the trace: it is the first element of the list, or
inside of it, or comes after it.  Nothing is started in a state that has been asked to stop. -/
theorem starts_cons_split {x : Start ε} {before after : List (Start ε)}
    (h : starts (e :: es) image s = before ++ x :: after) :
    s.context.cancelled = false ∧
      (x = ⟨e, image, s, es, []⟩ ∧
          after = ((inside e image s).map fun x => x.under e es) ++
            startsAfter es (apply e image s) ∨
        (∃ y b a, inside e image s = b ++ y :: a ∧ x = y.under e es ∧
          after = (a.map fun x => x.under e es) ++ startsAfter es (apply e image s)) ∨
        ∃ next t b, apply e image s = (.ok next, t) ∧ starts es next t = b ++ x :: after) := by
  cases hcancelled : s.context.cancelled with
  | true =>
      rw [starts_of_cancelled hcancelled] at h
      exact absurd h.symm (List.append_ne_nil_of_right_ne_nil _ (List.cons_ne_nil _ _))
  | false =>
      refine ⟨rfl, ?_⟩
      rw [starts_cons hcancelled, List.cons_append] at h
      -- what comes after the first element
      have hlast : ∀ b, startsAfter es (apply e image s) = b ++ x :: after →
          ∃ next t b, apply e image s = (.ok next, t) ∧ starts es next t = b ++ x :: after := by
        intro b hb
        rcases happly : apply e image s with ⟨error | next, t⟩
        · rw [happly] at hb
          exact absurd hb.symm (List.append_ne_nil_of_right_ne_nil _ (List.cons_ne_nil _ _))
        · rw [happly] at hb
          exact ⟨next, t, b, rfl, hb⟩
      cases before with
      | nil =>
          obtain ⟨hx, hafter⟩ := List.cons.inj h
          exact .inl ⟨hx.symm, hafter.symm⟩
      | cons first before =>
          refine .inr ?_
          obtain ⟨-, hrest⟩ := List.cons.inj h
          rcases List.append_eq_append_iff.1 hrest with ⟨b, -, hb⟩ | ⟨b, hinside, hb⟩
          · exact .inr (hlast b hb)
          · cases b with
            | nil => exact .inr (hlast [] hb.symm)
            | cons y b =>
                obtain ⟨rfl, hafter⟩ := List.cons.inj hb
                obtain ⟨b₁, b₂, hinside, -, hmap⟩ := List.map_eq_append_iff.1 hinside
                obtain ⟨y, a, rfl, hy, ha⟩ := List.map_eq_cons_iff.1 hmap
                refine .inl ⟨y, b₁, a, hinside, hy.symm, ?_⟩
                rw [ha]
                exact hafter

/-- What is started in a list was not asked to stop; it is the first element, or inside of it, or
comes after it. -/
theorem mem_starts_cons {x : Start ε} (h : x ∈ starts (e :: es) image s) :
    s.context.cancelled = false ∧
      (x = ⟨e, image, s, es, []⟩ ∨ (∃ y ∈ inside e image s, x = y.under e es) ∨
        ∃ next t, apply e image s = (.ok next, t) ∧ x ∈ starts es next t) := by
  obtain ⟨before, after, hsplit⟩ := List.append_of_mem h
  obtain ⟨hcancelled, ⟨hx, -⟩ | ⟨y, b, a, hy, hx, -⟩ | ⟨next, t, b, happly, hx⟩⟩ :=
    starts_cons_split hsplit
  · exact ⟨hcancelled, .inl hx⟩
  · exact ⟨hcancelled, .inr (.inl ⟨y, hy ▸ List.mem_append_right _ List.mem_cons_self, hx⟩)⟩
  · exact ⟨hcancelled, .inr (.inr ⟨next, t, happly,
      hx ▸ List.mem_append_right _ List.mem_cons_self⟩)⟩

/-- What is started inside of a group is started by the run of its elements. -/
theorem mem_inside_group {kind : Group} {x : Start ε} (h : x ∈ inside (group kind es) image s) :
    ∃ t, kind.enter es image s = .inr t ∧ x ∈ starts es image t := by
  cases henter : kind.enter es image s with
  | inl answer =>
      rw [inside_group_of_inl henter] at h
      cases h
  | inr t =>
      rw [inside_group_of_inr henter] at h
      exact ⟨t, rfl, h⟩

end

end Element

/-! ### Traced pipelines -/

section

open Element

variable {ε : Type} [Plugin ε]

/-- Runs the elements of a pipeline, under its name if it has one, and lists the elements that are
started on the way. -/
def runPipelineTraced (name : Option Text) (es : List (Element ε)) (image : Option Image)
    (s : RunState) : RunOutcome × List (Start ε) :=
  let r := runTraced es image (s.announce name)
  ((r.1.1, r.1.2.withdraw name), r.2)

/-- A traced pipeline comes to what its run comes to, and `starts` lists what that run applies. -/
theorem runPipelineTraced_eq (name : Option Text) (es : List (Element ε)) (image : Option Image)
    (s : RunState) :
    runPipelineTraced name es image s =
      (runPipeline name es image s, starts es image (s.announce name)) := by
  rw [runPipeline, announcing_eq, ← fst_runTraced es image (s.announce name)]
  rfl

end

end PhotoPipeline
