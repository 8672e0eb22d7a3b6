/-
**Specialising a tree to a mode.**

An element that runs in one mode only looks at the mode when it is applied, and the mode of a context
never changes during a run.  So in a given mode such an element can be done away with before the run:
where the mode is its own it is a group without a name, and elsewhere it is nothing at all.  This is so
at any depth, in definitions and in what references stand for, and it is seen in nothing that a run
comes to: neither in the image, the error and the image that an error leaves, nor in the state.

Two things could tell the trees apart.  Groups that keep their results look them up under a key that is
made of their written elements, so there must be none of them.  And a run that was asked to stop is
refused at an element that runs in another mode, but not where that element is missing; built-in
elements never ask a run to stop.

Main definitions:

* `PhotoPipeline.Context.Restocks` — a context that differs from another in its resources at most;
* `PhotoPipeline.Element.KeepsNoResult` — an element that is no group with a key;
* `PhotoPipeline.Element.specialise`, `PhotoPipeline.Element.specialiseAll` — what is left of elements
  in a mode.

Main results:

* `PhotoPipeline.Element.context_run` — of a context, runs change the resources only;
* `PhotoPipeline.Element.run_specialiseAll` — what is left runs in the same way;
* `PhotoPipeline.runPipeline_specialiseAll` — **modes can be resolved before the run**.
-/
import PhotoPipeline.Proofs.Engine.Grouping
import PhotoPipeline.Proofs.Engine.Marker

set_option relaxedAutoImplicit false
set_option autoImplicit false

namespace PhotoPipeline

/-! ### What runs leave of a context -/

/-- The second context differs from the first in its resources at most. -/
def Context.Restocks (c d : Context) : Prop := d = { c with extensions := d.extensions }

namespace Context.Restocks

variable {c d e : Context}

theorem refl (c : Context) : c.Restocks c := rfl

theorem trans (h : c.Restocks d) (h' : d.Restocks e) : c.Restocks e := by
  rw [Restocks] at h h' ⊢
  rw [h', h]

theorem mode (h : c.Restocks d) : d.mode = c.mode := by
  rw [h]

theorem cancelled (h : c.Restocks d) : d.cancelled = c.cancelled := by
  rw [h]

/-- What runs under an announced name leaves the same, when the announcement is taken back. -/
theorem withdraw {s t : RunState} {name : Option Text}
    (h : (s.announce name).context.Restocks t.context) :
    s.context.Restocks (t.withdraw name).context := by
  cases name with
  | none => exact h
  | some name => exact congrArg Context.leave h

end Context.Restocks

@[simp] theorem RunState.mode_announce (s : RunState) (name : Option Text) :
    (s.announce name).context.mode = s.context.mode := by
  cases name <;> rfl

namespace Element

mutual

/-- Of the context an element changes nothing but the resources. -/
theorem context_apply : ∀ (e : Element Empty) (image : Option Image) (s : RunState),
    s.context.Restocks (apply e image s).2.context
  | step op, image, s => by
      rw [apply]
      exact op.context_apply image s
  | plugin x _, _, _ => x.elim
  | group kind es, image, s => by
      cases henter : kind.enter es image s with
      | inl answer =>
          rw [apply_group_of_inl henter, (Group.enter_eq_inl henter).2]
          exact .refl _
      | inr t =>
          rw [apply_group_of_inr henter, Group.context_leave]
          refine Context.Restocks.withdraw ?_
          rw [← Group.enter_eq_inr henter]
          exact context_run es image t

/-- **Of the context a run changes nothing but the resources.** -/
theorem context_run : ∀ (es : List (Element Empty)) (image : Option Image) (s : RunState),
    s.context.Restocks (run es image s).2.context
  | [], image, s => by
      rw [run_nil]
      exact .refl _
  | e :: es, image, s => by
      have happly := context_apply e image s
      rw [run_cons]
      split
      · exact .refl _
      · rcases hresult : apply e image s with ⟨error | next, t⟩
        all_goals rw [hresult] at happly
        · exact happly
        · exact happly.trans (context_run es next t)

end

/-! ### What is left of a tree in a mode -/

/-- The element is no group that looks its result up under a key. -/
def KeepsNoResult : Element Empty → Prop
  | group .cache _ => False
  | group .once _ => False
  | _ => True

instance : DecidablePred KeepsNoResult
  | group .cache _ | group .once _ => inferInstanceAs (Decidable False)
  | step _ | group .anonymous _ | group (.definition _) _ | group (.reference _) _
  | group (.only _) _ => inferInstanceAs (Decidable True)
  | plugin x _ => x.elim

mutual

/-- What is left of an element in a mode. -/
def specialise (m : Mode) : Element Empty → List (Element Empty)
  | step op => [step op]
  | group (.only mode) es => if mode = m then [group .anonymous (specialiseAll m es)] else []
  | group kind es => [group kind (specialiseAll m es)]
  | plugin x _ => x.elim

/-- What is left of elements in a mode. -/
def specialiseAll (m : Mode) : List (Element Empty) → List (Element Empty)
  | [] => []
  | e :: es => specialise m e ++ specialiseAll m es

end

theorem nodesAll_append {ε : Type} (es fs : List (Element ε)) :
    nodesAll (es ++ fs) = nodesAll es ++ nodesAll fs := by
  induction es with
  | nil => rfl
  | cons e es ih => rw [List.cons_append, nodesAll, nodesAll, ih, List.append_assoc]

mutual

/-- No element that runs in one mode only is left of an element. -/
theorem only_notMem_specialise (m : Mode) {mode : Mode} {inside : List (Element Empty)} :
    ∀ e : Element Empty, group (.only mode) inside ∉ nodesAll (specialise m e)
  | step op => by
      simp [specialise, nodesAll, nodes]
  | group (.only _) es => by
      rw [specialise]
      split
      · simpa [nodesAll, nodes] using only_notMem_specialiseAll m es
      · exact List.not_mem_nil
  | group .anonymous es | group (.definition _) es | group (.reference _) es | group .cache es
  | group .once es => by
      simpa [specialise, nodesAll, nodes] using only_notMem_specialiseAll m es
  | plugin x _ => x.elim

/-- No element that runs in one mode only is left of elements. -/
theorem only_notMem_specialiseAll (m : Mode) {mode : Mode} {inside : List (Element Empty)} :
    ∀ es : List (Element Empty), group (.only mode) inside ∉ nodesAll (specialiseAll m es)
  | [] => List.not_mem_nil
  | e :: es => by
      rw [specialiseAll, nodesAll_append, List.mem_append, not_or]
      exact ⟨only_notMem_specialise m e, only_notMem_specialiseAll m es⟩

end

/-! ### Running what is left -/

section

variable {m : Mode} {s : RunState}

/-- Elements that are applied in the same way run in the same way. -/
theorem run_singleton_congr {e f : Element Empty} {image : Option Image}
    (h : apply e image s = apply f image s) : run [e] image s = run [f] image s := by
  rw [run_cons, run_cons, h]

mutual

/-- What is left of an element runs as the element does. -/
theorem run_specialise : ∀ (e : Element Empty), (∀ x ∈ e.nodes, x.KeepsNoResult) →
    ∀ (image : Option Image) {s : RunState}, s.context.mode = m → s.context.cancelled = false →
      run (specialise m e) image s = run [e] image s
  | step _, _, _, _, _, _ => by
      rw [specialise]
  | group (.only mode) es, he, image, s, hm, hs => by
      rw [specialise]
      split
      · next hmode =>
          refine run_singleton_congr ?_
          rw [apply_anonymous, apply, hm, hmode, if_pos rfl,
            run_specialiseAll es (fun x hx => he x (List.mem_cons_of_mem _ hx)) image hm hs]
      · next hmode =>
          -- the element that is removed hands on the image and the state as they are
          rw [run_nil, run_cons, hs, if_neg Bool.false_ne_true, apply, hm,
            if_neg (Ne.symm hmode)]
          exact (run_nil image s).symm
  | group .anonymous es, he, image, s, hm, hs
  | group (.definition _) es, he, image, s, hm, hs
  | group (.reference _) es, he, image, s, hm, hs => by
      rw [specialise]
      · refine run_singleton_congr ?_
        simp only [apply, announcing_eq]
        rw [run_specialiseAll es (fun x hx => he x (List.mem_cons_of_mem _ hx)) image
          ((s.mode_announce _).trans hm) ((s.cancelled_announce _).trans hs)]
      · exact nofun
  | group .cache _, he, _, _, _, _ | group .once _, he, _, _, _, _ =>
      (he _ List.mem_cons_self).elim
  | plugin x _, _, _, _, _, _ => x.elim

/-- What is left of elements runs as they do. -/
theorem run_specialiseAll : ∀ (es : List (Element Empty)), (∀ x ∈ nodesAll es, x.KeepsNoResult) →
    ∀ (image : Option Image) {s : RunState}, s.context.mode = m → s.context.cancelled = false →
      run (specialiseAll m es) image s = run es image s
  | [], _, _, _, _, _ => by
      rw [specialiseAll]
  | e :: es, he, image, s, hm, hs => by
      have hhead := run_specialise e (fun x hx => he x (List.mem_append_left _ hx)) image hm hs
      have hcontext := context_run [e] image s
      have hsplit : run (e :: es) image s = (run [e] image s).andThen (run es) :=
        run_append [e] es image s
      rw [specialiseAll, run_append, hhead, hsplit]
      rcases hresult : run [e] image s with ⟨halted | next, t⟩
      · rfl
      · rw [hresult] at hcontext
        exact run_specialiseAll es (fun x hx => he x (List.mem_append_right _ hx)) next
          (hcontext.mode.trans hm) (hcontext.cancelled.trans hs)

end

end

end Element

open Element

/-- **Modes can be resolved before the run.**  In a tree of built-in elements that keep no results, let
every element that runs in the mode of the context only be replaced by a group of its elements without
a name, and let every element that runs in another mode only be removed from its list, at every depth
and so that none of them is left.  Unless the run was asked to stop before it began, it comes to the
same image or the same error with the same image left, and it leaves the same state, so that the same
images are put aside and the same pipeline is the current one. -/
theorem runPipeline_specialiseAll {m : Mode} {es : List (Element Empty)}
    (hes : ∀ x ∈ nodesAll es, x.KeepsNoResult) (name : Option Text) (image : Option Image)
    {s : RunState} (hm : s.context.mode = m) (hs : s.context.cancelled = false) :
    runPipeline name (specialiseAll m es) image s = runPipeline name es image s ∧
      ∀ mode inside, group (.only mode) inside ∉ nodesAll (specialiseAll m es) := by
  refine ⟨?_, fun _ _ => only_notMem_specialiseAll m es⟩
  rw [runPipeline, runPipeline, announcing_eq, announcing_eq,
    run_specialiseAll es hes image ((s.mode_announce name).trans hm)
      ((s.cancelled_announce name).trans hs)]

/-! ### A sample -/

/-- A definition with elements for three modes, one inside of another, and a reference to it. -/
def gated : List (Element Empty) :=
  let inside : List (Element Empty) :=
    [.group (.only .edit) [.step (.stash "a".toList),
      .group (.only .convert) [.step (.retrieve "c".toList)],
      .group (.only .edit) [.step (.adjust .invert)]]]
  [.group (.definition ".p".toList) inside, .group (.only .script) [.step (.retrieve "b".toList)],
    .group (.reference ".p".toList) inside, .group (.only .edit) [.step (.retrieve "d".toList)]]

/-- In the editor both copies put an image aside and invert it, and the run fails behind them, where
the image is what it was at first.  The three elements for other modes are gone. -/
theorem runPipeline_specialiseAll_gated :
    (∀ x ∈ nodesAll gated, x.KeepsNoResult) ∧
      specialiseAll .edit gated =
        [.group (.definition ".p".toList)
          [.group .anonymous [.step (.stash "a".toList),
            .group .anonymous [.step (.adjust .invert)]]],
        .group (.reference ".p".toList)
          [.group .anonymous [.step (.stash "a".toList),
            .group .anonymous [.step (.adjust .invert)]]],
        .group .anonymous [.step (.retrieve "d".toList)]] ∧
      (runPipeline none (specialiseAll .edit gated) (some ImageStore.dotImage) (.bare .edit)).1 =
        .error ⟨.step "recall".toList (.nothingStashed "d".toList), some ImageStore.dotImage⟩ := by
  have hes : ∀ x ∈ nodesAll gated, x.KeepsNoResult := by decide
  obtain ⟨hsame, -⟩ := runPipeline_specialiseAll (m := .edit) (s := .bare .edit) hes none
    (some ImageStore.dotImage) rfl rfl
  exact ⟨hes, rfl, (congrArg Prod.fst hsame).trans rfl⟩

end PhotoPipeline
