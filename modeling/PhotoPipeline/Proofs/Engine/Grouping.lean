/-
**Grouping.**

A group without a name only holds elements together.  Writing elements that stand side by side as one
group changes neither the image nor the error that a run comes to, nor anything in the state that it
leaves: the images put aside and the other resources, the names, the request to stop, the stores and
the files.  Elements may do whatever they like, and may ask the run to stop at any point.

What shows is the image that an error leaves.  The list that the error passes through reports the image
before its own element, and for an element inside of the group that is the image before the group.

A group without elements is different, as the request to stop is looked at before a group and not
before nothing.

Main definitions:

* `PhotoPipeline.RunOutcome.andThen` — one run after another;
* `PhotoPipeline.RunOutcome.leaving` — an error reported with another image;
* `PhotoPipeline.Element.FailsInside` — the error that elements come to behind others.

Main results:

* `PhotoPipeline.Element.run_append` — **a list runs part by part**;
* `PhotoPipeline.Element.run_anonymous` — a group alone;
* `PhotoPipeline.runPipeline_grouped` — **grouping is transparent**.
-/
import PhotoPipeline.Proofs.Cache.Recency
import PhotoPipeline.Proofs.Engine.Cancellation

set_option relaxedAutoImplicit false
set_option autoImplicit false

namespace PhotoPipeline

/-! ### One run after another -/

namespace RunOutcome

/-- Goes on with the image and the state of a run that has come to its end. -/
def andThen (r : RunOutcome) (next : Option Image → RunState → RunOutcome) : RunOutcome :=
  match r with
  | (.ok image, s) => next image s
  | (.error halted, s) => (.error halted, s)

/-- Reports an error with a given image in place of the one that it left. -/
def leaving (image : Option Image) (r : RunOutcome) : RunOutcome :=
  (r.1.mapError fun halted => ⟨halted.error, image⟩, r.2)

@[simp] theorem andThen_ok (image : Option Image) (s : RunState)
    (next : Option Image → RunState → RunOutcome) :
    andThen (.ok image, s) next = next image s := rfl

@[simp] theorem andThen_error (halted : Halted) (s : RunState)
    (next : Option Image → RunState → RunOutcome) :
    andThen (.error halted, s) next = (.error halted, s) := rfl

@[simp] theorem leaving_ok (image next : Option Image) (s : RunState) :
    leaving image (.ok next, s) = (.ok next, s) := rfl

@[simp] theorem leaving_error (image : Option Image) (halted : Halted) (s : RunState) :
    leaving image (.error halted, s) = (.error ⟨halted.error, image⟩, s) := rfl

end RunOutcome

namespace Element

variable {ε : Type} [Plugin ε]

/-- **A list runs part by part.** -/
theorem run_append (xs ys : List (Element ε)) (image : Option Image) (s : RunState) :
    run (xs ++ ys) image s = (run xs image s).andThen (run ys) := by
  induction xs generalizing image s with
  | nil => rw [List.nil_append, run_nil, RunOutcome.andThen_ok]
  | cons x xs ih =>
      rw [List.cons_append, run_cons, run_cons]
      split
      · rfl
      · rcases apply x image s with ⟨error | next, t⟩
        · rfl
        · exact ih next t

/-- What a group without a name does is to run its elements. -/
theorem apply_anonymous (ys : List (Element ε)) (image : Option Image) (s : RunState) :
    apply (group .anonymous ys) image s = (run ys image s).settle :=
  apply_group_of_inr rfl

/-- A group without a name, if it is not empty, does what its elements do, and reports an error with
the image that it was given. -/
theorem run_anonymous {ys : List (Element ε)} (h : ys ≠ []) (image : Option Image) (s : RunState) :
    run [group .anonymous ys] image s = (run ys image s).leaving image := by
  cases hs : s.context.cancelled with
  | true =>
      -- the group is refused where its first element would be
      obtain ⟨y, ys, rfl⟩ := List.exists_cons_of_ne_nil h
      rw [run_of_cancelled hs, run_of_cancelled hs, RunOutcome.leaving_error]
  | false =>
      rw [run_cons, hs, if_neg Bool.false_ne_true, apply_anonymous]
      rcases run ys image s with ⟨halted | next, t⟩
      · rfl
      · exact run_nil next t

/-- Elements come to their end with an image, and those behind them to an error. -/
def FailsInside (xs ys : List (Element ε)) (image : Option Image) (s : RunState)
    (before : Option Image) (halted : Halted) : Prop :=
  ∃ t, run xs image s = (.ok before, t) ∧ (run ys before t).1 = .error halted

section

variable {xs ys : List (Element ε)} {image : Option Image} {s : RunState}

/-- Where the group fails, its elements fail in its place, in the same way but for the image that is
left. -/
theorem FailsInside.run_grouped {before : Option Image} {halted : Halted}
    (h : FailsInside xs ys image s before halted) (hys : ys ≠ []) (zs : List (Element ε)) :
    ∃ t, run (xs ++ [group .anonymous ys] ++ zs) image s = (.error ⟨halted.error, before⟩, t) ∧
      run (xs ++ ys ++ zs) image s = (.error halted, t) := by
  obtain ⟨t, hxs, herror⟩ := h
  rcases hrun : run ys before t with ⟨result, u⟩
  rw [hrun] at herror
  obtain rfl : result = .error halted := herror
  refine ⟨u, ?_, ?_⟩
  · rw [run_append, run_append, hxs, RunOutcome.andThen_ok, run_anonymous hys, hrun,
      RunOutcome.leaving_error, RunOutcome.andThen_error]
  · rw [run_append, run_append, hxs, RunOutcome.andThen_ok, hrun, RunOutcome.andThen_error]

/-- Where the group does not fail, a run with its elements in its place is the same. -/
theorem run_grouped_eq (h : ∀ before halted, ¬ FailsInside xs ys image s before halted)
    (hys : ys ≠ []) (zs : List (Element ε)) :
    run (xs ++ [group .anonymous ys] ++ zs) image s = run (xs ++ ys ++ zs) image s := by
  simp only [run_append]
  rcases hxs : run xs image s with ⟨halted | before, t⟩
  · rfl
  · rw [RunOutcome.andThen_ok, RunOutcome.andThen_ok, run_anonymous hys]
    rcases hrun : run ys before t with ⟨halted | next, u⟩
    · exact absurd ⟨t, hxs, congrArg Prod.fst hrun⟩ (h before halted)
    · rw [RunOutcome.leaving_ok]

end

end Element

open Element

/-- **Grouping is transparent.**  Elements that stand side by side in a pipeline, at least one of them,
may be written as one group without a name: the image or the error of a run is the same, and so is the
state that it leaves, that is the resources of the context with the images put aside, the names, the
request to stop, the stores and the files.  The image that an error leaves is the same as well, unless
the error arises inside of the group: then it is the image before the group, instead of the one before
the element that failed. -/
theorem runPipeline_grouped {ε : Type} [Plugin ε] (name : Option Text) (xs : List (Element ε))
    {ys : List (Element ε)} (hys : ys ≠ []) (zs : List (Element ε)) (image : Option Image)
    (s : RunState) :
    (runPipeline name (xs ++ [group .anonymous ys] ++ zs) image s).settle =
        (runPipeline name (xs ++ ys ++ zs) image s).settle ∧
      (runPipeline name (xs ++ [group .anonymous ys] ++ zs) image s =
          runPipeline name (xs ++ ys ++ zs) image s ∨
        ∃ before halted, FailsInside xs ys image (s.announce name) before halted) ∧
      ∀ before halted, FailsInside xs ys image (s.announce name) before halted →
        (runPipeline name (xs ++ [group .anonymous ys] ++ zs) image s).1 =
            .error ⟨halted.error, before⟩ ∧
          (runPipeline name (xs ++ ys ++ zs) image s).1 = .error halted := by
  have hinside : ∀ before halted, FailsInside xs ys image (s.announce name) before halted → ∃ t,
      runPipeline name (xs ++ [group .anonymous ys] ++ zs) image s =
          (.error ⟨halted.error, before⟩, t) ∧
        runPipeline name (xs ++ ys ++ zs) image s = (.error halted, t) := by
    intro before halted h
    obtain ⟨t, hgrouped, hflat⟩ := h.run_grouped hys zs
    rw [runPipeline, runPipeline, announcing_eq, announcing_eq, hgrouped, hflat]
    exact ⟨t.withdraw name, rfl, rfl⟩
  have hreported : ∀ before halted, FailsInside xs ys image (s.announce name) before halted →
      (runPipeline name (xs ++ [group .anonymous ys] ++ zs) image s).1 =
          .error ⟨halted.error, before⟩ ∧
        (runPipeline name (xs ++ ys ++ zs) image s).1 = .error halted := by
    intro before halted h
    obtain ⟨t, hgrouped, hflat⟩ := hinside before halted h
    rw [hgrouped, hflat]
    exact ⟨rfl, rfl⟩
  by_cases h : ∃ before halted, FailsInside xs ys image (s.announce name) before halted
  · refine ⟨?_, .inr h, hreported⟩
    obtain ⟨before, halted, h⟩ := h
    obtain ⟨t, hgrouped, hflat⟩ := hinside before halted h
    rw [hgrouped, hflat, RunOutcome.settle_mk, RunOutcome.settle_mk]
    rfl
  · have hsame : runPipeline name (xs ++ [group .anonymous ys] ++ zs) image s =
        runPipeline name (xs ++ ys ++ zs) image s := by
      rw [runPipeline, runPipeline, announcing_eq, announcing_eq,
        run_grouped_eq (fun before halted hfails => h ⟨before, halted, hfails⟩) hys]
    exact ⟨congrArg RunOutcome.settle hsame, .inl hsame, hreported⟩

/-! ### A sample -/

/-- Elements that ask the run to stop when they have inverted the image, with one element left. -/
def invertAndStop : List (Element StopSign) :=
  [.step (.adjust .invert), .plugin .stop [], .step (.adjust .invert)]

/-- The group puts an image aside and takes it up again around elements that stop.  The run is
cancelled either way; the group leaves the image as it was before it, its elements leave the inverted
one. -/
theorem runPipeline_grouped_stopping :
    invertAndStop ≠ [] ∧
      FailsInside [.step (.stash "a".toList)] invertAndStop (some ImageStore.dotImage)
        (.bare .edit) (some ImageStore.dotImage) ⟨.cancelled, some ⟨1, 1, .l8, #[248], rfl⟩⟩ ∧
      (runPipeline none ([.step (.stash "a".toList)] ++ [.group .anonymous invertAndStop] ++
          [.step (.retrieve "a".toList)]) (some ImageStore.dotImage) (.bare .edit)).1 =
        .error ⟨.cancelled, some ImageStore.dotImage⟩ ∧
      (runPipeline none ([.step (.stash "a".toList)] ++ invertAndStop ++
          [.step (.retrieve "a".toList)]) (some ImageStore.dotImage) (.bare .edit)).1 =
        .error ⟨.cancelled, some ⟨1, 1, .l8, #[248], rfl⟩⟩ := by
  have hne : invertAndStop ≠ [] := List.cons_ne_nil _ _
  have hfails : FailsInside [.step (.stash "a".toList)] invertAndStop (some ImageStore.dotImage)
      (.bare .edit) (some ImageStore.dotImage) ⟨.cancelled, some ⟨1, 1, .l8, #[248], rfl⟩⟩ :=
    ⟨_, rfl, rfl⟩
  obtain ⟨-, -, h⟩ := runPipeline_grouped none [.step (.stash "a".toList)] hne
    [.step (.retrieve "a".toList)] (some ImageStore.dotImage) (.bare .edit)
  exact ⟨hne, hfails, h _ _ hfails⟩

/-- An empty group is refused in a run that was asked to stop, where nothing in its place is not. -/
example : (runPipeline none [(group .anonymous [] : Element StopSign)] none
      ((RunState.bare .edit).mapContext fun c => { c with cancelled := true })).1 =
        .error ⟨.cancelled, none⟩ ∧
    (runPipeline none ([] : List (Element StopSign)) none
      ((RunState.bare .edit).mapContext fun c => { c with cancelled := true })).1 = .ok none :=
  ⟨rfl, rfl⟩

end PhotoPipeline
