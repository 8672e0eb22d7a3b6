/-
**The pipeline that is being executed.**

A context holds the names of the pipelines that are being executed, and elements may ask for the
innermost one.  A definition and a reference put the name of the pipeline on top before its elements
run, and take it away afterwards, whatever became of them.  So while an element is applied the names
are those of the pipelines around it, on top of what was there before; and after a run, be it to the
end, cut short by an error or a request to stop, or spared by the store, they are what they were.

Main definitions:

* `PhotoPipeline.Plugin.KeepsAnnounced` — further kinds of elements that leave the names alone;
* `PhotoPipeline.Start.names`, `PhotoPipeline.Start.named?` — the pipelines around an element, and the
  innermost one.

Main results:

* `PhotoPipeline.Operation.context_apply` — of a context, operations change the resources only;
* `PhotoPipeline.Element.announced_run` — **a run restores the names**;
* `PhotoPipeline.Element.announced_of_mem_starts` — the names while an element is applied;
* `PhotoPipeline.runPipeline_announced` — **the marker is right during a run and restored after it**.
-/
import PhotoPipeline.Proofs.Engine.Trace
import PhotoPipeline.Proofs.Recipe.Heads

set_option relaxedAutoImplicit false
set_option autoImplicit false

namespace PhotoPipeline

/-- Of the context an operation changes nothing but the resources. -/
theorem Operation.context_apply (op : Operation) (image : Option Image) (s : RunState) :
    (op.apply image s).2.context =
      { s.context with extensions := (op.apply image s).2.context.extensions } := by
  cases op with
  | adjust a => rfl
  | load path =>
      rw [apply]
      split <;> rfl
  | save path =>
      rw [apply]
      split <;> rfl
  | stash slot =>
      rw [apply]
      split <;> rfl
  | retrieve slot => rw [apply_retrieve]

/-- Elements of a further kind leave the names of pipelines as they find them. -/
def Plugin.KeepsAnnounced (ε : Type) [Plugin ε] : Prop :=
  ∀ (x : ε) (image : Option Image) (s : RunState),
    (Plugin.apply x image s).2.context.announced = s.context.announced

/-! ### The pipelines around an element -/

namespace Start

variable {ε : Type}

/-- The names of the pipelines around an element, the innermost first. -/
def names (x : Start ε) : List Text := x.around.filterMap fun f => f.element.pipelineName?

/-- The name of the innermost pipeline around an element, be it entered by its definition or by a
reference. -/
def named? (x : Start ε) : Option Text := x.around.findSome? fun f => f.element.pipelineName?

theorem head?_names (x : Start ε) : x.names.head? = x.named? := List.head?_filterMap

@[simp] theorem names_under (x : Start ε) (e : Element ε) (rest : List (Element ε)) :
    (x.under e rest).names = x.names ++ e.pipelineName?.toList := by
  rw [names, names, under, List.filterMap_append]
  cases h : e.pipelineName? <;> simp [h]

end Start

namespace Element

variable {ε : Type} [Plugin ε]

omit [Plugin ε] in
theorem pipelineName?_group (kind : Group) (es : List (Element ε)) :
    (group kind es).pipelineName? = kind.announced? := by
  cases kind <;> rfl

mutual

/-- An element restores the names. -/
theorem announced_apply (hε : Plugin.KeepsAnnounced ε) : ∀ (e : Element ε) (image : Option Image)
    (s : RunState), (apply e image s).2.context.announced = s.context.announced
  | step op, image, s => by
      rw [apply, Operation.context_apply]
  | plugin x _, image, s => by
      rw [apply]
      exact hε x image s
  | group kind es, image, s => by
      cases henter : kind.enter es image s with
      | inl answer =>
          rw [apply_group_of_inl henter, (Group.enter_eq_inl henter).2]
      | inr t =>
          rw [apply_group_of_inr henter, Group.context_leave]
          refine RunState.announced_withdraw ?_
          rw [announced_run hε es image t, Group.enter_eq_inr henter, RunState.announced_announce]

/-- **A run restores the names.** -/
theorem announced_run (hε : Plugin.KeepsAnnounced ε) : ∀ (es : List (Element ε))
    (image : Option Image) (s : RunState),
    (run es image s).2.context.announced = s.context.announced
  | [], image, s => by
      rw [run_nil]
  | e :: es, image, s => by
      have happly := announced_apply hε e image s
      rw [run_cons]
      split
      · rfl
      · rcases hresult : apply e image s with ⟨error | next, t⟩
        all_goals rw [hresult] at happly
        · exact happly
        · exact (announced_run hε es next t).trans happly

end

mutual

/-- The names while an element inside of another is applied. -/
theorem announced_of_mem_inside (hε : Plugin.KeepsAnnounced ε) : ∀ (e : Element ε)
    (image : Option Image) (s : RunState), ∀ x ∈ inside e image s,
      x.state.context.announced = x.names ++ (e.pipelineName?.toList ++ s.context.announced)
  | step op, image, s, x, hx => by
      rw [inside_of_isLeaf rfl] at hx
      cases hx
  | plugin _ _, image, s, x, hx => by
      rw [inside_of_isLeaf rfl] at hx
      cases hx
  | group kind es, image, s, x, hx => by
      obtain ⟨t, henter, hx⟩ := mem_inside_group hx
      rw [announced_of_mem_starts hε es image t x hx, Group.enter_eq_inr henter,
        RunState.announced_announce, pipelineName?_group]

/-- **The names while an element is applied** are those of the pipelines around it, on top of the
names before. -/
theorem announced_of_mem_starts (hε : Plugin.KeepsAnnounced ε) : ∀ (es : List (Element ε))
    (image : Option Image) (s : RunState), ∀ x ∈ starts es image s,
      x.state.context.announced = x.names ++ s.context.announced
  | [], image, s, x, hx => by
      rw [starts_nil] at hx
      cases hx
  | e :: es, image, s, x, hx => by
      obtain ⟨-, rfl | ⟨y, hy, rfl⟩ | ⟨next, t, happly, hx⟩⟩ := mem_starts_cons hx
      · rfl
      · rw [Start.names_under, List.append_assoc]
        exact announced_of_mem_inside hε e image s y hy
      · have ht : t.context.announced = s.context.announced := by
          rw [← announced_apply hε e image s, happly]
        rw [announced_of_mem_starts hε es next t x hx, ht]

end

end Element

open Element

/-- **The marker is right during a run and restored after it.**  The elements that are applied are
those of the traced run, which has the same outcome.  While an element is applied, the current pipeline
is the innermost one around it; if there is none, it is the pipeline that is run, if that has a name, or
else what it was before.  After the run the names are what they were before, also if the run has failed,
was stopped or was spared by the store. -/
theorem runPipeline_announced {ε : Type} [Plugin ε] (hε : Plugin.KeepsAnnounced ε)
    (name : Option Text) (es : List (Element ε)) (image : Option Image) (s : RunState) :
    runPipelineTraced name es image s =
        (runPipeline name es image s, starts es image (s.announce name)) ∧
      (runPipeline name es image s).2.context.announced = s.context.announced ∧
      ∀ x ∈ starts es image (s.announce name),
        x.state.context.current? = (x.named?.or name).or s.context.current? := by
  refine ⟨runPipelineTraced_eq name es image s, ?_, ?_⟩
  · rw [runPipeline, announcing_eq]
    refine RunState.announced_withdraw ?_
    rw [announced_run hε, RunState.announced_announce]
  · intro x hx
    rw [Context.current?, announced_of_mem_starts hε es image _ x hx, List.head?_append,
      Start.head?_names, RunState.announced_announce, List.head?_append, Option.head?_toList,
      Option.or_assoc]
    rfl

/-! ### A sample -/

/-- A pipeline that takes up an image in one mode only. -/
def namedRecall : List (Element Empty) :=
  [.group (.definition ".p".toList) [.group (.only .edit) [.step (.retrieve "a".toList)]]]

/-- The run fails, as nothing has been put aside.  Meanwhile the pipeline is the current one, and
afterwards the one before it. -/
theorem runPipeline_announced_namedRecall :
    Plugin.KeepsAnnounced Empty ∧
      ((starts namedRecall none ((RunState.bare .edit).announce (some ".q".toList))).map
        fun x => x.state.context.current?) =
          [some ".q".toList, some ".p".toList, some ".p".toList] ∧
      (runPipeline none namedRecall none
        ((RunState.bare .edit).announce (some ".q".toList))).2.context.announced =
          [".q".toList] := by
  have hε : Plugin.KeepsAnnounced Empty := fun x _ _ => x.elim
  obtain ⟨-, hafter, hduring⟩ := runPipeline_announced hε none namedRecall none
    ((RunState.bare .edit).announce (some ".q".toList))
  exact ⟨hε, (List.map_congr_left hduring).trans rfl, hafter⟩

end PhotoPipeline
