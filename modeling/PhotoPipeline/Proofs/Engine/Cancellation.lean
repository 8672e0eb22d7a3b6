/-
**Being asked to stop.**

A request to stop is looked at in one place only, before an element of a list is applied.  That is
enough to stop a whole tree.  No element is started once the request has been made, be it before the
run or by an element of it.  An element that makes the request comes to its end, and so do the groups
around it, as long as no list has anything left; the first one that does refuses to go on, and with
it the groups around it.

Main definitions:

* `PhotoPipeline.Start.outcome` — the result of a run that was asked to stop by an element of it;
* `PhotoPipeline.StopSign` — an element that asks the execution to stop.

Main results:

* `PhotoPipeline.Element.not_cancelled_of_mem_starts` — nothing is started after a request;
* `PhotoPipeline.Element.run_of_request` — what becomes of a run when an element makes the request;
* `PhotoPipeline.runPipeline_stops` — **a request to stop is heeded, and no more than heeded**.
-/
import PhotoPipeline.Proofs.Engine.Trace

set_option relaxedAutoImplicit false
set_option autoImplicit false

namespace PhotoPipeline

/-- The result of a run in which an element has given an image and made a request to stop: the image,
unless something has not been started yet. -/
def Start.outcome {ε : Type} (x : Start ε) (given : Option Image) : Except Error (Option Image) :=
  if x.unstarted.isEmpty then .ok given else .error .cancelled

namespace Start

variable {ε : Type} [Plugin ε]

/-- The element is no group, gives an image and leaves a request to stop. -/
structure Requests (x : Start ε) (given : Option Image) : Prop where
  leaf : x.element.isLeaf = true
  given : (x.element.apply x.image x.state).1 = .ok given
  cancelled : (x.element.apply x.image x.state).2.context.cancelled = true

theorem Requests.of_under {x : Start ε} {e : Element ε} {rest : List (Element ε)}
    {given : Option Image} (h : (x.under e rest).Requests given) : x.Requests given :=
  ⟨h.leaf, h.given, h.cancelled⟩

end Start

namespace Element

variable {ε : Type} [Plugin ε]

/-! ### Nothing is started -/

mutual

/-- No element inside of another is started after a request to stop. -/
theorem not_cancelled_of_mem_inside : ∀ (e : Element ε) (image : Option Image) (s : RunState),
    ∀ x ∈ inside e image s, x.state.context.cancelled = false
  | step op, image, s, x, hx => by
      rw [inside_of_isLeaf rfl] at hx
      cases hx
  | plugin _ _, image, s, x, hx => by
      rw [inside_of_isLeaf rfl] at hx
      cases hx
  | group kind es, image, s, x, hx => by
      obtain ⟨t, -, hx⟩ := mem_inside_group hx
      exact not_cancelled_of_mem_starts es image t x hx

/-- **No element is started after a request to stop.** -/
theorem not_cancelled_of_mem_starts : ∀ (es : List (Element ε)) (image : Option Image)
    (s : RunState), ∀ x ∈ starts es image s, x.state.context.cancelled = false
  | [], image, s, x, hx => by
      rw [starts_nil] at hx
      cases hx
  | e :: es, image, s, x, hx => by
      obtain ⟨hcancelled, rfl | ⟨y, hy, rfl⟩ | ⟨next, t, -, hx⟩⟩ := mem_starts_cons hx
      · exact hcancelled
      · exact not_cancelled_of_mem_inside e image s y hy
      · exact not_cancelled_of_mem_starts es next t x hx

end

/-! ### The element that makes the request -/

/-- A list that has been asked to stop has the result so far, or is cancelled. -/
theorem run_of_requested {t : RunState} (h : t.context.cancelled = true) (es : List (Element ε))
    (image : Option Image) :
    (run es image t).1.mapError Halted.error =
        (if es.isEmpty then .ok image else .error .cancelled) ∧
      (run es image t).2 = t := by
  cases es with
  | nil =>
      rw [run_nil]
      exact ⟨rfl, rfl⟩
  | cons e es =>
      rw [run_of_cancelled h]
      exact ⟨rfl, rfl⟩

/-- What comes after an element that has been asked to stop: nothing is started, and the rest of the
list decides on the result. -/
theorem run_cons_of_requested {e : Element ε} (es : List (Element ε))
    {image given : Option Image} {s : RunState} (hs : s.context.cancelled = false)
    (hgiven : (apply e image s).1 = .ok given)
    (ht : (apply e image s).2.context.cancelled = true) :
    startsAfter es (apply e image s) = [] ∧
      (run (e :: es) image s).1.mapError Halted.error =
        (if es.isEmpty then .ok given else .error .cancelled) ∧
      (run (e :: es) image s).2.context.cancelled = true := by
  rcases happly : apply e image s with ⟨result, t⟩
  rw [happly] at hgiven ht
  obtain rfl : result = .ok given := hgiven
  obtain ⟨hresult, hstate⟩ := run_of_requested ht es given
  rw [run_cons, hs, if_neg Bool.false_ne_true, happly]
  dsimp only
  rw [hstate]
  exact ⟨starts_of_cancelled ht es given, hresult, ht⟩

/-- What comes after an element that failed: nothing. -/
theorem run_cons_of_failed {e : Element ε} (es : List (Element ε)) {image : Option Image}
    {s : RunState} {error : Error} (hs : s.context.cancelled = false)
    (herror : (apply e image s).1 = .error error) :
    startsAfter es (apply e image s) = [] ∧
      (run (e :: es) image s).1 = .error ⟨error, image⟩ ∧
      (run (e :: es) image s).2 = (apply e image s).2 := by
  rcases happly : apply e image s with ⟨result, t⟩
  rw [happly] at herror
  obtain rfl : result = .error error := herror
  rw [run_cons, hs, if_neg Bool.false_ne_true, happly]
  exact ⟨rfl, rfl, rfl⟩

mutual

/-- What becomes of an element when one inside of it makes a request to stop. -/
theorem apply_of_request : ∀ (e : Element ε) (image : Option Image) (s : RunState)
    {x : Start ε} {before after : List (Start ε)} {given : Option Image},
    inside e image s = before ++ x :: after → x.Requests given →
      after = [] ∧ (apply e image s).1 = x.outcome given ∧
        (apply e image s).2.context.cancelled = true
  | step op, image, s, x, before, after, given, h, _ => by
      rw [inside_of_isLeaf rfl] at h
      exact absurd h.symm (List.append_ne_nil_of_right_ne_nil _ (List.cons_ne_nil _ _))
  | plugin _ _, image, s, x, before, after, given, h, _ => by
      rw [inside_of_isLeaf rfl] at h
      exact absurd h.symm (List.append_ne_nil_of_right_ne_nil _ (List.cons_ne_nil _ _))
  | group kind es, image, s, x, before, after, given, h, hx => by
      have hmem : x ∈ inside (group kind es) image s :=
        h ▸ List.mem_append_right _ List.mem_cons_self
      obtain ⟨t, henter, -⟩ := mem_inside_group hmem
      rw [inside_group_of_inr henter] at h
      obtain ⟨hafter, hresult, hcancelled⟩ := run_of_request es image t h hx
      rw [apply_group_of_inr henter, Group.fst_leave, Group.context_leave,
        RunState.cancelled_withdraw]
      exact ⟨hafter, hresult, hcancelled⟩

/-- **What becomes of a run when an element makes a request to stop.**  Nothing is started any more.
The result is what the element has given, unless something was left in one of the lists around it. -/
theorem run_of_request : ∀ (es : List (Element ε)) (image : Option Image) (s : RunState)
    {x : Start ε} {before after : List (Start ε)} {given : Option Image},
    starts es image s = before ++ x :: after → x.Requests given →
      after = [] ∧ (run es image s).1.mapError Halted.error = x.outcome given ∧
        (run es image s).2.context.cancelled = true
  | [], image, s, x, before, after, given, h, _ => by
      rw [starts_nil] at h
      exact absurd h.symm (List.append_ne_nil_of_right_ne_nil _ (List.cons_ne_nil _ _))
  | e :: es, image, s, x, before, after, given, h, hx => by
      obtain ⟨hs, ⟨rfl, rfl⟩ | ⟨y, b, a, hinside, rfl, rfl⟩ | ⟨next, t, b, happly, hrest⟩⟩ :=
        starts_cons_split h
      · -- the element is the first one of the list
        obtain ⟨hafter, hresult, hcancelled⟩ := run_cons_of_requested es hs hx.given
          hx.cancelled
        rw [inside_of_isLeaf hx.leaf, hafter, hresult]
        refine ⟨rfl, ?_, hcancelled⟩
        rw [Start.outcome, Start.unstarted, List.flatMap_nil, List.append_nil]
      · -- the element is inside of the first one, which has come to its end or was refused
        obtain ⟨rfl, happly, hcancelled⟩ := apply_of_request e image s hinside hx.of_under
        rw [Start.outcome] at happly
        rw [Start.outcome, Start.unstarted_under]
        cases hy : y.unstarted with
        | nil =>
            rw [hy, List.isEmpty_nil, if_pos rfl] at happly
            obtain ⟨hafter, hresult, hcancelled⟩ := run_cons_of_requested es hs happly
              hcancelled
            rw [hafter, hresult]
            exact ⟨rfl, rfl, hcancelled⟩
        | cons first rest =>
            rw [hy, List.isEmpty_cons, if_neg Bool.false_ne_true] at happly
            obtain ⟨hafter, hresult, hstate⟩ := run_cons_of_failed es hs happly
            rw [hafter, hresult, hstate]
            exact ⟨rfl, rfl, hcancelled⟩
      · -- the element comes after the first one
        rw [run_cons, hs, if_neg Bool.false_ne_true, happly]
        exact run_of_request es next t hrest hx

end

end Element

open Element

theorem eq_ok_of_mapError {result : Except Halted (Option Image)} {image : Option Image}
    (h : result.mapError Halted.error = .ok image) : result = .ok image := by
  cases result with
  | ok next => exact congrArg Except.ok (Except.ok.inj h)
  | error halted => cases h

theorem eq_error_of_mapError {result : Except Halted (Option Image)} {error : Error}
    (h : result.mapError Halted.error = .error error) :
    ∃ left, result = .error ⟨error, left⟩ := by
  cases result with
  | ok next => cases h
  | error halted =>
      obtain ⟨_, left⟩ := halted
      obtain rfl := Except.error.inj h
      exact ⟨left, rfl⟩

variable {ε : Type} [Plugin ε]

/-- **A request to stop is heeded, and no more than heeded.**  The elements that are started are those
of the traced run, which has the same outcome.  No element is started after the request.  A run that
begins after it is refused, unless it has no elements, and leaves everything as it was.  If an element
makes the request and gives an image, then it is the last one that is started, and the run is cancelled
exactly if something is left in one of the lists around the element; otherwise the result is what the
element has given. -/
theorem runPipeline_stops (name : Option Text) (es : List (Element ε)) (image : Option Image)
    (s : RunState) :
    runPipelineTraced name es image s =
        (runPipeline name es image s, starts es image (s.announce name)) ∧
      (∀ x ∈ starts es image (s.announce name), x.state.context.cancelled = false) ∧
      (s.context.cancelled = true →
        starts es image (s.announce name) = [] ∧
          runPipeline name es image s =
            (if es.isEmpty then .ok image else .error ⟨.cancelled, image⟩, s)) ∧
      ∀ (x : Start ε) (before after : List (Start ε)) (given : Option Image),
        starts es image (s.announce name) = before ++ x :: after → x.Requests given →
          after = [] ∧
            ((∃ left, (runPipeline name es image s).1 = .error ⟨.cancelled, left⟩) ↔
              x.unstarted ≠ []) ∧
            (x.unstarted = [] → (runPipeline name es image s).1 = .ok given) := by
  refine ⟨runPipelineTraced_eq name es image s, not_cancelled_of_mem_starts es image _, ?_⟩
  rw [runPipeline, announcing_eq]
  refine ⟨fun hs => ?_, fun x before after given h hx => ?_⟩
  · have hannounced : (s.announce name).context.cancelled = true := by
      rw [RunState.cancelled_announce, hs]
    refine ⟨starts_of_cancelled hannounced es image, ?_⟩
    cases es with
    | nil => rw [run_nil, RunState.withdraw_announce]; rfl
    | cons e es => rw [run_of_cancelled hannounced, RunState.withdraw_announce]; rfl
  · obtain ⟨hafter, hresult, -⟩ := run_of_request es image (s.announce name) h hx
    refine ⟨hafter, ?_⟩
    rw [Start.outcome] at hresult
    cases hunstarted : x.unstarted with
    | nil =>
        rw [hunstarted, List.isEmpty_nil, if_pos rfl] at hresult
        have hok := eq_ok_of_mapError hresult
        refine ⟨⟨?_, fun hne => absurd rfl hne⟩, fun _ => hok⟩
        rintro ⟨_, herror⟩
        rw [hok] at herror
        cases herror
    | cons e rest =>
        rw [hunstarted, List.isEmpty_cons, if_neg Bool.false_ne_true] at hresult
        obtain ⟨left, herror⟩ := eq_error_of_mapError hresult
        exact ⟨⟨fun _ => List.cons_ne_nil e rest, fun _ => ⟨left, herror⟩⟩,
          fun hnil => absurd hnil (List.cons_ne_nil e rest)⟩

/-! ### A sample -/

/-- An element that asks the execution to stop, and passes the image on. -/
inductive StopSign where
  | stop

instance : Plugin StopSign where
  name _ := "stop".toList
  isInline _ := true
  layout _ := []
  apply _ image s := (.ok image, s.mapContext fun c => { c with cancelled := true })

/-- A pipeline in which the element stands last, but something comes after the pipeline. -/
def stopInside : List (Element StopSign) :=
  [.group (.definition ".p".toList) [.group (.only .edit) [.plugin .stop []]],
    .step (.adjust .invert)]

/-- The element at its place. -/
def stopStart : Start StopSign where
  element := .plugin .stop []
  image := none
  state := (RunState.bare .edit).announce (some ".p".toList)
  rest := []
  around :=
    [⟨.group (.only .edit) [.plugin .stop []], []⟩,
      ⟨.group (.definition ".p".toList) [.group (.only .edit) [.plugin .stop []]],
        [.step (.adjust .invert)]⟩]

/-- The pipeline and the group come to their end, and the inversion is not started. -/
theorem runPipeline_stops_inside :
    (starts stopInside none (RunState.bare .edit)).length = 3 ∧ stopStart.Requests none ∧
      ∃ left, (runPipeline none stopInside none (.bare .edit)).1 = .error ⟨.cancelled, left⟩ := by
  have hstarts : starts stopInside none (RunState.bare .edit) =
      [⟨_, none, .bare .edit, _, []⟩, ⟨_, none, _, [], [_]⟩] ++ [stopStart] := rfl
  have hrequests : stopStart.Requests none := ⟨rfl, rfl, rfl⟩
  obtain ⟨-, -, -, h⟩ := runPipeline_stops none stopInside none (.bare .edit)
  obtain ⟨-, hcancelled, -⟩ := h stopStart _ _ none hstarts hrequests
  exact ⟨congrArg List.length hstarts, hrequests, hcancelled.2 (List.cons_ne_nil _ _)⟩

end PhotoPipeline
