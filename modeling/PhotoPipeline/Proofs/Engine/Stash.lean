/-
**What is put aside during a run.**

The images that a run puts aside live in the context, among other resources.  What a slot holds at any
moment is the image that the slot was given last: the one in hand at the last step that puts images
aside there and was started with an image, be it in the run or before it.  Nothing else changes the
slots, neither other elements nor the store, errors or names that come and go.

A run can also be asked to stop from outside while it goes on.  It notices before it starts the next
element, wherever that is, and ends there: what it has started is an initial part of what it would have
started, and the slots hold what this part has put aside.

Main definitions:

* `PhotoPipeline.Context.putAside?` — the image in a slot of a context;
* `PhotoPipeline.Start.stashed?` — the image that a started element puts aside;
* `PhotoPipeline.lastStashed?` — the image put aside last;
* `PhotoPipeline.Faithful` — started elements find in a slot what was put there last;
* `PhotoPipeline.Element.Interrupted` — runs that are asked to stop while they go on.

Main results:

* `PhotoPipeline.Operation.putAside?_apply` — what one operation does to a slot;
* `PhotoPipeline.lastStashed?_eq_some_iff`, `PhotoPipeline.Start.stashed?_eq_some_iff` — what it means
  to be put aside last;
* `PhotoPipeline.Element.putAside?_run` — **what a run leaves in a slot**;
* `PhotoPipeline.Element.faithful_starts` — **what is in a slot at any moment of a run**;
* `PhotoPipeline.Element.Interrupted.isPrefix`, `PhotoPipeline.Element.Interrupted.putAside?_eq` — what
  a run that is asked to stop has started, and what it leaves.
-/
import PhotoPipeline.Proofs.Engine.Trace

set_option relaxedAutoImplicit false
set_option autoImplicit false

namespace PhotoPipeline

/-! ### Slots -/

/-- The image in a slot of a context. -/
def Context.putAside? (c : Context) (slot : Text) : Option Image :=
  ((c.extensions.get? .slots slotsKey).getD []).lookup slot

@[simp] theorem RunState.putAside?_announce (s : RunState) (name : Option Text) (slot : Text) :
    (s.announce name).context.putAside? slot = s.context.putAside? slot := by
  cases name <;> rfl

@[simp] theorem RunState.putAside?_withdraw (s : RunState) (name : Option Text) (slot : Text) :
    (s.withdraw name).context.putAside? slot = s.context.putAside? slot := by
  cases name <;> rfl

namespace Operation

/-- The image that an operation puts aside in a slot. -/
def stashed? (op : Operation) (slot : Text) (image : Option Image) : Option Image :=
  match op with
  | stash other => if other = slot then image else none
  | _ => none

theorem lookup_putAside (slots : Slots) (slot other : Text) (i : Image) :
    (putAside slots other i).lookup slot = if other = slot then some i else slots.lookup slot := by
  rw [putAside, List.lookup_cons]
  by_cases h : other = slot
  · rw [if_pos h, h, beq_self_eq_true]
  · rw [if_neg h, beq_false_of_ne (Ne.symm h)]
    exact Extensions.lookup_filter_ne (Ne.symm h) slots

/-- **What one operation does to a slot.** -/
theorem putAside?_apply (op : Operation) (image : Option Image) (s : RunState) (slot : Text) :
    (op.apply image s).2.context.putAside? slot =
      (op.stashed? slot image).or (s.context.putAside? slot) := by
  cases op with
  | adjust a => rfl
  | load path =>
      rw [apply]
      split <;> rfl
  | save path =>
      rw [apply]
      split <;> rfl
  | retrieve slot =>
      rw [apply_retrieve]
      rfl
  | stash other =>
      rw [stashed?]
      cases image with
      | none =>
          rw [ite_self]
          rfl
      | some i =>
          show (((apply (stash other) (some i) s).2.slots?).getD []).lookup slot = _
          rw [(apply_stash other i s).2, Option.getD_some, lookup_putAside]
          split <;> rfl

end Operation

/-! ### The image put aside last -/

section

variable {ε : Type}

/-- The image that an element puts aside in a slot. -/
def Element.stashed? (e : Element ε) (slot : Text) (image : Option Image) : Option Image :=
  match e with
  | step op => op.stashed? slot image
  | _ => none

/-- The image that a started element puts aside in a slot. -/
def Start.stashed? (x : Start ε) (slot : Text) : Option Image := x.element.stashed? slot x.image

/-- The image that was put aside last in a slot. -/
def lastStashed? (slot : Text) (xs : List (Start ε)) : Option Image :=
  (xs.filterMap fun x => x.stashed? slot).getLast?

variable {slot : Text} {v : Option Image} {x : Start ε} {xs ys : List (Start ε)}

theorem lastStashed?_append :
    lastStashed? slot (xs ++ ys) = (lastStashed? slot ys).or (lastStashed? slot xs) := by
  rw [lastStashed?, List.filterMap_append, List.getLast?_append]
  rfl

theorem lastStashed?_cons :
    lastStashed? slot (x :: xs) = (lastStashed? slot xs).or (x.stashed? slot) := by
  have hx : lastStashed? slot [x] = x.stashed? slot := by
    rw [lastStashed?, List.filterMap_cons, List.filterMap_nil]
    cases x.stashed? slot <;> rfl
  rw [← hx, ← lastStashed?_append, List.singleton_append]

theorem Start.stashed?_eq_some_iff {i : Image} :
    x.stashed? slot = some i ↔ x.element = .step (.stash slot) ∧ x.image = some i := by
  obtain ⟨e, image, _, _, _⟩ := x
  show e.stashed? slot image = some i ↔ e = .step (.stash slot) ∧ image = some i
  cases e with
  | plugin | group => simp [Element.stashed?]
  | step op =>
      cases op with
      | stash other =>
          rw [Element.stashed?, Operation.stashed?]
          by_cases h : other = slot <;> simp [h]
      | _ => simp [Element.stashed?, Operation.stashed?]

/-- **What was put aside last**: an image that was in hand at a step that puts images aside in the slot,
if no such step has had an image after that. -/
theorem lastStashed?_eq_some_iff {i : Image} :
    lastStashed? slot xs = some i ↔
      ∃ ys y zs, xs = ys ++ y :: zs ∧ y.stashed? slot = some i ∧
        ∀ z ∈ zs, z.stashed? slot = none := by
  rw [lastStashed?, List.getLast?_eq_some_iff]
  constructor
  · rintro ⟨before, h⟩
    obtain ⟨ys, ws, rfl, -, hws⟩ := List.filterMap_eq_append_iff.1 h
    obtain ⟨us, y, zs, rfl, hus, hy, hzs⟩ := List.filterMap_eq_cons_iff.1 hws
    exact ⟨ys ++ us, y, zs, (List.append_assoc ..).symm, hy, List.filterMap_eq_nil_iff.1 hzs⟩
  · rintro ⟨ys, y, zs, rfl, hy, hzs⟩
    refine ⟨ys.filterMap fun x => x.stashed? slot, ?_⟩
    rw [List.filterMap_append, List.filterMap_cons, hy, List.filterMap_eq_nil_iff.2 hzs]

/-- Nothing was put aside. -/
theorem lastStashed?_eq_none_iff :
    lastStashed? slot xs = none ↔ ∀ x ∈ xs, x.stashed? slot = none := by
  rw [lastStashed?, List.getLast?_eq_none_iff, List.filterMap_eq_nil_iff]

theorem lastStashed?_under (e : Element ε) (rest : List (Element ε)) :
    lastStashed? slot (xs.map fun x => x.under e rest) = lastStashed? slot xs := by
  rw [lastStashed?, List.filterMap_map]
  rfl

/-- Started elements find in a slot what was put there last, if it held the given image before. -/
def Faithful (slot : Text) : Option Image → List (Start ε) → Prop
  | _, [] => True
  | v, x :: xs =>
    x.state.context.putAside? slot = v ∧ Faithful slot ((x.stashed? slot).or v) xs

theorem faithful_append : Faithful slot v (xs ++ ys) ↔
    Faithful slot v xs ∧ Faithful slot ((lastStashed? slot xs).or v) ys := by
  induction xs generalizing v with
  | nil => exact ⟨fun h => ⟨trivial, h⟩, fun h => h.2⟩
  | cons x xs ih =>
      rw [List.cons_append, Faithful, Faithful, ih, lastStashed?_cons, Option.or_assoc, and_assoc]

theorem faithful_under (e : Element ε) (rest : List (Element ε)) :
    Faithful slot v (xs.map fun x => x.under e rest) ↔ Faithful slot v xs := by
  induction xs generalizing v with
  | nil => rfl
  | cons x xs ih => exact and_congr_right fun _ => ih

/-- What a started element finds in a slot. -/
theorem Faithful.putAside?_eq (h : Faithful slot v (xs ++ x :: ys)) :
    x.state.context.putAside? slot = (lastStashed? slot xs).or v :=
  (faithful_append.1 h).2.1

end

/-! ### Groups -/

namespace Group

variable {kind : Group} {es : List (Element Empty)} {image : Option Image} {s t : RunState}

theorem putAside?_enter (h : kind.enter es image s = .inr t) (slot : Text) :
    t.context.putAside? slot = s.context.putAside? slot := by
  rw [enter_eq_inr h, RunState.putAside?_announce]

theorem putAside?_leave (kind : Group) (es : List (Element Empty)) (image : Option Image)
    (s : RunState) (r : RunOutcome) (slot : Text) :
    (kind.leave es image s r).2.context.putAside? slot = r.2.context.putAside? slot := by
  rw [context_leave, RunState.putAside?_withdraw]

end Group

/-! ### Runs -/

namespace Element

variable (slot : Text)

mutual

/-- What an element leaves in a slot. -/
theorem putAside?_apply : ∀ (e : Element Empty) (image : Option Image) (s : RunState),
    (apply e image s).2.context.putAside? slot =
      (lastStashed? slot (inside e image s)).or
        ((e.stashed? slot image).or (s.context.putAside? slot))
  | step op, image, s => by
      rw [apply, inside_of_isLeaf rfl, Operation.putAside?_apply]
      rfl
  | plugin x _, _, _ => x.elim
  | group kind es, image, s => by
      cases henter : kind.enter es image s with
      | inl answer =>
          rw [apply_group_of_inl henter, inside_group_of_inl henter, (Group.enter_eq_inl henter).2]
          rfl
      | inr t =>
          rw [apply_group_of_inr henter, inside_group_of_inr henter, Group.putAside?_leave,
            putAside?_run es image t, Group.putAside?_enter henter]
          rfl

/-- **What a run leaves in a slot**: the image it has put there last, or what was there before. -/
theorem putAside?_run : ∀ (es : List (Element Empty)) (image : Option Image) (s : RunState),
    (run es image s).2.context.putAside? slot =
      (lastStashed? slot (starts es image s)).or (s.context.putAside? slot)
  | [], image, s => by
      rw [run_nil, starts_nil]
      rfl
  | e :: es, image, s => by
      cases hcancelled : s.context.cancelled with
      | true =>
          rw [run_of_cancelled hcancelled, starts_of_cancelled hcancelled]
          rfl
      | false =>
          rw [run_cons, hcancelled, if_neg Bool.false_ne_true, starts_cons hcancelled,
            lastStashed?_append, lastStashed?_cons, lastStashed?_under, Option.or_assoc]
          have happly := putAside?_apply e image s
          rw [← Option.or_assoc] at happly
          rcases hresult : apply e image s with ⟨error | next, t⟩
          all_goals rw [hresult] at happly
          · exact happly
          · rw [startsAfter, putAside?_run es next t, happly]
            rfl

end

mutual

/-- What is in a slot when elements inside of another are started. -/
theorem faithful_inside : ∀ (e : Element Empty) (image : Option Image) (s : RunState),
    Faithful slot ((e.stashed? slot image).or (s.context.putAside? slot)) (inside e image s)
  | step op, image, s => by
      rw [inside_of_isLeaf rfl]
      trivial
  | plugin x _, _, _ => x.elim
  | group kind es, image, s => by
      cases henter : kind.enter es image s with
      | inl answer =>
          rw [inside_group_of_inl henter]
          trivial
      | inr t =>
          rw [inside_group_of_inr henter, ← Group.putAside?_enter henter]
          exact faithful_starts es image t

/-- **What is in a slot at any moment of a run**: the image that the run has put there last, or what
was there before. -/
theorem faithful_starts : ∀ (es : List (Element Empty)) (image : Option Image) (s : RunState),
    Faithful slot (s.context.putAside? slot) (starts es image s)
  | [], image, s => by
      rw [starts_nil]
      trivial
  | e :: es, image, s => by
      cases hcancelled : s.context.cancelled with
      | true =>
          rw [starts_of_cancelled hcancelled]
          trivial
      | false =>
          have happly := putAside?_apply slot e image s
          rw [starts_cons hcancelled, faithful_append, lastStashed?_cons, lastStashed?_under,
            Option.or_assoc]
          refine ⟨⟨rfl, (faithful_under e es).2 (faithful_inside e image s)⟩, ?_⟩
          rcases hresult : apply e image s with ⟨error | next, t⟩
          all_goals rw [hresult] at happly
          · trivial
          · have hrest := faithful_starts es next t
            rwa [happly] at hrest

end

/-! ### Runs that are asked to stop -/

variable {slot} {es : List (Element Empty)} {image : Option Image} {s t : RunState}
  {xs : List (Start Empty)}

/-- A run that is asked to stop while it goes on, with the elements that it has started by then and the
state that it leaves.  It notices before the next element, be that in its own list or further inside. -/
inductive Interrupted : List (Element Empty) → Option Image → RunState → List (Start Empty) →
    RunState → Prop where
  /-- The next element is not started any more. -/
  | now (e : Element Empty) (es : List (Element Empty)) (image : Option Image) (s : RunState) :
      Interrupted (e :: es) image s [] (s.mapContext fun c => { c with cancelled := true })
  /-- The elements of a group do not come to their end, and the group is left with an error. -/
  | inside {kind : Group} {gs es : List (Element Empty)} {image : Option Image}
      {s t u : RunState} {xs : List (Start Empty)} (hs : s.context.cancelled = false)
      (henter : kind.enter gs image s = .inr t) (h : Interrupted gs image t xs u) :
      Interrupted (group kind gs :: es) image s
        (⟨group kind gs, image, s, es, []⟩ :: xs.map fun x => x.under (group kind gs) es)
        (kind.leave gs image s (.error ⟨.cancelled, image⟩, u)).2
  /-- The first element still comes to its end. -/
  | later {e : Element Empty} {es : List (Element Empty)} {image next : Option Image}
      {s t u : RunState} {xs : List (Start Empty)} (hs : s.context.cancelled = false)
      (happly : apply e image s = (.ok next, t)) (h : Interrupted es next t xs u) :
      Interrupted (e :: es) image s
        (⟨e, image, s, es, []⟩ :: ((Element.inside e image s).map fun x => x.under e es) ++ xs) u

/-- A run that is asked to stop has started an initial part of what it would have started. -/
theorem Interrupted.isPrefix (h : Interrupted es image s xs t) : xs <+: starts es image s := by
  induction h with
  | now => exact List.nil_prefix
  | inside hs henter _ ih =>
      rw [starts_cons hs, inside_group_of_inr henter, List.cons_append, List.prefix_cons_inj]
      exact (ih.map _).trans (List.prefix_append _ _)
  | later hs happly _ ih =>
      rw [starts_cons hs, happly]
      exact (List.prefix_append_right_inj _).2 ih

/-- What is in a slot at any moment of a run that is asked to stop. -/
theorem Interrupted.faithful (h : Interrupted es image s xs t) (slot : Text) :
    Faithful slot (s.context.putAside? slot) xs := by
  obtain ⟨ys, hys⟩ := h.isPrefix
  have hstarts := faithful_starts slot es image s
  rw [← hys] at hstarts
  exact (faithful_append.1 hstarts).1

/-- What a run that is asked to stop leaves in a slot. -/
theorem Interrupted.putAside?_eq (h : Interrupted es image s xs t) :
    t.context.putAside? slot = (lastStashed? slot xs).or (s.context.putAside? slot) := by
  induction h with
  | now => rfl
  | inside _ henter _ ih =>
      rw [Group.putAside?_leave, ih, Group.putAside?_enter henter, lastStashed?_cons,
        lastStashed?_under, Option.or_assoc]
      rfl
  | @later e es image next s t u xs hs happly _ ih =>
      have hleft := putAside?_apply slot e image s
      rw [happly] at hleft
      rw [ih, hleft, lastStashed?_append, lastStashed?_cons, lastStashed?_under, Option.or_assoc,
        Option.or_assoc]
      rfl

end Element

end PhotoPipeline
