/-
**What a group does around its elements.**

Every group does at most three things: something before its elements run, the run, and something
after it.  Before the run a group may announce a name, look a result up in the store, or look at the
mode, and it may find that it has an answer without a run; after the run it takes the announcement
back, or keeps the result.  What holds of all groups is shown for these two parts, and once.

Main definitions:

* `PhotoPipeline.RunState.announce`, `PhotoPipeline.RunState.withdraw` — an announcement, and how it
  is taken back;
* `PhotoPipeline.Group.enter` — what a group does before its elements run;
* `PhotoPipeline.Group.leave` — what it does after they have run.

Main results:

* `PhotoPipeline.Element.apply_group` — **a group enters, runs its elements and leaves**;
* `PhotoPipeline.Group.enter_eq_inl`, `PhotoPipeline.Group.enter_eq_inr` — what entering leaves of
  the context;
* `PhotoPipeline.Group.fst_leave`, `PhotoPipeline.Group.context_leave` — what leaving does to the
  result and to the context.
-/
import PhotoPipeline.Engine.Run

set_option relaxedAutoImplicit false
set_option autoImplicit false

namespace PhotoPipeline

/-! ### Announcements and results -/

/-- A state to run elements in that look at nothing but the mode. -/
def RunState.bare (m : Mode) : RunState := ⟨.new m [], ⟨[], []⟩⟩

/-- The state under an announced name, if there is one. -/
def RunState.announce (s : RunState) : Option Text → RunState
  | none => s
  | some name => s.mapContext fun c => c.enter name

/-- The state when an announcement is taken back, if there was one. -/
def RunState.withdraw (s : RunState) : Option Text → RunState
  | none => s
  | some _ => s.mapContext Context.leave

theorem RunState.withdraw_announce (s : RunState) (name : Option Text) :
    (s.announce name).withdraw name = s := by
  cases name <;> rfl

theorem announcing_eq (name : Option Text) (run : RunState → RunOutcome) (s : RunState) :
    announcing name run s =
      ((run (s.announce name)).1, (run (s.announce name)).2.withdraw name) := by
  cases name <;> rfl

theorem RunOutcome.settle_mk (result : Except Halted (Option Image)) (s : RunState) :
    RunOutcome.settle (result, s) = (result.mapError Halted.error, s) := by
  cases result <;> rfl

theorem RunOutcome.settle_eq (r : RunOutcome) : r.settle = (r.1.mapError Halted.error, r.2) :=
  settle_mk r.1 r.2

theorem remembering_of_none {s : RunState} (h : s.storeNumber? = none) (key : Unit → Digest)
    (run : RunState → RunOutcome) : remembering key run s = (run s).settle := by
  rw [remembering, h]

@[simp] theorem RunState.cancelled_announce (s : RunState) (name : Option Text) :
    (s.announce name).context.cancelled = s.context.cancelled := by
  cases name <;> rfl

@[simp] theorem RunState.cancelled_withdraw (s : RunState) (name : Option Text) :
    (s.withdraw name).context.cancelled = s.context.cancelled := by
  cases name <;> rfl

@[simp] theorem RunState.announced_announce (s : RunState) (name : Option Text) :
    (s.announce name).context.announced = name.toList ++ s.context.announced := by
  cases name <;> rfl

theorem RunState.announced_withdraw {s : RunState} {name : Option Text} {names : List Text}
    (h : s.context.announced = name.toList ++ names) :
    (s.withdraw name).context.announced = names := by
  cases name with
  | none => exact h
  | some name => exact congrArg List.tail h

/-! ### The store -/

theorem context_lookUp (number : Nat) (key : Digest) (s : RunState) :
    (lookUp number key s).2.context = s.context := by
  rw [lookUp]
  split <;> rfl

theorem context_keep (number : Nat) (key : Digest) (image : Image) (s : RunState) :
    (keep number key image s).context = s.context := by
  rw [keep]
  split <;> rfl

theorem fst_keepResult (number : Nat) (key : Digest) (r : Outcome) :
    (keepResult number key r).1 = r.1 := by
  rw [keepResult.eq_def]
  split <;> rfl

theorem context_keepResult (number : Nat) (key : Digest) (r : Outcome) :
    (keepResult number key r).2.context = r.2.context := by
  rw [keepResult.eq_def]
  split
  · exact context_keep ..
  · rfl

/-- Looks for a result: the answer, or the state to run in. -/
def enterStore (key : Digest) (s : RunState) : Outcome ⊕ RunState :=
  match s.storeNumber? with
  | none => .inr s
  | some number =>
    match lookUp number key s with
    | (some image, s) => .inl (.ok (some image), s)
    | (none, s) => .inr s

/-- Keeps the result of a run that began in a given state. -/
def leaveStore (key : Digest) (s : RunState) (r : RunOutcome) : Outcome :=
  match s.storeNumber? with
  | none => r.settle
  | some number => keepResult number key r.settle

theorem remembering_eq (key : Digest) (run : RunState → RunOutcome) (s : RunState) :
    remembering (fun _ => key) run s =
      match enterStore key s with
      | .inl answer => answer
      | .inr t => leaveStore key s (run t) := by
  rw [remembering, enterStore]
  cases hnumber : s.storeNumber? with
  | none => simp only [leaveStore, hnumber]
  | some number =>
      dsimp only
      rcases lookUp number key s with ⟨_ | image, t⟩
      · simp only [leaveStore, hnumber]
      · rfl

/-! ### Groups -/

namespace Group

variable {ε : Type} [Plugin ε]

/-- What a group does before its elements run: it has an answer, or a state for them to run in. -/
def enter (kind : Group) (es : List (Element ε)) (image : Option Image) (s : RunState) :
    Outcome ⊕ RunState :=
  match kind with
  | cache => enterStore (cacheKey es image) s
  | once => enterStore (onceKey es) s
  | only mode => if s.context.mode = mode then .inr s else .inl (.ok image, s)
  | kind => .inr (s.announce kind.announced?)

/-- What a group that was entered in a given state does after its elements have run. -/
def leave (kind : Group) (es : List (Element ε)) (image : Option Image) (s : RunState)
    (r : RunOutcome) : Outcome :=
  match kind with
  | cache => leaveStore (cacheKey es image) s r
  | once => leaveStore (onceKey es) s r
  | kind => RunOutcome.settle (r.1, r.2.withdraw kind.announced?)

end Group

namespace Element

variable {ε : Type} [Plugin ε]

/-- **A group enters, runs its elements and leaves**, unless it has an answer without them. -/
theorem apply_group (kind : Group) (es : List (Element ε)) (image : Option Image)
    (s : RunState) :
    apply (group kind es) image s =
      match kind.enter es image s with
      | .inl answer => answer
      | .inr t => kind.leave es image s (run es image t) := by
  cases kind with
  | cache =>
      simp only [apply]
      exact remembering_eq ..
  | once =>
      simp only [apply]
      exact remembering_eq ..
  | only mode =>
      simp only [apply, Group.enter]
      split <;> rfl
  | anonymous | definition | reference =>
      simp only [apply, announcing_eq]
      rfl

theorem apply_group_of_inl {kind : Group} {es : List (Element ε)} {image : Option Image}
    {s : RunState} {answer : Outcome} (h : kind.enter es image s = .inl answer) :
    apply (group kind es) image s = answer := by
  rw [apply_group, h]

theorem apply_group_of_inr {kind : Group} {es : List (Element ε)} {image : Option Image}
    {s t : RunState} (h : kind.enter es image s = .inr t) :
    apply (group kind es) image s = kind.leave es image s (run es image t) := by
  rw [apply_group, h]

end Element

/-! ### What becomes of the context -/

theorem enterStore_eq_inl {key : Digest} {s t : RunState} {v : Except Error (Option Image)}
    (h : enterStore key s = .inl (v, t)) : (∃ image, v = .ok image) ∧ t.context = s.context := by
  rw [enterStore] at h
  split at h
  · cases h
  · next number _ =>
      have hcontext := context_lookUp number key s
      split at h
      · next hfound =>
          cases h
          rw [hfound] at hcontext
          exact ⟨⟨_, rfl⟩, hcontext⟩
      · cases h

theorem enterStore_eq_inr {key : Digest} {s t : RunState} (h : enterStore key s = .inr t) :
    t.context = s.context := by
  rw [enterStore] at h
  split at h
  · cases h
    rfl
  · next number _ =>
      have hcontext := context_lookUp number key s
      split at h
      · cases h
      · next hfound =>
          cases h
          rwa [hfound] at hcontext

theorem fst_leaveStore (key : Digest) (s : RunState) (r : RunOutcome) :
    (leaveStore key s r).1 = r.1.mapError Halted.error := by
  rw [leaveStore]
  split
  · rw [RunOutcome.settle_eq]
  · rw [fst_keepResult, RunOutcome.settle_eq]

theorem context_leaveStore (key : Digest) (s : RunState) (r : RunOutcome) :
    (leaveStore key s r).2.context = r.2.context := by
  rw [leaveStore]
  split
  · rw [RunOutcome.settle_eq]
  · rw [context_keepResult, RunOutcome.settle_eq]

namespace Group

variable {ε : Type} [Plugin ε] {kind : Group} {es : List (Element ε)} {image : Option Image}
  {s t : RunState}

/-- An answer without a run is no error, and leaves the context as it was. -/
theorem enter_eq_inl {v : Except Error (Option Image)}
    (h : kind.enter es image s = .inl (v, t)) :
    (∃ next, v = .ok next) ∧ t.context = s.context := by
  cases kind with
  | cache | once => exact enterStore_eq_inl h
  | only mode =>
      rw [enter] at h
      split at h
      · cases h
      · cases h
        exact ⟨⟨_, rfl⟩, rfl⟩
  | anonymous | definition | reference => cases h

/-- The elements of a group run in its context, under its name if it has one. -/
theorem enter_eq_inr (h : kind.enter es image s = .inr t) :
    t.context = (s.announce kind.announced?).context := by
  cases kind with
  | cache | once => exact enterStore_eq_inr h
  | only mode =>
      rw [enter] at h
      split at h
      · cases h
        rfl
      · cases h
  | anonymous | definition | reference =>
      cases h
      rfl

/-- The result of a group is that of its elements. -/
theorem fst_leave (kind : Group) (es : List (Element ε)) (image : Option Image) (s : RunState)
    (r : RunOutcome) : (kind.leave es image s r).1 = r.1.mapError Halted.error := by
  cases kind with
  | cache | once => exact fst_leaveStore ..
  | anonymous | definition | reference | only =>
      exact congrArg Prod.fst (RunOutcome.settle_eq _)

/-- A group takes back what it has announced, and does nothing else to the context. -/
theorem context_leave (kind : Group) (es : List (Element ε)) (image : Option Image)
    (s : RunState) (r : RunOutcome) :
    (kind.leave es image s r).2.context = (r.2.withdraw kind.announced?).context := by
  cases kind with
  | cache | once => exact context_leaveStore ..
  | anonymous | definition | reference | only =>
      exact congrArg (fun o => o.2.context) (RunOutcome.settle_eq _)

end Group

end PhotoPipeline
