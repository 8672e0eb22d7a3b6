/-
**What has been put aside comes back.**

A session is logged: which contexts are started, and which elements are started in them, each with the
image and the state that it is given.  The log says what an image taken up again must be: the one that
was put aside last in the slot, in the same context, since that context was started.  It makes no
difference what else has been going on, be it in the context or in others that share its image store,
and how the runs in between have ended.

Main definitions:

* `PhotoPipeline.SessionEvent` — what is logged;
* `PhotoPipeline.Session.Reaches` — sessions with their logs;
* `PhotoPipeline.history` — the elements that have been started in a context;
* `PhotoPipeline.Session.Recorded` — the log is right about the slots.

Main results:

* `PhotoPipeline.Session.perform_cases` — what a step can do to the contexts;
* `PhotoPipeline.Session.Recorded.perform`, `PhotoPipeline.Session.Reaches.recorded` — the log is right
  about the slots after one more step, and so at any time;
* `PhotoPipeline.Session.retrieve_faithful` — **an image taken up is the one put aside last**.
-/
import PhotoPipeline.Proofs.Engine.Session
import PhotoPipeline.Proofs.Engine.Stash

set_option relaxedAutoImplicit false
set_option autoImplicit false

namespace PhotoPipeline

/-! ### Logs -/

/-- What is logged of a session. -/
inductive SessionEvent where
  /-- A context of a name is started, in place of the one that had the name before. -/
  | opened (name : Text)
  /-- An element is started in a context. -/
  | started (name : Text) (x : Start Empty)

/-- The elements started in the context of a name, with one more event. -/
def SessionEvent.extend (name : Text) (xs : List (Start Empty)) : SessionEvent → List (Start Empty)
  | opened other => if other = name then [] else xs
  | started other x => if other = name then xs ++ [x] else xs

/-- The elements that have been started in the context of a name since the context was started. -/
def history (name : Text) (log : List SessionEvent) : List (Start Empty) :=
  log.foldl (SessionEvent.extend name) []

section

variable {name other : Text} {log : List SessionEvent} {xs : List (Start Empty)}

theorem history_opened : history name (log ++ [.opened name]) = [] := by
  rw [history, List.foldl_append]
  exact if_pos rfl

theorem history_opened_of_ne (h : other ≠ name) :
    history name (log ++ [.opened other]) = history name log := by
  rw [history, List.foldl_append]
  exact if_neg h

theorem history_started :
    history name (log ++ xs.map (.started name)) = history name log ++ xs := by
  induction xs generalizing log with
  | nil => rw [List.map_nil, List.append_nil, List.append_nil]
  | cons x xs ih =>
      have hone : history name (log ++ [.started name x]) = history name log ++ [x] := by
        rw [history, List.foldl_append]
        exact if_pos rfl
      rw [List.map_cons, List.append_cons, ih, hone, ← List.append_cons]

theorem history_started_of_ne (h : other ≠ name) :
    history name (log ++ xs.map (.started other)) = history name log := by
  induction xs generalizing log with
  | nil => rw [List.map_nil, List.append_nil]
  | cons x xs ih =>
      have hone : history name (log ++ [.started other x]) = history name log := by
        rw [history, List.foldl_append]
        exact if_neg h
      rw [List.map_cons, List.append_cons, ih, hone]

end

/-- The elements that are started while a recipe runs. -/
def Recipe.starts (r : Recipe Empty) (label : Option Text) (image : Option Image) (s : RunState) :
    List (Start Empty) :=
  match r.picked? label with
  | some p => Element.starts p.elements image (s.announce p.name?)
  | none => []

namespace Session

/-- What is logged of a step. -/
def stepEvents (s : Session) : SessionStep → List SessionEvent
  | .openContext name _ _ => [.opened name]
  | .openSharing name other _ _ =>
    match s.find? other with
    | none => []
    | some _ => [.opened name]
  | .run name r label image =>
    match s.find? name with
    | none => []
    | some x => (r.starts label image (s.runState x)).map (.started name)
  | .setCancelled _ _ | .clearCache _ => []

/-- Sessions over a catalogue and their logs.  Steps are done in turn; a run may also be asked to stop
while it goes on. -/
inductive Reaches (c : Catalogue Empty) (s₀ : Session) : List SessionEvent → Session → Prop where
  | start : Reaches c s₀ [] s₀
  | step {log : List SessionEvent} {s : Session} (h : Reaches c s₀ log s) (step : SessionStep) :
      Reaches c s₀ (log ++ s.stepEvents step) (s.perform c step).2
  | interrupted {log : List SessionEvent} {s : Session} {x : SessionContext} {p : Pipeline Empty}
      {xs : List (Start Empty)} {t : RunState} (h : Reaches c s₀ log s) (name : Text)
      (r : Recipe Empty) (label : Option Text) (image : Option Image)
      (hx : s.find? name = some x) (hp : r.picked? label = some p)
      (ht : Element.Interrupted p.elements image ((s.runState x).announce p.name?) xs t) :
      Reaches c s₀ (log ++ xs.map (.started name)) (s.absorb name x (t.withdraw p.name?))

/-! ### Steps -/

theorem contexts_clearCache (s : Session) (x : SessionContext) :
    (s.clearCache x).2.contexts = s.contexts := by
  rw [clearCache]
  split <;> rfl

/-- What a step can do to the contexts, and what is logged of it: nothing, or a new context is put
under a name, or a recipe runs in a context. -/
theorem perform_cases (c : Catalogue Empty) (s : Session) (step : SessionStep) :
    (s.stepEvents step = [] ∧ (s.perform c step).2.contexts = s.contexts) ∨
      (∃ (name : Text) (t : Session) (x : SessionContext) (mode : Mode) (verbose : Bool),
        s.stepEvents step = [.opened name] ∧ (s.perform c step).2 = t.put name x ∧
          t.contexts = s.contexts ∧ x.context = { c.context mode with verbose }) ∨
      ∃ (name : Text) (x : SessionContext) (r : Recipe Empty) (label : Option Text)
        (image : Option Image), s.find? name = some x ∧
          s.stepEvents step = (r.starts label image (s.runState x)).map (.started name) ∧
          (s.perform c step).2 = s.absorb name x (r.run label image (s.runState x)).2 := by
  cases step with
  | openContext name mode verbose =>
      exact .inr (.inl ⟨name, _, _, mode, verbose, rfl, rfl, rfl, rfl⟩)
  | openSharing name other mode verbose =>
      rw [stepEvents, perform]
      cases s.find? other with
      | none => exact .inl ⟨rfl, rfl⟩
      | some o => exact .inr (.inl ⟨name, _, _, mode, verbose, rfl, rfl, rfl, rfl⟩)
  | setCancelled name stop =>
      rw [stepEvents, perform]
      cases s.find? name with
      | none => exact .inl ⟨rfl, rfl⟩
      | some x => exact .inl ⟨rfl, rfl⟩
  | clearCache name =>
      rw [stepEvents, perform]
      cases s.find? name with
      | none => exact .inl ⟨rfl, rfl⟩
      | some x => exact .inl ⟨rfl, contexts_clearCache s x⟩
  | run name r label image =>
      rw [stepEvents, perform]
      cases hx : s.find? name with
      | none => exact .inl ⟨rfl, rfl⟩
      | some x => exact .inr (.inr ⟨name, x, r, label, image, hx, rfl, rfl⟩)

end Session

/-- What a recipe leaves in a slot. -/
theorem Recipe.putAside?_run (r : Recipe Empty) (label : Option Text) (image : Option Image)
    (s : RunState) (slot : Text) :
    (r.run label image s).2.context.putAside? slot =
      (lastStashed? slot (r.starts label image s)).or (s.context.putAside? slot) := by
  rw [run_eq, Recipe.starts]
  cases r.picked? label with
  | none => rfl
  | some p =>
      show (runPipeline p.name? p.elements image s).2.context.putAside? slot = _
      rw [runPipeline, announcing_eq, RunState.putAside?_withdraw, Element.putAside?_run,
        RunState.putAside?_announce]

/-- What is in a slot at any moment while a recipe runs. -/
theorem Recipe.faithful_starts (r : Recipe Empty) (label : Option Text) (image : Option Image)
    (s : RunState) (slot : Text) :
    Faithful slot (s.context.putAside? slot) (r.starts label image s) := by
  rw [Recipe.starts]
  cases r.picked? label with
  | none => trivial
  | some p =>
      have h := Element.faithful_starts slot p.elements image (s.announce p.name?)
      rwa [RunState.putAside?_announce] at h

/-! ### What the log says of the slots -/

namespace Session

/-- The log of a session is right about the slots. -/
structure Recorded (log : List SessionEvent) (s : Session) : Prop where
  /-- What a context holds was put aside last in its history. -/
  held : ∀ name x, s.find? name = some x →
    ∀ slot, x.context.putAside? slot = lastStashed? slot (history name log)
  /-- What an element has found was put aside last in the history before it. -/
  found : ∀ before name x after, log = before ++ .started name x :: after →
    ∀ slot, x.state.context.putAside? slot = lastStashed? slot (history name before)

variable {c : Catalogue Empty} {s₀ s t : Session} {log : List SessionEvent} {name : Text}
  {x : SessionContext}

/-- Elements logged at last have found what they should, if they have on top of the log before. -/
theorem Recorded.found_append (h : Recorded log s) {events : List SessionEvent}
    (hevents : ∀ before name x after, events = before ++ .started name x :: after →
      ∀ slot, x.state.context.putAside? slot = lastStashed? slot (history name (log ++ before)))
    (before : List SessionEvent) (name : Text) (x : Start Empty) (after : List SessionEvent)
    (hsplit : log ++ events = before ++ .started name x :: after) (slot : Text) :
    x.state.context.putAside? slot = lastStashed? slot (history name before) := by
  obtain ⟨rest, rfl, hrest⟩ | ⟨rest, hlog, hrest⟩ := List.append_eq_append_iff.1 hsplit
  · exact hevents rest name x after hrest slot
  · cases rest with
    | nil =>
        have hfirst := hevents [] name x after hrest.symm slot
        rwa [List.append_nil, hlog, List.append_nil] at hfirst
    | cons first rest =>
        obtain ⟨rfl, -⟩ := List.cons.inj hrest
        exact h.found before name x rest hlog slot

/-- A session without contexts holds nothing. -/
theorem recorded_start (shared : Shared) : Recorded [] (start shared) where
  held _ _ h := by cases h
  found _ _ _ _ h := absurd h.symm (List.append_ne_nil_of_right_ne_nil _ (List.cons_ne_nil _ _))

theorem Recorded.of_contexts (h : Recorded log s) (ht : t.contexts = s.contexts) :
    Recorded log t where
  held name x hx := by
    rw [find?, ht] at hx
    exact h.held name x hx
  found := h.found

/-- A new context holds nothing and has no history. -/
theorem Recorded.opened (h : Recorded log s) (hx : ∀ slot, x.context.putAside? slot = none) :
    Recorded (log ++ [.opened name]) (s.put name x) where
  held other y hy slot := by
    by_cases hname : other = name
    · subst hname
      rw [find?_put_self] at hy
      cases hy
      rw [hx, history_opened]
      rfl
    · rw [find?_put_of_ne s hname] at hy
      rw [h.held other y hy slot, history_opened_of_ne (Ne.symm hname)]
  found := by
    refine h.found_append fun before other y after hsplit => ?_
    have hmem : SessionEvent.started other y ∈ [SessionEvent.opened name] := by
      rw [hsplit]
      exact List.mem_append_right _ List.mem_cons_self
    cases List.mem_singleton.1 hmem

/-- A run in a context that finds and leaves in the slots what it should, however it ends. -/
theorem Recorded.ran (h : Recorded log s) (hx : s.find? name = some x) {xs : List (Start Empty)}
    {u : RunState} (hxs : ∀ slot, Faithful slot (x.context.putAside? slot) xs)
    (hu : ∀ slot, u.context.putAside? slot =
      (lastStashed? slot xs).or (x.context.putAside? slot)) :
    Recorded (log ++ xs.map (.started name)) (s.absorb name x u) where
  held other y hy slot := by
    rw [absorb] at hy
    by_cases hname : other = name
    · subst hname
      rw [find?_put_self] at hy
      cases hy
      rw [history_started, lastStashed?_append, ← h.held other x hx slot]
      exact hu slot
    · rw [find?_put_of_ne _ hname] at hy
      rw [history_started_of_ne (Ne.symm hname)]
      exact h.held other y hy slot
  found := by
    refine h.found_append fun before other y after hsplit slot => ?_
    obtain ⟨ys, zs, rfl, rfl, hzs⟩ := List.map_eq_append_iff.1 hsplit
    obtain ⟨z, zs, rfl, hz, -⟩ := List.map_eq_cons_iff.1 hzs
    cases hz
    rw [(hxs slot).putAside?_eq, history_started, lastStashed?_append, h.held name x hx slot]

/-- **One step of a session** over a catalogue whose contexts start with nothing put aside. -/
theorem Recorded.perform (hc : ∀ mode slot, (c.context mode).putAside? slot = none)
    (h : Recorded log s) (step : SessionStep) :
    Recorded (log ++ s.stepEvents step) (s.perform c step).2 := by
  obtain ⟨hevents, hcontexts⟩ | ⟨name, t, x, mode, verbose, hevents, hput, hcontexts, hx⟩ |
    ⟨name, x, r, label, image, hx, hevents, habsorb⟩ := perform_cases c s step
  · rw [hevents, List.append_nil]
    exact h.of_contexts hcontexts
  · rw [hevents, hput]
    refine (h.of_contexts hcontexts).opened fun slot => ?_
    rw [hx]
    exact hc mode slot
  · rw [hevents, habsorb]
    exact h.ran hx (r.faithful_starts label image (s.runState x))
      (r.putAside?_run label image (s.runState x))

/-- The log of a session is right about the slots at any time. -/
theorem Reaches.recorded (hc : ∀ mode slot, (c.context mode).putAside? slot = none)
    (hstart : Recorded [] s₀) (h : Reaches c s₀ log s) : Recorded log s := by
  induction h with
  | start => exact hstart
  | step _ step ih => exact ih.perform hc step
  | interrupted _ _ _ _ _ hx _ ht ih =>
      refine ih.ran hx (fun slot => ?_) fun slot => ?_
      · have hfaithful := ht.faithful slot
        rwa [RunState.putAside?_announce] at hfaithful
      · rw [RunState.putAside?_withdraw, ht.putAside?_eq, RunState.putAside?_announce]
        rfl

/-- **An image taken up is the one put aside last.**  Whenever the step that takes up an image from a
slot is applied in a session over the built-in kinds, it returns the image that the slot was given last,
by a step that puts images aside there and was started with an image in the same context, since that
context was started.  If there has been none, it fails with an error that says so.  The runs of the
session may have succeeded or failed at any depth, and may have been asked to stop before they started
or while they went on. -/
theorem retrieve_faithful (budget : UInt64) (files : FileTree) {log before after : List SessionEvent}
    {s : Session} {name slot : Text} {x : Start Empty}
    (h : Reaches (.builtin budget)
      (start ((Catalogue.builtin budget : Catalogue Empty).shared files)) log s)
    (hlog : log = before ++ .started name x :: after)
    (hx : x.element = .step (.retrieve slot)) :
    x.element.apply x.image x.state =
      (match lastStashed? slot (history name before) with
        | some i => .ok (some i)
        | none => .error (.step "recall".toList (.nothingStashed slot)), x.state) := by
  have hc : ∀ mode slot,
      ((Catalogue.builtin budget : Catalogue Empty).context mode).putAside? slot = none :=
    fun _ _ => rfl
  have hfound := (h.recorded hc (recorded_start _)).found before name x after hlog slot
  rw [hx, Element.apply, Operation.apply_retrieve, ← hfound]
  rfl

/-! ### A sample -/

/-- A recipe of one list of operations. -/
def operating (ops : List Operation) : Recipe Empty := ⟨[.anonymous 1 (ops.map .step)]⟩

/-- An image is put aside in a run that fails; another one is put aside in the same slot of another
context; and a run that would put that one aside in the first context is asked to stop before it does.
The image that is taken up then is the first one. -/
theorem retrieve_faithful_stopped : ∃ log s before name x,
    Reaches (.builtin 100)
        (start ((Catalogue.builtin 100 : Catalogue Empty).shared [])) log s ∧
      log = before ++ .started name x :: [] ∧ x.element = .step (.retrieve "x".toList) ∧
      x.element.apply x.image x.state = (.ok (some blackPixel), x.state) := by
  let white : Image := ⟨1, 1, .l8, #[255], rfl⟩
  have hstart : Reaches (.builtin 100)
      (start ((Catalogue.builtin 100 : Catalogue Empty).shared [])) [] _ := .start
  have hboth := (hstart.step (.openContext "a".toList .edit false)).step
    (.openContext "b".toList .edit false)
  have hruns := (hboth.step (.run "a".toList (operating [.stash "x".toList, .retrieve "y".toList])
    none (some blackPixel))).step (.run "b".toList (operating [.stash "x".toList]) none (some white))
  have hstopped := hruns.interrupted "a".toList (operating [.stash "y".toList, .stash "x".toList])
    none (some white) rfl rfl (.later rfl rfl (.now _ _ _ _))
  have hlast := (hstopped.step (.setCancelled "a".toList false)).step
    (.run "a".toList (operating [.retrieve "x".toList]) none none)
  exact ⟨_, _, _, _, _, hlast, rfl, rfl, (retrieve_faithful 100 [] hlast rfl rfl).trans rfl⟩

end Session

end PhotoPipeline
