/-
**Sessions with a store and without one.**

A session starts contexts, stops them and lets them go on, clears their image store, and runs
recipes in them, in any order.  Over the built-in catalogue all contexts share one store.  Over
the same kinds without a store there is nothing to keep results in, so every group runs its
elements each time.  If the groups of the recipes that keep their results turn one image into
another and do nothing else, both sessions show the same.

Main definitions:

* `PhotoPipeline.SessionStep` — what is done in a session;
* `PhotoPipeline.Session.perform`, `PhotoPipeline.Session.play` — steps in turn, with the results
  of the runs;
* `PhotoPipeline.Session.hashes` — the strings that are hashed for keys during a session;
* `PhotoPipeline.Catalogue.storeless` — the built-in kinds without a store;
* `PhotoPipeline.Session.Mirrors` — two sessions that differ only in what a store could change.

Main results:

* `PhotoPipeline.Recipe.run_agrees` — a run with a store and one without;
* `PhotoPipeline.Session.Mirrors.perform` — one step of two sessions;
* `PhotoPipeline.Session.results_builtin` — **the store does not show**.
-/
import PhotoPipeline.Engine.Session
import PhotoPipeline.Proofs.Cache.Transparency

set_option relaxedAutoImplicit false
set_option autoImplicit false

namespace PhotoPipeline

open Element (nodesAll hashesAll)

/-! ### Runs of a recipe -/

/-- The pipeline that is run: the one of a name, or without a name the main one. -/
def Recipe.picked? (r : Recipe Empty) (label : Option Text) : Option (Pipeline Empty) :=
  label.elim r.main? r.find?

/-- The strings that are hashed for keys while a pipeline of a recipe runs. -/
def Recipe.hashes (r : Recipe Empty) (label : Option Text) (image : Option Image)
    (s : RunState) : List (List UInt8) :=
  match r.picked? label with
  | some p => hashesAll p.elements image (s.announce p.name?)
  | none => []

section

variable {hashed : List (List UInt8)} {r : Recipe Empty}

theorem nodesAll_append (es fs : List (Element Empty)) :
    nodesAll (es ++ fs) = nodesAll es ++ nodesAll fs := by
  induction es with
  | nil => rfl
  | cons e es ih => rw [List.cons_append, nodesAll, ih, nodesAll, List.append_assoc]

/-- The elements of a pipeline are elements of the recipe. -/
theorem Recipe.mem_nodesAll_topElements {p : Pipeline Empty} (hp : p ∈ r.pipelines)
    {x : Element Empty} (hx : x ∈ nodesAll p.elements) : x ∈ nodesAll r.topElements := by
  obtain ⟨before, after, hsplit⟩ := List.append_of_mem hp
  rw [topElements, hsplit, List.flatMap_append, List.flatMap_cons, nodesAll_append,
    nodesAll_append]
  refine List.mem_append_right _ (List.mem_append_left _ ?_)
  cases p with
  | definition name es => exact List.mem_append_left _ (List.mem_cons_of_mem _ hx)
  | anonymous number es => exact hx

theorem Recipe.mem_of_picked? {label : Option Text} {p : Pipeline Empty}
    (h : r.picked? label = some p) : p ∈ r.pipelines := by
  cases label with
  | some label => exact List.mem_of_find?_eq_some h
  | none =>
      rw [picked?, Option.elim, main?, Option.or_eq_some_iff] at h
      rcases h with h | ⟨-, h⟩
      · exact List.mem_of_find?_eq_some h
      · exact List.mem_of_getLast? h

theorem Recipe.run_eq (r : Recipe Empty) (label : Option Text) (image : Option Image)
    (s : RunState) : r.run label image s =
      match r.picked? label with
      | some p => runPipeline p.name? p.elements image s
      | none => (label.elim (.ok image) fun label => .error ⟨.undefinedPipeline label, none⟩, s) := by
  cases label with
  | some label =>
      rw [Recipe.run, picked?, Option.elim]
      cases r.find? label <;> rfl
  | none =>
      rw [Recipe.run, picked?, Option.elim]
      cases r.main? <;> rfl

/-- With a store and without one, a recipe does the same, whatever earlier runs have left. -/
theorem Recipe.run_tallies {p : Digest → Image → Prop} {m : Mode}
    {G : List (Element Empty) → Prop} (hG : Keepable hashed p m G)
    (hr : ∀ x ∈ nodesAll r.topElements, x.KeepsOnly G) (label : Option Text)
    (image : Option Image) {s t : RunState} (h : Resembles p m s t)
    (hhashes : ∀ b ∈ r.hashes label image s, b ∈ hashed) :
    Tallies p m (r.run label image s) (r.run label image t) := by
  rw [run_eq, run_eq]
  rw [Recipe.hashes] at hhashes
  cases hp : r.picked? label with
  | none => exact ⟨rfl, h⟩
  | some pipeline =>
      rw [hp] at hhashes
      have helements : ∀ x ∈ nodesAll pipeline.elements, x.KeepsOnly G :=
        fun x hx => hr x (mem_nodesAll_topElements (mem_of_picked? hp) hx)
      exact (Element.run_tallies hG pipeline.elements helements image (h.announce _)
        hhashes).announcing _

/-- **With a store and without one, a recipe does the same.** -/
theorem Recipe.run_agrees (hH : NoCollision hashed)
    (hr : ∀ x ∈ nodesAll r.topElements, x.KeepsRepeatable ∧ x.Sane) (label : Option Text)
    (image : Option Image) {s t : RunState} (h : Mirrors hashed s t)
    (hhashes : ∀ b ∈ r.hashes label image s, b ∈ hashed) :
    Agree hashed (r.run label image s) (r.run label image t) :=
  (r.run_tallies (keepable_repeatable hH _) (keepsOnly_repeatableScript hr) label image h.resembles
    hhashes).agree

end

/-! ### Steps -/

/-- What is done in a session. -/
inductive SessionStep where
  /-- Starts a context with a flag of its own. -/
  | openContext (name : Text) (mode : Mode) (verbose : Bool)
  /-- Starts a context that shares the flag of another. -/
  | openSharing (name other : Text) (mode : Mode) (verbose : Bool)
  /-- Asks a context to stop, or takes the request back. -/
  | setCancelled (name : Text) (stop : Bool)
  /-- Drops everything from the image store of a context. -/
  | clearCache (name : Text)
  /-- Runs a recipe in a context. -/
  | run (name : Text) (recipe : Recipe Empty) (label : Option Text) (image : Option Image)

/-- The built-in kinds without a store. -/
def Catalogue.storeless : Catalogue Empty := ⟨builtinKinds, [], []⟩

namespace Session

/-- Does a step over a catalogue.  A run in a known context has a result. -/
def perform (c : Catalogue Empty) (s : Session) :
    SessionStep → Option (Except Halted (Option Image)) × Session
  | .openContext name mode verbose =>
    (none, s.openContext name { c.context mode with verbose := verbose })
  | .openSharing name other mode verbose =>
    match s.find? other with
    | none => (none, s)
    | some o => (none, s.openSharing name o { c.context mode with verbose := verbose })
  | .setCancelled name stop =>
    match s.find? name with
    | none => (none, s)
    | some x => (none, s.setCancelled x stop)
  | .clearCache name =>
    match s.find? name with
    | none => (none, s)
    | some x => (none, (s.clearCache x).2)
  | .run name r label image =>
    match s.find? name with
    | none => (none, s)
    | some x => (some (s.run name x r label image).1, (s.run name x r label image).2)

/-- Does steps in turn; the results of the runs. -/
def play (c : Catalogue Empty) : Session → List SessionStep →
    List (Option (Except Halted (Option Image)))
  | _, [] => []
  | s, step :: steps => (s.perform c step).1 :: play c (s.perform c step).2 steps

/-- The strings that are hashed for keys during a step. -/
def stepHashes (s : Session) : SessionStep → List (List UInt8)
  | .run name r label image =>
    match s.find? name with
    | none => []
    | some x => r.hashes label image (s.runState x)
  | _ => []

/-- The strings that are hashed for keys during steps in turn. -/
def hashes (c : Catalogue Empty) : Session → List SessionStep → List (List UInt8)
  | _, [] => []
  | s, step :: steps => s.stepHashes step ++ hashes c (s.perform c step).2 steps

end Session

/-! ### Two sessions -/

/-- The contexts look alike to elements; only the first may have a store. -/
structure Context.Mirrors (c d : Context) : Prop where
  mode : c.mode = d.mode
  slots : c.extensions.get? .slots slotsKey = d.extensions.get? .slots slotsKey
  storeless : d.extensions.get? .store storeKey = none

/-- The contexts look alike and listen to the same flag. -/
def SessionContext.Mirrors (x y : SessionContext) : Prop :=
  x.flag = y.flag ∧ x.context.Mirrors y.context

/-- The sessions have the same contexts; only the first may have stores, all of them sound. -/
structure Session.Mirrors (hashed : List (List UInt8)) (a b : Session) : Prop where
  flags : a.flags = b.flags
  contexts : ∀ name, Option.Rel SessionContext.Mirrors (a.find? name) (b.find? name)
  sound : ∀ store ∈ a.shared.stores, store.Sound hashed

/-- A new context has nothing put aside. -/
theorem Catalogue.context_mirrors (budget : UInt64) (mode : Mode) (verbose : Bool) :
    Context.Mirrors { (Catalogue.builtin budget : Catalogue Empty).context mode with verbose }
      { Catalogue.storeless.context mode with verbose } :=
  ⟨rfl, rfl, rfl⟩

namespace Session

variable {hashed : List (List UInt8)} {a b : Session}

theorem find?_put_of_ne (s : Session) {name other : Text} (h : other ≠ name)
    (x : SessionContext) : (s.put name x).find? other = s.find? other := by
  have hne : (other == name) = false := beq_false_of_ne h
  simp only [find?, put, List.lookup_cons, hne]
  exact Extensions.lookup_filter_ne h s.contexts

theorem Mirrors.put (h : Mirrors hashed a b) (name : Text) {x y : SessionContext}
    (hxy : x.Mirrors y) : Mirrors hashed (a.put name x) (b.put name y) where
  flags := h.flags
  contexts := fun other => by
    by_cases hname : other = name
    · rw [hname, find?_put_self, find?_put_self]
      exact .some hxy
    · rw [find?_put_of_ne a hname, find?_put_of_ne b hname]
      exact h.contexts other
  sound := h.sound

theorem Mirrors.setFlags (h : Mirrors hashed a b) (flags : List Bool) :
    Mirrors hashed { a with flags := flags } { b with flags := flags } :=
  ⟨rfl, h.contexts, h.sound⟩

theorem Mirrors.setCancelled (h : Mirrors hashed a b) {x y : SessionContext}
    (hxy : x.Mirrors y) (stop : Bool) :
    Mirrors hashed (a.setCancelled x stop) (b.setCancelled y stop) := by
  rw [Session.setCancelled, Session.setCancelled, h.flags, hxy.1]
  exact h.setFlags _

theorem Mirrors.runState (h : Mirrors hashed a b) {x y : SessionContext} (hxy : x.Mirrors y) :
    PhotoPipeline.Mirrors hashed (a.runState x) (b.runState y) where
  mode := hxy.2.mode
  cancelled := by
    show a.isCancelled x = b.isCancelled y
    rw [isCancelled, isCancelled, h.flags, hxy.1]
  slots := hxy.2.slots
  storeless := hxy.2.storeless
  sound := h.sound

theorem Mirrors.absorb (h : Mirrors hashed a b) (name : Text) {x y : SessionContext}
    (hxy : x.Mirrors y) {s t : RunState} (hst : PhotoPipeline.Mirrors hashed s t) :
    Mirrors hashed (a.absorb name x s) (b.absorb name y t) := by
  have hshared : Mirrors hashed { a with shared := s.shared } { b with shared := t.shared } :=
    ⟨h.flags, h.contexts, hst.sound⟩
  rw [Session.absorb, Session.absorb, hst.cancelled]
  exact (hshared.setCancelled hxy _).put name ⟨hxy.1, hst.mode, hst.slots, hst.storeless⟩

theorem Mirrors.clearCache (h : Mirrors hashed a b) {x y : SessionContext} (hxy : x.Mirrors y) :
    Mirrors hashed (a.clearCache x).2 (b.clearCache y).2 := by
  -- without a store there is nothing to drop
  have hb : (b.clearCache y).2 = b := by
    have hstoreless : (b.runState y).storeNumber? = none := hxy.2.storeless
    simp only [Session.clearCache, hstoreless]
  rw [hb, Session.clearCache]
  split
  · next number store _ _ =>
      exact ⟨h.flags, h.contexts, fun _ hmem => (List.mem_or_eq_of_mem_set hmem).elim (h.sound _)
        (· ▸ ImageStore.sound_clear store)⟩
  · exact h

/-- Both sessions have a context of a name, or neither has. -/
theorem Mirrors.find? (h : Mirrors hashed a b) (name : Text) :
    (a.find? name = none ∧ b.find? name = none) ∨
      ∃ x y, a.find? name = some x ∧ b.find? name = some y ∧ x.Mirrors y := by
  have hrel := h.contexts name
  revert hrel
  cases a.find? name with
  | none => cases b.find? name with
    | none => exact fun _ => .inl ⟨rfl, rfl⟩
    | some y => exact fun hrel => nomatch hrel
  | some x => cases b.find? name with
    | none => exact fun hrel => nomatch hrel
    | some y => exact fun | .some hxy => .inr ⟨x, y, rfl, rfl, hxy⟩

end Session

/-- Recipes are decoded, leave files alone and keep results of repeatable elements only. -/
def SessionStep.KeepsRepeatable (budget : UInt64) : SessionStep → Prop
  | .run _ r _ _ => (∃ source vars, Recipe.ofText (.builtin budget) source vars = .ok r) ∧
      ∀ x ∈ nodesAll r.topElements, x.KeepsRepeatable
  | _ => True

namespace Session

variable {hashed : List (List UInt8)} {a b : Session} {budget : UInt64}

/-- **One step of two sessions.** -/
theorem Mirrors.perform (hH : NoCollision hashed) (h : Mirrors hashed a b) {step : SessionStep}
    (hstep : step.KeepsRepeatable budget) (hhashes : ∀ x ∈ a.stepHashes step, x ∈ hashed) :
    (a.perform (.builtin budget) step).1 = (b.perform .storeless step).1 ∧
      Mirrors hashed (a.perform (.builtin budget) step).2 (b.perform .storeless step).2 := by
  cases step with
  | openContext name mode verbose =>
      refine ⟨rfl, ?_⟩
      simp only [Session.perform, openContext, h.flags]
      exact (h.setFlags _).put name ⟨rfl, Catalogue.context_mirrors budget mode verbose⟩
  | openSharing name other mode verbose =>
      simp only [Session.perform]
      rcases h.find? other with ⟨ha, hb⟩ | ⟨x, y, ha, hb, hxy⟩
      · rw [ha, hb]
        exact ⟨rfl, h⟩
      · rw [ha, hb]
        exact ⟨rfl, h.put name ⟨hxy.1, Catalogue.context_mirrors budget mode verbose⟩⟩
  | setCancelled name stop =>
      simp only [Session.perform]
      rcases h.find? name with ⟨ha, hb⟩ | ⟨x, y, ha, hb, hxy⟩
      · rw [ha, hb]
        exact ⟨rfl, h⟩
      · rw [ha, hb]
        exact ⟨rfl, h.setCancelled hxy stop⟩
  | clearCache name =>
      simp only [Session.perform]
      rcases h.find? name with ⟨ha, hb⟩ | ⟨x, y, ha, hb, hxy⟩
      · rw [ha, hb]
        exact ⟨rfl, h⟩
      · rw [ha, hb]
        exact ⟨rfl, h.clearCache hxy⟩
  | run name r label image =>
      obtain ⟨⟨source, vars, hdecode⟩, hkeeps⟩ := hstep
      have hr : ∀ x ∈ nodesAll r.topElements, x.KeepsRepeatable ∧ x.Sane := fun x hx =>
        ⟨hkeeps x hx, Recipe.sane_of_ofText hdecode x hx⟩
      simp only [Session.perform]
      rcases h.find? name with ⟨ha, hb⟩ | ⟨x, y, ha, hb, hxy⟩
      · rw [ha, hb]
        exact ⟨rfl, h⟩
      · simp only [stepHashes, ha] at hhashes
        obtain ⟨hresult, hstates⟩ := Recipe.run_agrees hH hr label image (h.runState hxy) hhashes
        rw [ha, hb]
        exact ⟨congrArg some hresult, h.absorb name hxy hstates⟩

/-- Steps in turn. -/
theorem Mirrors.play (hH : NoCollision hashed) {steps : List SessionStep}
    (hsteps : ∀ step ∈ steps, step.KeepsRepeatable budget) (h : Mirrors hashed a b)
    (hhashes : ∀ x ∈ a.hashes (.builtin budget) steps, x ∈ hashed) :
    a.play (.builtin budget) steps = b.play .storeless steps := by
  induction steps generalizing a b with
  | nil => rfl
  | cons step steps ih =>
      obtain ⟨hstep, hrest⟩ := List.forall_mem_cons.1 hsteps
      obtain ⟨hfirst, hothers⟩ := List.forall_mem_append.1 hhashes
      obtain ⟨hresult, hmirrors⟩ := h.perform hH hstep hfirst
      rw [Session.play, Session.play, hresult, ih hrest hmirrors hothers]

/-- The results of the runs of a session over a catalogue, from its start. -/
def results (c : Catalogue Empty) (files : FileTree) (steps : List SessionStep) :
    List (Option (Except Halted (Option Image))) :=
  play c (start (c.shared files)) steps

/-- The strings that are hashed for keys during a session over a catalogue. -/
def allHashes (c : Catalogue Empty) (files : FileTree) (steps : List SessionStep) :
    List (List UInt8) :=
  hashes c (start (c.shared files)) steps

/-- **The store does not show.**  Whatever is done in a session over the built-in kinds with one
store, every run has the result that it has without a store: the image, or the error with the
image it left.  Recipes may do anything but touch files and run elements once; the elements inside
a group that keeps its result turn one image into another and do nothing else.  No two different
strings that are hashed during the session may have one digest. -/
theorem results_builtin (budget : UInt64) (files : FileTree) (steps : List SessionStep)
    (hsteps : ∀ step ∈ steps, step.KeepsRepeatable budget)
    (hH : NoCollision (allHashes (.builtin budget) files steps)) :
    results (.builtin budget) files steps = results .storeless files steps := by
  have hstart : Mirrors (allHashes (.builtin budget) files steps)
      (start ((Catalogue.builtin budget : Catalogue Empty).shared files))
      (start (Catalogue.storeless.shared files)) :=
    ⟨rfl, fun _ => .none, List.forall_mem_singleton.2 (ImageStore.sound_empty budget)⟩
  exact hstart.play hH hsteps fun _ hx => hx

/-! ### A sample -/

/-- A group that keeps its result, with a pipeline inside. -/
def sampleGroup : List (Element Empty) :=
  [.group (.definition ".p".toList) [.step (.adjust .invert)]]

/-- The recipe of the group. -/
def sampleRecipe : Recipe Empty := ⟨[.anonymous 1 [.group .cache sampleGroup]]⟩

theorem ofText_sampleRecipe :
    Recipe.ofText (.builtin defaultBudget) "cache(.p(invert()))".toList [] = .ok sampleRecipe :=
  Recipe.ofText_eq_ok_iff.2
    ⟨[⟨"cache".toList, [⟨".p".toList, [.leaf "invert".toList ⟨9, 1, 10⟩], ⟨6, 1, 7⟩⟩],
      ⟨0, 1, 1⟩⟩], rfl, rfl⟩

/-- The recipe runs twice in one context and once more in another one. -/
def sampleSteps : List SessionStep :=
  [.openContext "a".toList .edit false, .run "a".toList sampleRecipe none (some blackPixel),
    .run "a".toList sampleRecipe none (some blackPixel), .openContext "b".toList .convert true,
    .run "b".toList sampleRecipe none (some blackPixel)]

/-- The second and the third result come from the store, and they are the first one again. -/
theorem results_builtin_sampleSteps :
    results (.builtin defaultBudget) [] sampleSteps =
      [none, some (.ok (some ⟨1, 1, .l8, #[255], rfl⟩)),
        some (.ok (some ⟨1, 1, .l8, #[255], rfl⟩)), none,
        some (.ok (some ⟨1, 1, .l8, #[255], rfl⟩))] := by
  have hrun : ∀ name image,
      SessionStep.KeepsRepeatable defaultBudget (.run name sampleRecipe none image) := by
    refine fun _ _ => ⟨⟨_, _, ofText_sampleRecipe⟩, ?_⟩
    decide
  have hsteps : ∀ step ∈ sampleSteps, step.KeepsRepeatable defaultBudget := by
    simp only [sampleSteps, List.forall_mem_cons, hrun, true_and]
    exact ⟨trivial, trivial, fun _ h => nomatch h⟩
  have hhashed : ∀ b ∈ allHashes (.builtin defaultBudget) [] sampleSteps,
      b ∈ keyHashes sampleGroup (some blackPixel) := by
    decide +kernel
  have hH : NoCollision (keyHashes sampleGroup (some blackPixel)) := by
    decide +kernel
  rw [results_builtin defaultBudget [] sampleSteps hsteps (hH.mono hhashed)]
  rfl

end Session

end PhotoPipeline
