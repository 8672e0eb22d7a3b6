/-
**Results from other modes.**

A store outlives the contexts that it was filled from, and they may have been in other modes.  The
key of a group says nothing about the mode.  So a group answers from the store what its elements
would give in its own mode as long as the modes of all runs agree on every `only` inside it: in
each, both run it or neither does.  Where they disagree, a group can answer what its elements gave
in another mode.

Main definitions:

* `PhotoPipeline.Element.AllStateless` — elements that are stateless, also inside others;
* `PhotoPipeline.KeptIn` — the groups in elements that keep their results;
* `PhotoPipeline.ToldApart` — no two of these groups are written alike;
* `PhotoPipeline.Element.runEach` — elements run in contexts, one after another.

Main results:

* `PhotoPipeline.Recipe.toldApart` — the groups of a script are told apart by their texts;
* `PhotoPipeline.keepable_keptIn` — groups that are told apart may share a store;
* `PhotoPipeline.Element.apply_cache_of_alike` — **a group answers what its elements would give**;
* `PhotoPipeline.Element.apply_cache_ne_of_mode` — **a group can answer for another mode**.
-/
import PhotoPipeline.Proofs.Cache.Simulation
import PhotoPipeline.Proofs.Recipe.References

set_option relaxedAutoImplicit false
set_option autoImplicit false

namespace PhotoPipeline

/-! ### Groups of stateless elements -/

namespace Element

instance : DecidablePred (PlainName : Element Empty → Prop)
  | group (.definition name) _ | group (.reference name) _ =>
    inferInstanceAs (Decidable (name.all isBare = true))
  | step _ | group .anonymous _ | group .cache _ | group .once _ | group (.only _) _ =>
    inferInstanceAs (Decidable True)
  | plugin x _ => x.elim

/-- All elements, also those inside others, are stateless. -/
def AllStateless (es : List (Element Empty)) : Prop := ∀ x ∈ nodesAll es, x.Stateless

instance : DecidablePred AllStateless :=
  fun es => inferInstanceAs (Decidable (∀ x ∈ nodesAll es, x.Stateless))

/-- Stateless elements keep results of stateless elements only. -/
theorem AllStateless.keepsOnly {es : List (Element Empty)} (hes : AllStateless es) :
    ∀ x ∈ nodesAll es, x.KeepsOnly AllStateless
  | step (.adjust _), _ => trivial
  | step (.load _), h | step (.save _), h | step (.stash _), h | step (.retrieve _), h
  | group .once _, h => (hes _ h).elim
  | group .cache _, h => fun x hx => hes x (mem_nodesAll_of_mem_group hx es h)
  | group .anonymous _, _ | group (.only _) _, _ | group (.definition _) _, _
  | group (.reference _) _, _ => trivial
  | plugin x _, _ => x.elim

end Element

open Element

/-- The groups in elements that keep their results. -/
def KeptIn (es : List (Element Empty)) (inside : List (Element Empty)) : Prop :=
  group .cache inside ∈ nodesAll es

/-- No two groups in elements that keep their results are written alike, unless they are equal. -/
def ToldApart (es : List (Element Empty)) : Prop :=
  ∀ fs gs, KeptIn es fs → KeptIn es gs →
    (group .anonymous fs).text = (group .anonymous gs).text → fs = gs

section

variable {hashed : List (List UInt8)} {m m' : Mode} {es : List (Element Empty)}

/-- **The groups of a script are told apart by their texts**, where the names in them are plain. -/
theorem Recipe.toldApart {budget : UInt64} {source : Text} {vars : Vars} {r : Recipe Empty}
    (hr : Recipe.ofText (.builtin budget) source vars = .ok r)
    (hes : ∀ x ∈ nodesAll es, x ∈ nodesAll r.topElements)
    (hplain : ∀ x ∈ nodesAll es, x.PlainName) : ToldApart es := by
  have hwritten : ∀ fs, KeptIn es fs → ∀ x ∈ writtenAll fs, x.PlainName := by
    intro fs hfs x hx
    exact hplain x (mem_nodesAll_of_mem_group (mem_nodesAll_of_mem_writtenAll fs x hx) es hfs)
  intro fs gs hfs hgs
  exact Recipe.eq_of_text_eq hr (hes _ hfs) (hes _ hgs) (hwritten fs hfs) (hwritten gs hgs)

theorem keepsOnly_keptIn (hes : ∀ x ∈ nodesAll es, x.KeepsOnly AllStateless) :
    ∀ x ∈ nodesAll es, x.KeepsOnly (KeptIn es) := by
  intro x hx
  refine (hes x hx).imp ?_
  rintro fs rfl -
  exact hx

/-- **Groups that are told apart may share a store** that runs in like modes have filled. -/
theorem keepable_keptIn (hes : ∀ x ∈ nodesAll es, x.KeepsOnly AllStateless) (htold : ToldApart es)
    (halike : ∀ x ∈ nodesAll es, x.AlikeIn m m') (hH : NoCollision hashed) :
    Keepable hashed (KeptFrom (KeptIn es) m hashed) m' (KeptIn es) := by
  refine keepable_keptFrom hH (fun gs hgs x hx => ?_) htold
  exact ⟨hes _ hgs x hx, halike x (mem_nodesAll_of_mem_group hx es hgs)⟩

end

/-! ### Runs in contexts -/

namespace Element

/-- Runs elements in contexts, one after another; what the contexts share in the end. -/
def runEach (es : List (Element Empty)) : List (Context × Option Image) → Shared → Shared
  | [], shared => shared
  | (c, image) :: runs, shared => runEach es runs (run es image ⟨c, shared⟩).2.shared

/-- The strings that are hashed for keys while elements run in contexts, one after another. -/
def eachHashes (es : List (Element Empty)) :
    List (Context × Option Image) → Shared → List (List UInt8)
  | [], _ => []
  | (c, image) :: runs, shared =>
    hashesAll es image ⟨c, shared⟩ ++ eachHashes es runs (run es image ⟨c, shared⟩).2.shared

theorem eachHashes_append (es : List (Element Empty)) (runs others : List (Context × Option Image))
    (shared : Shared) : eachHashes es (runs ++ others) shared =
      eachHashes es runs shared ++ eachHashes es others (runEach es runs shared) := by
  induction runs generalizing shared with
  | nil => rfl
  | cons run runs ih =>
      rw [List.cons_append, eachHashes, eachHashes, ih, List.append_assoc, runEach]

section

variable {hashed : List (List UInt8)} {p : Digest → Image → Prop} {G : List (Element Empty) → Prop}

/-- Runs in contexts, one after another, keep the stores in order. -/
theorem all_runEach {es : List (Element Empty)} (hes : ∀ x ∈ nodesAll es, x.KeepsOnly G)
    {runs : List (Context × Option Image)}
    (hG : ∀ run ∈ runs, Keepable hashed p run.1.mode G) {shared : Shared}
    (hshared : ∀ store ∈ shared.stores, store.All p)
    (hhashes : ∀ b ∈ eachHashes es runs shared, b ∈ hashed) :
    ∀ store ∈ (runEach es runs shared).stores, store.All p := by
  induction runs generalizing shared with
  | nil => exact hshared
  | cons run runs ih =>
      obtain ⟨hfirst, hrest⟩ := List.forall_mem_append.1 hhashes
      obtain ⟨hrun, hruns⟩ := List.forall_mem_cons.1 hG
      have hresembles := resembles_alone (s := ⟨run.1, shared⟩) hshared
      exact ih hruns (run_tallies hrun es hes run.2 hresembles hfirst).2.holds hrest

/-- From stores in order, a group gives what its elements give without a store. -/
theorem fst_apply_cache {c : Context} (hG : Keepable hashed p c.mode G) {es : List (Element Empty)}
    (hes : ∀ x ∈ (group .cache es).nodes, x.KeepsOnly G) {shared : Shared}
    (hshared : ∀ store ∈ shared.stores, store.All p) (hc : c.cancelled = false)
    {image : Option Image}
    (hhashes : ∀ b ∈ hashes (group .cache es) image ⟨c, shared⟩, b ∈ hashed) {t : RunState}
    (ht : t.Simple c.mode) :
    (apply (group .cache es) image ⟨c, shared⟩).1 = (run es image t).settle.1 := by
  have hresembles := resembles_alone (s := ⟨c, shared⟩) hshared
  have halone : c.alone.Simple c.mode := hresembles.simple hc
  have hG' : G es := hes _ List.mem_cons_self
  rw [(apply_tallies hG (group .cache es) hes image hresembles hc hhashes).1]
  simp only [apply]
  rw [remembering_of_none halone.storeless, hG.run_eq hG' image halone, hG.run_eq hG' image ht,
    RunOutcome.settle_mk, RunOutcome.settle_mk]

end

/-- **A group answers what its elements would give.**  A group that keeps its result has been run in
any contexts, one after another, that share stores, empty at first; then it is applied in one more.
Its elements are stateless, and the modes of the contexts agree on every `only` among them.  If
there are groups inside that keep their results as well, no two are written alike.  Unless two of
the strings hashed have one digest, the group gives the image that its elements give without a store
in the mode of the context, or their error. -/
theorem apply_cache_of_alike {es : List (Element Empty)} (hes : AllStateless es)
    (htold : ToldApart [group .cache es]) {shared : Shared}
    (hempty : ∀ store ∈ shared.stores, store.entries = [])
    (runs : List (Context × Option Image)) {c : Context} (hc : c.cancelled = false)
    (halike : ∀ run ∈ runs, ∀ x ∈ nodesAll es, x.AlikeIn c.mode run.1.mode) (image : Option Image)
    (hH : NoCollision (eachHashes [group .cache es] (runs ++ [(c, image)]) shared))
    {t : RunState} (ht : t.Simple c.mode) :
    (apply (group .cache es) image ⟨c, runEach [group .cache es] runs shared⟩).1 =
      (run es image t).settle.1 := by
  have hnodes : nodesAll [group .cache es] = group .cache es :: nodesAll es := List.append_nil _
  have hstateless : AllStateless [group .cache es] := by
    rw [AllStateless, hnodes]
    exact List.forall_mem_cons.2 ⟨trivial, hes⟩
  have hkeeps := hstateless.keepsOnly
  have hkeepsOnly := keepsOnly_keptIn hkeeps
  obtain ⟨hashed, hhashed, hH⟩ : ∃ hashed,
      (∀ b ∈ eachHashes [group .cache es] (runs ++ [(c, image)]) shared, b ∈ hashed) ∧
        NoCollision hashed := ⟨_, fun _ hb => hb, hH⟩
  rw [eachHashes_append, List.forall_mem_append] at hhashed
  obtain ⟨hruns, hlast⟩ := hhashed
  -- what is stored is what the elements of groups give in the mode of the last context
  have hkeepable : ∀ m, (∀ x ∈ nodesAll es, x.AlikeIn c.mode m) →
      Keepable hashed (KeptFrom (KeptIn [group .cache es]) c.mode hashed) m
        (KeptIn [group .cache es]) := by
    intro m hm
    refine keepable_keptIn hkeeps htold ?_ hH
    rw [hnodes]
    exact List.forall_mem_cons.2 ⟨trivial, hm⟩
  have hstores := all_runEach hkeepsOnly
    (fun run hrun => hkeepable run.1.mode (halike run hrun))
    (fun store hstore e he => by rw [hempty store hstore] at he; cases he) hruns
  rw [hnodes] at hkeepsOnly
  refine fst_apply_cache (hkeepable c.mode fun x _ => alikeIn_self c.mode x) hkeepsOnly hstores hc
    (fun b hb => hlast b ?_) ht
  rw [eachHashes, hashesAll, if_neg (hc ▸ Bool.false_ne_true)]
  exact List.mem_append_left _ (List.mem_append_left _ hb)

/-! ### A step for one mode -/

/-- Elements that invert in edit mode only. -/
def editing : List (Element Empty) := [group (.only .edit) [step (.adjust .invert)]]

/-- The recipe of a group that keeps their result. -/
def editingRecipe : Recipe Empty := ⟨[.anonymous 1 [group .cache editing]]⟩

theorem ofText_editingRecipe :
    Recipe.ofText (.builtin defaultBudget) "cache(only(edit invert()))".toList [] =
      .ok editingRecipe :=
  Recipe.ofText_eq_ok_iff.2
    ⟨[⟨"cache".toList, [⟨"only".toList, [.leaf "edit".toList ⟨11, 1, 12⟩,
      .leaf "invert".toList ⟨16, 1, 17⟩], ⟨6, 1, 7⟩⟩], ⟨0, 1, 1⟩⟩], rfl, rfl⟩

/-- A new context over the built-in kinds. -/
def newContext (m : Mode) : Context := (Catalogue.builtin defaultBudget : Catalogue Empty).context m

/-- What new contexts share. -/
def newShared : Shared := (Catalogue.builtin defaultBudget : Catalogue Empty).shared []

/-- The strings that are hashed when the group is run on a black pixel in one mode and then in
another have different digests. -/
theorem noCollision_editing (m : Mode) :
    NoCollision (eachHashes [group .cache editing]
      ([(newContext m, some blackPixel)] ++ [(newContext .convert, some blackPixel)])
      newShared) := by
  have hkey : NoCollision (keyHashes editing (some blackPixel)) :=
    noCollision_pair (by decide +kernel)
  refine hkey.mono ?_
  cases m <;> decide +kernel

/-- In convert mode the group leaves a black pixel as it is, also after a run in script mode. -/
theorem apply_cache_of_alike_editing :
    (apply (group .cache editing) (some blackPixel) ⟨newContext .convert,
      runEach [group .cache editing] [(newContext .script, some blackPixel)] newShared⟩).1 =
        .ok (some blackPixel) := by
  have htold : ToldApart [group .cache editing] :=
    Recipe.toldApart ofText_editingRecipe (fun _ hx => hx) (by decide)
  have halike : ∀ x ∈ nodesAll editing, x.AlikeIn .convert .script := by decide
  have hempty : ∀ store ∈ newShared.stores, store.entries = [] := by decide
  have hresult := apply_cache_of_alike (by decide) htold hempty
    [(newContext .script, some blackPixel)] rfl (List.forall_mem_singleton.2 halike)
    (some blackPixel) (noCollision_editing .script) (RunState.simple_bare .convert)
  exact hresult.trans rfl

/-- **A group can answer for another mode.**  After a run in edit mode, the group gives a white
pixel for a black one in convert mode, in which its elements leave the pixel as it is.  No two of
the strings that are hashed have one digest. -/
theorem apply_cache_ne_of_mode :
    Recipe.ofText (.builtin defaultBudget) "cache(only(edit invert()))".toList [] =
        .ok editingRecipe ∧
      group .cache editing ∈ nodesAll editingRecipe.topElements ∧
      AllStateless editing ∧
      NoCollision (eachHashes [group .cache editing]
        ([(newContext .edit, some blackPixel)] ++ [(newContext .convert, some blackPixel)])
        newShared) ∧
      (apply (group .cache editing) (some blackPixel) ⟨newContext .convert,
        runEach [group .cache editing] [(newContext .edit, some blackPixel)] newShared⟩).1 =
          .ok (some ⟨1, 1, .l8, #[255], rfl⟩) ∧
      (run editing (some blackPixel) (.bare .convert)).settle.1 = .ok (some blackPixel) := by
  refine ⟨ofText_editingRecipe, List.mem_cons_self, by decide, noCollision_editing .edit, ?_, rfl⟩
  decide +kernel

end Element

end PhotoPipeline
