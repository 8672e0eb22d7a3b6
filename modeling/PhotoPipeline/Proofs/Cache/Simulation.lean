/-
**Runs with a store and runs without one.**

A group that keeps its result answers from the image store of its context where it can.  To see
what this changes, a run is compared with one from a state that looks the same to elements and has
no store at all.  Nothing changes as long as the groups that keep results consist of elements that
turn one image into another and do nothing else, and whatever the stores hold under the key of such
a group is what its elements would give.

Stores may hold images from earlier runs, in other contexts and in other modes.  So what they hold
is a parameter here, a property of an image and its key.  Looking up, keeping, replacing and
dropping images preserve such a property, also where a group inside another one changes the store
while the outer one runs.

Main definitions:

* `PhotoPipeline.Element.Stateless` — an element that turns one image into another and does nothing
  else;
* `PhotoPipeline.Element.AlikeIn` — an element that does the same in two modes;
* `PhotoPipeline.Element.valueIn` — the result of stateless elements in a mode;
* `PhotoPipeline.Element.hashes` — the strings that are hashed for keys while an element runs;
* `PhotoPipeline.Resembles` — two states that differ only in what a store could change;
* `PhotoPipeline.Keepable` — groups that answer from the stores what their elements would give;
* `PhotoPipeline.KeptFrom` — what groups leave in the stores.

Main results:

* `PhotoPipeline.Element.run_eq_valueIn` — stateless elements do the same whenever they run;
* `PhotoPipeline.Element.run_tallies` — **with a store and without one, elements do the same**;
* `PhotoPipeline.keepable_keptFrom` — **groups whose texts tell their elements may share a store**.
-/
import PhotoPipeline.Proofs.Cache.Fingerprint
import PhotoPipeline.Proofs.Cache.Recency
import PhotoPipeline.Proofs.Engine.Group

set_option relaxedAutoImplicit false
set_option autoImplicit false

namespace PhotoPipeline

/-! ### Stateless elements -/

/-- In the state elements simply run: there is no store, and nobody has asked to stop. -/
structure RunState.Simple (m : Mode) (s : RunState) : Prop where
  storeless : s.storeNumber? = none
  goesOn : s.context.cancelled = false
  mode : s.context.mode = m

theorem RunState.simple_bare (m : Mode) : (bare m).Simple m := ⟨rfl, rfl, rfl⟩

theorem RunState.Simple.announce {m : Mode} {s : RunState} (h : s.Simple m) (name : Option Text) :
    (s.announce name).Simple m := by
  cases name with
  | none => exact h
  | some name => exact ⟨h.storeless, h.goesOn, h.mode⟩

namespace Element

/-- The element turns one image into another and does nothing else. -/
def Stateless : Element Empty → Prop
  | step (.adjust _) => True
  | group .anonymous _ => True
  | group .cache _ => True
  | group (.definition _) _ => True
  | group (.reference _) _ => True
  | group (.only _) _ => True
  | _ => False

instance : DecidablePred Stateless
  | step (.adjust _) | group .anonymous _ | group .cache _ | group (.definition _) _
  | group (.reference _) _ | group (.only _) _ => inferInstanceAs (Decidable True)
  | step (.load _) | step (.save _) | step (.stash _) | step (.retrieve _) | group .once _ =>
    inferInstanceAs (Decidable False)
  | plugin x _ => x.elim

/-- In both modes the element runs what is inside it, or in neither. -/
def AlikeIn (m m' : Mode) : Element Empty → Prop
  | group (.only mode) _ => m = mode ↔ m' = mode
  | _ => True

instance (m m' : Mode) : DecidablePred (AlikeIn m m')
  | group (.only mode) _ => inferInstanceAs (Decidable (m = mode ↔ m' = mode))
  | step _ | group .anonymous _ | group .cache _ | group .once _ | group (.definition _) _
  | group (.reference _) _ => inferInstanceAs (Decidable True)
  | plugin x _ => x.elim

theorem alikeIn_self (m : Mode) : ∀ e : Element Empty, e.AlikeIn m m
  | step _ => trivial
  | group (.only _) _ => Iff.rfl
  | group .anonymous _ => trivial
  | group .cache _ => trivial
  | group .once _ => trivial
  | group (.definition _) _ => trivial
  | group (.reference _) _ => trivial
  | plugin _ _ => trivial

/-- The result of elements in a mode, where they look at nothing else. -/
def valueIn (m : Mode) (es : List (Element Empty)) (image : Option Image) :
    Except Halted (Option Image) :=
  (run es image (.bare m)).1

section

variable {m m' : Mode}

/-- A name makes no difference to a run that leaves everything as it was. -/
theorem announcing_eq_of_eq {run : RunState → RunOutcome} {name : Option Text} {s : RunState}
    {v : Except Halted (Option Image)} (h : run (s.announce name) = (v, s.announce name)) :
    announcing name run s = (v, s) := by
  rw [announcing_eq, h, RunState.withdraw_announce]

mutual

/-- In like modes a stateless element gives the same, and leaves everything as it was. -/
theorem apply_alike : ∀ (e : Element Empty), (∀ x ∈ e.nodes, x.Stateless ∧ x.AlikeIn m m') →
    ∀ (image : Option Image) {s t : RunState}, s.Simple m → t.Simple m' →
      ∃ v, apply e image s = (v, s) ∧ apply e image t = (v, t)
  | step (.adjust a), _, image, s, t, _, _ => by
      simp only [apply, Operation.apply]
      exact ⟨_, rfl, rfl⟩
  | group .anonymous es, he, image, s, t, hs, ht
  | group (.definition _) es, he, image, s, t, hs, ht
  | group (.reference _) es, he, image, s, t, hs, ht => by
      have hes : ∀ x ∈ nodesAll es, x.Stateless ∧ x.AlikeIn m m' := fun x hx =>
        he x (List.mem_cons_of_mem _ hx)
      obtain ⟨v, hs, ht⟩ := run_alike es hes image (hs.announce _) (ht.announce _)
      simp only [apply]
      rw [announcing_eq_of_eq hs, announcing_eq_of_eq ht, RunOutcome.settle_mk,
        RunOutcome.settle_mk]
      exact ⟨_, rfl, rfl⟩
  | group .cache es, he, image, s, t, hs, ht => by
      obtain ⟨v, hrun, hrun'⟩ :=
        run_alike es (fun x hx => he x (List.mem_cons_of_mem _ hx)) image hs ht
      simp only [apply]
      rw [remembering_of_none hs.storeless, remembering_of_none ht.storeless, hrun, hrun',
        RunOutcome.settle_mk, RunOutcome.settle_mk]
      exact ⟨_, rfl, rfl⟩
  | group (.only mode) es, he, image, s, t, hs, ht => by
      have hmode : m = mode ↔ m' = mode := (he _ List.mem_cons_self).2
      simp only [apply, hs.mode, ht.mode, ← hmode]
      split
      · obtain ⟨v, hrun, hrun'⟩ :=
          run_alike es (fun x hx => he x (List.mem_cons_of_mem _ hx)) image hs ht
        rw [hrun, hrun', RunOutcome.settle_mk, RunOutcome.settle_mk]
        exact ⟨_, rfl, rfl⟩
      · exact ⟨_, rfl, rfl⟩
  | step (.load _), he, _, _, _, _, _ => (he _ List.mem_cons_self).1.elim
  | step (.save _), he, _, _, _, _, _ => (he _ List.mem_cons_self).1.elim
  | step (.stash _), he, _, _, _, _, _ => (he _ List.mem_cons_self).1.elim
  | step (.retrieve _), he, _, _, _, _, _ => (he _ List.mem_cons_self).1.elim
  | group .once _, he, _, _, _, _, _ => (he _ List.mem_cons_self).1.elim
  | plugin x _, _, _, _, _, _, _ => x.elim

/-- In like modes stateless elements give the same, and leave everything as it was. -/
theorem run_alike : ∀ (es : List (Element Empty)),
    (∀ x ∈ nodesAll es, x.Stateless ∧ x.AlikeIn m m') → ∀ (image : Option Image) {s t : RunState},
      s.Simple m → t.Simple m' → ∃ v, run es image s = (v, s) ∧ run es image t = (v, t)
  | [], _, image, s, t, _, _ => ⟨_, run_nil image s, run_nil image t⟩
  | e :: es, he, image, s, t, hs, ht => by
      obtain ⟨v, happly, happly'⟩ :=
        apply_alike e (fun x hx => he x (List.mem_append_left _ hx)) image hs ht
      rw [run_cons, run_cons, hs.goesOn, ht.goesOn, happly, happly']
      cases v with
      | error error => exact ⟨_, rfl, rfl⟩
      | ok next => exact run_alike es (fun x hx => he x (List.mem_append_right _ hx)) next hs ht

end

/-- **Stateless elements do the same whenever they run** in like modes, and leave everything as it
was. -/
theorem run_eq_valueIn {es : List (Element Empty)}
    (hes : ∀ x ∈ nodesAll es, x.Stateless ∧ x.AlikeIn m m') (image : Option Image) {s : RunState}
    (hs : s.Simple m') : run es image s = (valueIn m es image, s) := by
  obtain ⟨v, hbare, hrun⟩ := run_alike es hes image (RunState.simple_bare m) hs
  rw [valueIn, hbare, hrun]

/-- In like modes stateless elements give the same. -/
theorem valueIn_eq {es : List (Element Empty)}
    (hes : ∀ x ∈ nodesAll es, x.Stateless ∧ x.AlikeIn m m') (image : Option Image) :
    valueIn m' es image = valueIn m es image := by
  rw [valueIn, run_eq_valueIn hes image (RunState.simple_bare m')]

end

end Element

open Element

/-! ### What stores hold -/

/-- Every image of the store has a property, together with its key. -/
def ImageStore.All (p : Digest → Image → Prop) (s : ImageStore) : Prop :=
  ∀ e ∈ s.entries, p e.key e.image

namespace ImageStore

variable {p : Digest → Image → Prop} {s : ImageStore}

theorem all_empty (budget : UInt64) : (empty budget).All p := fun _ he => nomatch he

theorem All.get (h : s.All p) (key : Digest) :
    (s.get key).2.All p ∧ ∀ image, (s.get key).1 = some image → p key image := by
  constructor
  · rw [ImageStore.get]
    split
    · exact h
    · intro e he
      obtain ⟨f, hf, rfl⟩ := List.mem_map.1 he
      split <;> exact h f hf
  · intro image himage
    rw [fst_get] at himage
    obtain ⟨e, he, rfl⟩ := Option.map_eq_some_iff.1 himage
    rw [ImageStore.find?] at he
    have hkey := List.find?_some he
    obtain rfl : e.key = key := eq_of_beq hkey
    exact h e (List.mem_of_find?_eq_some he)

theorem All.set (h : s.All p) {key : Digest} {image : Image} (hnew : p key image) :
    (s.set key image).All p := by
  have hadded : ∀ (e : StoredImage) (t u : UInt64), e ∈ (⟨key, t, u, image⟩ : StoredImage) ::
      s.entries.filter (fun e => !(e.key == key)) → p e.key e.image := by
    intro e t u he
    rcases List.mem_cons.1 he with rfl | he
    · exact hnew
    · exact h e (List.mem_filter.1 he).1
  simp only [ImageStore.set]
  split
  · exact h
  · split
    · intro e he
      have hkept := (keepWithin_isPrefix _ _ _).mem he
      exact hadded e _ _ ((List.mergeSort_perm _ _).mem_iff.1 hkept)
    · exact fun e he => hadded e _ _ he

end ImageStore

/-! ### States that look alike -/

/-- The states look alike to elements that run in a mode; only the first may have stores, and every
image there has a property, together with its key. -/
structure Resembles (p : Digest → Image → Prop) (m : Mode) (s t : RunState) : Prop where
  mode : s.context.mode = m
  mode' : t.context.mode = m
  cancelled : s.context.cancelled = t.context.cancelled
  slots : s.slots? = t.slots?
  storeless : t.storeNumber? = none
  holds : ∀ store ∈ s.shared.stores, store.All p

/-- Two runs have one result and leave states that look alike. -/
def Tallies {α : Type} (p : Digest → Image → Prop) (m : Mode) (r r' : α × RunState) : Prop :=
  r.1 = r'.1 ∧ Resembles p m r.2 r'.2

section

variable {p : Digest → Image → Prop} {m : Mode} {s t : RunState}

theorem Resembles.simple (h : Resembles p m s t) (hcancelled : t.context.cancelled = false) :
    t.Simple m :=
  ⟨h.storeless, hcancelled, h.mode'⟩

theorem Resembles.announce (h : Resembles p m s t) (name : Option Text) :
    Resembles p m (s.announce name) (t.announce name) := by
  cases name with
  | none => exact h
  | some name => exact ⟨h.mode, h.mode', h.cancelled, h.slots, h.storeless, h.holds⟩

theorem Resembles.withdraw (h : Resembles p m s t) (name : Option Text) :
    Resembles p m (s.withdraw name) (t.withdraw name) := by
  cases name with
  | none => exact h
  | some name => exact ⟨h.mode, h.mode', h.cancelled, h.slots, h.storeless, h.holds⟩

theorem Tallies.announcing {run run' : RunState → RunOutcome} (name : Option Text)
    (h : Tallies p m (run (s.announce name)) (run' (t.announce name))) :
    Tallies p m (announcing name run s) (announcing name run' t) := by
  rw [announcing_eq, announcing_eq]
  exact ⟨h.1, h.2.withdraw name⟩

theorem Tallies.settle {r r' : RunOutcome} (h : Tallies p m r r') :
    Tallies p m r.settle r'.settle := by
  obtain ⟨result, s⟩ := r
  obtain ⟨result', s'⟩ := r'
  obtain ⟨rfl, hstates⟩ : result = result' ∧ Resembles p m s s' := h
  rw [RunOutcome.settle_mk, RunOutcome.settle_mk]
  exact ⟨rfl, hstates⟩

theorem Resembles.setStore (h : Resembles p m s t) (number : Nat) {store : ImageStore}
    (hstore : store.All p) : Resembles p m (s.setStore number store) t where
  mode := h.mode
  mode' := h.mode'
  cancelled := h.cancelled
  slots := h.slots
  storeless := h.storeless
  holds := fun _ hmem => (List.mem_or_eq_of_mem_set hmem).elim (h.holds _) (· ▸ hstore)

/-- Looking a result up does not show, and what is found has the property. -/
theorem Resembles.lookUp (h : Resembles p m s t) (number : Nat) (key : Digest) :
    Resembles p m (lookUp number key s).2 t ∧
      ∀ image, (PhotoPipeline.lookUp number key s).1 = some image → p key image := by
  rw [PhotoPipeline.lookUp]
  cases hstore : s.shared.stores[number]? with
  | none =>
      refine ⟨h, fun _ himage => ?_⟩
      cases himage
  | some store =>
      have hget := (h.holds store (List.mem_of_getElem? hstore)).get key
      exact ⟨h.setStore number hget.1, hget.2⟩

/-- Keeping a result that has the property does not show. -/
theorem Resembles.keep (h : Resembles p m s t) (number : Nat) {key : Digest} {image : Image}
    (hnew : p key image) : Resembles p m (keep number key image s) t := by
  rw [PhotoPipeline.keep]
  cases hstore : s.shared.stores[number]? with
  | none => exact h
  | some store => exact h.setStore number ((h.holds store (List.mem_of_getElem? hstore)).set hnew)

theorem Tallies.keepResult {r r' : Outcome} (h : Tallies p m r r') (number : Nat) {key : Digest}
    (hnew : ∀ image, r'.1 = .ok (some image) → p key image) :
    Tallies p m (keepResult number key r) r' := by
  obtain ⟨result, s⟩ := r
  obtain ⟨result', s'⟩ := r'
  obtain ⟨rfl, hstates⟩ : result = result' ∧ Resembles p m s s' := h
  cases result with
  | error error => exact ⟨rfl, hstates⟩
  | ok image =>
      cases image with
      | none => exact ⟨rfl, hstates⟩
      | some image => exact ⟨rfl, hstates.keep number (hnew image rfl)⟩

/-- Putting an image aside leaves the image store where it was. -/
theorem storeNumber?_stash (slot : Text) (i : Image) (s : RunState) :
    (Operation.apply (.stash slot) (some i) s).2.storeNumber? = s.storeNumber? := by
  have hne : storeKey ≠ slotsKey := by decide
  simp only [Operation.apply, requireImage, RunState.storeNumber?, RunState.mapContext,
    Extensions.getOrInsert]
  split
  · rw [Extensions.get?_insert_of_ne _ _ _ hne]
  · rw [Extensions.get?_insert_of_ne _ _ _ hne, Extensions.get?_insert_of_ne _ _ _ hne]

theorem Resembles.stash (h : Resembles p m s t) (slot : Text) (image : Option Image) :
    Tallies p m (Operation.apply (.stash slot) image s)
      (Operation.apply (.stash slot) image t) := by
  cases image with
  | none => exact ⟨rfl, h⟩
  | some i =>
      have hs := (Operation.apply_stash slot i s).2
      have ht := (Operation.apply_stash slot i t).2
      refine ⟨rfl, h.mode, h.mode', h.cancelled, ?_, ?_, h.holds⟩
      · rw [hs, ht, h.slots]
      · rw [storeNumber?_stash, h.storeless]

theorem Resembles.retrieve (h : Resembles p m s t) (slot : Text) (image : Option Image) :
    Tallies p m (Operation.apply (.retrieve slot) image s)
      (Operation.apply (.retrieve slot) image t) := by
  rw [Operation.apply_retrieve, Operation.apply_retrieve, h.slots]
  exact ⟨rfl, h⟩

end

/-! ### Without stores -/

theorem Extensions.find?_remove_self (x : Extensions) (key : Text) :
    (x.remove key).find? key = none := by
  rw [find?, remove, List.lookup_eq_none_iff]
  intro e he
  have hne : (!(e.1 == key)) = true := (List.mem_filter.1 he).2
  simp only [Bool.not_eq_true', beq_eq_false_iff_ne] at hne
  exact bne_iff_ne.2 hne.symm

theorem Extensions.find?_remove_of_ne (x : Extensions) {key other : Text} (h : key ≠ other) :
    (x.remove other).find? key = x.find? key :=
  lookup_filter_ne h x.resources

/-- The context without its image store, and with nothing around it. -/
def Context.alone (c : Context) : RunState :=
  ⟨{ c with extensions := c.extensions.remove storeKey }, ⟨[], []⟩⟩

/-- A state looks like its context alone. -/
theorem resembles_alone {p : Digest → Image → Prop} {s : RunState}
    (h : ∀ store ∈ s.shared.stores, store.All p) :
    Resembles p s.context.mode s s.context.alone where
  mode := rfl
  mode' := rfl
  cancelled := rfl
  slots := by
    have hne : slotsKey ≠ storeKey := by decide
    exact congrArg (Option.bind · Slot.slots.unwrap)
      (Extensions.find?_remove_of_ne s.context.extensions hne).symm
  storeless := by
    exact congrArg (Option.bind · Slot.store.unwrap)
      (Extensions.find?_remove_self s.context.extensions storeKey)
  holds := h

/-! ### What is hashed -/

namespace Element

mutual

/-- The strings that are hashed for keys while an element is applied. -/
def hashes : Element Empty → Option Image → RunState → List (List UInt8)
  | step _, _, _ => []
  | plugin x _, _, _ => x.elim
  | group .cache es, image, s =>
    match s.storeNumber? with
    | none => hashesAll es image s
    | some number =>
      keyHashes es image ++
        match lookUp number (cacheKey es image) s with
        | (some _, _) => []
        | (none, s) => hashesAll es image s
  | group .once es, image, s =>
    match s.storeNumber? with
    | none => hashesAll es image s
    | some number =>
      seedBytes es ::
        match lookUp number (onceKey es) s with
        | (some _, _) => []
        | (none, s) => hashesAll es image s
  | group (.only mode) es, image, s => if s.context.mode = mode then hashesAll es image s else []
  | group kind es, image, s => hashesAll es image (s.announce kind.announced?)

/-- The strings that are hashed for keys while elements are applied in turn. -/
def hashesAll : List (Element Empty) → Option Image → RunState → List (List UInt8)
  | [], _, _ => []
  | e :: es, image, s =>
    if s.context.cancelled then []
    else
      hashes e image s ++
        match apply e image s with
        | (.ok next, s) => hashesAll es next s
        | (.error _, _) => []

end

/-! ### The simulation -/

/-- The element leaves files alone, and if it keeps a result, it is of elements in question. -/
def KeepsOnly (G : List (Element Empty) → Prop) : Element Empty → Prop
  | step (.load _) => False
  | step (.save _) => False
  | group .once _ => False
  | group .cache es => G es
  | _ => True

instance (G : List (Element Empty) → Prop) [DecidablePred G] : DecidablePred (KeepsOnly G)
  | step (.load _) | step (.save _) | group .once _ => inferInstanceAs (Decidable False)
  | group .cache es => inferInstanceAs (Decidable (G es))
  | step (.adjust _) | step (.stash _) | step (.retrieve _) | group .anonymous _
  | group (.definition _) _ | group (.reference _) _ | group (.only _) _ =>
    inferInstanceAs (Decidable True)
  | plugin x _ => x.elim

theorem KeepsOnly.imp {G G' : List (Element Empty) → Prop} : ∀ {e : Element Empty},
    e.KeepsOnly G → (∀ es, e = group .cache es → G es → G' es) → e.KeepsOnly G'
  | step (.adjust _), _, _ | step (.stash _), _, _ | step (.retrieve _), _, _ => trivial
  | step (.load _), h, _ | step (.save _), h, _ | group .once _, h, _ => h
  | group .cache es, h, himp => himp es rfl h
  | group .anonymous _, _, _ | group (.only _) _, _, _ | group (.definition _) _, _, _
  | group (.reference _) _, _, _ => trivial
  | plugin x _, _, _ => x.elim

end Element

/-- Groups of elements that answer from the stores what their elements would give: the elements do
nothing but turn one image into another, and where an image is under their key, if the strings
hashed for it are among the given ones, it is their result. -/
structure Keepable (hashed : List (List UInt8)) (p : Digest → Image → Prop) (m : Mode)
    (G : List (Element Empty) → Prop) : Prop where
  stateless : ∀ es, G es → ∀ x ∈ nodesAll es, x.Stateless
  iff : ∀ es, G es → ∀ image, (∀ b ∈ keyHashes es image, b ∈ hashed) → ∀ found,
    p (cacheKey es image) found ↔ valueIn m es image = .ok (some found)

section

variable {hashed : List (List UInt8)} {p : Digest → Image → Prop} {m : Mode}
  {G : List (Element Empty) → Prop} {s t : RunState}

/-- Elements that may be kept are run. -/
theorem Keepable.run_eq (hG : Keepable hashed p m G) {es : List (Element Empty)} (hes : G es)
    (image : Option Image) (ht : t.Simple m) : run es image t = (valueIn m es image, t) :=
  run_eq_valueIn (fun x hx => ⟨hG.stateless es hes x hx, alikeIn_self m x⟩) image ht

namespace Element

/-- A group that keeps its result, given that running its elements does not show. -/
theorem cache_tallies (hG : Keepable hashed p m G) {es : List (Element Empty)} (hes : G es)
    {image : Option Image} (h : Resembles p m s t) (hcancelled : t.context.cancelled = false)
    (hhashes : ∀ b ∈ hashes (group .cache es) image s, b ∈ hashed)
    (hrun : ∀ {s : RunState}, Resembles p m s t → (∀ b ∈ hashesAll es image s, b ∈ hashed) →
      Tallies p m (run es image s) (run es image t)) :
    Tallies p m (apply (group .cache es) image s) (apply (group .cache es) image t) := by
  have hvalue := hG.run_eq hes image (h.simple hcancelled)
  simp only [hashes] at hhashes
  simp only [apply, remembering_of_none h.storeless]
  cases hnumber : s.storeNumber? with
  | none =>
      rw [hnumber] at hhashes
      rw [remembering_of_none hnumber]
      exact (hrun h hhashes).settle
  | some number =>
      simp only [hnumber] at hhashes
      obtain ⟨hkey, hrest⟩ := List.forall_mem_append.1 hhashes
      obtain ⟨hresembles, hfound⟩ := h.lookUp number (cacheKey es image)
      simp only [remembering, hnumber]
      rcases hlookUp : lookUp number (cacheKey es image) s with ⟨_ | found, s'⟩
      · -- the result is computed and, unless it is an error, kept
        rw [hlookUp] at hrest hresembles
        refine (hrun hresembles hrest).settle.keepResult number fun found hresult => ?_
        rw [hvalue, RunOutcome.settle_mk] at hresult
        rw [hG.iff es hes image hkey]
        cases hok : valueIn m es image with
        | error error =>
            rw [hok] at hresult
            cases hresult
        | ok result =>
            rw [hok] at hresult
            exact congrArg Except.ok (Except.ok.inj hresult)
      · -- the result is the one that running the elements would give
        rw [hlookUp] at hfound hresembles
        have hresult := (hG.iff es hes image hkey found).1 (hfound found rfl)
        rw [hvalue, hresult]
        exact ⟨rfl, hresembles⟩

mutual

/-- With a store and without one, an element does the same. -/
theorem apply_tallies (hG : Keepable hashed p m G) : ∀ (e : Element Empty),
    (∀ x ∈ e.nodes, x.KeepsOnly G) → ∀ (image : Option Image) {s t : RunState},
      Resembles p m s t → t.context.cancelled = false → (∀ b ∈ hashes e image s, b ∈ hashed) →
        Tallies p m (apply e image s) (apply e image t)
  | step (.adjust a), _, image, s, t, h, _, _ => by
      simp only [apply, Operation.apply]
      exact ⟨rfl, h⟩
  | step (.load _), he, _, _, _, _, _, _ => (he _ List.mem_cons_self).elim
  | step (.save _), he, _, _, _, _, _, _ => (he _ List.mem_cons_self).elim
  | step (.stash slot), _, image, s, t, h, _, _ => by
      simp only [apply]
      exact h.stash slot image
  | step (.retrieve slot), _, image, s, t, h, _, _ => by
      simp only [apply]
      exact h.retrieve slot image
  | group .cache es, he, image, s, t, h, hcancelled, hhashes => by
      have hes := run_tallies hG es fun x hx => he x (List.mem_cons_of_mem _ hx)
      exact cache_tallies hG (he _ List.mem_cons_self) h hcancelled hhashes (hes image)
  | group .once _, he, _, _, _, _, _, _ => (he _ List.mem_cons_self).elim
  | group (.only mode) es, he, image, s, t, h, hcancelled, hhashes => by
      have hes := run_tallies hG es fun x hx => he x (List.mem_cons_of_mem _ hx)
      simp only [hashes, h.mode] at hhashes
      simp only [apply, h.mode, h.mode']
      split
      · next hmode =>
          rw [if_pos hmode] at hhashes
          exact (hes image h hhashes).settle
      · exact ⟨rfl, h⟩
  | group .anonymous es, he, image, s, t, h, _, hhashes
  | group (.definition _) es, he, image, s, t, h, _, hhashes
  | group (.reference _) es, he, image, s, t, h, _, hhashes => by
      have hes := run_tallies hG es fun x hx => he x (List.mem_cons_of_mem _ hx)
      simp only [hashes] at hhashes
      simp only [apply]
      exact ((hes image (h.announce _) hhashes).announcing _).settle
  | plugin x _, _, _, _, _, _, _, _ => x.elim

/-- **With a store and without one, elements do the same.** -/
theorem run_tallies (hG : Keepable hashed p m G) : ∀ (es : List (Element Empty)),
    (∀ x ∈ nodesAll es, x.KeepsOnly G) → ∀ (image : Option Image) {s t : RunState},
      Resembles p m s t → (∀ b ∈ hashesAll es image s, b ∈ hashed) →
        Tallies p m (run es image s) (run es image t)
  | [], _, image, s, t, h, _ => by
      rw [run_nil, run_nil]
      exact ⟨rfl, h⟩
  | e :: es, he, image, s, t, h, hhashes => by
      have hhead := apply_tallies hG e fun x hx => he x (List.mem_append_left _ hx)
      have htail := run_tallies hG es fun x hx => he x (List.mem_append_right _ hx)
      rw [run_cons, run_cons, ← h.cancelled]
      rw [hashesAll] at hhashes
      -- both runs have been asked to stop, or neither has
      cases hcancelled : s.context.cancelled with
      | true => exact ⟨rfl, h⟩
      | false =>
          rw [hcancelled, if_neg Bool.false_ne_true] at hhashes
          obtain ⟨hfirst, hrest⟩ := List.forall_mem_append.1 hhashes
          obtain ⟨hresult, hresembles⟩ :=
            hhead image h (h.cancelled.symm.trans hcancelled) hfirst
          rcases hs : apply e image s with ⟨result, s'⟩
          rcases ht : apply e image t with ⟨result', t'⟩
          rw [hs, ht] at hresult hresembles
          rw [hs] at hrest
          obtain rfl : result = result' := hresult
          cases result with
          | error error => exact ⟨rfl, hresembles⟩
          | ok next => exact htail next hresembles hrest

end

end Element

end

/-! ### What groups leave behind -/

/-- The image is the result, in a mode, of elements in question and of an input whose key is this
one. -/
def KeptFrom (G : List (Element Empty) → Prop) (m : Mode) (hashed : List (List UInt8))
    (key : Digest) (image : Image) : Prop :=
  ∃ (es : List (Element Empty)) (input : Option Image), G es ∧
    (∀ b ∈ keyHashes es input, b ∈ hashed) ∧ key = cacheKey es input ∧
      valueIn m es input = .ok (some image)

/-- **Groups whose texts tell their elements may share a store**, also with runs in other modes that
treat them alike: unless two of the strings hashed have one digest, what is under their keys is
their result. -/
theorem keepable_keptFrom {hashed : List (List UInt8)} {G : List (Element Empty) → Prop}
    {m m' : Mode} (hH : NoCollision hashed)
    (hstateless : ∀ es, G es → ∀ x ∈ nodesAll es, x.Stateless ∧ x.AlikeIn m m')
    (htold : ∀ es fs, G es → G fs →
      (group .anonymous es).text = (group .anonymous fs).text → es = fs) :
    Keepable hashed (KeptFrom G m hashed) m' G where
  stateless := fun es hes x hx => (hstateless es hes x hx).1
  iff := by
    intro es hes image hkey found
    rw [valueIn_eq (hstateless es hes)]
    constructor
    · rintro ⟨fs, input, hfs, hkey', heq, hvalue⟩
      have hboth : NoCollision (keyHashes es image ++ keyHashes fs input) :=
        hH.mono (List.forall_mem_append.2 ⟨hkey, hkey'⟩)
      obtain ⟨htext, rfl⟩ := (cacheKey_eq_iff_text hboth).1 heq
      rwa [htold es fs hes hfs htext]
    · exact fun hvalue => ⟨es, image, hes, hkey, rfl, hvalue⟩

end PhotoPipeline
