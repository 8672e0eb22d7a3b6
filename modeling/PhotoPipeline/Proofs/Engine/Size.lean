/-
**The sizes of images in a run.**

A run that begins with an image of a proper size ends with one.  The images that it puts aside and the
images in the store of its context come back later, so they take part: if those that are there at the
beginning are proper, then so is every image that an element is given, gives, puts aside or leaves in
the store, and every image that is left by an error.  Files are not looked at, so elements that read
or write one are left out.

Main definitions:

* `PhotoPipeline.RunState.Fits` — a state whose images have a proper size;
* `PhotoPipeline.Outcome.Fits`, `PhotoPipeline.RunOutcome.Fits` — the same of outcomes;
* `PhotoPipeline.Start.Fits` — the same of an element that is applied, before and after;
* `PhotoPipeline.Element.LeavesFiles` — an element that neither reads nor writes a file.

Main results:

* `PhotoPipeline.Operation.fits_apply` — **what one step preserves**;
* `PhotoPipeline.Group.fits_enter`, `PhotoPipeline.Group.fits_leave` — what groups preserve;
* `PhotoPipeline.Element.fits_run`, `PhotoPipeline.Element.fits_of_mem_starts` — what a run preserves;
* `PhotoPipeline.runPipeline_fits` — **no run makes an oversized or empty image**.
-/
import PhotoPipeline.Proofs.Cache.Simulation
import PhotoPipeline.Proofs.Element.Size
import PhotoPipeline.Proofs.Engine.Trace

set_option relaxedAutoImplicit false
set_option autoImplicit false

namespace PhotoPipeline

/-! ### States and outcomes -/

/-- If there is an image, it has a proper size. -/
def ImageFits (image : Option Image) : Prop := ∀ i ∈ image, i.Fits

theorem ImageFits.none : ImageFits none := by
  intro i hi
  cases hi

theorem ImageFits.some {i : Image} (h : i.Fits) : ImageFits (some i) := by
  intro j hj
  cases hj
  exact h

/-- The images put aside and those in the store of the context have a proper size. -/
structure RunState.Fits (s : RunState) : Prop where
  slots : ∀ slots, s.slots? = some slots → ∀ e ∈ slots, e.2.Fits
  stored : ∀ store, s.store? = some store → store.All fun _ i => i.Fits

/-- The image that an element gives has a proper size, and so have those of the state. -/
structure Outcome.Fits (r : Outcome) : Prop where
  image : ∀ image, r.1 = .ok image → ImageFits image
  state : r.2.Fits

theorem Outcome.Fits.ok {image : Option Image} (himage : ImageFits image) {s : RunState}
    (hs : s.Fits) : Outcome.Fits (.ok image, s) := by
  refine ⟨fun next hnext => ?_, hs⟩
  obtain rfl := Except.ok.inj hnext
  exact himage

theorem Outcome.Fits.error (error : Error) {s : RunState} (hs : s.Fits) :
    Outcome.Fits (.error error, s) := by
  refine ⟨fun next hnext => ?_, hs⟩
  cases hnext

/-- The image that a run gives or leaves. -/
def RunOutcome.image? (r : RunOutcome) : Option Image :=
  match r.1 with
  | .ok image => image
  | .error halted => halted.partialImage

/-- The image that a run gives or leaves has a proper size, and so have those of the state. -/
structure RunOutcome.Fits (r : RunOutcome) : Prop where
  image : ImageFits r.image?
  state : r.2.Fits

/-- The element is given an image of a proper size, and gives one; what is put aside and what is
stored is proper before and after; and if the element is an adjustment, it computes exactly. -/
structure Start.Fits (x : Start Empty) : Prop where
  image : ImageFits x.image
  state : x.state.Fits
  outcome : Outcome.Fits (x.element.apply x.image x.state)
  exact : ∀ a, x.element = .step (.adjust a) → a.Exact x.image

namespace RunState

variable {s t : RunState}

/-- Only the resources and what contexts share matter. -/
theorem Fits.congr (h : s.Fits) (hresources : t.context.extensions = s.context.extensions)
    (hshared : t.shared = s.shared) : t.Fits := by
  have hslots : t.slots? = s.slots? := by
    rw [slots?, slots?, hresources]
  have hstore : t.store? = s.store? := by
    rw [store?, store?, storeNumber?, storeNumber?, hresources, hshared]
  exact ⟨hslots ▸ h.slots, hstore ▸ h.stored⟩

theorem Fits.announce (h : s.Fits) (name : Option Text) : (s.announce name).Fits := by
  cases name with
  | none => exact h
  | some name => exact h.congr rfl rfl

theorem Fits.withdraw (h : s.Fits) (name : Option Text) : (s.withdraw name).Fits := by
  cases name with
  | none => exact h
  | some name => exact h.congr rfl rfl

/-- The store of the context. -/
theorem Fits.stored_of_getElem? (h : s.Fits) {number : Nat}
    (hnumber : s.storeNumber? = some number) {store : ImageStore}
    (hstore : s.shared.stores[number]? = some store) : store.All fun _ i => i.Fits := by
  refine h.stored store ?_
  rw [store?, hnumber]
  exact hstore

/-- A store is replaced; if it is the one of the context, then by a proper one. -/
theorem Fits.setStore (h : s.Fits) {number : Nat} {store : ImageStore}
    (hstore : s.storeNumber? = some number → store.All fun _ i => i.Fits) :
    (s.setStore number store).Fits where
  slots := h.slots
  stored found hfound := by
    obtain ⟨n, hn, hfound⟩ := Option.bind_eq_some_iff.1 hfound
    have hn : s.storeNumber? = some n := hn
    have hfound : (s.shared.stores.set number store)[n]? = some found := hfound
    -- other contexts may have other stores, which are not looked at
    by_cases hnumber : number = n
    · subst hnumber
      rw [List.getElem?_set_self'] at hfound
      obtain ⟨_, -, rfl⟩ := Option.map_eq_some_iff.1 hfound
      exact hstore hn
    · rw [List.getElem?_set_ne hnumber] at hfound
      exact h.stored_of_getElem? hn hfound

/-- What is found in the store has a proper size. -/
theorem Fits.lookUp (h : s.Fits) {number : Nat} (hnumber : s.storeNumber? = some number)
    (key : Digest) :
    ImageFits (lookUp number key s).1 ∧ (PhotoPipeline.lookUp number key s).2.Fits := by
  rw [PhotoPipeline.lookUp]
  cases hstore : s.shared.stores[number]? with
  | none => exact ⟨.none, h⟩
  | some store =>
      obtain ⟨hall, hfound⟩ := (h.stored_of_getElem? hnumber hstore).get key
      exact ⟨hfound, h.setStore fun _ => hall⟩

/-- An image of a proper size is kept. -/
theorem Fits.keep (h : s.Fits) (number : Nat) (key : Digest) {image : Image}
    (himage : image.Fits) : (keep number key image s).Fits := by
  rw [PhotoPipeline.keep]
  cases hstore : s.shared.stores[number]? with
  | none => exact h
  | some store =>
      exact h.setStore fun hnumber => (h.stored_of_getElem? hnumber hstore).set himage

end RunState

/-! ### Steps -/

theorem fits_of_mem_putAside {slots : Slots} (h : ∀ e ∈ slots, e.2.Fits) {slot : Text} {i : Image}
    (hi : i.Fits) : ∀ e ∈ Operation.putAside slots slot i, e.2.Fits := by
  intro e he
  rcases List.mem_cons.1 he with rfl | he
  · exact hi
  · exact h e (List.mem_filter.1 he).1

namespace RunState

variable {s : RunState}

/-- The images put aside, be there any or none. -/
theorem Fits.slots_getD (h : s.Fits) : ∀ e ∈ s.slots?.getD [], e.2.Fits := by
  cases hslots : s.slots? with
  | none =>
      intro e he
      cases he
  | some slots => exact h.slots slots hslots

/-- An image of a proper size is put aside. -/
theorem Fits.stash (h : s.Fits) (slot : Text) {i : Image} (hi : i.Fits) :
    (Operation.apply (.stash slot) (some i) s).2.Fits where
  slots slots hslots := by
    rw [(Operation.apply_stash slot i s).2] at hslots
    obtain rfl := Option.some.inj hslots
    exact fits_of_mem_putAside h.slots_getD hi
  stored store hstore := by
    rw [store?, storeNumber?_stash] at hstore
    exact h.stored store hstore

end RunState

namespace Operation

/-- **What one step preserves**: an adjustment makes a proper image, and what is put aside or taken
up is proper. -/
theorem fits_apply {op : Operation} (hload : ∀ path, op ≠ load path)
    (hsave : ∀ path, op ≠ save path) {image : Option Image} (himage : ImageFits image)
    {s : RunState} (hs : s.Fits) : Outcome.Fits (op.apply image s) := by
  cases op with
  | load path => exact absurd rfl (hload path)
  | save path => exact absurd rfl (hsave path)
  | adjust a =>
      rw [apply]
      cases happly : a.apply image with
      | error error => exact .error error hs
      | ok i => exact .ok (.some (Adjustment.fits_of_apply himage happly)) hs
  | retrieve slot =>
      rw [apply_retrieve]
      split
      · next i hfound =>
          obtain ⟨before, after, hslots, -⟩ := List.lookup_eq_some_iff.1 hfound
          refine .ok (.some (hs.slots_getD (slot, i) ?_)) hs
          rw [hslots]
          exact List.mem_append_right _ List.mem_cons_self
      · exact .error _ hs
  | stash slot =>
      cases image with
      | none => exact .error _ hs
      | some i =>
          have hstate := hs.stash slot (himage i rfl)
          exact .ok himage hstate

end Operation

/-! ### Groups -/

theorem RunOutcome.Fits.settle {r : RunOutcome} (h : r.Fits) : Outcome.Fits r.settle := by
  obtain ⟨result, s⟩ := r
  cases result with
  | error halted => exact .error halted.error h.state
  | ok image => exact .ok h.image h.state

theorem RunOutcome.Fits.withdraw {v : Except Halted (Option Image)} {s : RunState}
    (h : RunOutcome.Fits (v, s)) (name : Option Text) : RunOutcome.Fits (v, s.withdraw name) :=
  ⟨h.image, h.state.withdraw name⟩

theorem Outcome.Fits.keepResult {r : Outcome} (h : r.Fits) (number : Nat) (key : Digest) :
    Outcome.Fits (keepResult number key r) := by
  obtain ⟨result, s⟩ := r
  cases result with
  | error error => exact h
  | ok image =>
      cases image with
      | none => exact h
      | some image =>
          have himage : ImageFits (some image) := h.image _ rfl
          exact .ok himage (h.state.keep number key (himage image rfl))

theorem fits_leaveStore {r : RunOutcome} (h : r.Fits) (key : Digest) (s : RunState) :
    Outcome.Fits (leaveStore key s r) := by
  rw [leaveStore]
  split
  · exact h.settle
  · exact h.settle.keepResult _ key

/-- The answer of a group is proper, or else the state for its elements to run in. -/
def EnterFits (r : Outcome ⊕ RunState) : Prop := r.elim Outcome.Fits RunState.Fits

theorem fits_enterStore {s : RunState} (hs : s.Fits) (key : Digest) :
    EnterFits (enterStore key s) := by
  rw [enterStore]
  cases hnumber : s.storeNumber? with
  | none => exact hs
  | some number =>
      obtain ⟨hfound, hstate⟩ := hs.lookUp hnumber key
      dsimp only
      rcases hlookUp : lookUp number key s with ⟨_ | image, t⟩
      all_goals rw [hlookUp] at hfound hstate
      · exact hstate
      · exact .ok hfound hstate

namespace Group

variable {ε : Type} [Plugin ε]

/-- What a group answers is proper, and so is the state in which its elements run. -/
theorem fits_enter (kind : Group) (es : List (Element ε)) {image : Option Image}
    (himage : ImageFits image) {s : RunState} (hs : s.Fits) :
    EnterFits (kind.enter es image s) := by
  cases kind with
  | cache | once => exact fits_enterStore hs _
  | only mode =>
      rw [enter]
      split
      · exact hs
      · exact .ok himage hs
  | anonymous | definition | reference => exact hs.announce _

/-- A group leaves proper images if its elements do. -/
theorem fits_leave {r : RunOutcome} (h : r.Fits) (kind : Group) (es : List (Element ε))
    (image : Option Image) (s : RunState) : Outcome.Fits (kind.leave es image s r) := by
  cases kind with
  | cache | once => exact fits_leaveStore h _ s
  | anonymous | definition | reference | only => exact RunOutcome.Fits.settle (h.withdraw _)

end Group

/-! ### Runs -/

namespace Element

/-- The element neither reads nor writes a file. -/
def LeavesFiles : Element Empty → Prop
  | step (.load _) => False
  | step (.save _) => False
  | _ => True

instance : DecidablePred LeavesFiles
  | step (.load _) | step (.save _) => inferInstanceAs (Decidable False)
  | step (.adjust _) | step (.stash _) | step (.retrieve _) | group _ _ =>
    inferInstanceAs (Decidable True)
  | plugin x _ => x.elim

theorem LeavesFiles.fits_apply {op : Operation} (h : (step op).LeavesFiles)
    {image : Option Image} (himage : ImageFits image) {s : RunState} (hs : s.Fits) :
    Outcome.Fits (op.apply image s) := by
  refine Operation.fits_apply ?_ ?_ himage hs
  all_goals
    rintro path rfl
    exact h

mutual

/-- What an element preserves. -/
theorem fits_apply : ∀ (e : Element Empty), (∀ x ∈ e.nodes, x.LeavesFiles) →
    ∀ {image : Option Image}, ImageFits image → ∀ {s : RunState}, s.Fits →
      Outcome.Fits (apply e image s)
  | step op, he, image, himage, s, hs => by
      rw [apply]
      exact (he _ List.mem_cons_self).fits_apply himage hs
  | plugin x _, _, _, _, _, _ => x.elim
  | group kind es, he, image, himage, s, hs => by
      have hes : ∀ x ∈ nodesAll es, x.LeavesFiles := fun x hx => he x (List.mem_cons_of_mem _ hx)
      have hentered := kind.fits_enter es himage hs
      cases henter : kind.enter es image s with
      | inl answer =>
          rw [henter] at hentered
          rw [apply_group_of_inl henter]
          exact hentered
      | inr t =>
          rw [henter] at hentered
          rw [apply_group_of_inr henter]
          exact Group.fits_leave (fits_run es hes himage hentered) kind es image s

/-- **What a run preserves**, to its end and also if it is cut short. -/
theorem fits_run : ∀ (es : List (Element Empty)), (∀ x ∈ nodesAll es, x.LeavesFiles) →
    ∀ {image : Option Image}, ImageFits image → ∀ {s : RunState}, s.Fits →
      RunOutcome.Fits (run es image s)
  | [], _, image, himage, s, hs => by
      rw [run_nil]
      exact ⟨himage, hs⟩
  | e :: es, hes, image, himage, s, hs => by
      have happly := fits_apply e (fun x hx => hes x (List.mem_append_left _ hx)) himage hs
      rw [run_cons]
      split
      · exact ⟨himage, hs⟩
      · rcases hresult : apply e image s with ⟨error | next, t⟩
        all_goals rw [hresult] at happly
        · exact ⟨himage, happly.state⟩
        · exact fits_run es (fun x hx => hes x (List.mem_append_right _ hx)) (happly.image next rfl)
            happly.state

end

mutual

/-- The elements that are applied inside of an element. -/
theorem fits_of_mem_inside : ∀ (e : Element Empty), (∀ x ∈ e.nodes, x.LeavesFiles) →
    ∀ {image : Option Image}, ImageFits image → ∀ {s : RunState}, s.Fits →
      ∀ x ∈ inside e image s, x.Fits
  | step op, _, image, _, s, _, x, hx => by
      rw [inside_of_isLeaf rfl] at hx
      cases hx
  | plugin x _, _, _, _, _, _, _, _ => x.elim
  | group kind es, he, image, himage, s, hs, x, hx => by
      obtain ⟨t, henter, hx⟩ := mem_inside_group hx
      have hentered := kind.fits_enter es himage hs
      rw [henter] at hentered
      exact fits_of_mem_starts es (fun x hx => he x (List.mem_cons_of_mem _ hx)) himage hentered x
        hx

/-- **The elements that are applied in a run**: the images around them are proper before and
after. -/
theorem fits_of_mem_starts : ∀ (es : List (Element Empty)), (∀ x ∈ nodesAll es, x.LeavesFiles) →
    ∀ {image : Option Image}, ImageFits image → ∀ {s : RunState}, s.Fits →
      ∀ x ∈ starts es image s, x.Fits
  | [], _, image, _, s, _, x, hx => by
      rw [starts_nil] at hx
      cases hx
  | e :: es, hes, image, himage, s, hs, x, hx => by
      have he : ∀ x ∈ e.nodes, x.LeavesFiles := fun x hx => hes x (List.mem_append_left _ hx)
      have happly := fits_apply e he himage hs
      obtain ⟨-, rfl | ⟨y, hy, rfl⟩ | ⟨next, t, hresult, hx⟩⟩ := mem_starts_cons hx
      · exact ⟨himage, hs, happly, fun a _ => a.exact image⟩
      · -- its place is all that has changed
        have hy := fits_of_mem_inside e he himage hs y hy
        exact ⟨hy.image, hy.state, hy.outcome, hy.exact⟩
      · rw [hresult] at happly
        exact fits_of_mem_starts es (fun x hx => hes x (List.mem_append_right _ hx))
          (happly.image next rfl) happly.state x hx

end

end Element

open Element

/-- **No run makes an oversized or empty image.**  The elements neither read nor write files; the
input, if there is one, and the images that are put aside and stored when the run begins have a proper
size.  Then so has the image that the run gives or leaves, and so have those that it puts aside and
stores.  The same holds of every element that is applied on the way, which computes sizes and offsets
as in exact numbers; these elements are those of the traced run, which has the same outcome. -/
theorem runPipeline_fits {es : List (Element Empty)} (hes : ∀ x ∈ nodesAll es, x.LeavesFiles)
    (name : Option Text) {image : Option Image} (himage : ImageFits image) {s : RunState}
    (hs : s.Fits) :
    runPipelineTraced name es image s =
        (runPipeline name es image s, starts es image (s.announce name)) ∧
      RunOutcome.Fits (runPipeline name es image s) ∧
      ∀ x ∈ starts es image (s.announce name), x.Fits := by
  refine ⟨runPipelineTraced_eq name es image s, ?_,
    fits_of_mem_starts es hes himage (hs.announce name)⟩
  rw [runPipeline, announcing_eq]
  exact RunOutcome.Fits.withdraw (fits_run es hes himage (hs.announce name)) name

/-! ### A sample -/

/-- A state with an image that has been put aside and another one in the store. -/
def stockedState : RunState where
  context := .new .edit [fun x => x.insert .store storeKey 0,
    fun x => x.insert .slots slotsKey [("a".toList, ImageStore.pairImage)]]
  shared := ⟨[(ImageStore.empty 1024).set (.replicate 32 0) ImageStore.dotImage], []⟩

/-- Takes an image up, turns it, keeps the result and puts it aside; then makes an image, cuts off what
is in its first column and tries to cut off what is beyond its last one. -/
def turningAside : List (Element Empty) :=
  let number (n : String) : Value := .literal n.toList
  [.step (.retrieve "a".toList), .group .cache [.step (.adjust (.rotate 1))],
    .step (.stash "b".toList),
    .step (.adjust (.canvas (number "3") (number "2") .transparent)),
    .step (.adjust (.crop (number "1") (number "0") (number "9") (number "9"))),
    .step (.adjust (.crop (number "7") (number "0") (number "1") (number "1")))]

theorem fits_stockedState : stockedState.Fits where
  slots slots hslots := by
    obtain rfl : slots = [("a".toList, ImageStore.pairImage)] := Option.some.inj hslots.symm
    decide
  stored store hstore := by
    obtain rfl := Option.some.inj hstore.symm
    exact (ImageStore.all_empty 1024).set (by decide)

/-- The first cut is no larger than what is left of the image, and the second one leaves nothing: its
offset is brought to the side, and the run halts with the image before it.  All images on the way have a
proper size. -/
theorem runPipeline_fits_turningAside :
    (∀ x ∈ nodesAll turningAside, x.LeavesFiles) ∧ ImageFits none ∧ stockedState.Fits ∧
      (runPipeline none turningAside none stockedState).1 =
        .error ⟨.step "crop".toList (.emptyCut 2 0 2 2), some (.solid 2 2 .transparent)⟩ ∧
      RunOutcome.Fits (runPipeline none turningAside none stockedState) ∧
      ∀ x ∈ starts turningAside none stockedState, x.Fits := by
  have hfiles : ∀ x ∈ nodesAll turningAside, x.LeavesFiles := by decide
  obtain ⟨-, hrun, hstarts⟩ := runPipeline_fits hfiles none .none fits_stockedState
  exact ⟨hfiles, .none, fits_stockedState, by decide +kernel, hrun, hstarts⟩

end PhotoPipeline
