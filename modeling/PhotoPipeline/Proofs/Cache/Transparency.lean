/-
**Keeping results does not show.**

A group that keeps its result answers from the image store of its context where it can.  As long
as its elements do nothing but turn one image into another, nobody can tell: with a store and
without one, elements return the same image, or the same error.

The store is kept in order by one invariant: what is under a key is the result of elements and of
an input that have this key.  When a key is found, the elements and the input that it was made for
are the ones at hand, unless two of the strings hashed during the run have one digest.

Main definitions:

* `PhotoPipeline.Element.Repeatable` — an element that turns one image into another and does
  nothing else;
* `PhotoPipeline.Element.KeepsRepeatable` — an element that keeps results of such elements only;
* `PhotoPipeline.Justified` — the invariant, for one image under its key;
* `PhotoPipeline.Mirrors` — two states that differ only in what a store could change.

Main results:

* `PhotoPipeline.keepable_repeatable` — what is found under a key is the result of the elements;
* `PhotoPipeline.Element.run_agrees` — **with a store and without one, elements do the same**.
-/
import PhotoPipeline.Proofs.Cache.Simulation

set_option relaxedAutoImplicit false
set_option autoImplicit false

namespace PhotoPipeline

/-! ### Repeatable elements -/

/-- A state to run elements in that do not look at it. -/
def RunState.blank : RunState := ⟨.new .edit [], ⟨[], []⟩⟩

namespace Element

/-- The element turns one image into another and does nothing else; pipelines that it defines have
plain names. -/
def Repeatable : Element Empty → Prop
  | step (.adjust _) => True
  | group .anonymous _ => True
  | group .cache _ => True
  | group (.definition name) _ => name.all isBare = true
  | _ => False

/-- The element leaves files alone and, if it keeps a result, it is that of repeatable elements,
for the image at hand. -/
def KeepsRepeatable : Element Empty → Prop
  | step (.load _) => False
  | step (.save _) => False
  | group .once _ => False
  | group .cache es => ∀ x ∈ nodesAll es, x.Repeatable
  | _ => True

instance : DecidablePred Repeatable
  | step (.adjust _) | group .anonymous _ | group .cache _ => inferInstanceAs (Decidable True)
  | group (.definition name) _ => inferInstanceAs (Decidable (name.all isBare = true))
  | step (.load _) | step (.save _) | step (.stash _) | step (.retrieve _)
  | group (.reference _) _ | group (.only _) _ | group .once _ => inferInstanceAs (Decidable False)
  | plugin x _ => x.elim

instance : DecidablePred KeepsRepeatable
  | step (.load _) | step (.save _) | group .once _ => inferInstanceAs (Decidable False)
  | group .cache es => inferInstanceAs (Decidable (∀ x ∈ nodesAll es, x.Repeatable))
  | step (.adjust _) | step (.stash _) | step (.retrieve _) | group .anonymous _
  | group (.definition _) _ | group (.reference _) _ | group (.only _) _ =>
    inferInstanceAs (Decidable True)
  | plugin x _ => x.elim

/-- The result of elements that do not look at the state. -/
def value (es : List (Element Empty)) (image : Option Image) : Except Halted (Option Image) :=
  (run es image .blank).1

theorem Repeatable.stateless : ∀ {e : Element Empty}, e.Repeatable → e.Stateless
  | step (.adjust _), _ => trivial
  | group .anonymous _, _ => trivial
  | group .cache _, _ => trivial
  | group (.definition _) _, _ => trivial
  | step (.load _), h | step (.save _), h | step (.stash _), h | step (.retrieve _), h
  | group (.reference _) _, h | group (.only _) _, h | group .once _, h => h.elim
  | plugin x _, _ => x.elim

theorem Repeatable.alikeIn (m m' : Mode) : ∀ {e : Element Empty}, e.Repeatable → e.AlikeIn m m'
  | step _, _ => trivial
  | group (.only _) _, h => h.elim
  | group .anonymous _, _ => trivial
  | group .cache _, _ => trivial
  | group .once _, _ => trivial
  | group (.definition _) _, _ => trivial
  | group (.reference _) _, _ => trivial
  | plugin _ _, _ => trivial

mutual

/-- There are no references among repeatable elements. -/
theorem outline_eq_self : ∀ (e : Element Empty), (∀ x ∈ e.nodes, x.Repeatable) → e.outline = e
  | step _, _ => rfl
  | group .anonymous es, he
  | group .cache es, he
  | group (.definition _) es, he =>
      congrArg (group _) (outlineAll_eq_self es fun x hx => he x (List.mem_cons_of_mem _ hx))
  | group (.reference _) _, he
  | group (.only _) _, he
  | group .once _, he => (he _ List.mem_cons_self).elim
  | plugin x _, _ => x.elim

/-- There are no references among repeatable elements. -/
theorem outlineAll_eq_self : ∀ (es : List (Element Empty)), (∀ x ∈ nodesAll es, x.Repeatable) →
    outlineAll es = es
  | [], _ => rfl
  | e :: es, he => by
      rw [outlineAll, outline_eq_self e fun x hx => he x (List.mem_append_left _ hx),
        outlineAll_eq_self es fun x hx => he x (List.mem_append_right _ hx)]

end

theorem Repeatable.plainName : ∀ {e : Element Empty}, e.Repeatable → e.PlainName
  | step _, _ => trivial
  | group .anonymous _, _ => trivial
  | group .cache _, _ => trivial
  | group (.definition _) _, h => h
  | group (.reference _) _, h => h.elim
  | group (.only _) _, _ => trivial
  | group .once _, _ => trivial
  | plugin _ _, _ => trivial

end Element

open Element

/-! ### What is stored -/

/-- The image is the result of elements and of an input whose key is this one. -/
def Justified (hashed : List (List UInt8)) (key : Digest) (image : Image) : Prop :=
  ∃ (es : List (Element Empty)) (input : Option Image),
    (∀ x ∈ nodesAll es, x.Repeatable ∧ x.Sane) ∧ (∀ b ∈ keyHashes es input, b ∈ hashed) ∧
      key = cacheKey es input ∧ value es input = .ok (some image)

section

variable {hashed : List (List UInt8)}

/-- Every image of the store is justified. -/
def ImageStore.Sound (hashed : List (List UInt8)) (s : ImageStore) : Prop :=
  ∀ e ∈ s.entries, Justified hashed e.key e.image

namespace ImageStore

theorem sound_empty (budget : UInt64) : (empty budget).Sound hashed := all_empty budget

theorem sound_clear (s : ImageStore) : s.clear.Sound hashed := fun _ he => nomatch he

end ImageStore

end

/-- Elements of scripts that are repeatable. -/
def RepeatableScript (es : List (Element Empty)) : Prop :=
  ∀ x ∈ nodesAll es, x.Repeatable ∧ x.Sane

/-- **What is found under a key is the result of the elements**: without references, the canonical
text is everything. -/
theorem keepable_repeatable {hashed : List (List UInt8)} (hH : NoCollision hashed) (m : Mode) :
    Keepable hashed (Justified hashed) m RepeatableScript := by
  have hwritten : ∀ {gs : List (Element Empty)}, RepeatableScript gs →
      ∀ x ∈ writtenAll gs, x.Sane ∧ x.PlainName := by
    intro gs hgs x hx
    have hnode := hgs x (mem_nodesAll_of_mem_writtenAll gs x hx)
    exact ⟨hnode.2, hnode.1.plainName⟩
  refine keepable_keptFrom (m := .edit) hH (fun es hes x hx => ?_) fun es fs hes hfs htext => ?_
  · exact ⟨(hes x hx).1.stateless, (hes x hx).1.alikeIn .edit m⟩
  · have houtline := (text_anonymous_eq_iff (hwritten hes) (hwritten hfs)).1 htext
    rwa [outlineAll_eq_self es fun x hx => (hes x hx).1,
      outlineAll_eq_self fs fun x hx => (hfs x hx).1] at houtline

/-! ### Two runs -/

/-- The states look alike to elements; only the first may have stores, all of them sound. -/
structure Mirrors (hashed : List (List UInt8)) (s t : RunState) : Prop where
  mode : s.context.mode = t.context.mode
  cancelled : s.context.cancelled = t.context.cancelled
  slots : s.slots? = t.slots?
  storeless : t.storeNumber? = none
  sound : ∀ store ∈ s.shared.stores, store.Sound hashed

/-- Two runs have one result and leave states that look alike. -/
def Agree {α : Type} (hashed : List (List UInt8)) (r r' : α × RunState) : Prop :=
  r.1 = r'.1 ∧ Mirrors hashed r.2 r'.2

section

variable {hashed : List (List UInt8)} {s t : RunState}

theorem Mirrors.resembles (h : Mirrors hashed s t) :
    Resembles (Justified hashed) t.context.mode s t :=
  ⟨h.mode, rfl, h.cancelled, h.slots, h.storeless, h.sound⟩

theorem Tallies.agree {α : Type} {m : Mode} {r r' : α × RunState}
    (h : Tallies (Justified hashed) m r r') : Agree hashed r r' :=
  ⟨h.1, h.2.mode.trans h.2.mode'.symm, h.2.cancelled, h.2.slots, h.2.storeless, h.2.holds⟩

/-- The groups that keep results do so for repeatable elements of scripts. -/
theorem keepsOnly_repeatableScript {es : List (Element Empty)}
    (hes : ∀ x ∈ nodesAll es, x.KeepsRepeatable ∧ x.Sane) :
    ∀ x ∈ nodesAll es, x.KeepsOnly RepeatableScript
  | step (.adjust _), _ => trivial
  | step (.stash _), _ => trivial
  | step (.retrieve _), _ => trivial
  | step (.load _), h | step (.save _), h | group .once _, h => (hes _ h).1.elim
  | group .cache _, h => fun x hx =>
      ⟨(hes _ h).1 x hx, (hes x (mem_nodesAll_of_mem_group hx es h)).2⟩
  | group .anonymous _, _ => trivial
  | group (.only _) _, _ => trivial
  | group (.definition _) _, _ => trivial
  | group (.reference _) _, _ => trivial
  | plugin _ _, _ => trivial

/-- **With a store and without one, elements do the same.** -/
theorem Element.run_agrees (hH : NoCollision hashed) {es : List (Element Empty)}
    (hes : ∀ x ∈ nodesAll es, x.KeepsRepeatable ∧ x.Sane) (image : Option Image)
    (h : Mirrors hashed s t) (hhashes : ∀ b ∈ hashesAll es image s, b ∈ hashed) :
    Agree hashed (run es image s) (run es image t) :=
  (run_tallies (keepable_repeatable hH _) es (keepsOnly_repeatableScript hes) image h.resembles
    hhashes).agree

end

end PhotoPipeline
