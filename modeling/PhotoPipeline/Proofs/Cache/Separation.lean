/-
**Keys keep inputs apart.**

The string that is hashed for the key of a group puts its parts one after another: the seed, a mark, the
size, the name of the format and the pixels, with nothing in between and no lengths.  Still the parts can
be told, as the seed, the mark and the size have a fixed length, no name of a format begins another one,
and the name and the size fix the number of bytes that follow.

So two keys agree for one of three reasons: everything that they are made of agrees; the canonical texts
of the elements differ and have one digest; or the strings hashed last differ and have one digest.
Nothing is assumed about the digests here, and a key that answers for the wrong elements or the wrong
image shows two strings that collide.

Main definitions:

* `PhotoPipeline.SameInput` — two inputs that agree in all their parts;
* `PhotoPipeline.Collide` — two strings of bytes with one digest;
* `PhotoPipeline.Element.key?` — the key under which an element keeps its result.

Main results:

* `PhotoPipeline.cacheKeyBytes_eq_iff` — what the hashed string tells;
* `PhotoPipeline.Element.apply_of_key` — **an element looks its result up under its key**;
* `PhotoPipeline.Element.key_separates` — **when two keys agree**.
-/
import PhotoPipeline.Proofs.Cache.Fingerprint

set_option relaxedAutoImplicit false
set_option autoImplicit false

namespace PhotoPipeline

/-! ### Inputs -/

/-- Both inputs are missing, or they are images that agree in size, format and pixels. -/
def SameInput : Option Image → Option Image → Prop
  | none, none => True
  | some i, some j =>
    i.width = j.width ∧ i.height = j.height ∧ i.format = j.format ∧ i.bytes = j.bytes
  | _, _ => False

/-- The parts of an input are all there is to it. -/
theorem sameInput_iff {i j : Option Image} : SameInput i j ↔ i = j := by
  cases i with
  | none =>
      cases j with
      | none => exact ⟨fun _ => rfl, fun _ => trivial⟩
      | some j => exact ⟨False.elim, fun h => by cases h⟩
  | some i =>
      cases j with
      | none => exact ⟨False.elim, fun h => by cases h⟩
      | some j =>
          obtain ⟨w, ht, f, bytes, hsize⟩ := i
          obtain ⟨w', ht', f', bytes', hsize'⟩ := j
          constructor
          · rintro ⟨hw, hh, hf, hbytes⟩
            cases hw
            cases hh
            cases hf
            cases hbytes
            rfl
          · intro h
            cases h
            exact ⟨rfl, rfl, rfl, rfl⟩

/-! ### Collisions -/

/-- Two strings of bytes differ and have one digest. -/
def Collide (a b : List UInt8) : Prop := a ≠ b ∧ Blake3.hash a = Blake3.hash b

theorem hash_eq_iff {a b : List UInt8} : Blake3.hash a = Blake3.hash b ↔ a = b ∨ Collide a b := by
  constructor
  · intro h
    by_cases hab : a = b
    · exact .inl hab
    · exact .inr ⟨hab, h⟩
  · rintro (rfl | ⟨-, h⟩)
    · rfl
    · exact h

/-! ### Keys -/

section

variable {ε : Type} [Plugin ε] {es fs : List (Element ε)} {i j : Option Image}

/-- What the string hashed for a key tells: the seed, and every part of the input. -/
theorem cacheKeyBytes_eq_iff :
    cacheKeyBytes es i = cacheKeyBytes fs j ↔ seedOf es = seedOf fs ∧ SameInput i j := by
  rw [sameInput_iff]
  constructor
  · exact cacheKeyBytes_inj
  · rintro ⟨hseed, rfl⟩
    rw [cacheKeyBytes, cacheKeyBytes, hseed]

/-- Seeds agree if the canonical texts do, or collide. -/
theorem seedOf_eq_iff :
    seedOf es = seedOf fs ↔
      (Element.group .anonymous es).text = (Element.group .anonymous fs).text ∨
        Collide (Text.utf8 (Element.group .anonymous es).text)
          (Text.utf8 (Element.group .anonymous fs).text) := by
  have htext : Text.utf8 (Element.group .anonymous es).text =
      Text.utf8 (Element.group .anonymous fs).text ↔
        (Element.group .anonymous es).text = (Element.group .anonymous fs).text :=
    ⟨Text.utf8_injective, fun h => by rw [h]⟩
  rw [← htext]
  exact hash_eq_iff

end

namespace Element

variable {ε : Type} [Plugin ε]

/-- The key under which an element keeps its result for an input, if it does. -/
def key? : Element ε → Option Image → Option Digest
  | group .cache es, image => some (cacheKey es image)
  | group .once es, _ => some (onceKey es)
  | _, _ => none

/-- **An element looks its result up under its key**, and under no other, and keeps it there. -/
theorem apply_of_key {kind : Group} {es : List (Element ε)} {image : Option Image} {key : Digest}
    (h : (group kind es).key? image = some key) (s : RunState) :
    apply (group kind es) image s = remembering (fun _ => key) (run es image) s := by
  cases kind with
  | cache | once =>
      obtain rfl := Option.some.inj h
      rw [apply]
  | _ => cases h

/-- **When two keys agree.**  The strings hashed for the keys of two groups that run once for each image
are equal exactly when the seeds of their elements are equal and the inputs are both missing or agree in
width, height, format and pixels.  So the keys agree exactly when these strings collide, or the inputs
agree and the canonical texts of the elements are equal or collide: where other elements or another input
have the same key, two different strings with one digest are at hand.  The key of a group that runs once
is the same for every input. -/
theorem key_separates (es fs : List (Element ε)) (i j : Option Image) :
    (cacheKeyBytes es i = cacheKeyBytes fs j ↔ seedOf es = seedOf fs ∧ SameInput i j) ∧
      ((group .cache es).key? i = (group .cache fs).key? j ↔
        Collide (cacheKeyBytes es i) (cacheKeyBytes fs j) ∨
          SameInput i j ∧ ((group .anonymous es).text = (group .anonymous fs).text ∨
            Collide (Text.utf8 (group .anonymous es).text)
              (Text.utf8 (group .anonymous fs).text))) ∧
      (group .once es).key? i = (group .once es).key? j := by
  have hkeys : (group .cache es).key? i = (group .cache fs).key? j ↔
      cacheKey es i = cacheKey fs j := Option.some_inj
  have hhash : cacheKey es i = cacheKey fs j ↔
      cacheKeyBytes es i = cacheKeyBytes fs j ∨
        Collide (cacheKeyBytes es i) (cacheKeyBytes fs j) := hash_eq_iff
  refine ⟨cacheKeyBytes_eq_iff, ?_, rfl⟩
  rw [hkeys, hhash, cacheKeyBytes_eq_iff, seedOf_eq_iff, or_comm, and_comm]

end Element

end PhotoPipeline
