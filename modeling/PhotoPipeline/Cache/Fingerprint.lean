/-
**Fingerprints.**

The key under which a group's result is stored.  The seed of a group is the digest of its
canonical text; the key of a group that runs once is its seed, and the key of a group that runs
once for each image is the digest of the seed followed by everything that tells one image from
another.

Main definitions:

* `PhotoPipeline.seedOf` — the digest of the canonical text of elements;
* `PhotoPipeline.inputBytes` — the bytes that stand for an image, or for none;
* `PhotoPipeline.cacheKey`, `PhotoPipeline.onceKey` — the keys;
* `PhotoPipeline.digestText` — how a digest is shown.

Main results:

* `PhotoPipeline.littleEndian_injective` — numbers below the bound have different bytes.
-/
import PhotoPipeline.Cache.Store
import PhotoPipeline.Element.Render

set_option relaxedAutoImplicit false
set_option autoImplicit false

namespace PhotoPipeline

/-- The four bytes of a number, the least significant first. -/
def littleEndian (n : UInt32) : List UInt8 :=
  [n.toUInt8, (n >>> 8).toUInt8, (n >>> 16).toUInt8, (n >>> 24).toUInt8]

theorem littleEndian_injective {m n : UInt32} (h : littleEndian m = littleEndian n) : m = n := by
  simp only [littleEndian, List.cons.injEq, and_true] at h
  obtain ⟨h0, h1, h2, h3⟩ := h
  rw [← UInt8.toNat_inj] at h0 h1 h2 h3
  simp only [UInt32.toNat_toUInt8, UInt32.toNat_shiftRight, UInt32.reduceToNat,
    Nat.shiftRight_eq_div_pow, Nat.reduceMod, Nat.reducePow] at h0 h1 h2 h3
  rw [← UInt32.toNat_inj]
  have hm := m.toNat_lt
  have hn := n.toNat_lt
  omega

/-- The bytes that stand for an image: a mark, its size, its format and its pixels. -/
def imageKeyBytes (i : Image) : List UInt8 :=
  1 :: (littleEndian i.width ++ littleEndian i.height ++ Text.utf8 i.format.name.toList ++
    i.bytes.toList)

/-- The bytes that stand for an image or for none. -/
def inputBytes : Option Image → List UInt8
  | some i => imageKeyBytes i
  | none => [0]

section

variable {ε : Type} [Plugin ε]

/-- The digest of the canonical text of elements. -/
def seedOf (es : List (Element ε)) : Digest :=
  Blake3.hash (Text.utf8 (Element.group .anonymous es).text)

/-- The bytes whose digest is the key for an image. -/
def cacheKeyBytes (es : List (Element ε)) (image : Option Image) : List UInt8 :=
  (seedOf es).toList ++ inputBytes image

/-- The key of a group that runs once for each image. -/
def cacheKey (es : List (Element ε)) (image : Option Image) : Digest :=
  Blake3.hash (cacheKeyBytes es image)

/-- The key of a group that runs once. -/
def onceKey (es : List (Element ε)) : Digest := seedOf es

end

/-- Two hexadecimal digits. -/
def hexByte (b : UInt8) : Text :=
  [Nat.digitChar (b.toNat / 16), Nat.digitChar (b.toNat % 16)]

/-- Bytes in hexadecimal. -/
def hexText (bytes : List UInt8) : Text := bytes.flatMap hexByte

/-- A digest as it is shown: its first eight bytes. -/
def digestText (d : Digest) : Text := hexText (d.toList.take 8)

end PhotoPipeline
