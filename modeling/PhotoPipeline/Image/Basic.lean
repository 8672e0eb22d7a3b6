/-
**Images.**

An image is a grid of pixels; a pixel is a row of samples, one for each channel of the image's
format; a sample is one, two or four bytes, the least significant first.  The bytes of an image
stand row by row, pixel by pixel and channel by channel in one array, whose size is part of the
type.

Main definitions:

* `PhotoPipeline.Format` — the kinds of pixels;
* `PhotoPipeline.Image` — size, format and bytes;
* `PhotoPipeline.Image.byte` — the byte at a column, a row and a place in the pixel;
* `PhotoPipeline.Image.generate` — the image with given bytes.

Main results:

* `PhotoPipeline.Image.byte_generate` — what was generated can be read;
* `PhotoPipeline.Image.ext_byte` — images of one size and format that agree in every byte are
  equal.
-/

set_option relaxedAutoImplicit false
set_option autoImplicit false

namespace PhotoPipeline

/-! ### Formats -/

/-- How a sample is held. -/
inductive Depth where
  | byte
  | word
  | single
  deriving DecidableEq, Repr

/-- Bytes in a sample. -/
def Depth.bytes : Depth → Nat
  | byte => 1
  | word => 2
  | single => 4

/-- The kinds of pixels: grey or red, green and blue, with or without opacity, at three depths. -/
inductive Format where
  | l8
  | la8
  | rgb8
  | rgba8
  | l16
  | la16
  | rgb16
  | rgba16
  | rgb32f
  | rgba32f
  deriving DecidableEq, Repr, Inhabited

namespace Format

/-- The name of a format. -/
def name : Format → String
  | l8 => "L8"
  | la8 => "La8"
  | rgb8 => "Rgb8"
  | rgba8 => "Rgba8"
  | l16 => "L16"
  | la16 => "La16"
  | rgb16 => "Rgb16"
  | rgba16 => "Rgba16"
  | rgb32f => "Rgb32F"
  | rgba32f => "Rgba32F"

/-- How the samples are held. -/
def depth : Format → Depth
  | l8 | la8 | rgb8 | rgba8 => .byte
  | l16 | la16 | rgb16 | rgba16 => .word
  | rgb32f | rgba32f => .single

/-- Samples in a pixel. -/
def channels : Format → Nat
  | l8 | l16 => 1
  | la8 | la16 => 2
  | rgb8 | rgb16 | rgb32f => 3
  | rgba8 | rgba16 | rgba32f => 4

/-- Whether the last sample of a pixel is its opacity. -/
def hasAlpha : Format → Bool
  | la8 | rgba8 | la16 | rgba16 | rgba32f => true
  | l8 | rgb8 | l16 | rgb16 | rgb32f => false

/-- Bytes in a pixel. -/
def pixelBytes (f : Format) : Nat := f.channels * f.depth.bytes

theorem pixelBytes_pos (f : Format) : 0 < f.pixelBytes := by cases f <;> decide

theorem pixelBytes_le (f : Format) : f.pixelBytes ≤ 16 := by cases f <;> decide

end Format

/-! ### Images -/

/-- A grid of pixels. -/
structure Image where
  width : UInt32
  height : UInt32
  format : Format
  bytes : Array UInt8
  size_bytes : bytes.size = width.toNat * height.toNat * format.pixelBytes
  deriving DecidableEq

namespace Image

/-- The number of pixels. -/
def area (i : Image) : Nat := i.width.toNat * i.height.toNat

/-- The image with the given bytes, if there are as many as it takes. -/
def ofBytes? (width height : UInt32) (format : Format) (bytes : Array UInt8) : Option Image :=
  if h : bytes.size = width.toNat * height.toNat * format.pixelBytes then
    some ⟨width, height, format, bytes, h⟩
  else none

/-- The image whose byte at a column, a row and a place in the pixel is given. -/
def generate (width height : UInt32) (format : Format) (f : Nat → Nat → Nat → UInt8) : Image where
  width := width
  height := height
  format := format
  bytes := Array.ofFn fun i : Fin (width.toNat * height.toNat * format.pixelBytes) =>
    let pixel := i.val / format.pixelBytes
    f (pixel % width.toNat) (pixel / width.toNat) (i.val % format.pixelBytes)
  size_bytes := Array.size_ofFn

/-- The image that repeats one pixel. -/
def fill (width height : UInt32) (format : Format) (pixel : Array UInt8) : Image :=
  generate width height format fun _ _ k => pixel.getD k 0

/-- The byte at column `x`, row `y` and place `k` of the pixel. -/
def byte (i : Image) (x y k : Nat) : UInt8 :=
  i.bytes.getD ((y * i.width.toNat + x) * i.format.pixelBytes + k) 0

@[simp] theorem width_generate (w h : UInt32) (g : Format) (f : Nat → Nat → Nat → UInt8) :
    (generate w h g f).width = w := rfl

@[simp] theorem height_generate (w h : UInt32) (g : Format) (f : Nat → Nat → Nat → UInt8) :
    (generate w h g f).height = h := rfl

@[simp] theorem format_generate (w h : UInt32) (g : Format) (f : Nat → Nat → Nat → UInt8) :
    (generate w h g f).format = g := rfl

theorem index_lt {w h n x y k : Nat} (hx : x < w) (hy : y < h) (hk : k < n) :
    (y * w + x) * n + k < w * h * n := by
  have h1 : y * w + x < w * h := by
    have : y * w + w ≤ h * w := by
      have := Nat.mul_le_mul_right w (Nat.succ_le_of_lt hy)
      rwa [Nat.succ_mul] at this
    rw [Nat.mul_comm w h]
    omega
  have h2 := Nat.mul_le_mul_right n (Nat.succ_le_of_lt h1)
  rw [Nat.succ_mul] at h2
  omega

theorem byte_generate {w h : UInt32} {g : Format} {f : Nat → Nat → Nat → UInt8} {x y k : Nat}
    (hx : x < w.toNat) (hy : y < h.toNat) (hk : k < g.pixelBytes) :
    (generate w h g f).byte x y k = f x y k := by
  have hw : 0 < w.toNat := by omega
  have hi := index_lt hx hy hk
  have h1 : ((y * w.toNat + x) * g.pixelBytes + k) / g.pixelBytes = y * w.toNat + x := by
    rw [Nat.mul_comm, Nat.mul_add_div (Format.pixelBytes_pos g), Nat.div_eq_of_lt hk, Nat.add_zero]
  have h2 : ((y * w.toNat + x) * g.pixelBytes + k) % g.pixelBytes = k := by
    rw [Nat.mul_comm, Nat.mul_add_mod, Nat.mod_eq_of_lt hk]
  have h3 : (y * w.toNat + x) % w.toNat = x := by
    rw [Nat.mul_comm, Nat.mul_add_mod, Nat.mod_eq_of_lt hx]
  have h4 : (y * w.toNat + x) / w.toNat = y := by
    rw [Nat.mul_comm, Nat.mul_add_div hw, Nat.div_eq_of_lt hx, Nat.add_zero]
  simp only [byte, generate, Array.getD_eq_getD_getElem?]
  rw [Array.getElem?_ofFn, dif_pos hi]
  simp only [Option.getD_some, h1, h2, h3, h4]

/-- An image is determined by its size, its format and the byte at each place. -/
theorem ext_byte {i j : Image} (hw : i.width = j.width) (hh : i.height = j.height)
    (hf : i.format = j.format)
    (h : ∀ x y k, x < i.width.toNat → y < i.height.toNat → k < i.format.pixelBytes →
      i.byte x y k = j.byte x y k) : i = j := by
  obtain ⟨w, ht, f, b, hb⟩ := i
  obtain ⟨w', ht', f', b', hb'⟩ := j
  obtain rfl : w = w' := hw
  obtain rfl : ht = ht' := hh
  obtain rfl : f = f' := hf
  have : b = b' := by
    apply Array.ext (hb.trans hb'.symm)
    intro n h1 h2
    have hn : n < w.toNat * ht.toNat * f.pixelBytes := hb ▸ h1
    have hp := Format.pixelBytes_pos f
    have hq : n / f.pixelBytes < w.toNat * ht.toNat :=
      Nat.div_lt_of_lt_mul (by rwa [Nat.mul_comm] at hn)
    have hwp : 0 < w.toNat := by
      rcases Nat.eq_zero_or_pos w.toNat with hz | hz
      · rw [hz, Nat.zero_mul] at hq; exact absurd hq (Nat.not_lt_zero _)
      · exact hz
    have := h (n / f.pixelBytes % w.toNat) (n / f.pixelBytes / w.toNat) (n % f.pixelBytes)
      (Nat.mod_lt _ hwp) (Nat.div_lt_of_lt_mul hq) (Nat.mod_lt _ hp)
    have hpix : n / f.pixelBytes / w.toNat * w.toNat + n / f.pixelBytes % w.toNat =
        n / f.pixelBytes := by
      rw [Nat.mul_comm]; exact Nat.div_add_mod _ _
    have hidx : n / f.pixelBytes * f.pixelBytes + n % f.pixelBytes = n := by
      rw [Nat.mul_comm]; exact Nat.div_add_mod _ _
    simpa [byte, hpix, hidx, Array.getD_eq_getD_getElem?, h1, h2] using this
  subst this
  rfl

end Image

end PhotoPipeline
