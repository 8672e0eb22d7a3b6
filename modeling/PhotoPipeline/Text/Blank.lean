/-
**Blank characters.**

Words of a script are separated by blanks: the characters with the Unicode property
`White_Space`.

Main definitions:

* `PhotoPipeline.isBlank` — the property `White_Space`.

Main results:

* `PhotoPipeline.isBlank_newline` — the newline is one of them.
-/
import PhotoPipeline.Text.Letter

set_option relaxedAutoImplicit false
set_option autoImplicit false

namespace PhotoPipeline

/-- The code points with the property `White_Space`. -/
def blankRanges : List (Nat × Nat) := [
  (0x9, 0xD), (0x20, 0x20), (0x85, 0x85), (0xA0, 0xA0), (0x1680, 0x1680), (0x2000, 0x200A),
  (0x2028, 0x2029), (0x202F, 0x202F), (0x205F, 0x205F), (0x3000, 0x3000)]

/-- Whether the character separates words. -/
def isBlank (c : Char) : Bool :=
  inRanges blankRanges c

@[simp] theorem isBlank_newline : isBlank '\n' = true := by decide

@[simp] theorem isBlank_space : isBlank ' ' = true := by decide

end PhotoPipeline
