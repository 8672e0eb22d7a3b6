/-
**Written colours.**

A text is a colour exactly if, without the blanks around it, it is three, four, six or eight hexadecimal
digits, with at most one `#` in front.  The digits stand for the parts of the colour in turn, one or two
for each, where one digit counts as two alike; the opacity is full when it is left out.

A text is kept as bytes, and its digits are found by cutting it at places counted in bytes.  A cut inside
a character is impossible, and a numeral reader that meets a sign or an empty piece has rules of its own;
so the cutting is written out here, with every such step refused.  No step is: by the time a text is cut,
all of its bytes are digits, and each of them is a character.

Main definitions:

* `PhotoPipeline.IsHexDigit` — the value of a digit, by its place in the row of digits;
* `PhotoPipeline.Colour.Spelled` — digits and the colour they stand for;
* `PhotoPipeline.Text.slice?` — a piece of a text between two places counted in bytes;
* `PhotoPipeline.Colour.ofHexSlices?` — the colour of a text, cut out of its bytes.

Main results:

* `PhotoPipeline.Text.slice?_eq_some_iff` — what a piece is;
* `PhotoPipeline.Colour.spelled_iff` — digits that have a colour;
* `PhotoPipeline.Colour.ofHexSlices?_eq` — no cut is refused;
* `PhotoPipeline.Colour.ofHex_by_grammar` — **the language of colours**.
-/
import Mathlib.Data.List.Forall2
import PhotoPipeline.Proofs.Kind.Builtin
import PhotoPipeline.Proofs.Script.Layout

set_option relaxedAutoImplicit false
set_option autoImplicit false

namespace PhotoPipeline

/-! ### Digits -/

/-- The character is a hexadecimal digit of the given value: it stands at that place in the row of
digits, in small or in capital letters. -/
def IsHexDigit (c : Char) (v : Nat) : Prop :=
  "0123456789abcdef".toList[v]? = some c ∨ "0123456789ABCDEF".toList[v]? = some c

instance (c : Char) (v : Nat) : Decidable (IsHexDigit c v) :=
  inferInstanceAs (Decidable (_ ∨ _))

theorem IsHexDigit.lt {c : Char} {v : Nat} (h : IsHexDigit c v) : v < 16 := by
  obtain h | h := h <;> exact (List.getElem?_eq_some_iff.1 h).1

theorem toNat_lt_of_hexValue? {c : Char} {v : UInt8} (h : hexValue? c = some v) : c.toNat < 128 := by
  simp only [hexValue?] at h
  split at h
  · omega
  · split at h
    · omega
    · split at h
      · omega
      · cases h

/-- A row of digits in which each counts its place. -/
theorem hexValue?_of_row {row : Text} {n : Nat} {c : Char}
    (hrow : row.map hexValue? = (List.range 16).map fun n => some (UInt8.ofNat n))
    (hlt : n < 16) (h : row[n]? = some c) : hexValue? c = some (UInt8.ofNat n) := by
  have hvalue := congrArg (·[n]?) hrow
  simp only [List.getElem?_map, h, Option.map_some, List.getElem?_range hlt] at hvalue
  exact Option.some.inj hvalue

/-- **A digit has the value of its place** in the row of digits. -/
theorem hexValue?_eq_some_iff {c : Char} {v : UInt8} :
    hexValue? c = some v ↔ IsHexDigit c v.toNat := by
  constructor
  · intro h
    have hall : ∀ n : Fin 128, ∀ w ∈ hexValue? (Char.ofNat n), IsHexDigit (Char.ofNat n) w.toNat := by
      decide +kernel
    have hdigit := hall ⟨c.toNat, toNat_lt_of_hexValue? h⟩
    rw [Char.ofNat_toNat] at hdigit
    exact hdigit v h
  · intro h
    have hlt := h.lt
    rw [← UInt8.ofNat_toNat (x := v)]
    obtain hsmall | hcapital := h
    · exact hexValue?_of_row (by decide +kernel) hlt hsmall
    · exact hexValue?_of_row (by decide +kernel) hlt hcapital

theorem IsHexDigit.hexValue? {c : Char} {n : Nat} (h : IsHexDigit c n) :
    hexValue? c = some (UInt8.ofNat n) := by
  have hlt := h.lt
  refine hexValue?_eq_some_iff.2 ?_
  rwa [UInt8.toNat_ofNat', Nat.mod_eq_of_lt (by omega)]

theorem hexValues?_eq_some_iff {t : Text} {vs : List UInt8} :
    hexValues? t = some vs ↔ List.Forall₂ (fun c v => hexValue? c = some v) t vs := by
  induction t generalizing vs with
  | nil => cases vs <;> simp [hexValues?]
  | cons c t ih =>
      rw [hexValues?]
      constructor
      · intro h
        split at h
        · next v ws hv hws =>
            cases h
            exact .cons hv (ih.1 hws)
        · cases h
      · intro h
        cases h with
        | cons hv hvs => rw [hv, ih.2 hvs]

/-- The byte of two digits. -/
def digitByte (high low : Nat) : UInt8 := UInt8.ofNat (16 * high + low)

theorem digitByte_eq (x y : Nat) : digitByte x y = 16 * UInt8.ofNat x + UInt8.ofNat y := by
  rw [digitByte, UInt8.ofNat_add, UInt8.ofNat_mul]
  rfl

theorem digitByte_self (x : Nat) : digitByte x x = 17 * UInt8.ofNat x := by
  rw [digitByte, show 16 * x + x = 17 * x by omega, UInt8.ofNat_mul]
  rfl

/-- All characters have a value if all of them are digits. -/
theorem isSome_hexValues?_iff {t : Text} :
    (hexValues? t).isSome = true ↔ ∀ c ∈ t, (hexValue? c).isSome = true := by
  induction t with
  | nil => simp [hexValues?]
  | cons c t ih =>
      rw [List.forall_mem_cons, ← ih, hexValues?]
      cases hexValue? c <;> cases hexValues? t <;> simp

theorem isSome_hexValue?_iff {c : Char} :
    (hexValue? c).isSome = true ↔ ∃ n, IsHexDigit c n := by
  rw [Option.isSome_iff_exists]
  constructor
  · rintro ⟨v, hv⟩
    exact ⟨v.toNat, hexValue?_eq_some_iff.1 hv⟩
  · rintro ⟨n, hn⟩
    exact ⟨UInt8.ofNat n, hn.hexValue?⟩

namespace Colour

/-! ### Digits of a colour -/

/-- The digits stand for the colour. -/
inductive Spelled : Text → Colour → Prop where
  /-- A digit for each part, which counts twice; the opacity is full. -/
  | short {r g b : Char} {x y z : Nat} (hr : IsHexDigit r x) (hg : IsHexDigit g y)
      (hb : IsHexDigit b z) : Spelled [r, g, b] ⟨digitByte x x, digitByte y y, digitByte z z, 255⟩
  /-- A digit for each part, which counts twice, and one for the opacity. -/
  | shortWithAlpha {r g b a : Char} {x y z u : Nat} (hr : IsHexDigit r x) (hg : IsHexDigit g y)
      (hb : IsHexDigit b z) (ha : IsHexDigit a u) :
      Spelled [r, g, b, a] ⟨digitByte x x, digitByte y y, digitByte z z, digitByte u u⟩
  /-- Two digits for each part; the opacity is full. -/
  | long {r r' g g' b b' : Char} {x x' y y' z z' : Nat} (hr : IsHexDigit r x)
      (hr' : IsHexDigit r' x') (hg : IsHexDigit g y) (hg' : IsHexDigit g' y')
      (hb : IsHexDigit b z) (hb' : IsHexDigit b' z') :
      Spelled [r, r', g, g', b, b'] ⟨digitByte x x', digitByte y y', digitByte z z', 255⟩
  /-- Two digits for each part and for the opacity. -/
  | longWithAlpha {r r' g g' b b' a a' : Char} {x x' y y' z z' u u' : Nat}
      (hr : IsHexDigit r x) (hr' : IsHexDigit r' x') (hg : IsHexDigit g y)
      (hg' : IsHexDigit g' y') (hb : IsHexDigit b z) (hb' : IsHexDigit b' z')
      (ha : IsHexDigit a u) (ha' : IsHexDigit a' u') :
      Spelled [r, r', g, g', b, b', a, a']
        ⟨digitByte x x', digitByte y y', digitByte z z', digitByte u u'⟩

/-- **Digits stand for a colour** if all of them have a value and the values make up a colour. -/
theorem spelled_iff {digits : Text} {c : Colour} :
    Spelled digits c ↔ (hexValues? digits).bind ofDigits = some c := by
  constructor
  · intro h
    cases h with
    | short hr hg hb =>
        simp [hexValues?, hr.hexValue?, hg.hexValue?, hb.hexValue?, ofDigits, digitByte_self]
    | shortWithAlpha hr hg hb ha =>
        simp [hexValues?, hr.hexValue?, hg.hexValue?, hb.hexValue?, ha.hexValue?, ofDigits,
          digitByte_self]
    | long hr hr' hg hg' hb hb' =>
        simp [hexValues?, hr.hexValue?, hr'.hexValue?, hg.hexValue?, hg'.hexValue?, hb.hexValue?,
          hb'.hexValue?, ofDigits, digitByte_eq]
    | longWithAlpha hr hr' hg hg' hb hb' ha ha' =>
        simp [hexValues?, hr.hexValue?, hr'.hexValue?, hg.hexValue?, hg'.hexValue?, hb.hexValue?,
          hb'.hexValue?, ha.hexValue?, ha'.hexValue?, ofDigits, digitByte_eq]
  · intro h
    obtain ⟨vs, hvs, hc⟩ := Option.bind_eq_some_iff.1 h
    have hdigits : List.Forall₂ (fun d v => IsHexDigit d v.toNat) digits vs :=
      (hexValues?_eq_some_iff.1 hvs).imp fun _ _ => hexValue?_eq_some_iff.1
    have hlong (x y : UInt8) : 16 * x + y = digitByte x.toNat y.toNat := by simp [digitByte_eq]
    have hshort (x : UInt8) : 17 * x = digitByte x.toNat x.toNat := by simp [digitByte_self]
    rw [ofDigits.eq_def] at hc
    split at hc <;> cases hc <;>
      simp only [List.forall₂_cons_right_iff, List.forall₂_nil_right_iff] at hdigits
    · obtain ⟨r, _, hr, ⟨g, _, hg, ⟨b, _, hb, rfl, rfl⟩, rfl⟩, rfl⟩ := hdigits
      simp only [hshort]
      exact .short hr hg hb
    · obtain ⟨r, _, hr, ⟨g, _, hg, ⟨b, _, hb, ⟨a, _, ha, rfl, rfl⟩, rfl⟩, rfl⟩, rfl⟩ := hdigits
      simp only [hshort]
      exact .shortWithAlpha hr hg hb ha
    · obtain ⟨r, _, hr, ⟨r', _, hr', ⟨g, _, hg, ⟨g', _, hg', ⟨b, _, hb, ⟨b', _, hb', rfl, rfl⟩, rfl⟩,
        rfl⟩, rfl⟩, rfl⟩, rfl⟩ := hdigits
      simp only [hlong]
      exact .long hr hr' hg hg' hb hb'
    · obtain ⟨r, _, hr, ⟨r', _, hr', ⟨g, _, hg, ⟨g', _, hg', ⟨b, _, hb, ⟨b', _, hb', ⟨a, _, ha,
        ⟨a', _, ha', rfl, rfl⟩, rfl⟩, rfl⟩, rfl⟩, rfl⟩, rfl⟩, rfl⟩, rfl⟩ := hdigits
      simp only [hlong]
      exact .longWithAlpha hr hr' hg hg' hb hb' ha ha'

theorem isSome_ofDigits (vs : List UInt8) :
    (ofDigits vs).isSome = true ↔ vs.length ∈ [3, 4, 6, 8] := by
  rcases vs with _ | ⟨a, _ | ⟨b, _ | ⟨c, _ | ⟨d, _ | ⟨e, _ | ⟨f, _ | ⟨g, _ | ⟨h, _ | ⟨i, vs⟩⟩⟩⟩⟩⟩⟩⟩⟩ <;>
    simp [ofDigits]

/-- Three, four, six or eight digits stand for a colour, and no other text does. -/
theorem exists_spelled_iff {digits : Text} :
    (∃ c, Spelled digits c) ↔
      digits.length ∈ [3, 4, 6, 8] ∧ ∀ d ∈ digits, ∃ v, IsHexDigit d v := by
  simp only [spelled_iff, ← isSome_hexValue?_iff, ← isSome_hexValues?_iff,
    ← Option.isSome_iff_exists]
  cases hvs : hexValues? digits with
  | none => simp
  | some vs =>
      rw [(hexValues?_eq_some_iff.1 hvs).length_eq, ← isSome_ofDigits]
      simp

end Colour

/-! ### Pieces of a text -/

namespace Text

theorem length_utf8_cons (c : Char) (t : Text) :
    (utf8 (c :: t)).length = c.utf8Size + t.utf8.length := by
  rw [← List.singleton_append, utf8_append, List.length_append, length_utf8_singleton]

/-- The text in front of a place and the text behind it.  The place is counted in bytes, and has to be in
front of a character or at the end. -/
def cutAt? : Nat → Text → Option (Text × Text)
  | 0, t => some ([], t)
  | _ + 1, [] => none
  | n + 1, c :: t =>
    if c.utf8Size ≤ n + 1 then (cutAt? (n + 1 - c.utf8Size) t).map fun p => (c :: p.1, p.2) else none

/-- The piece between two places, counted in bytes. -/
def slice? (t : Text) (start stop : Nat) : Option Text :=
  (cutAt? stop t).bind fun p => (cutAt? start p.1).map Prod.snd

theorem cutAt?_append (a b : Text) : cutAt? a.utf8.length (a ++ b) = some (a, b) := by
  induction a with
  | nil => cases b <;> rfl
  | cons c a ih =>
      have hpos := c.utf8Size_pos
      obtain ⟨n, hn⟩ : ∃ n, c.utf8Size + (utf8 a).length = n + 1 :=
        Nat.exists_eq_add_of_le' (by omega)
      rw [length_utf8_cons, List.cons_append, hn, cutAt?, if_pos (by omega), ← hn,
        Nat.add_sub_cancel_left, ih, Option.map_some]

theorem append_of_cutAt? {n : Nat} {t a b : Text} (h : cutAt? n t = some (a, b)) :
    a ++ b = t ∧ a.utf8.length = n := by
  fun_induction cutAt? n t generalizing a with
  | case1 t =>
      cases h
      exact ⟨rfl, rfl⟩
  | case2 => cases h
  | case3 n c t hle ih =>
      obtain ⟨⟨front, rest⟩, hcut, heq⟩ := Option.map_eq_some_iff.1 h
      simp only [Prod.mk.injEq] at heq
      obtain ⟨rfl, rfl⟩ := heq
      obtain ⟨rfl, hlength⟩ := ih hcut
      exact ⟨rfl, by rw [length_utf8_cons]; omega⟩
  | case4 => cases h

/-- **A piece** stands between what is in front of its start and what is behind its end. -/
theorem slice?_eq_some_iff {t piece : Text} {start stop : Nat} :
    slice? t start stop = some piece ↔
      ∃ a b, a ++ piece ++ b = t ∧ a.utf8.length = start ∧ (utf8 (a ++ piece)).length = stop := by
  constructor
  · intro h
    obtain ⟨⟨front, b⟩, hfront, h⟩ := Option.bind_eq_some_iff.1 h
    obtain ⟨⟨a, q⟩, ha, rfl⟩ := Option.map_eq_some_iff.1 h
    obtain ⟨rfl, hstop⟩ := append_of_cutAt? hfront
    obtain ⟨rfl, hstart⟩ := append_of_cutAt? ha
    exact ⟨a, b, rfl, hstart, hstop⟩
  · rintro ⟨a, b, rfl, rfl, rfl⟩
    rw [slice?, cutAt?_append, Option.bind_some, cutAt?_append, Option.map_some]

/-- The first byte of a longer character is no piece. -/
example : slice? "éa".toList 0 1 = none ∧ slice? "éa".toList 2 3 = some ['a'] := by decide +kernel

/-- Where every character is a byte, places are counted in characters. -/
theorem length_utf8_of_single {t : Text} (h : ∀ c ∈ t, c.utf8Size = 1) : t.utf8.length = t.length := by
  induction t with
  | nil => rfl
  | cons c t ih =>
      obtain ⟨hc, ht⟩ := List.forall_mem_cons.1 h
      rw [length_utf8_cons, hc, ih ht, List.length_cons, Nat.add_comm]

theorem slice?_of_single {t p : Text} (h : ∀ c ∈ t, c.utf8Size = 1) {start : Nat}
    (hpiece : (t.drop start).take p.length = p) (hne : p ≠ []) :
    slice? t start (start + p.length) = some p := by
  have hpos := List.length_pos_of_ne_nil hne
  have hlength : p.length ≤ t.length - start := by
    rw [← List.length_drop, ← hpiece]
    exact List.length_take_le' _ _
  have htake (n : Nat) (hn : n ≤ t.length) : (utf8 (t.take n)).length = n := by
    rw [length_utf8_of_single fun c hc => h c (List.mem_of_mem_take hc), List.length_take_of_le hn]
  have hfront : t.take start ++ p = t.take (start + p.length) := by
    rw [List.take_add, hpiece]
  refine slice?_eq_some_iff.2 ⟨t.take start, t.drop (start + p.length), ?_, ?_, ?_⟩
  · rw [hfront, List.take_append_drop]
  · exact htake start (by omega)
  · rw [hfront]
    exact htake _ (by omega)

end Text

/-! ### Colours cut out of bytes -/

/-- The byte is that of a hexadecimal digit. -/
def isHexDigitByte (b : UInt8) : Bool :=
  (48 ≤ b && b ≤ 57) || (65 ≤ b && b ≤ 70) || (97 ≤ b && b ≤ 102)

/-- Goes on with a number, digit by digit, as long as it is a byte. -/
def joinDigits? : Nat → Text → Option Nat
  | n, [] => some n
  | n, c :: t =>
    (hexValue? c).bind fun v =>
      if 16 * n + v.toNat < 256 then joinDigits? (16 * n + v.toNat) t else none

/-- The digits of a numeral, which may have a plus sign in front. -/
def withoutSign : Text → Text
  | '+' :: t => t
  | t => t

/-- The byte of a numeral in hexadecimal, which has at least one digit. -/
def byteOfNumeral? (t : Text) : Option UInt8 :=
  if withoutSign t = [] then none else (joinDigits? 0 (withoutSign t)).map UInt8.ofNat

namespace Colour

/-- The part of a colour that is one digit, counted twice. -/
def shortPart? (digits : Text) (place : Nat) : Option UInt8 := do
  let n ← byteOfNumeral? (← digits.slice? place (place + 1))
  return n <<< 4 ||| n

/-- The part of a colour that is two digits. -/
def longPart? (digits : Text) (place : Nat) : Option UInt8 := do
  byteOfNumeral? (← digits.slice? place (place + 2))

/-- The colour of digits, by the number of their bytes. -/
def cutColour? (digits : Text) : Option (Option Colour) :=
  match digits.utf8.length with
  | 3 => do
    return some ⟨← shortPart? digits 0, ← shortPart? digits 1, ← shortPart? digits 2, 255⟩
  | 4 => do
    return some ⟨← shortPart? digits 0, ← shortPart? digits 1, ← shortPart? digits 2,
      ← shortPart? digits 3⟩
  | 6 => do
    return some ⟨← longPart? digits 0, ← longPart? digits 2, ← longPart? digits 4, 255⟩
  | 8 => do
    return some ⟨← longPart? digits 0, ← longPart? digits 2, ← longPart? digits 4,
      ← longPart? digits 6⟩
  | _ => some none

/-- The colour of a text, cut out of its bytes; nothing if a cut is inside a character or beyond the end,
or if a piece is no numeral. -/
def ofHexSlices? (t : Text) : Option (Except ColourError Colour) :=
  let t := t.trim
  let digits := dropHash t
  if digits.utf8.all isHexDigitByte then
    (cutColour? digits).map fun
      | some c => .ok c
      | none => .error (.wrongLength t)
  else some (.error (.notHexadecimal t))

end Colour

/-! ### Nothing is refused -/

theorem isHexDigitByte_ofNat {n : Nat} (h : n < 256) :
    isHexDigitByte (UInt8.ofNat n) = true ↔ 48 ≤ n ∧ n ≤ 57 ∨ 65 ≤ n ∧ n ≤ 70 ∨ 97 ≤ n ∧ n ≤ 102 := by
  simp only [isHexDigitByte, Bool.or_eq_true, Bool.and_eq_true, decide_eq_true_eq,
    UInt8.le_iff_toNat_le, UInt8.toNat_ofNat', Nat.mod_eq_of_lt h, UInt8.reduceToNat, or_assoc]

theorem isSome_hexValue?_iff_range {c : Char} : (hexValue? c).isSome = true ↔
    48 ≤ c.toNat ∧ c.toNat ≤ 57 ∨ 65 ≤ c.toNat ∧ c.toNat ≤ 70 ∨ 97 ≤ c.toNat ∧ c.toNat ≤ 102 := by
  simp only [hexValue?]
  split
  · simp_all
  · split
    · simp_all
    · split <;> simp_all

/-- The bytes of a character are those of digits exactly if it is a digit. -/
theorem all_isHexDigitByte_char (c : Char) :
    (String.utf8EncodeChar c).all isHexDigitByte = (hexValue? c).isSome := by
  rw [Bool.eq_iff_iff, isSome_hexValue?_iff_range]
  have hval : c.val.toNat = c.toNat := rfl
  simp only [String.utf8EncodeChar, hval]
  split
  · next hle => simp [isHexDigitByte_ofNat (n := c.toNat) (by omega)]
  · next hlt =>
      -- the first byte of several is beyond all digits
      have hfirst : ∀ (n : Nat) (bytes : List UInt8), 128 ≤ n → n < 256 →
          ¬(UInt8.ofNat n :: bytes).all isHexDigitByte = true := by
        intro n bytes hlo hhi h
        have hn := (isHexDigitByte_ofNat hhi).1 (List.all_eq_true.1 h _ List.mem_cons_self)
        omega
      refine iff_of_false ?_ (by omega)
      split
      · exact hfirst _ _ (by omega) (by omega)
      · split
        · exact hfirst _ _ (by omega) (by omega)
        · exact hfirst _ _ (by omega) (by omega)

theorem all_isHexDigitByte_utf8 (t : Text) : t.utf8.all isHexDigitByte = (hexValues? t).isSome := by
  rw [Bool.eq_iff_iff, isSome_hexValues?_iff, Text.utf8, List.all_flatMap, List.all_eq_true]
  simp only [all_isHexDigitByte_char]

/-- A digit is one byte. -/
theorem utf8Size_of_hexValue? {c : Char} {v : UInt8} (h : hexValue? c = some v) : c.utf8Size = 1 := by
  have hlt := toNat_lt_of_hexValue? h
  rw [Char.utf8Size_eq_one_iff, UInt32.le_iff_toNat_le]
  exact Nat.le_of_lt_succ hlt

theorem toNat_lt_sixteen {c : Char} {v : UInt8} (h : hexValue? c = some v) : v.toNat < 16 :=
  (hexValue?_eq_some_iff.1 h).lt

theorem byteOfNumeral?_cons {c : Char} {v : UInt8} (h : hexValue? c = some v) (t : Text) :
    byteOfNumeral? (c :: t) = (joinDigits? v.toNat t).map UInt8.ofNat := by
  have hplus : c ≠ '+' := by
    rintro rfl
    cases h
  have hdrop : withoutSign (c :: t) = c :: t := by simp [withoutSign, hplus]
  have hlt := toNat_lt_sixteen h
  rw [byteOfNumeral?, hdrop, if_neg (List.cons_ne_nil c t), joinDigits?, h, Option.bind_some,
    Nat.mul_zero, Nat.zero_add, if_pos (by omega)]

theorem byteOfNumeral?_singleton {c : Char} {v : UInt8} (h : hexValue? c = some v) :
    byteOfNumeral? [c] = some v := by
  rw [byteOfNumeral?_cons h, joinDigits?, Option.map_some, UInt8.ofNat_toNat]

theorem byteOfNumeral?_pair {c d : Char} {v w : UInt8} (hc : hexValue? c = some v)
    (hd : hexValue? d = some w) : byteOfNumeral? [c, d] = some (16 * v + w) := by
  have hv := toNat_lt_sixteen hc
  have hw := toNat_lt_sixteen hd
  rw [byteOfNumeral?_cons hc, joinDigits?, hd, Option.bind_some, if_pos (by omega), joinDigits?,
    Option.map_some, ← digitByte, digitByte_eq, UInt8.ofNat_toNat, UInt8.ofNat_toNat]

theorem shiftLeft_or_self {v : UInt8} (h : v.toNat < 16) : v <<< 4 ||| v = 17 * v := by
  have hall : ∀ n : Fin 16, UInt8.ofNat n <<< 4 ||| UInt8.ofNat n = 17 * UInt8.ofNat n := by
    decide +kernel
  have hv := hall ⟨v.toNat, h⟩
  rwa [UInt8.ofNat_toNat] at hv

namespace Colour

section

variable {digits : Text} {c d : Char} {v w : UInt8}

theorem shortPart?_eq (hsingle : ∀ x ∈ digits, x.utf8Size = 1) (place : Nat)
    (hpiece : (digits.drop place).take 1 = [c]) (hc : hexValue? c = some v) :
    shortPart? digits place = some (17 * v) := by
  have hslice : digits.slice? place (place + 1) = some [c] :=
    Text.slice?_of_single (p := [c]) hsingle hpiece (List.cons_ne_nil _ _)
  rw [shortPart?, hslice, Option.bind_eq_bind, Option.bind_some, byteOfNumeral?_singleton hc,
    Option.bind_eq_bind, Option.bind_some, shiftLeft_or_self (toNat_lt_sixteen hc)]
  rfl

theorem longPart?_eq (hsingle : ∀ x ∈ digits, x.utf8Size = 1) (place : Nat)
    (hpiece : (digits.drop place).take 2 = [c, d]) (hc : hexValue? c = some v)
    (hd : hexValue? d = some w) : longPart? digits place = some (16 * v + w) := by
  have hslice : digits.slice? place (place + 2) = some [c, d] :=
    Text.slice?_of_single (p := [c, d]) hsingle hpiece (List.cons_ne_nil _ _)
  rw [longPart?, hslice, Option.bind_eq_bind, Option.bind_some, byteOfNumeral?_pair hc hd]

end

/-- The parts of digits are cut out without refusal. -/
theorem cutColour?_eq {digits : Text} {vs : List UInt8} (h : hexValues? digits = some vs) :
    cutColour? digits = some (ofDigits vs) := by
  have hvalues := hexValues?_eq_some_iff.1 h
  have hsingle : ∀ x ∈ digits, x.utf8Size = 1 := by
    intro x hx
    obtain ⟨v, hv⟩ := Option.isSome_iff_exists.1
      (isSome_hexValues?_iff.1 (Option.isSome_of_eq_some h) x hx)
    exact utf8Size_of_hexValue? hv
  rw [cutColour?, Text.length_utf8_of_single hsingle]
  -- by the number of digits, up to nine or more
  rcases hvalues with
    _ | ⟨h₀, _ | ⟨h₁, _ | ⟨h₂, _ | ⟨h₃, _ | ⟨h₄, _ | ⟨h₅, _ | ⟨h₆, _ | ⟨h₇, _ | _⟩⟩⟩⟩⟩⟩⟩⟩
  · rfl
  · rfl
  · rfl
  · simp only [List.length_cons, List.length_nil, shortPart?_eq hsingle 0 rfl h₀,
      shortPart?_eq hsingle 1 rfl h₁, shortPart?_eq hsingle 2 rfl h₂]
    rfl
  · simp only [List.length_cons, List.length_nil, shortPart?_eq hsingle 0 rfl h₀,
      shortPart?_eq hsingle 1 rfl h₁, shortPart?_eq hsingle 2 rfl h₂, shortPart?_eq hsingle 3 rfl h₃]
    rfl
  · rfl
  · simp only [List.length_cons, List.length_nil, longPart?_eq hsingle 0 rfl h₀ h₁,
      longPart?_eq hsingle 2 rfl h₂ h₃, longPart?_eq hsingle 4 rfl h₄ h₅]
    rfl
  · rfl
  · simp only [List.length_cons, List.length_nil, longPart?_eq hsingle 0 rfl h₀ h₁,
      longPart?_eq hsingle 2 rfl h₂ h₃, longPart?_eq hsingle 4 rfl h₄ h₅,
      longPart?_eq hsingle 6 rfl h₆ h₇]
    rfl
  · rfl

/-- **No cut is refused**, and what is cut out makes up the colour of the text, or the error. -/
theorem ofHexSlices?_eq (t : Text) : ofHexSlices? t = some (ofHex t) := by
  simp only [ofHexSlices?, ofHex, all_isHexDigitByte_utf8]
  cases h : hexValues? (dropHash t.trim) with
  | none => rfl
  | some vs =>
      rw [Option.isSome_some, if_pos rfl, cutColour?_eq h, Option.map_some]
      dsimp only
      cases ofDigits vs <;> rfl

/-! ### The language of colours -/

theorem ofHex_eq_ok_iff {t : Text} {c : Colour} :
    ofHex t = .ok c ↔ Spelled (dropHash t.trim) c := by
  rw [spelled_iff]
  simp only [ofHex]
  cases hexValues? (dropHash t.trim) with
  | none => simp
  | some vs =>
      dsimp only [Option.bind_some]
      cases ofDigits vs <;> simp

/-- Digits do not begin with a mark. -/
theorem dropHash_of_spelled {digits : Text} {c : Colour} (h : Spelled digits c) :
    dropHash digits = digits := by
  rw [dropHash.eq_def]
  split
  · obtain ⟨n, hn⟩ := (exists_spelled_iff.1 ⟨c, h⟩).2 '#' List.mem_cons_self
    cases hn.hexValue?
  · rfl

theorem spelled_dropHash_iff {t : Text} {c : Colour} :
    Spelled (dropHash t) c ↔
      ∃ mark digits, (mark = [] ∨ mark = ['#']) ∧ t = mark ++ digits ∧ Spelled digits c := by
  constructor
  · intro h
    rw [dropHash.eq_def] at h
    split at h
    · next digits => exact ⟨['#'], digits, .inr rfl, rfl, h⟩
    · exact ⟨[], t, .inl rfl, rfl, h⟩
  · rintro ⟨mark, digits, rfl | rfl, rfl, h⟩
    · rwa [dropHash_of_spelled h]
    · exact h

/-- **The language of colours.**  A text is read as a colour exactly if, without the blanks around it, it
is at most one `#` and digits behind it that stand for the colour; and digits stand for some colour
exactly if there are three, four, six or eight of them, all hexadecimal.  Reading a text cuts its bytes
only between characters and finds a numeral in each piece.  The written form of a colour is read as the
colour. -/
theorem ofHex_by_grammar :
    (∀ (t : Text) (c : Colour), ofHex t = .ok c ↔
      ∃ mark digits, (mark = [] ∨ mark = ['#']) ∧ t.trim = mark ++ digits ∧ Spelled digits c) ∧
    (∀ digits : Text, (∃ c, Spelled digits c) ↔
      digits.length ∈ [3, 4, 6, 8] ∧ ∀ d ∈ digits, ∃ n, IsHexDigit d n) ∧
    (∀ t : Text, ofHexSlices? t = some (ofHex t)) ∧
    ∀ c : Colour, ofHex c.text = .ok c :=
  ⟨fun _ _ => ofHex_eq_ok_iff.trans spelled_dropHash_iff, fun _ => exists_spelled_iff, ofHexSlices?_eq,
    ofHex_text⟩

end Colour

end PhotoPipeline
