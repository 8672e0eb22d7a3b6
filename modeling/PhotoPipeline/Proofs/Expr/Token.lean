/-
**Cutting a text into tokens.**

The tokens of a text are told from their characters.  No character belongs to two kinds of tokens, and a
number or a name goes on as long as its characters do, so a text can be cut in one way only.

Main definitions:

* `PhotoPipeline.ExprToken.Cut` — the tokens that a text is cut into.

Main results:

* `PhotoPipeline.ExprToken.cut_iff` — **the tokens of a text** are those that it is cut into.
-/
import PhotoPipeline.Expr.Token

set_option relaxedAutoImplicit false
set_option autoImplicit false

namespace PhotoPipeline

/-! ### Kinds of characters -/

theorem inRanges_append (r s : List (Nat × Nat)) (c : Char) :
    inRanges (r ++ s) c = (inRanges r c || inRanges s c) :=
  List.any_append

theorem inRanges_eq_false {r s : List (Nat × Nat)} {c : Char}
    (hrs : ∀ a ∈ r, ∀ b ∈ s, a.2 < b.1 ∨ b.2 < a.1) (hc : inRanges r c = true) :
    inRanges s c = false := by
  obtain ⟨a, ha, hac⟩ := List.any_eq_true.1 hc
  rw [inRanges, List.any_eq_false]
  intro b hb hbc
  simp only [Bool.and_eq_true, decide_eq_true_eq] at hac hbc
  have := hrs a ha b hb
  omega

namespace ExprToken

/-- The code points of the characters of numbers. -/
def numberRanges : List (Nat × Nat) := [(0x2E, 0x2E), (0x30, 0x39)]

theorem inRanges_of_isNumberChar {c : Char} (h : isNumberChar c = true) :
    inRanges numberRanges c = true := by
  rw [isNumberChar, Bool.or_eq_true, beq_iff_eq] at h
  obtain h | rfl := h
  · simp only [Char.isDigit, Bool.and_eq_true, decide_eq_true_eq, UInt32.le_iff_toNat_le] at h
    rw [inRanges, List.any_eq_true]
    exact ⟨(0x30, 0x39), by decide, by simpa using h⟩
  · decide

theorem inRanges_of_isNameStart {c : Char} (h : isNameStart c = true) :
    inRanges (alphabeticLow ++ alphabeticMiddle ++ alphabeticUpper ++ alphabeticHigh ++
      [(0x5F, 0x5F)]) c = true := by
  simp only [isNameStart, isAlphabetic, Bool.or_eq_true, beq_iff_eq] at h
  simp only [inRanges_append, Bool.or_eq_true]
  refine h.imp_right ?_
  rintro rfl
  decide

theorem not_isBlank_of_isNumberChar {c : Char} (h : isNumberChar c = true) : isBlank c = false :=
  inRanges_eq_false (by decide) (inRanges_of_isNumberChar h)

theorem not_isBlank_of_isNameStart {c : Char} (h : isNameStart c = true) : isBlank c = false :=
  inRanges_eq_false (by decide +kernel) (inRanges_of_isNameStart h)

theorem not_isNumberChar_of_isNameStart {c : Char} (h : isNameStart c = true) :
    isNumberChar c = false := by
  have hranges : inRanges numberRanges c = false :=
    inRanges_eq_false (by decide +kernel) (inRanges_of_isNameStart h)
  rw [← Bool.not_eq_true] at hranges ⊢
  exact mt inRanges_of_isNumberChar hranges

theorem notWord_of_single? {c : Char} {token : ExprToken} (h : single? c = some token) :
    isBlank c = false ∧ isNumberChar c = false ∧ isNameStart c = false := by
  unfold single? at h
  split at h
  all_goals first
    | decide +kernel
    | cases h

/-! ### Cutting a text into tokens -/

/-- The text does not go on with a character of the kind. -/
def Ends (p : Char → Bool) (t : Text) : Prop := ∀ c ∈ t.head?, p c = false

theorem takeWhile_run {p : Char → Bool} {run t : Text} (hrun : ∀ c ∈ run, p c = true)
    (ht : Ends p t) : (run ++ t).takeWhile p = run := by
  rw [List.takeWhile_append_of_pos hrun]
  cases t with
  | nil => simp
  | cons c cs => rw [List.takeWhile_cons_of_neg (by simp [ht c rfl]), List.append_nil]

theorem dropWhile_run {p : Char → Bool} {run t : Text} (hrun : ∀ c ∈ run, p c = true)
    (ht : Ends p t) : (run ++ t).dropWhile p = t := by
  rw [List.dropWhile_append_of_pos hrun]
  cases t with
  | nil => rfl
  | cons c cs => rw [List.dropWhile_cons_of_neg (by simp [ht c rfl])]

theorem all_takeWhile (p : Char → Bool) (t : Text) : ∀ c ∈ t.takeWhile p, p c = true :=
  List.all_eq_true.1 List.all_takeWhile

theorem ends_dropWhile (p : Char → Bool) (t : Text) : Ends p (t.dropWhile p) := by
  intro c hc
  have hhead := List.head?_dropWhile_not p t
  rw [hc] at hhead
  simpa using hhead

/-- The tokens that a text is cut into: blanks separate tokens and are none, and a number or a name
goes on as long as its characters do. -/
inductive Cut : Text → List ExprToken → Prop where
  | nil : Cut [] []
  | blank {c : Char} {t : Text} {ts : List ExprToken} (hc : isBlank c = true) (ht : Cut t ts) :
      Cut (c :: t) ts
  | number {c : Char} {digits t : Text} {value : Float} {ts : List ExprToken}
      (hc : isNumberChar c = true) (hdigits : ∀ c ∈ digits, isNumberChar c = true)
      (hend : Ends isNumberChar t) (hvalue : float? (c :: digits) = some value) (ht : Cut t ts) :
      Cut (c :: (digits ++ t)) (.number value :: ts)
  | name {c : Char} {letters t : Text} {ts : List ExprToken} (hc : isNameStart c = true)
      (hletters : ∀ c ∈ letters, isNameChar c = true) (hend : Ends isNameChar t) (ht : Cut t ts) :
      Cut (c :: (letters ++ t)) (.name (c :: letters) :: ts)
  | single {c : Char} {token : ExprToken} {t : Text} {ts : List ExprToken}
      (hc : single? c = some token) (ht : Cut t ts) : Cut (c :: t) (token :: ts)

theorem cons_eq_ok_iff {token : ExprToken} {r : Except ExprError (List ExprToken)}
    {ts : List ExprToken} : cons token r = .ok ts ↔ ∃ rest, r = .ok rest ∧ token :: rest = ts := by
  cases r with
  | error e => simp [cons]
  | ok rest => simp [cons]

/-- **The tokens of a text** are those that it is cut into. -/
theorem cut_iff {t : Text} {ts : List ExprToken} : Cut t ts ↔ ofText t = .ok ts := by
  constructor
  · intro h
    induction h with
    | nil => rw [ofText]
    | blank hc _ ih => rw [ofText, if_pos hc, ih]
    | @number c digits t value ts hc hdigits hend hvalue _ ih =>
        rw [ofText, if_neg (by simp [not_isBlank_of_isNumberChar hc]), if_pos hc,
          takeWhile_run hdigits hend, dropWhile_run hdigits hend]
        simp only [hvalue, ih, cons]
    | @name c letters t ts hc hletters hend _ ih =>
        rw [ofText, if_neg (by simp [not_isBlank_of_isNameStart hc]),
          if_neg (by simp [not_isNumberChar_of_isNameStart hc]), if_pos hc,
          takeWhile_run hletters hend, dropWhile_run hletters hend, ih, cons]
    | @single c token t ts hc _ ih =>
        obtain ⟨hblank, hnumber, hname⟩ := notWord_of_single? hc
        rw [ofText, if_neg (by simp [hblank]), if_neg (by simp [hnumber]),
          if_neg (by simp [hname]), hc]
        simp only [ih, cons]
  · intro h
    fun_induction ofText t generalizing ts with
    | case1 =>
        cases h
        exact .nil
    | case2 c cs hc ih => exact .blank hc (ih h)
    | case3 => cases h
    | case4 c cs _ hc _ value hvalue =>
        rename_i ih
        obtain ⟨rest, hrest, rfl⟩ := cons_eq_ok_iff.1 h
        have hcut := Cut.number hc (all_takeWhile _ cs) (ends_dropWhile _ cs) hvalue (ih hrest)
        rwa [List.takeWhile_append_dropWhile] at hcut
    | case5 c cs _ _ hc ih =>
        obtain ⟨rest, hrest, rfl⟩ := cons_eq_ok_iff.1 h
        have hcut := Cut.name hc (all_takeWhile _ cs) (ends_dropWhile _ cs) (ih hrest)
        rwa [List.takeWhile_append_dropWhile] at hcut
    | case6 c cs _ _ _ token hc ih =>
        obtain ⟨rest, hrest, rfl⟩ := cons_eq_ok_iff.1 h
        exact .single hc (ih hrest)
    | case7 => cases h

end ExprToken

end PhotoPipeline
