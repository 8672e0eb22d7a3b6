/-
**Expressions without dimensions ignore the image.**

An expression needs an image exactly if a dimension is named among its tokens.  Whether it does is asked
of the expression before it is evaluated, and where it does not, zeros stand for the dimensions; so the
question must find every dimension, at any depth, or an expression would be evaluated for an image that
is not there.

The four ways to take a value begin with its number and go on with that number alone.  So each of them
needs an image when the number does, and gives the same with any image when the number does not.

Main definitions:

* `PhotoPipeline.ExprToken.MentionsDimension` — a dimension is named among tokens;
* `PhotoPipeline.Value.Sense` — the ways to take a value, with `PhotoPipeline.Value.inSense`;
* `PhotoPipeline.Value.Sense.ofNumber` — how they go on with a number.

Main results:

* `PhotoPipeline.Expr.Derivation.usesImage_expr_iff` — the question finds every dimension;
* `PhotoPipeline.Value.inSense_expression` — all ways go by the number;
* `PhotoPipeline.Value.inSense_of_parse` — **what needs an image, and what ignores it**.
-/
import PhotoPipeline.Proofs.Expr.Grammar
import PhotoPipeline.Value

set_option relaxedAutoImplicit false
set_option autoImplicit false

namespace PhotoPipeline

/-! ### Dimensions among tokens -/

namespace ExprToken

/-- A dimension is named among the tokens. -/
def MentionsDimension (ts : List ExprToken) : Prop :=
  ∃ d : Dimension, ∃ letters ∈ d.names, .name letters ∈ ts

theorem mentionsDimension_append {ts us : List ExprToken} :
    MentionsDimension (ts ++ us) ↔ MentionsDimension ts ∨ MentionsDimension us := by
  constructor
  · rintro ⟨d, letters, hletters, hmem⟩
    obtain hmem | hmem := List.mem_append.1 hmem
    · exact .inl ⟨d, letters, hletters, hmem⟩
    · exact .inr ⟨d, letters, hletters, hmem⟩
  · rintro (⟨d, letters, hletters, hmem⟩ | ⟨d, letters, hletters, hmem⟩)
    · exact ⟨d, letters, hletters, List.mem_append_left _ hmem⟩
    · exact ⟨d, letters, hletters, List.mem_append_right _ hmem⟩

/-- A token that is no name mentions nothing. -/
theorem mentionsDimension_cons {t : ExprToken} {ts : List ExprToken}
    (ht : ∀ letters, t ≠ .name letters) :
    MentionsDimension (t :: ts) ↔ MentionsDimension ts := by
  constructor
  · rintro ⟨d, letters, hletters, hmem⟩
    obtain heq | hmem := List.mem_cons.1 hmem
    · exact absurd heq.symm (ht letters)
    · exact ⟨d, letters, hletters, hmem⟩
  · rintro ⟨d, letters, hletters, hmem⟩
    exact ⟨d, letters, hletters, List.mem_cons_of_mem _ hmem⟩

theorem not_mentionsDimension_nil : ¬MentionsDimension [] := by
  rintro ⟨d, letters, hletters, hmem⟩
  cases hmem

end ExprToken

namespace Expr

open ExprToken

/-- **The question finds every dimension** that is named among the tokens, and no other. -/
theorem Derivation.usesImage_expr_iff {l : Layer} (d : Derivation l) :
    d.expr.usesImage = true ↔ MentionsDimension d.tokens := by
  induction d with
  | number value =>
      rw [tokens, mentionsDimension_cons (fun _ => ExprToken.noConfusion)]
      exact iff_of_false Bool.false_ne_true not_mentionsDimension_nil
  | dimension d letters h => exact iff_of_true rfl ⟨d, letters, h, List.mem_cons_self⟩
  | neg d ih =>
      rw [tokens, mentionsDimension_cons (fun _ => ExprToken.noConfusion)]
      exact ih
  | bracket d ih =>
      rw [tokens, mentionsDimension_cons (fun _ => ExprToken.noConfusion), mentionsDimension_append,
        mentionsDimension_cons (fun _ => ExprToken.noConfusion), or_iff_left not_mentionsDimension_nil]
      exact ih
  | single _ d ih => exact ih
  | join lhs op _ rhs ihl ihr =>
      show (lhs.expr.usesImage || rhs.expr.usesImage) = true ↔ _
      rw [Bool.or_eq_true, ihl, ihr, tokens, mentionsDimension_append,
        mentionsDimension_cons (fun _ => ExprToken.noConfusion)]

end Expr

/-! ### Ways to take a value -/

namespace Value

/-- The ways in which an element takes a value. -/
inductive Sense where
  | number
  | whole
  | pixels
  | text
  deriving DecidableEq

/-- What a value is taken as. -/
def Sense.Result : Sense → Type
  | number => Float
  | whole => Int64
  | pixels => UInt32
  | text => Text

/-- The value as an element takes it. -/
def inSense (v : Value) : (sense : Sense) → Text → Option Image → Except Error sense.Result
  | .number => v.float
  | .whole => v.int
  | .pixels => v.pixels
  | .text => v.string

/-- How an expression that comes to a number is taken; the text it was written as is for the errors. -/
def Sense.ofNumber (source element : Text) (x : Float) : (sense : Sense) → Except Error sense.Result
  | number => .ok x
  | whole => if isWhole x then .ok x.toInt64 else .error (.step element (.notWhole source))
  | pixels =>
    if 0 ≤ roundFloat x ∧ roundFloat x ≤ 4294967295 then .ok (roundFloat x).toUInt32
    else .error (.step element (.notPixelCount source))
  | text => .ok (floatText x)

theorem Sense.ofNumber_ne_needsImage (sense : Sense) (source element name : Text) (x : Float) :
    sense.ofNumber source element x ≠ .error (.needsImage name) := by
  cases sense with
  | number | text => simp [ofNumber]
  | whole | pixels =>
      rw [ofNumber]
      split <;> simp

variable {e : Expr} (source : Text)

/-- **All ways go by the number** of an expression. -/
theorem inSense_expression (sense : Sense) (element : Text) (image : Option Image) :
    (expression source e).inSense sense element image =
      ((expression source e).float element image).bind (sense.ofNumber source element) := by
  cases sense with
  | number =>
      show (expression source e).float element image = _
      cases (expression source e).float element image <;> rfl
  | whole =>
      show (expression source e).int element image = _
      rw [int, literalInt?]
      cases (expression source e).float element image <;> rfl
  | pixels =>
      show (expression source e).pixels element image = _
      rw [pixels]
      cases (expression source e).float element image <;> rfl
  | text =>
      show (expression source e).string element image = _
      rw [string]
      cases (expression source e).float element image <;> rfl

/-- Without dimensions, a number never needs an image. -/
theorem float_ne_needsImage (h : e.usesImage = false) (element name : Text) (image : Option Image) :
    (expression source e).float element image ≠ .error (.needsImage name) := by
  have hsize : sizeFor e element image = .ok (0, 0) := if_neg (by simp [h])
  rw [float, hsize]
  dsimp only
  split <;> simp

theorem inSense_none (h : e.usesImage = true) (sense : Sense) (element : Text) :
    (expression source e).inSense sense element none = .error (.needsImage element) := by
  have hfloat : (expression source e).float element none = .error (.needsImage element) :=
    float_none (v := expression source e) h element
  rw [inSense_expression, hfloat]
  rfl

theorem inSense_ne_needsImage (h : e.usesImage = false) (sense : Sense) (element name : Text)
    (image : Option Image) :
    (expression source e).inSense sense element image ≠ .error (.needsImage name) := by
  rw [inSense_expression]
  have hfloat := float_ne_needsImage source h element name image
  cases hx : (expression source e).float element image with
  | error err =>
      intro (herr : Except.error err = Except.error (Error.needsImage name))
      rw [Except.error.inj herr] at hx
      exact hfloat hx
  | ok x => exact sense.ofNumber_ne_needsImage source element name x

theorem inSense_congr (h : e.usesImage = false) (sense : Sense) (element : Text)
    (i j : Option Image) :
    (expression source e).inSense sense element i =
      (expression source e).inSense sense element j := by
  have hfloat : (expression source e).float element i = (expression source e).float element j :=
    float_congr (v := expression source e) h element i j
  rw [inSense_expression, inSense_expression, hfloat]

/-! ### Values that are read -/

theorem body?_eq_some_iff {word body : Text} :
    body? word = some body ↔ word = '\x60' :: (body ++ ['\x60']) := by
  rw [body?.eq_def]
  split
  · next rest =>
      rw [List.cons.injEq, eq_self, true_and]
      constructor
      · intro h
        split at h
        · next hlast =>
            obtain ⟨inner, rfl⟩ := List.getLast?_eq_some_iff.1 hlast
            rw [List.dropLast_concat] at h
            rw [Option.some.inj h]
        · cases h
      · rintro rfl
        simp
  · next hne =>
      refine iff_of_false (by simp) fun h => hne _ h

theorem expression_of_parse {word : Text} {v : Value} (h : parse word = .ok v)
    (hv : v.isExpr = true) :
    ∃ body e, word = '\x60' :: (body ++ ['\x60']) ∧ Expr.parse body = .ok e ∧
      v = expression word e := by
  rw [parse] at h
  split at h
  · next body hbody =>
      split at h
      · next e he => exact ⟨body, e, body?_eq_some_iff.1 hbody, he, (Except.ok.inj h).symm⟩
      · cases h
  · cases h
    cases hv

/-- A word has one body, and the body is cut in one way. -/
theorem tokens_unique {word body other : Text} {ts us : List ExprToken}
    (hword : word = '\x60' :: (body ++ ['\x60'])) (hts : ExprToken.Cut body ts)
    (hother : word = '\x60' :: (other ++ ['\x60'])) (hus : ExprToken.Cut other us) : ts = us := by
  obtain rfl : body = other :=
    Option.some.inj ((body?_eq_some_iff.2 hword).symm.trans (body?_eq_some_iff.2 hother))
  exact Except.ok.inj ((ExprToken.cut_iff.1 hts).symm.trans (ExprToken.cut_iff.1 hus))

/-- **What needs an image, and what ignores it.**  A word that is read as an expression stands between
backticks, and is cut into tokens there.  In whatever sense an element takes the value, without an image
it fails for the lack of one exactly if a dimension is named among the tokens, and the error names the
element; where none is named, the value is the same, or the error is the same, with no image as with any
image. -/
theorem inSense_of_parse {word : Text} {v : Value} (h : parse word = .ok v) (hv : v.isExpr = true) :
    ∃ body ts, word = '\x60' :: (body ++ ['\x60']) ∧ ExprToken.Cut body ts ∧
      ∀ (sense : Sense) (element : Text),
        ((∃ name, v.inSense sense element none = .error (.needsImage name)) ↔
          ExprToken.MentionsDimension ts) ∧
        (v.inSense sense element none = .error (.needsImage element) ↔
          ExprToken.MentionsDimension ts) ∧
        (¬ExprToken.MentionsDimension ts → ∀ image,
          v.inSense sense element (some image) = v.inSense sense element none) := by
  obtain ⟨body, e, hword, he, rfl⟩ := expression_of_parse h hv
  obtain ⟨ts, hcut, -, -, d, rfl, rfl⟩ := Expr.parse_eq_ok_iff.1 he
  refine ⟨body, d.tokens, hword, hcut, fun sense element => ?_⟩
  rw [← d.usesImage_expr_iff]
  cases hd : d.expr.usesImage with
  | true =>
      have hnone := inSense_none word hd sense element
      exact ⟨iff_of_true ⟨element, hnone⟩ rfl, iff_of_true hnone rfl, fun hno => absurd rfl hno⟩
  | false =>
      have hnever := fun name => inSense_ne_needsImage word hd sense element name none
      exact ⟨iff_of_false (fun ⟨name, hname⟩ => hnever name hname) Bool.false_ne_true,
        iff_of_false (hnever element) Bool.false_ne_true,
        fun _ image => inSense_congr word hd sense element (some image) none⟩

/-! ### A sample -/

/-- The width divided by zero. -/
def widthByZero : Value :=
  .expression "\x60w/0\x60".toList (.binary .div (.dimension .width) (.number 0))

/-- One divided by zero. -/
def oneByZero : Value :=
  .expression "\x601/0\x60".toList (.binary .div (.number 1) (.number 0))

theorem cut_byZero : ExprToken.Cut ['/', '0'] [.op .div, .number 0] :=
  .single rfl (.number rfl (List.forall_mem_nil _) (by simp [ExprToken.Ends]) rfl .nil)

theorem cut_widthByZero : ExprToken.Cut "w/0".toList [.name ['w'], .op .div, .number 0] :=
  .name (c := 'w') (by decide +kernel) (List.forall_mem_nil _)
    (fun c hc => by cases hc; decide +kernel) cut_byZero

theorem cut_oneByZero : ExprToken.Cut "1/0".toList [.number 1, .op .div, .number 0] :=
  .number (c := '1') rfl (List.forall_mem_nil _) (fun c hc => by cases hc; decide) rfl cut_byZero

theorem parse_widthByZero : parse "\x60w/0\x60".toList = .ok widthByZero := by
  have hbody : body? "\x60w/0\x60".toList = some "w/0".toList := rfl
  have hparse : Expr.parse "w/0".toList = .ok (.binary .div (.dimension .width) (.number 0)) :=
    Expr.parse_eq_ok_iff.2 ⟨_, cut_widthByZero, by decide, by decide,
      .single Expr.Layer.noConfusion (.join (.single Expr.Layer.noConfusion
        (.dimension .width ['w'] (by decide))) .div rfl (.number 0)), rfl, rfl⟩
  simp only [parse, hbody, hparse, widthByZero]

theorem parse_oneByZero : parse "\x601/0\x60".toList = .ok oneByZero := by
  have hbody : body? "\x601/0\x60".toList = some "1/0".toList := rfl
  have hparse : Expr.parse "1/0".toList = .ok (.binary .div (.number 1) (.number 0)) :=
    Expr.parse_eq_ok_iff.2 ⟨_, cut_oneByZero, by decide, by decide,
      .single Expr.Layer.noConfusion (.join (.single Expr.Layer.noConfusion (.number 1)) .div rfl
        (.number 0)), rfl, rfl⟩
  simp only [parse, hbody, hparse, oneByZero]

/-- Without an image, the width divided by zero fails for the lack of it and not by the division; one
divided by zero fails by the division with any image as with none. -/
theorem inSense_of_parse_byZero :
    (parse "\x60w/0\x60".toList = .ok widthByZero ∧ parse "\x601/0\x60".toList = .ok oneByZero) ∧
      (∀ sense, widthByZero.inSense sense "crop".toList none =
        .error (.needsImage "crop".toList)) ∧
      ∀ sense image, oneByZero.inSense sense "crop".toList (some image) =
        .error (.step "crop".toList (.evaluation "\x601/0\x60".toList .divisionByZero)) := by
  refine ⟨⟨parse_widthByZero, parse_oneByZero⟩, fun sense => ?_, fun sense image => ?_⟩
  · obtain ⟨body, ts, hword, hcut, hall⟩ := inSense_of_parse parse_widthByZero rfl
    obtain rfl := tokens_unique hword hcut rfl cut_widthByZero
    exact (hall sense _).2.1.2 ⟨.width, ['w'], by decide, List.mem_cons_self⟩
  · obtain ⟨body, ts, hword, hcut, hall⟩ := inSense_of_parse parse_oneByZero rfl
    obtain rfl := tokens_unique hword hcut rfl cut_oneByZero
    have hno : ¬ExprToken.MentionsDimension [.number 1, .op .div, .number 0] := by
      simp [ExprToken.MentionsDimension]
    rw [(hall sense _).2.2 hno image]
    cases sense <;> rfl

end Value

end PhotoPipeline
