/-
**Values.**

An argument that is settled only when its element runs: a literal text, or an expression over the
image that the element receives.  An element asks for it as a number, a whole number, a count of
pixels or a text.

Main definitions:

* `PhotoPipeline.Value` — literals and expressions;
* `PhotoPipeline.Value.parse` — the value of a word of a script;
* `PhotoPipeline.Value.float`, `PhotoPipeline.Value.int`, `PhotoPipeline.Value.pixels`,
  `PhotoPipeline.Value.string` — its readings.

Main results:

* `PhotoPipeline.Value.float_congr` — without dimensions the image does not matter;
* `PhotoPipeline.Value.float_none` — with dimensions there has to be an image.
-/
import PhotoPipeline.Error
import PhotoPipeline.Expr.Parser
import PhotoPipeline.Image.Basic

set_option relaxedAutoImplicit false
set_option autoImplicit false

namespace PhotoPipeline

/-- A literal, or an expression with the text it was written as. -/
inductive Value where
  | literal (text : Text)
  | expression (source : Text) (expr : Expr)

namespace Value

/-- What stands between the two backticks of an expression. -/
def body? : Text → Option Text
  | '\x60' :: rest => if rest.getLast? = some '\x60' then some rest.dropLast else none
  | _ => none

/-- The value of a word: an expression if it stands between backticks, else a literal. -/
def parse (word : Text) : Except ExprError Value :=
  match body? word with
  | some body =>
    match Expr.parse body with
    | .ok e => .ok (expression word e)
    | .error e => .error e
  | none => .ok (literal word)

/-- A number as a value. -/
def number (x : Float) : Value := literal (floatText x)

/-- The text that the value is written as. -/
def source : Value → Text
  | literal text => text
  | expression source _ => source

/-- Whether the value is an expression. -/
def isExpr : Value → Bool
  | literal _ => false
  | expression .. => true

/-- Whether the value depends on an image. -/
def usesImage : Value → Bool
  | literal _ => false
  | expression _ e => e.usesImage

/-! ### Readings -/

/-- The size an expression is evaluated for; one without dimensions does not care. -/
def sizeFor (e : Expr) (element : Text) (image : Option Image) : Except Error (Float × Float) :=
  if e.usesImage then
    match image with
    | some i => .ok (i.width.toFloat, i.height.toFloat)
    | none => .error (.needsImage element)
  else .ok (0, 0)

/-- The value as a number. -/
def float (v : Value) (element : Text) (image : Option Image) : Except Error Float :=
  match v with
  | literal text =>
    match float? text.trim with
    | some x => .ok x
    | none => .error (.step element (.notNumber text))
  | expression source e =>
    match sizeFor e element image with
    | .error err => .error err
    | .ok (width, height) =>
      match e.eval width height with
      | .ok x => .ok x
      | .error err => .error (.step element (.evaluation source err))

/-- Whether a number has no fraction. -/
def isWhole (x : Float) : Bool := x.isFinite && remainder x 1 == 0

/-- The number of a literal that is written as an integer. -/
def literalInt? : Value → Option Int64
  | literal text => int64? text.trim
  | expression .. => none

/-- The value as a whole number; numbers out of range are brought to its ends. -/
def int (v : Value) (element : Text) (image : Option Image) : Except Error Int64 :=
  match v.literalInt? with
  | some n => .ok n
  | none =>
    match v.float element image with
    | .error err => .error err
    | .ok x => if isWhole x then .ok x.toInt64 else .error (.step element (.notWhole v.source))

/-- The value as a count of pixels: rounded, a half away from zero. -/
def pixels (v : Value) (element : Text) (image : Option Image) : Except Error UInt32 :=
  match v.float element image with
  | .error err => .error err
  | .ok x =>
    let n := roundFloat x
    if 0 ≤ n ∧ n ≤ 4294967295 then .ok n.toUInt32
    else .error (.step element (.notPixelCount v.source))

/-- The value as a text. -/
def string (v : Value) (element : Text) (image : Option Image) : Except Error Text :=
  match v with
  | literal text => .ok text
  | expression .. => (v.float element image).map floatText

/-! ### Values and images -/

theorem float_congr {v : Value} (h : v.usesImage = false) (element : Text)
    (i j : Option Image) : v.float element i = v.float element j := by
  cases v with
  | literal => rfl
  | expression source e =>
    have h' : e.usesImage = false := h
    simp only [float, sizeFor, h', Bool.false_eq_true, if_false]

theorem float_none {v : Value} (h : v.usesImage = true) (element : Text) :
    v.float element none = .error (.needsImage element) := by
  cases v with
  | literal => exact nomatch h
  | expression source e =>
    have h' : e.usesImage = true := h
    simp only [float, sizeFor, h', if_true]

end Value

end PhotoPipeline
