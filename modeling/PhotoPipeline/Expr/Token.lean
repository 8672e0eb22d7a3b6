/-
**Tokens of an expression.**

An expression is cut into numbers, names, operators and brackets; blanks only separate.  A run of
digits and points is one number, and a letter or underscore starts a name that goes on through
letters, numerals and underscores.

Main definitions:

* `PhotoPipeline.ExprToken` — tokens;
* `PhotoPipeline.ExprError` — everything that can be wrong with the text of an expression;
* `PhotoPipeline.ExprToken.ofText` — the tokens of a text.
-/
import PhotoPipeline.Expr.Basic
import PhotoPipeline.Number.Numeral
import PhotoPipeline.Number.Shortest

set_option relaxedAutoImplicit false
set_option autoImplicit false

namespace PhotoPipeline

/-- The words of an expression. -/
inductive ExprToken where
  | number (value : Float)
  | name (letters : Text)
  | op (op : BinaryOp)
  | openBracket
  | closeBracket

/-- The text of a token in messages. -/
def ExprToken.text : ExprToken → Text
  | number value => floatText value
  | name letters => letters
  | op o => [o.char]
  | openBracket => ['(']
  | closeBracket => [')']

/-- The greatest number of tokens in an expression. -/
def maxTokens : Nat := 256

/-- What can be wrong with the text of an expression. -/
inductive ExprError where
  | invalidNumber (digits : Text)
  | unexpectedCharacter (c : Char)
  | noTokens
  | tooManyTokens
  | unexpectedToken (text : Text)
  | unknownName (name : Text)
  | missingClose
  | endsEarly
  deriving DecidableEq, Repr

/-- The wording of an error. -/
def ExprError.message : ExprError → String
  | invalidNumber digits => "invalid number '" ++ shown digits ++ "'"
  | unexpectedCharacter c => "unexpected character '" ++ shown [c] ++ "' in expression"
  | noTokens => "empty expression"
  | tooManyTokens => "expression has more than " ++ shown (decimal maxTokens) ++ " tokens"
  | unexpectedToken text => "unexpected '" ++ shown text ++ "' in expression"
  | unknownName name => "unknown name '" ++ shown name ++ "' (expected width or height)"
  | missingClose => "missing ')' in expression"
  | endsEarly => "expression ends early"

namespace ExprToken

/-- The characters of a number. -/
def isNumberChar (c : Char) : Bool := c.isDigit || c == '.'

/-- The characters that start a name. -/
def isNameStart (c : Char) : Bool := isAlphabetic c || c == '_'

/-- The characters that go on with a name. -/
def isNameChar (c : Char) : Bool := isAlphanumeric c || c == '_'

/-- The token that a single character is. -/
def single? : Char → Option ExprToken
  | '+' => some (op .add)
  | '-' => some (op .sub)
  | '*' => some (op .mul)
  | '/' => some (op .div)
  | '%' => some (op .rem)
  | '(' => some openBracket
  | ')' => some closeBracket
  | _ => none

/-- Puts a token in front of the tokens of the rest. -/
def cons (token : ExprToken) : Except ExprError (List ExprToken) → Except ExprError (List ExprToken)
  | .error e => .error e
  | .ok rest => .ok (token :: rest)

theorem length_dropWhile_lt (p : Char → Bool) (c : Char) (cs : Text) :
    (cs.dropWhile p).length < (c :: cs).length := by
  have := (List.dropWhile_suffix (l := cs) p).length_le
  simp only [List.length_cons]
  omega

/-- The tokens of a text. -/
def ofText : Text → Except ExprError (List ExprToken)
  | [] => .ok []
  | c :: cs =>
    if isBlank c then ofText cs
    else if isNumberChar c then
      let digits := c :: cs.takeWhile isNumberChar
      match float? digits with
      | none => .error (.invalidNumber digits)
      | some value => cons (number value) (ofText (cs.dropWhile isNumberChar))
    else if isNameStart c then
      cons (name (c :: cs.takeWhile isNameChar)) (ofText (cs.dropWhile isNameChar))
    else
      match single? c with
      | some token => cons token (ofText cs)
      | none => .error (.unexpectedCharacter c)
termination_by t => t.length
decreasing_by
  all_goals first
    | exact length_dropWhile_lt _ _ _
    | simp

end ExprToken

end PhotoPipeline
