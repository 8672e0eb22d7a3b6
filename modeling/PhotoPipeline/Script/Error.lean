/-
**What can be wrong with a script.**

A script is refused for one fault at one place.

Main definitions:

* `PhotoPipeline.ScriptFault` — the faults;
* `PhotoPipeline.ScriptError` — a fault and its place;
* `PhotoPipeline.ScriptError.message` — its wording.
-/
import PhotoPipeline.Script.Location

set_option relaxedAutoImplicit false
set_option autoImplicit false

namespace PhotoPipeline

/-- The greatest number of argument lists that may be open at once. -/
def maxDepth : Nat := 256

/-- What is wrong. -/
inductive ScriptFault where
  /-- The script ends after a backslash. -/
  | danglingEscape
  /-- The script ends after a backslash inside a string. -/
  | danglingStringEscape
  /-- A string has no closing quote. -/
  | openString
  /-- An expression has no closing backtick. -/
  | openExpression
  /-- A substitution has no closing brace. -/
  | openSubstitution
  /-- A substitution names no variable. -/
  | unknownVariable (name : Text)
  /-- A closing bracket with no list open. -/
  | unexpectedClose
  /-- One argument list too many is open. -/
  | tooDeep
  /-- The script ends inside the arguments of this head. -/
  | unclosed (head : Text)
  deriving DecidableEq, Repr

/-- A fault and the place that it is blamed on. -/
structure ScriptError where
  fault : ScriptFault
  location : Location
  deriving DecidableEq, Repr

/-- The wording of a fault. -/
def ScriptFault.message : ScriptFault → String
  | danglingEscape => "input ends after '\\'"
  | danglingStringEscape => "input ends after '\\' in string"
  | openString => "unterminated string"
  | openExpression => "unterminated expression"
  | openSubstitution => "unterminated '$\x7b'"
  | unknownVariable name => "Unknown variable '$\x7b" ++ shown name ++ "\x7d'"
  | unexpectedClose => "unexpected ')'"
  | tooDeep => "argument lists nest deeper than " ++ shown (decimal maxDepth) ++ " levels"
  | unclosed head => "'" ++ shown head ++ "(' is never closed"

/-- The wording of an error. -/
def ScriptError.message (e : ScriptError) : String :=
  match e.fault with
  | .unknownVariable _ => e.fault.message ++ " at " ++ shown e.location.text
  | _ => "Parse error at " ++ shown e.location.text ++ ": " ++ e.fault.message

end PhotoPipeline
