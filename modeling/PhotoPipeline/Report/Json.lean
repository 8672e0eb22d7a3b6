/-
**JSON.**

Values as JSON over several lines: each item and each field has a line of its own, two spaces
further in than the bracket it belongs to.

Main definitions:

* `PhotoPipeline.JsonValue` — texts, lists and records;
* `PhotoPipeline.JsonValue.pretty` — a value over several lines.
-/
import PhotoPipeline.Text.Basic

set_option relaxedAutoImplicit false
set_option autoImplicit false

namespace PhotoPipeline

/-! ### Texts -/

/-- The two hexadecimal digits of a control character. -/
def controlDigits (c : Char) : Text := [(c.toNat / 16).digitChar, (c.toNat % 16).digitChar]

/-- A character inside quotes. -/
def jsonChar (c : Char) : Text :=
  match c with
  | '"' => ['\\', '"']
  | '\\' => ['\\', '\\']
  | '\n' => ['\\', 'n']
  | '\r' => ['\\', 'r']
  | '\t' => ['\\', 't']
  | '\x08' => ['\\', 'b']
  | '\x0c' => ['\\', 'f']
  | c => if c.toNat < 32 then "\\u00".toList ++ controlDigits c else [c]

/-- A text in quotes. -/
def jsonText (t : Text) : Text := '"' :: t.flatMap jsonChar ++ ['"']

/-! ### Values -/

/-- A value: a text, a list of values, or a record of named values. -/
inductive JsonValue where
  | text (t : Text)
  | list (items : List JsonValue)
  | record (fields : List (Text × JsonValue))

namespace JsonValue

/-- A new line, so many steps in. -/
def newLine (depth : Nat) : Text := '\n' :: Text.spaces (2 * depth)

/-- Texts on lines of their own between brackets. -/
def enclose (opening closing : Char) (depth : Nat) (lines : List Text) : Text :=
  match lines with
  | [] => [opening, closing]
  | line :: others =>
    opening :: newLine (depth + 1) ++ line ++
      others.flatMap (fun l => ',' :: newLine (depth + 1) ++ l) ++ newLine depth ++ [closing]

mutual

/-- A value over several lines, the brackets so many steps in. -/
def prettyAt (depth : Nat) : JsonValue → Text
  | text t => jsonText t
  | list items => enclose '[' ']' depth (prettyItems (depth + 1) items)
  | record fields => enclose '\x7b' '\x7d' depth (prettyFields (depth + 1) fields)

/-- The items of a list. -/
def prettyItems (depth : Nat) : List JsonValue → List Text
  | [] => []
  | v :: vs => prettyAt depth v :: prettyItems depth vs

/-- The fields of a record. -/
def prettyFields (depth : Nat) : List (Text × JsonValue) → List Text
  | [] => []
  | (name, v) :: fs =>
    (jsonText name ++ ':' :: ' ' :: prettyAt depth v) :: prettyFields depth fs

end

/-- A value over several lines. -/
def pretty (v : JsonValue) : Text := prettyAt 0 v

end JsonValue

end PhotoPipeline
