/-
**Tags.**

A tag is a sequence of octets.  In a document it is written with characters of a few kinds; any
other octet stands as two hexadecimal digits after a percent sign.  Octets that are written like
that have to come in groups as long as the first octet of a group says, which are the groups of
UTF-8 where it does not matter what they stand for.

Main definitions:

* `PhotoPipeline.Yaml.Tag` — tags;
* `PhotoPipeline.Yaml.Tag.ofText?` — the tag that is written as a text.
-/
import PhotoPipeline.Colour.Basic

set_option relaxedAutoImplicit false
set_option autoImplicit false

namespace PhotoPipeline

namespace Yaml

/-- A tag, by its octets; where there is no tag there are none. -/
abbrev Tag := List UInt8

namespace Tag

/-- The number of octets that a group of octets still needs, when it needed `more` before the
given octet; a new group starts when nothing was needed. -/
def needed? (more : Nat) (b : UInt8) : Option Nat :=
  match more with
  | more + 1 => if b &&& 0xC0 = 0x80 then some more else none
  | 0 =>
    if b &&& 0x80 = 0 then some 0
    else if b &&& 0xE0 = 0xC0 then some 1
    else if b &&& 0xF0 = 0xE0 then some 2
    else if b &&& 0xF8 = 0xF0 then some 3
    else none

/-- The octet of an ASCII character. -/
def octet (c : Char) : UInt8 := UInt8.ofNat c.toNat

/-- The octets of a text; the group of octets at hand still needs `more`. -/
def octets? (more : Nat) : Text → Option (List UInt8)
  | [] => if more = 0 then some [] else none
  | '%' :: a :: b :: t =>
    match hexValue? a, hexValue? b with
    | some a, some b =>
      let n := 16 * a + b
      match needed? more n with
      | some more => (octets? more t).map (List.cons n)
      | none => none
    | _, _ => none
  | c :: t => if more = 0 ∧ c ≠ '%' then (octets? 0 t).map (List.cons (octet c)) else none

/-- The tag that is written as a text.  It ends before an octet that is zero. -/
def ofText? (t : Text) : Option Tag := (octets? 0 t).map fun bs => bs.takeWhile (· != 0)

/-- The tag that is an exclamation mark and leaves open what it says. -/
def unspecified : Tag := [octet '!']

/-- A tag of the usual ones, by its name. -/
def usual (name : String) : Tag := ("tag:yaml.org,2002:" ++ name).toList.map octet

end Tag

end Yaml

end PhotoPipeline
