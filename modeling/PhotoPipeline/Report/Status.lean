/-
**Status lines.**

While a command works it says what it is doing: a verb, aligned to the right, and a message.  A
line may end with the time that the work took, which is known only when the line is printed.

Main definitions:

* `PhotoPipeline.counted` — a number of things;
* `PhotoPipeline.elapsedText` — a span of time;
* `PhotoPipeline.StatusLine` — a verb and a message.
-/
import PhotoPipeline.Number.Fixed

set_option relaxedAutoImplicit false
set_option autoImplicit false

namespace PhotoPipeline

/-- A number and the word for that many things. -/
def counted (n : Nat) (one many : Text) : Text :=
  decimal n ++ ' ' :: if n = 1 then one else many

/-- A number of images. -/
def countedImages (n : Nat) : Text := counted n "image".toList "images".toList

/-! ### Time -/

/-- A span of microseconds in seconds. -/
def secondsOf (micros : Nat) : Float :=
  Float.ofNat (micros / 1000000) + Float.ofNat (micros % 1000000 * 1000) / 1000000000

/-- A span of microseconds: in whole milliseconds below a second, then in seconds. -/
def elapsedText (micros : Nat) : Text :=
  if micros < 1000000 then decimal (micros / 1000) ++ "ms".toList
  else twoDecimals (hundredths (secondsOf micros)) ++ ['s']

/-! ### Lines -/

/-- A verb and a message about the work. -/
structure StatusLine where
  verb : Text
  message : Text
  /-- Whether the line ends with the time that the work took. -/
  timed : Bool
  deriving DecidableEq, Repr

namespace StatusLine

/-- The width of the column of verbs. -/
def verbWidth : Nat := 12

/-- What follows the verb: the message, and the time if the line asks for it. -/
def ending (line : StatusLine) (time : Text) : Text :=
  if !line.timed then line.message
  else if line.message.isEmpty then "in ".toList ++ time
  else line.message ++ " in ".toList ++ time

/-- The line as it is printed, given the time that the work took. -/
def text (line : StatusLine) (time : Text) : Text :=
  line.verb.padStart verbWidth ++ ' ' :: line.ending time

end StatusLine

end PhotoPipeline
