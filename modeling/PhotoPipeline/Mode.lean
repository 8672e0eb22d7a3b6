/-
**Modes.**

How an execution was started.  Elements may depend on it.

Main definitions:

* `PhotoPipeline.Mode` — the three modes;
* `PhotoPipeline.Mode.ofText` — the mode of a name.

Main results:

* `PhotoPipeline.Mode.ofText_eq_ok_iff` — exactly the names of modes are names of modes.
-/
import PhotoPipeline.Text.Basic

set_option relaxedAutoImplicit false
set_option autoImplicit false

namespace PhotoPipeline

/-- How an execution was started. -/
inductive Mode where
  /-- Many images are converted in turn. -/
  | convert
  /-- A script is run once. -/
  | script
  /-- A script is run again and again while it is edited. -/
  | edit
  deriving DecidableEq, Repr, Inhabited

/-- A text that names no mode. -/
structure ModeError where
  text : Text
  deriving DecidableEq, Repr

/-- The wording of the error. -/
def ModeError.message (e : ModeError) : String :=
  "unknown mode '" ++ shown e.text ++ "' (expected convert, script or edit)"

namespace Mode

/-- The name of a mode. -/
def name : Mode → Text
  | convert => "convert".toList
  | script => "script".toList
  | edit => "edit".toList

/-- The mode of a name. -/
def ofText (t : Text) : Except ModeError Mode :=
  if t = convert.name then .ok convert
  else if t = script.name then .ok script
  else if t = edit.name then .ok edit
  else .error ⟨t⟩

@[simp] theorem ofText_name (m : Mode) : ofText m.name = .ok m := by
  cases m <;> rfl

theorem ofText_eq_ok_iff {t : Text} {m : Mode} : ofText t = .ok m ↔ t = m.name := by
  constructor
  · intro h
    rw [ofText] at h
    split at h
    · obtain rfl := Except.ok.inj h; assumption
    split at h
    · obtain rfl := Except.ok.inj h; assumption
    split at h
    · obtain rfl := Except.ok.inj h; assumption
    · exact nomatch h
  · rintro rfl
    exact ofText_name m

end Mode

end PhotoPipeline
