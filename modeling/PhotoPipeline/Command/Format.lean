/-
**Formatting a script.**

A script is written in canonical form.  Comments and references to variables have no place there,
so a script that has any of them is not replaced by its canonical form.

Main definitions:

* `PhotoPipeline.lostByFormatting?` — what a script would lose;
* `PhotoPipeline.Work.format` — writes the canonical form of a script.

Main results:

* `PhotoPipeline.lostByFormatting?_eq_none_iff` — a script loses nothing exactly when no line starts
  with two slashes and no reference occurs in it.
-/
import PhotoPipeline.Command.Desk

set_option relaxedAutoImplicit false
set_option autoImplicit false

namespace PhotoPipeline

/-- Whether a line is a comment. -/
def isCommentLine (line : Text) : Bool := ['/', '/'].isPrefixOf line.trimStart

/-- Whether a dollar sign with an opening brace after it occurs in a text. -/
def hasReference : Text → Bool
  | '$' :: '\x7b' :: _ => true
  | _ :: t => hasReference t
  | [] => false

/-- What a script would lose if its canonical form took its place. -/
def lostByFormatting? (source : Text) : Option FormattingLoss :=
  if source.lines.any isCommentLine then some .comments
  else if hasReference source then some .references
  else none

theorem hasReference_eq_true_iff {t : Text} :
    hasReference t = true ↔ ['$', '\x7b'] <:+: t := by
  induction t with
  | nil => simp [hasReference]
  | cons c t ih =>
    rw [hasReference.eq_def]
    split
    · next h =>
      rw [h]
      exact ⟨fun _ => List.IsPrefix.isInfix ⟨_, rfl⟩, fun _ => rfl⟩
    · next h0 h =>
      obtain ⟨rfl, rfl⟩ := List.cons.inj h
      rw [ih, List.infix_cons_iff]
      refine ⟨Or.inr, fun hor => hor.resolve_left fun hp => ?_⟩
      obtain ⟨r, hr⟩ := hp
      have hc := List.cons.inj hr
      exact h0 r hc.1.symm hc.2.symm
    · next h => exact nomatch h

theorem lostByFormatting?_eq_none_iff {source : Text} :
    lostByFormatting? source = none ↔
      (∀ line ∈ source.lines, isCommentLine line = false) ∧ ¬['$', '\x7b'] <:+: source := by
  rw [← hasReference_eq_true_iff, lostByFormatting?]
  cases h : source.lines.any isCommentLine <;> cases hasReference source <;>
    simp_all

namespace Work

/-- Writes a text over a script. -/
def overwrite (script text : Text) : Work Unit := do
  match (← get).files.writeText script text with
  | .ok files => setFiles files
  | .error fault => throw (.file script (.writeScript fault))

/-- Replaces a script by its canonical form, unless something would be lost. -/
def replace (s : Settings) (script source text : Text) : Work Unit := do
  match lostByFormatting? source with
  | some loss => throw (.step "fmt".toList (.formattingLoses (s.display script) loss))
  | none =>
    if text = source then say "Unchanged" (s.display script)
    else
      overwrite script text
      say "Formatted" (s.display script)

/-- Writes the canonical form of a script, as a result or in its place. -/
def format (s : Settings) (script : Text) (inPlace : Bool) : Work Unit := do
  let (source, recipe) ← readRecipe s script
  if inPlace then replace s script source recipe.text else write recipe.text

end Work

end PhotoPipeline
