/-
**What errors are blamed on.**

The scanner remembers places: where the literal that it is in was opened, where its word starts,
where the heads of the open lists stand.  Each of them it has been at, and an error is blamed on one
of them or on the character that has just been read.  So whatever holds of the places of all
characters holds of the places of all errors.

Main definitions:

* `PhotoPipeline.Scanner.Keeps` — a property of all places that a scanner remembers;
* `PhotoPipeline.Blames` — a property of what comes of a step, or of the place of its error.

Main results:

* `PhotoPipeline.Scanner.Keeps.feed`, `PhotoPipeline.Scanner.Keeps.finish` — one character, and the
  end;
* `PhotoPipeline.standsAt_of_parse_error` — **an error is blamed on a character of the script**.
-/
import PhotoPipeline.Proofs.Script.Layout

set_option relaxedAutoImplicit false
set_option autoImplicit false

namespace PhotoPipeline

/-- The result has a property, or the place of the error has one. -/
inductive Blames {α : Type} (p : Location → Prop) (q : α → Prop) : Except ScriptError α → Prop
  | ok {a : α} (h : q a) : Blames p q (.ok a)
  | error {e : ScriptError} (h : p e.location) : Blames p q (.error e)

namespace Blames

variable {α β : Type} {p : Location → Prop} {q : α → Prop} {r : β → Prop}
  {a b : Except ScriptError α}

theorem bind {f : α → Except ScriptError β} (h : Blames p q a)
    (hf : ∀ x, a = .ok x → q x → Blames p r (f x)) : Blames p r (a >>= f) := by
  cases h with
  | ok h => exact hf _ rfl h
  | error h => exact .error h

theorem ite {c : Prop} [Decidable c] (h : Blames p q a) (h' : Blames p q b) :
    Blames p q (if c then a else b) := by
  split
  · exact h
  · exact h'

end Blames

/-- The places that the mode remembers have a property. -/
def ScanMode.Keeps (p : Location → Prop) : ScanMode → Prop
  | plain | comment => True
  | escape l | dollar l | slash l | string l | expression l => p l
  | stringEscape l l' | expressionDollar l l' => p l ∧ p l'
  | .variable l _ inside => p l ∧ ∀ l' ∈ inside, p l'

namespace Scanner

/-- **The places that the scanner remembers** have a property. -/
structure Keeps (p : Location → Prop) (s : Scanner) : Prop where
  mode : s.mode.Keeps p
  start : ∀ l ∈ s.word.start, p l
  opened : ∀ o ∈ s.opened, p o.location

namespace Keeps

variable {p : Location → Prop} {s : Scanner} {l : Location}

theorem setMode (h : s.Keeps p) {m : ScanMode} (hm : m.Keeps p) :
    Keeps p { s with mode := m } :=
  ⟨hm, h.start, h.opened⟩

theorem setLineStart (h : s.Keeps p) (b : Bool) : Keeps p { s with lineStart := b } :=
  ⟨h.mode, h.start, h.opened⟩

/-- A word that has started keeps its start, and any other starts at the place. -/
theorem getD_start (h : s.Keeps p) (hl : p l) : p (s.word.start.getD l) := by
  cases hs : s.word.start with
  | none => exact hl
  | some l' => exact h.start l' hs

/-- Whatever goes into the word, it starts where it did, or at the place. -/
theorem setWord (h : s.Keeps p) (hl : p l) {w : Word} (hw : w.start = some (s.word.start.getD l)) :
    Keeps p { s with word := w } := by
  refine ⟨h.mode, fun l' hl' => ?_, h.opened⟩
  obtain rfl : s.word.start.getD l = l' := Option.some.inj (hw.symm.trans hl')
  exact h.getD_start hl

theorem take (h : s.Keeps p) (hl : p l) (c : Char) {m : ScanMode} (hm : m.Keeps p) :
    (s.take c l m).Keeps p :=
  ((h.setMode hm).setWord hl rfl).setLineStart false

/-- A word that has not started has no place. -/
theorem start_empty : ∀ l ∈ Word.empty.start, p l := by
  intro l hl
  cases hl

theorem flush (h : s.Keeps p) : s.flush.Keeps p := by
  rw [Scanner.flush]
  split <;> exact ⟨h.mode, start_empty, h.opened⟩

theorem openList (h : s.Keeps p) (hl : p l) : Blames p (Keeps p) (s.openList l) := by
  refine .ite (.error hl) (.ok ⟨h.mode, start_empty, ?_⟩)
  intro o ho
  rcases List.mem_cons.1 ho with rfl | ho
  · split
    · exact hl
    · exact h.getD_start hl
  · exact h.opened o ho

theorem closeList (h : s.Keeps p) (hl : p l) : Blames p (Keeps p) (s.closeList l) := by
  have hf := h.flush
  simp only [Scanner.closeList]
  cases ho : s.flush.opened with
  | nil => exact .error hl
  | cons o rest =>
      refine .ok ⟨hf.mode, hf.start, fun o' ho' => hf.opened o' ?_⟩
      rw [ho]
      exact List.mem_cons_of_mem _ ho'

theorem substitute (h : s.Keeps p) (hl : p l) (vars : Vars) (name : Text) {m : ScanMode}
    (hm : m.Keeps p) : Blames p (Keeps p) (s.substitute vars name l m) := by
  rw [Scanner.substitute]
  cases vars.lookup name with
  | none => exact .error hl
  | some value => exact .ok (((h.setMode hm).setWord hl rfl).setLineStart false)

/-! ### One character -/

theorem feedPlain (h : s.Keeps p) (hl : p l) (c : Char) : Blames p (Keeps p) (s.feedPlain c l) := by
  have hplain : Keeps p { s with mode := .plain } := h.setMode trivial
  simp only [Scanner.feedPlain]
  refine .ite (.ok (((h.setMode (m := .string l) hl).setWord hl rfl).setLineStart false)) ?_
  refine .ite (.ok (hplain.take hl c (m := .expression l) hl)) ?_
  refine .ite (.ok ((h.setMode (m := .escape l) hl).setLineStart false)) ?_
  refine .ite (.ok (h.setMode (m := .dollar l) hl)) ?_
  refine .ite (.ok (h.setMode (m := .slash l) hl)) ?_
  refine .ite (hplain.openList hl) ?_
  refine .ite (hplain.closeList hl) ?_
  exact .ite (.ok (hplain.flush.setLineStart _)) (.ok (hplain.take hl c trivial))

theorem feedExpression (h : s.Keeps p) (hl : p l) {opened : Location} (ho : p opened) (c : Char) :
    (s.feedExpression opened c l).Keeps p := by
  rw [Scanner.feedExpression]
  split
  · exact h.take hl c trivial
  · split
    · exact h.setMode ⟨ho, hl⟩
    · exact h.take hl c ho

theorem dispatch (h : s.Keeps p) (hl : p l) (vars : Vars) (c : Char) :
    Blames p (Keeps p) (Scanner.dispatch vars s c l) := by
  have hmode := h.mode
  rw [Scanner.dispatch]
  cases hm : s.mode <;> rw [hm] at hmode
  case plain => exact h.feedPlain hl c
  case escape backslash => exact .ok (h.take hmode c trivial)
  case dollar place =>
    refine .ite (.ok (h.setMode ⟨hmode, ?_⟩))
      ((h.take (m := .plain) hmode '$' trivial).feedPlain hl c)
    intro l' hl'
    cases hl'
  case slash place =>
    exact .ite (.ok (h.setMode trivial)) ((h.take (m := .plain) hmode '/' trivial).feedPlain hl c)
  case comment =>
    refine .ok ?_
    split
    · exact (h.setMode (m := .plain) trivial).setLineStart true
    · exact h
  case string opened =>
    exact .ite (.ok (h.setMode trivial))
      (.ite (.ok (h.setMode ⟨hmode, hl⟩)) (.ok (h.take hl c hmode)))
  case stringEscape opened backslash => exact .ok (h.take hmode.2 c hmode.1)
  case expression opened => exact .ok (h.feedExpression hl hmode c)
  case expressionDollar opened place =>
    refine .ite (.ok (h.setMode ⟨hmode.2, ?_⟩))
      (.ok ((h.take (m := .expression opened) hmode.2 '$' hmode.1).feedExpression hl hmode.1 c))
    intro l' hl'
    cases hl'
    exact hmode.1
  case «variable» place reversed inside =>
    refine .ite (h.substitute hmode.1 vars _ ?_) (.ok (h.setMode hmode))
    cases inside with
    | none => trivial
    | some opened => exact hmode.2 opened rfl

/-- One character more. -/
theorem feed (h : s.Keeps p) (hl : p s.here) (vars : Vars) (c : Char) :
    Blames p (Keeps p) (s.feed vars c) :=
  dispatch (s := { s with here := s.here.advance c }) ⟨h.mode, h.start, h.opened⟩ hl vars c

/-! ### The end of the script -/

theorem complete (h : s.Keeps p) : Blames p (fun _ => True) s.complete := by
  have hopened := h.flush.opened
  simp only [Scanner.complete]
  cases ho : s.flush.opened with
  | nil => exact .ok trivial
  | cons o rest => exact .error (hopened o (by rw [ho]; exact List.mem_cons_self))

theorem finish (h : s.Keeps p) : Blames p (fun _ => True) s.finish := by
  have hmode := h.mode
  rw [Scanner.finish]
  cases hm : s.mode <;> rw [hm] at hmode
  case plain | comment => exact h.complete
  case dollar place => exact (h.take (m := .plain) hmode '$' trivial).complete
  case slash place => exact (h.take (m := .plain) hmode '/' trivial).complete
  case escape | string | expression => exact .error hmode
  case stringEscape => exact .error hmode.2
  case expressionDollar | «variable» => exact .error hmode.1

end Keeps

/-- Reading a script from a place in it, whatever holds of the places of its characters is kept. -/
theorem Keeps.readOn {p : Location → Prop} {source : Text} (vars : Vars)
    (hp : ∀ c l, StandsAt source c l → p l) (before : Text) {t : Text} {s : Scanner} (h : s.Keeps p)
    (hhere : s.here = .behind before) (hsource : source = before ++ t) :
    Blames p (fun _ => True) (s.feedAll vars t >>= Scanner.finish) := by
  induction t generalizing before s with
  | nil => exact h.finish
  | cons c t ih =>
      have hfeed := h.feed (hp c s.here ⟨before, t, hsource, hhere⟩) vars c
      rw [feedAll_cons, bind_assoc]
      refine hfeed.bind fun r hr hk => ?_
      have hnext : r.here = .behind (before ++ [c]) := by
        rw [here_feed hr, hhere, Location.behind_append_singleton]
      exact ih (before ++ [c]) hk hnext (by rw [hsource, List.append_cons])

end Scanner

/-- **An error is blamed on a character of the script.** -/
theorem standsAt_of_parse_error {source : Text} {vars : Vars} {e : ScriptError}
    (h : parse source vars = .error e) : ∃ c, StandsAt source c e.location := by
  have hstart : Scanner.start.Keeps fun l => ∃ c, StandsAt source c l := by
    refine ⟨trivial, Scanner.Keeps.start_empty, fun o ho => ?_⟩
    cases ho
  have hblames : Blames _ _ (parse source vars) :=
    hstart.readOn vars (fun c l hl => ⟨c, hl⟩) [] rfl rfl
  rw [h] at hblames
  cases hblames with
  | error he => exact he

end PhotoPipeline
