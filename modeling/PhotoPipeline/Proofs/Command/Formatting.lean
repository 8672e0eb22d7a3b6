/-
**Formatting loses nothing.**

The command that writes a script in canonical form over itself first looks for what would be lost.  It
looks at the characters only, line by line, and does not know which of them are in strings or behind a
backslash; so it may refuse a script without need.  What it does not refuse has no comment for the
scanner to skip and no reference to look up.

Main definitions:

* `PhotoPipeline.HasCommentLine` — a text with a line that looks like a comment.

Main results:

* `PhotoPipeline.hasCommentLine_of_beginsComment` — where a comment begins there is a line that looks
  like one;
* `PhotoPipeline.Work.files_format` — a script that would lose something is left as it is;
* `PhotoPipeline.formatting_loses_nothing` — **what is replaced has neither comments nor references**.
-/
import PhotoPipeline.Command.Format
import PhotoPipeline.Proofs.Script.Comments

set_option relaxedAutoImplicit false
set_option autoImplicit false

namespace PhotoPipeline

/-! ### Lines -/

namespace Text

theorem lines_newline (t : Text) : lines ('\n' :: t) = [] :: lines t := by
  rw [lines]
  rfl

/-- A character that is no newline stands at the head of the first line. -/
theorem lines_cons {c : Char} (hc : c ≠ '\n') (t : Text) :
    ∃ line rest, lines t = line :: rest ∧ lines (c :: t) = (c :: line) :: rest := by
  cases hlines : lines t with
  | nil => exact absurd hlines (lines_ne_nil t)
  | cons line rest =>
      refine ⟨line, rest, rfl, ?_⟩
      rw [lines, hlines, beq_eq_false_iff_ne.2 hc]

/-- The lines behind a newline are lines. -/
theorem lines_append (t u : Text) : lines (t ++ '\n' :: u) = lines t ++ lines u := by
  induction t with
  | nil => exact lines_newline u
  | cons c t ih =>
      by_cases hc : c = '\n'
      · subst hc
        rw [List.cons_append, lines_newline, lines_newline, ih, List.cons_append]
      · obtain ⟨line, rest, ht, hct⟩ := lines_cons hc t
        obtain ⟨line', rest', htu, hctu⟩ := lines_cons hc (t ++ '\n' :: u)
        rw [ih, ht, List.cons_append] at htu
        obtain ⟨rfl, rfl⟩ := List.cons.inj htu
        rw [List.cons_append, hctu, hct, List.cons_append]

end Text

/-- Blanks do not hide a comment. -/
theorem isCommentLine_cons {c : Char} (hc : isBlank c = true) (line : Text) :
    isCommentLine (c :: line) = isCommentLine line := by
  rw [isCommentLine, isCommentLine, Text.trimStart, Text.trimStart, List.dropWhile_cons_of_pos hc]

/-- A line of the text looks like a comment. -/
def HasCommentLine (t : Text) : Prop := ∃ line ∈ t.lines, isCommentLine line = true

theorem HasCommentLine.newline {t : Text} (h : HasCommentLine t) : HasCommentLine ('\n' :: t) := by
  obtain ⟨line, hline, hcomment⟩ := h
  rw [HasCommentLine, Text.lines_newline]
  exact ⟨line, List.mem_cons_of_mem _ hline, hcomment⟩

theorem HasCommentLine.blanks {blanks t : Text} (hblanks : ∀ c ∈ blanks, isBlank c = true)
    (h : HasCommentLine t) : HasCommentLine (blanks ++ t) := by
  induction blanks with
  | nil => exact h
  | cons c blanks ih =>
      obtain ⟨hc, hblanks⟩ := List.forall_mem_cons.1 hblanks
      have h := ih hblanks
      by_cases hnewline : c = '\n'
      · subst hnewline
        exact h.newline
      · obtain ⟨first, rest, ht, hct⟩ := Text.lines_cons hnewline (blanks ++ t)
        obtain ⟨line, hline, hcomment⟩ := h
        rw [ht] at hline
        show ∃ line ∈ Text.lines (c :: (blanks ++ t)), _
        rw [hct]
        rcases List.mem_cons.1 hline with rfl | hline
        · exact ⟨c :: line, List.mem_cons_self, (isCommentLine_cons hc line).trans hcomment⟩
        · exact ⟨line, List.mem_cons_of_mem _ hline, hcomment⟩

/-- What stands before a newline does not matter to the lines behind it. -/
theorem HasCommentLine.behind {t : Text} (h : HasCommentLine t) (before : Text) :
    HasCommentLine (before ++ '\n' :: t) := by
  obtain ⟨line, hline, hcomment⟩ := h
  rw [HasCommentLine, Text.lines_append]
  exact ⟨line, List.mem_append_right _ hline, hcomment⟩

/-- **Where a comment begins there is a line that looks like one.** -/
theorem hasCommentLine_of_beginsComment {t : Text} (h : BeginsComment t) : HasCommentLine t := by
  obtain ⟨_, after, ⟨before, blanks, rfl, hbefore, hblanks⟩, rfl⟩ := h
  have hslashes : HasCommentLine ('/' :: '/' :: after) := by
    have hne : '/' ≠ '\n' := by decide
    obtain ⟨line, rest, -, hafter⟩ := Text.lines_cons hne after
    obtain ⟨first, rest', hslash, hslashes⟩ := Text.lines_cons hne ('/' :: after)
    rw [hafter] at hslash
    obtain ⟨rfl, rfl⟩ := List.cons.inj hslash
    rw [HasCommentLine, hslashes]
    exact ⟨'/' :: '/' :: line, List.mem_cons_self, rfl⟩
  have hline := hslashes.blanks hblanks
  rw [List.append_assoc]
  rcases List.eq_nil_or_concat before with rfl | ⟨init, last, rfl⟩
  · exact hline
  · obtain rfl : last = '\n' := by
      rw [List.concat_eq_append] at hbefore
      exact hbefore last List.getLast?_concat
    rw [List.concat_eq_append, List.append_assoc]
    exact hline.behind init

/-- A script that loses nothing has no comment and no reference. -/
theorem not_beginsComment {source : Text} (h : lostByFormatting? source = none) :
    ¬BeginsComment source := by
  intro hbegins
  obtain ⟨line, hline, hcomment⟩ := hasCommentLine_of_beginsComment hbegins
  rw [(lostByFormatting?_eq_none_iff.1 h).1 line hline] at hcomment
  cases hcomment

/-! ### The command -/

namespace Work

section

variable {α β : Type} {w : Work α} {d d' : Desk}

theorem run_bind_ok {a : α} (h : w.run.run d = (.ok a, d')) (f : α → Work β) :
    (w >>= f).run.run d = (f a).run.run d' := by
  rw [ExceptT.run_bind, StateT.run_bind, h]
  rfl

theorem run_bind_error {e : Error} (h : w.run.run d = (.error e, d')) (f : α → Work β) :
    (w >>= f).run.run d = (.error e, d') := by
  rw [ExceptT.run_bind, StateT.run_bind, h]
  rfl

end

theorem run_ofExcept {α : Type} (r : Except Error α) (d : Desk) :
    (ofExcept r : Work α).run.run d = (r, d) := by
  cases r <;> rfl

theorem run_readText (path : Text) (problem : FileFault → FileProblem) (d : Desk) :
    (readText path problem).run.run d =
      ((d.files.readText path).mapError fun fault => .file path (problem fault), d) := by
  have hget : (get : Work Desk).run.run d = (.ok d, d) := rfl
  rw [readText, run_bind_ok hget]
  cases d.files.readText path <;> rfl

/-- Reading a recipe changes nothing, and gives the text that is in the file. -/
theorem run_readRecipe (s : Settings) (script : Text) (d : Desk) :
    ∃ result, (readRecipe s script).run.run d = (result, d) ∧
      ∀ r, result = .ok r → d.files.readText script = .ok r.1 := by
  have hread := run_readText script .readScript d
  rw [readRecipe]
  cases hsource : d.files.readText script with
  | error fault =>
      rw [hsource] at hread
      refine ⟨_, run_bind_error hread _, fun r hr => ?_⟩
      cases hr
  | ok source =>
      rw [hsource] at hread
      have hrecipe := run_ofExcept (Recipe.ofText s.catalogue source s.vars) d
      rw [run_bind_ok hread]
      cases hdecoded : Recipe.ofText s.catalogue source s.vars with
      | error e =>
          rw [hdecoded] at hrecipe
          refine ⟨_, run_bind_error hrecipe _, fun r hr => ?_⟩
          cases hr
      | ok recipe =>
          rw [hdecoded] at hrecipe
          refine ⟨_, run_bind_ok hrecipe _, fun r hr => ?_⟩
          cases hr
          rfl

/-- **A script that would lose something is left as it is.** -/
theorem files_format {s : Settings} {script : Text} {d : Desk}
    (h : ((format s script true).run.run d).2.files ≠ d.files) :
    ∃ source, d.files.readText script = .ok source ∧ lostByFormatting? source = none := by
  obtain ⟨result, hrun, hread⟩ := run_readRecipe s script d
  rw [format] at h
  cases result with
  | error e =>
      rw [run_bind_error hrun] at h
      exact absurd rfl h
  | ok r =>
      refine ⟨r.1, hread r rfl, ?_⟩
      rw [run_bind_ok hrun] at h
      cases hloss : lostByFormatting? r.1 with
      | none => rfl
      | some loss =>
          have hreplace : (replace s script r.1 r.2.text).run.run d =
              (.error (.step "fmt".toList (.formattingLoses (s.display script) loss)), d) := by
            rw [replace, hloss]
            rfl
          refine absurd ?_ h
          show ((replace s script r.1 r.2.text).run.run d).2.files = d.files
          rw [hreplace]

end Work

/-- **What is replaced has neither comments nor references.**  If the command changes a file, then the
script that it has read would lose nothing.  Where nothing would be lost, whatever the values of
variables: the scanner is inside a comment at no place of the script; without its rule for comments it
would make the same of the script; and with other values of variables it would, too. -/
theorem formatting_loses_nothing :
    (∀ (s : Settings) (script : Text) (d : Desk),
      ((Work.format s script true).run.run d).2.files ≠ d.files →
        ∃ source, d.files.readText script = .ok source ∧ lostByFormatting? source = none) ∧
      ∀ source, lostByFormatting? source = none → ∀ vars,
        Scanner.start.Avoids vars source ScanMode.isComment ∧
          parseLiterally source vars = parse source vars ∧
          ∀ vars', parse source vars' = parse source vars := by
  refine ⟨fun s script d h => Work.files_format h, fun source h vars => ?_⟩
  have hcomment := not_beginsComment h
  refine ⟨Scanner.avoids_isComment vars hcomment, parseLiterally_eq hcomment vars, fun vars' => ?_⟩
  exact parse_congr_vars (lostByFormatting?_eq_none_iff.1 h).2 vars vars'

/-! ### A sample -/

/-- A script with single slashes, double slashes and a dollar sign, and with a string over two
lines. -/
def slashedScript : Text := "stash( \"a\n/ b\" )  stash(c//d$)".toList

/-- A desk with the script on it. -/
def slashedDesk : Desk := ⟨[(["a".toList], .text slashedScript)], [], []⟩

/-- The script is replaced, and loses nothing. -/
theorem formatting_loses_nothing_slashedScript :
    (∃ source, slashedDesk.files.readText "a".toList = .ok source ∧
      lostByFormatting? source = none) ∧
    lostByFormatting? slashedScript = none ∧
    parseLiterally slashedScript [] = parse slashedScript [] ∧
      parse slashedScript [("x".toList, "y".toList)] = parse slashedScript [] := by
  obtain ⟨hcommand, hscript⟩ := formatting_loses_nothing
  have hloss : lostByFormatting? slashedScript = none := by decide
  obtain ⟨-, hliterally, hvars⟩ := hscript slashedScript hloss []
  refine ⟨hcommand ⟨.default, [], "/".toList⟩ "a".toList slashedDesk ?_, hloss, hliterally, hvars _⟩
  decide +kernel

end PhotoPipeline
