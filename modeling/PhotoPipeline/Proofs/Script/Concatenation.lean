/-
**Scripts one behind the other.**

When a script that can be parsed is followed by a newline, the scanner is where it was at the
beginning, but for the entries that it has and for the place it is at.  Whatever the script ends in —
a word, a comment without its newline, a lone slash or dollar sign — the newline ends it, and nothing
is left open.  So what follows is read as a script of its own, some lines further down.

Main definitions:

* `PhotoPipeline.Location.below` — a place of a script that has whole lines put in front of it;
* `PhotoPipeline.Scanner.Tidy` — **what every scanner keeps to**: where a comment may begin there is
  no word in the making.

Main results:

* `PhotoPipeline.Scanner.Tidy.feed`, `PhotoPipeline.Scanner.Tidy.feedAll` — one character, and a text;
* `PhotoPipeline.Scanner.Tidy.feed_newline` — a newline behind a script that can be parsed;
* `PhotoPipeline.parse_append_newline` — **what scripts one behind the other are parsed to**.
-/
import PhotoPipeline.Proofs.Script.Comments
import PhotoPipeline.Proofs.Script.Layout
import PhotoPipeline.Proofs.Script.Relocation

set_option relaxedAutoImplicit false
set_option autoImplicit false

namespace PhotoPipeline

/-! ### Places further down -/

namespace Location

/-- The place in a script that has the text, which ends with a line, put in front of it. -/
def below (text : Text) (l : Location) : Location where
  offset := text.utf8.length + l.offset
  line := text.count '\n' + l.line
  column := l.column

theorem below_advance (text : Text) (l : Location) (c : Char) :
    below text (l.advance c) = (below text l).advance c := by
  by_cases hc : c = '\n' <;> simp [below, advance, hc, Nat.add_assoc]

theorem below_start (text : Text) :
    below (text ++ ['\n']) start = (behind text).advance '\n' := by
  rw [← behind_append_singleton]
  simp [below, start, behind]

end Location

namespace Scanner

variable {vars : Vars} {s t : Scanner} {c : Char} {l : Location}

/-! ### What every scanner keeps to -/

/-- **What every scanner keeps to**: at the beginning of a line and inside a comment there is no word
in the making, a word that is kept has started, and the limit is that of scripts. -/
structure Tidy (s : Scanner) : Prop where
  word : s.lineStart = true ∨ s.mode.isSlash = true ∨ s.mode.isComment = true → s.word = .empty
  started : s.word.isEmpty = false → s.word.start.isSome = true
  limit : s.limit = maxDepth

namespace Tidy

theorem of_empty (hw : s.word = .empty) (hlimit : s.limit = maxDepth) : s.Tidy := by
  refine ⟨fun _ => hw, fun h => ?_, hlimit⟩
  rw [hw] at h
  cases h

theorem start : Scanner.start.Tidy := of_empty rfl rfl

/-- In the middle of a line only the start of the word matters. -/
theorem of_middle (hl : s.lineStart = false)
    (hm : s.mode.isSlash = false ∧ s.mode.isComment = false) (hw : s.word.start.isSome = true)
    (hlimit : s.limit = maxDepth) : s.Tidy := by
  refine ⟨fun h => ?_, fun _ => hw, hlimit⟩
  rw [hl, hm.1, hm.2] at h
  simp at h

theorem take (h : s.Tidy) (c : Char) (l : Location) {mode : ScanMode}
    (hm : mode.isSlash = false ∧ mode.isComment = false) : (s.take c l mode).Tidy :=
  of_middle rfl hm rfl h.limit

/-- Another mode, which is not that of a comment. -/
theorem setMode (h : s.Tidy) {mode : ScanMode}
    (hm : mode.isSlash = false ∧ mode.isComment = false) : Tidy { s with mode := mode } := by
  refine ⟨fun hw => h.word (.inl ?_), h.started, h.limit⟩
  simpa [hm] using hw

theorem openList (h : s.Tidy) (ht : s.openList l = .ok t) : t.Tidy := by
  refine of_empty (ended_openList ht).word ?_
  rw [Scanner.openList] at ht
  split at ht
  · cases ht
  · cases ht
    exact h.limit

theorem closeList (h : s.Tidy) (ht : s.closeList l = .ok t) : t.Tidy := by
  refine of_empty (ended_closeList ht).word ?_
  simp only [Scanner.closeList] at ht
  split at ht
  · cases ht
  · cases ht
    rw [flush_limit, h.limit]

theorem feedPlain (h : s.Tidy) (ht : s.feedPlain c l = .ok t) : t.Tidy := by
  have hplain : Tidy { s with mode := .plain } := h.setMode ⟨rfl, rfl⟩
  simp only [Scanner.feedPlain] at ht
  split at ht
  · cases ht
    exact of_middle rfl ⟨rfl, rfl⟩ rfl h.limit
  split at ht
  · cases ht
    exact hplain.take c l ⟨rfl, rfl⟩
  split at ht
  · -- a backslash begins no word yet, but the line is no longer at its start
    cases ht
    refine ⟨fun hw => ?_, h.started, h.limit⟩
    simp [ScanMode.isSlash, ScanMode.isComment] at hw
  split at ht
  · cases ht
    exact h.setMode ⟨rfl, rfl⟩
  split at ht
  · next hc =>
      cases ht
      exact of_empty (h.word (.inl hc.2)) h.limit
  split at ht
  · exact hplain.openList ht
  split at ht
  · exact hplain.closeList ht
  split at ht
  · cases ht
    exact of_empty (flush_word _) ((flush_limit _).trans h.limit)
  · cases ht
    exact hplain.take c l ⟨rfl, rfl⟩

theorem feedExpression (h : s.Tidy) (opened : Location) (c : Char) (l : Location) :
    (s.feedExpression opened c l).Tidy := by
  rw [Scanner.feedExpression]
  split
  · exact h.take c l ⟨rfl, rfl⟩
  · split
    · exact h.setMode ⟨rfl, rfl⟩
    · exact h.take c l ⟨rfl, rfl⟩

/-- One character more. -/
theorem feed (h : s.Tidy) (ht : s.feed vars c = .ok t) : t.Tidy := by
  have hhere : Tidy { s with here := s.here.advance c } := ⟨h.word, h.started, h.limit⟩
  rw [Scanner.feed, dispatch] at ht
  cases hm : s.mode <;> simp only [hm] at ht
  case plain => exact hhere.feedPlain ht
  case escape backslash =>
    cases ht
    exact hhere.take c backslash ⟨rfl, rfl⟩
  case dollar place =>
    split at ht
    · cases ht
      exact hhere.setMode ⟨rfl, rfl⟩
    · exact (hhere.take '$' place ⟨rfl, rfl⟩).feedPlain ht
  case slash place =>
    have hword : s.word = .empty := h.word (.inr (.inl (by rw [hm]; rfl)))
    split at ht
    · cases ht
      exact of_empty hword h.limit
    · exact (hhere.take '/' place ⟨rfl, rfl⟩).feedPlain ht
  case comment =>
    have hword : s.word = .empty := h.word (.inr (.inr (by rw [hm]; rfl)))
    cases ht
    split <;> exact of_empty hword h.limit
  case string opened =>
    split at ht
    · cases ht
      exact hhere.setMode ⟨rfl, rfl⟩
    · split at ht <;> cases ht
      · exact hhere.setMode ⟨rfl, rfl⟩
      · exact hhere.take c s.here ⟨rfl, rfl⟩
  case stringEscape opened backslash =>
    cases ht
    exact hhere.take c backslash ⟨rfl, rfl⟩
  case expression opened =>
    cases ht
    exact hhere.feedExpression ..
  case expressionDollar opened place =>
    split at ht <;> cases ht
    · exact hhere.setMode ⟨rfl, rfl⟩
    · exact (hhere.take '$' place ⟨rfl, rfl⟩).feedExpression ..
  case «variable» place reversed inside =>
    split at ht
    · rw [substitute] at ht
      split at ht
      · cases ht
      · cases ht
        refine of_middle rfl ?_ rfl h.limit
        cases inside <;> exact ⟨rfl, rfl⟩
    · cases ht
      exact hhere.setMode ⟨rfl, rfl⟩

/-- A whole text. -/
theorem feedAll {u : Text} (h : s.Tidy) (ht : s.feedAll vars u = .ok t) : t.Tidy := by
  induction u generalizing s with
  | nil =>
      cases ht
      exact h
  | cons c u ih =>
      obtain ⟨r, hr, ht⟩ := exists_feed_of_feedAll ht
      exact ih (h.feed hr) ht

/-! ### A newline behind a script -/

/-- A newline ends the word as the end of the script would. -/
theorem feedPlain_newline (h : s.Tidy) {x : List Entry} (hx : s.complete = .ok x)
    (here l : Location) :
    ({ s with here := here } : Scanner).feedPlain '\n' l =
      .ok { Scanner.start with here := here, entries := x.reverse } := by
  obtain ⟨mode, here', word, lineStart, entries, opened, limit⟩ := s
  obtain rfl : limit = maxDepth := h.limit
  have hstarted : word.isEmpty = false → word.start.isSome = true := h.started
  rw [feedPlain_blank isBlank_newline]
  simp only [complete, Scanner.flush] at hx ⊢
  cases hempty : word.isEmpty with
  | true =>
      rw [hempty] at hx
      cases opened with
      | nil =>
          obtain rfl := Except.ok.inj hx
          simp [Scanner.start]
      | cons o os => cases hx
  | false =>
      obtain ⟨place, hplace⟩ := Option.isSome_iff_exists.1 (hstarted hempty)
      rw [hempty] at hx
      cases opened with
      | nil =>
          obtain rfl := Except.ok.inj hx
          simp [Scanner.start, hplace]
      | cons o os => cases hx

/-- **A newline behind a script that can be parsed** brings the scanner back to the beginning, with
the entries that it has read. -/
theorem feed_newline (h : s.Tidy) {x : List Entry} (hx : s.finish = .ok x) (vars : Vars) :
    s.feed vars '\n' =
      .ok { Scanner.start with here := s.here.advance '\n', entries := x.reverse } := by
  rw [Scanner.finish] at hx
  rw [Scanner.feed, dispatch]
  cases hm : s.mode <;> simp only [hm] at hx ⊢
  case plain => exact h.feedPlain_newline hx _ _
  case dollar place =>
    have htake : (s.take '$' place .plain).Tidy := h.take '$' place ⟨rfl, rfl⟩
    exact htake.feedPlain_newline hx (s.here.advance '\n') s.here
  case slash place =>
    have htake : (s.take '/' place .plain).Tidy := h.take '/' place ⟨rfl, rfl⟩
    exact htake.feedPlain_newline hx (s.here.advance '\n') s.here
  case comment =>
    -- the newline of a comment ends no word, but there is none
    obtain ⟨mode, here, word, lineStart, entries, opened, limit⟩ := s
    obtain rfl : mode = .comment := hm
    obtain rfl : word = .empty := h.word (.inr (.inr rfl))
    obtain rfl : limit = maxDepth := h.limit
    cases opened with
    | nil =>
        obtain rfl := Except.ok.inj hx
        simp [Scanner.start, Scanner.flush, Word.isEmpty, Word.empty]
    | cons o os => cases hx
  all_goals cases hx

end Tidy

theorem here_feedAll {u : Text} (h : s.feedAll vars u = .ok t) : t.here = s.here.after u := by
  induction u generalizing s with
  | nil =>
      cases h
      rfl
  | cons c u ih =>
      obtain ⟨r, hr, h⟩ := exists_feed_of_feedAll h
      rw [ih h, here_feed hr, Location.after_cons]

end Scanner

/-! ### Scripts -/

/-- **What scripts one behind the other are parsed to.**  Put a script that is parsed to a forest and a
newline in front of another script.  If that one is parsed to a forest, both together are parsed to the
entries of the first and then those of the second; if it is refused, both are refused for the same
fault.  The places of the second are then further down by the bytes and lines in front of it. -/
theorem parse_append_newline {a : Text} {vars : Vars} {x : List Entry}
    (ha : parse a vars = .ok x) (b : Text) :
    parse (a ++ '\n' :: b) vars =
      relocated (.below (a ++ ['\n']))
        (fun y => x ++ Entry.relocateAll (.below (a ++ ['\n'])) y) (parse b vars) := by
  -- the scanner behind the first script and its newline is the one at the beginning, elsewhere
  obtain ⟨s, hs, hx⟩ : ∃ s, Scanner.start.feedAll vars a = .ok s ∧ s.finish = .ok x := by
    cases hs : Scanner.start.feedAll vars a with
    | error e =>
        rw [parse, hs] at ha
        cases ha
    | ok s =>
        rw [parse, hs] at ha
        exact ⟨s, rfl, ha⟩
  have hhere : s.here.advance '\n' = .below (a ++ ['\n']) .start := by
    rw [Location.below_start, Scanner.here_feedAll hs, ← Location.after_start]
    rfl
  have hnewline : s.feed vars '\n' = .ok (Scanner.start.elsewhere (.below (a ++ ['\n'])) x) := by
    rw [(Scanner.Tidy.start.feedAll hs).feed_newline hx, hhere]
    rfl
  have hreadOn : parse (a ++ '\n' :: b) vars =
      (Scanner.start.elsewhere (.below (a ++ ['\n'])) x).readOn vars b := by
    rw [← Scanner.readOn_cons_of_ok hnewline]
    exact Scanner.readOn_append_of_ok hs ('\n' :: b)
  rw [hreadOn, ← Scanner.relocated_readOn (Location.below_advance _)]
  rfl

/-- A script that ends in a lone slash, before one that begins with a slash, and before one that is
refused. -/
theorem parse_append_newline_slashes :
    parse "(é)\n/".toList [] = .ok [⟨"pipeline".toList, [.leaf "é".toList ⟨1, 1, 2⟩], ⟨0, 1, 1⟩⟩,
        .leaf "/".toList ⟨5, 2, 1⟩] ∧
      parse ("(é)\n/".toList ++ '\n' :: "/q".toList) [] =
        .ok [⟨"pipeline".toList, [.leaf "é".toList ⟨1, 1, 2⟩], ⟨0, 1, 1⟩⟩,
          .leaf "/".toList ⟨5, 2, 1⟩, .leaf "/q".toList ⟨7, 3, 1⟩] ∧
      parse ("(é)\n/".toList ++ '\n' :: "//)\n )".toList) [] =
        .error ⟨.unexpectedClose, ⟨12, 4, 2⟩⟩ := by
  have ha : parse "(é)\n/".toList [] = .ok [⟨"pipeline".toList, [.leaf "é".toList ⟨1, 1, 2⟩],
      ⟨0, 1, 1⟩⟩, .leaf "/".toList ⟨5, 2, 1⟩] := rfl
  exact ⟨ha, (parse_append_newline ha _).trans rfl, (parse_append_newline ha _).trans rfl⟩

end PhotoPipeline
