/-
**Where comments and references begin.**

The scanner does not look back at what it has read, but its mode tells something about it.  A scanner
inside a comment has read two slashes with nothing but blanks before them on their line, and one
inside the name of a variable has read a dollar sign with a brace after it.  So a text without such a
pair of slashes has no comment for any scanner that reads it, and a text without a dollar sign before
a brace does not ask for the value of any variable.

Where no comment is met the rule for comments does nothing.  Without that rule the scanner takes a
slash at once; with it, it may have to wait for one more character until it knows that the slash is
part of a word.

Main definitions:

* `PhotoPipeline.AtLineStart` — only blanks since the line began;
* `PhotoPipeline.BeginsComment` — two slashes with only blanks before them on their line;
* `PhotoPipeline.Scanner.Recalls` — what the mode of a scanner tells about the text it has read;
* `PhotoPipeline.Scanner.Avoids` — no mode of a kind is met in a text;
* `PhotoPipeline.parseLiterally` — the forest of a script, by the rules without the one for comments.

Main results:

* `PhotoPipeline.Scanner.Recalls.feed`, `PhotoPipeline.Scanner.Recalls.feedAll` — **what the mode
  tells stays true**, over one character and over a text;
* `PhotoPipeline.parseLiterally_eq` — without comments the rule for comments does nothing;
* `PhotoPipeline.parse_congr_vars` — without references the variables do not matter.
-/
import PhotoPipeline.Proofs.Script.Outcome

set_option relaxedAutoImplicit false
set_option autoImplicit false

namespace PhotoPipeline

/-! ### Line starts -/

/-- Since the last newline of the text, or since it began, there are only blanks. -/
def AtLineStart (t : Text) : Prop :=
  ∃ before blanks, t = before ++ blanks ∧ (∀ c ∈ before.getLast?, c = '\n') ∧
    ∀ c ∈ blanks, isBlank c = true

theorem atLineStart_nil : AtLineStart [] := by
  refine ⟨[], [], rfl, ?_, ?_⟩ <;> intro c hc <;> cases hc

theorem atLineStart_newline (t : Text) : AtLineStart (t ++ ['\n']) := by
  refine ⟨t ++ ['\n'], [], (List.append_nil _).symm, ?_, ?_⟩ <;> intro c hc
  · rw [List.getLast?_concat] at hc
    exact (Option.some.inj hc).symm
  · cases hc

theorem AtLineStart.blank {t : Text} (h : AtLineStart t) {c : Char} (hc : isBlank c = true) :
    AtLineStart (t ++ [c]) := by
  obtain ⟨before, blanks, rfl, hbefore, hblanks⟩ := h
  refine ⟨before, blanks ++ [c], List.append_assoc .., hbefore, fun d hd => ?_⟩
  rcases List.mem_append.1 hd with hd | hd
  · exact hblanks d hd
  · rw [List.eq_of_mem_singleton hd]
    exact hc

/-- Somewhere in the text two slashes stand at the start of a line. -/
def BeginsComment (t : Text) : Prop :=
  ∃ before after, AtLineStart before ∧ t = before ++ '/' :: '/' :: after

theorem BeginsComment.append {t : Text} (h : BeginsComment t) (u : Text) :
    BeginsComment (t ++ u) := by
  obtain ⟨before, after, hbefore, rfl⟩ := h
  exact ⟨before, after ++ u, hbefore, List.append_assoc ..⟩

/-- The two characters that begin a reference. -/
def referenceMark : Text := ['$', '\x7b']

/-! ### What the mode tells -/

namespace ScanMode

/-- Inside a comment. -/
def isComment : ScanMode → Bool
  | comment => true
  | _ => false

/-- After a slash that may begin a comment. -/
def isSlash : ScanMode → Bool
  | slash _ => true
  | _ => false

/-- Inside the name of a variable. -/
def isVariable : ScanMode → Bool
  | .variable _ _ _ => true
  | _ => false

/-- What a mode tells about the text that has been read; the flag says whether the scanner takes
itself to be at the start of a line. -/
def Recalls (mode : ScanMode) (lineStart : Bool) (read : Text) : Prop :=
  match mode with
  | plain => lineStart = true → AtLineStart read
  | slash _ => ∃ before, AtLineStart before ∧ read = before ++ ['/']
  | comment => BeginsComment read
  | dollar _ | expressionDollar _ _ => ∃ before, read = before ++ ['$']
  | .variable _ _ _ => referenceMark <:+: read
  | string _ | stringEscape _ _ => lineStart = false
  | escape _ | expression _ => True

end ScanMode

namespace Scanner

variable {vars : Vars} {s t : Scanner} {c : Char} {l : Location} {read u : Text}

/-- **What the mode of a scanner tells** about the text that it has read. -/
def Recalls (s : Scanner) (read : Text) : Prop := s.mode.Recalls s.lineStart read

theorem recalls_start : start.Recalls [] := fun _ => atLineStart_nil

/-- In the middle of a line there is nothing to remember. -/
theorem recalls_of_not_lineStart (hm : s.mode = .plain) (hl : s.lineStart = false) :
    s.Recalls read := by
  rw [Recalls, hm, hl]
  intro h
  cases h

/-- What can come of a character outside strings, expressions and comments. -/
inductive AfterPlain (s t : Scanner) (c : Char) : Prop where
  /-- The text goes on; the scanner is at the start of a line only if it was there before a blank, or
  if the line has just begun. -/
  | plain (mode : t.mode = .plain)
      (lineStart : t.lineStart = true → isBlank c = true ∧ s.lineStart = true ∨ c = '\n')
  | string (opened : Location) (mode : t.mode = .string opened) (lineStart : t.lineStart = false)
  | expression (opened : Location) (mode : t.mode = .expression opened)
  | escape (backslash : Location) (mode : t.mode = .escape backslash)
  | dollar (place : Location) (mode : t.mode = .dollar place) (char : c = '$')
  | slash (place : Location) (mode : t.mode = .slash place) (char : c = '/')
      (lineStart : s.lineStart = true)

/-- In the middle of a line. -/
theorem AfterPlain.middle (hm : t.mode = .plain) (hl : t.lineStart = false) : s.AfterPlain t c := by
  refine .plain hm fun h => ?_
  rw [hl] at h
  cases h

theorem afterPlain_feedPlain (h : s.feedPlain c l = .ok t) : s.AfterPlain t c := by
  simp only [feedPlain] at h
  split at h
  · cases h
    exact .string l rfl rfl
  split at h
  · cases h
    exact .expression l rfl
  split at h
  · cases h
    exact .escape l rfl
  split at h
  · next hc =>
      cases h
      exact .dollar l rfl hc
  split at h
  · next hc =>
      cases h
      exact .slash l rfl hc.1 hc.2
  split at h
  · exact .middle (ended_openList h).mode (ended_openList h).lineStart
  split at h
  · exact .middle (ended_closeList h).mode (ended_closeList h).lineStart
  split at h
  · next hc =>
      cases h
      refine .plain (flush_mode _) fun hl => ?_
      rw [flush_lineStart] at hl
      exact (Bool.or_eq_true_iff.1 hl).imp (⟨hc, ·⟩) eq_of_beq
  · cases h
    exact .middle rfl rfl

/-- A character outside strings, expressions and comments. -/
theorem Recalls.feedPlain (hs : s.lineStart = true → AtLineStart read)
    (h : s.feedPlain c l = .ok t) : t.Recalls (read ++ [c]) := by
  rw [Recalls]
  cases afterPlain_feedPlain h with
  | plain hm hl =>
      rw [hm]
      intro ht
      rcases hl ht with ⟨hc, hl⟩ | rfl
      · exact (hs hl).blank hc
      · exact atLineStart_newline read
  | string opened hm hl =>
      rw [hm]
      exact hl
  | expression opened hm | escape backslash hm =>
      rw [hm]
      trivial
  | dollar place hm hc =>
      rw [hm, hc]
      exact ⟨read, rfl⟩
  | slash place hm hc hl =>
      rw [hm, hc]
      exact ⟨read, hs hl, rfl⟩

/-- A character inside an expression. -/
theorem Recalls.feedExpression (s : Scanner) (opened : Location) (c : Char) (l : Location)
    (read : Text) : (s.feedExpression opened c l).Recalls (read ++ [c]) := by
  rw [Scanner.feedExpression]
  split
  · exact recalls_of_not_lineStart rfl rfl
  · split
    · next hc => exact ⟨read, congrArg (read ++ [·]) hc⟩
    · trivial

/-- **What the mode tells stays true** over one character. -/
theorem Recalls.feed (hs : s.Recalls read) (h : s.feed vars c = .ok t) :
    t.Recalls (read ++ [c]) := by
  have hmark : ∀ before : Text, referenceMark <:+: before ++ ['$'] ++ ['\x7b'] := fun before =>
    ⟨before, [], by simp [referenceMark]⟩
  -- a dollar sign or a slash that was kept back is taken first, so the line has begun
  have hmiddle : ∀ r : Scanner, r.lineStart = false → r.lineStart = true → AtLineStart read := by
    intro r hl hl'
    rw [hl] at hl'
    cases hl'
  rw [Recalls] at hs
  cases hm : s.mode with
  | plain =>
      simp only [Scanner.feed, dispatch, hm] at h
      rw [hm] at hs
      refine .feedPlain ?_ h
      exact hs
  | escape backslash =>
      simp only [Scanner.feed, dispatch, hm] at h
      cases h
      exact recalls_of_not_lineStart rfl rfl
  | dollar place =>
      simp only [Scanner.feed, dispatch, hm] at h
      rw [hm] at hs
      obtain ⟨before, rfl⟩ := hs
      split at h
      · next hc =>
          cases h
          rw [hc]
          exact hmark before
      · exact .feedPlain (hmiddle _ rfl) h
  | slash place =>
      simp only [Scanner.feed, dispatch, hm] at h
      rw [hm] at hs
      obtain ⟨before, hbefore, rfl⟩ := hs
      split at h
      · next hc =>
          cases h
          rw [hc]
          exact ⟨before, [], hbefore, List.append_assoc ..⟩
      · exact .feedPlain (hmiddle _ rfl) h
  | comment =>
      simp only [Scanner.feed, dispatch, hm] at h
      rw [hm] at hs
      cases h
      split
      · next hc =>
          rw [hc]
          exact fun _ => atLineStart_newline read
      · exact BeginsComment.append hs [c]
  | string opened =>
      simp only [Scanner.feed, dispatch, hm] at h
      rw [hm] at hs
      split at h
      · cases h
        exact recalls_of_not_lineStart rfl hs
      · split at h
        · cases h
          exact hs
        · cases h
          rfl
  | stringEscape opened backslash =>
      simp only [Scanner.feed, dispatch, hm] at h
      cases h
      rfl
  | expression opened =>
      simp only [Scanner.feed, dispatch, hm] at h
      cases h
      exact .feedExpression ..
  | expressionDollar opened place =>
      simp only [Scanner.feed, dispatch, hm] at h
      rw [hm] at hs
      obtain ⟨before, rfl⟩ := hs
      split at h
      · next hc =>
          cases h
          rw [hc]
          exact hmark before
      · cases h
        exact .feedExpression ..
  | «variable» place reversed inside =>
      simp only [Scanner.feed, dispatch, hm] at h
      rw [hm] at hs
      split at h
      · rw [substitute] at h
        split at h
        · cases h
        · cases h
          cases inside with
          | none => exact recalls_of_not_lineStart rfl rfl
          | some opened => trivial
      · cases h
        exact List.infix_append_of_infix_left hs

/-- **What the mode tells stays true** over a text. -/
theorem Recalls.feedAll (hs : s.Recalls read) (h : s.feedAll vars u = .ok t) :
    t.Recalls (read ++ u) := by
  induction u generalizing s read with
  | nil =>
      cases h
      rw [List.append_nil]
      exact hs
  | cons c u ih =>
      obtain ⟨r, hfeed, h⟩ := exists_feed_of_feedAll h
      rw [List.append_cons]
      exact ih (hs.feed hfeed) h

/-! ### Modes that are not met -/

/-- While the text is read, the scanner is never in a mode of the kind. -/
def Avoids (vars : Vars) (s : Scanner) (u : Text) (kind : ScanMode → Bool) : Prop :=
  ∀ read t, read <+: u → s.feedAll vars read = .ok t → kind t.mode = false

variable {kind : ScanMode → Bool}

theorem Avoids.mode (h : s.Avoids vars u kind) : kind s.mode = false :=
  h [] s List.nil_prefix rfl

theorem Avoids.tail (h : s.Avoids vars (c :: u) kind) (hfeed : s.feed vars c = .ok t) :
    t.Avoids vars u kind := by
  intro read r hread hr
  refine h (c :: read) r (List.cons_prefix_cons.2 ⟨rfl, hread⟩) ?_
  rw [feedAll_cons_of_ok hfeed]
  exact hr

/-- Without two slashes at the start of a line no comment is met. -/
theorem avoids_isComment (vars : Vars) (h : ¬BeginsComment u) :
    start.Avoids vars u ScanMode.isComment := by
  intro read t hread ht
  have hrecalls : t.mode.Recalls t.lineStart read := recalls_start.feedAll ht
  cases hm : t.mode with
  | comment =>
      rw [hm] at hrecalls
      obtain ⟨rest, rfl⟩ := hread
      exact absurd (BeginsComment.append hrecalls rest) h
  | plain | escape | dollar | slash | string | stringEscape | expression | expressionDollar
  | «variable» => rfl

/-- Without a dollar sign before a brace no name of a variable is met. -/
theorem avoids_isVariable (vars : Vars) (h : ¬referenceMark <:+: u) :
    start.Avoids vars u ScanMode.isVariable := by
  intro read t hread ht
  have hrecalls : t.mode.Recalls t.lineStart read := recalls_start.feedAll ht
  cases hm : t.mode with
  | «variable» =>
      rw [hm] at hrecalls
      exact absurd (List.IsInfix.trans hrecalls hread.isInfix) h
  | plain | escape | dollar | slash | comment | string | stringEscape | expression
  | expressionDollar => rfl

/-! ### Variables -/

/-- Only after the name of a variable its value is looked up. -/
theorem feed_congr_vars (hs : s.mode.isVariable = false) (vars vars' : Vars) (c : Char) :
    s.feed vars' c = s.feed vars c := by
  rw [feed, feed, dispatch.eq_def, dispatch.eq_def]
  cases hm : s.mode with
  | «variable» =>
      rw [hm] at hs
      cases hs
  | plain | escape | dollar | slash | comment | string | stringEscape | expression
  | expressionDollar => rfl

theorem feedAll_congr_vars (h : s.Avoids vars u ScanMode.isVariable) (vars' : Vars) :
    s.feedAll vars' u = s.feedAll vars u := by
  induction u generalizing s with
  | nil => rfl
  | cons c u ih =>
      rw [feedAll_cons, feedAll_cons, feed_congr_vars h.mode vars vars']
      cases hfeed : s.feed vars c with
      | error e => rfl
      | ok t => exact ih (h.tail hfeed)

/-! ### Without the rule for comments -/

/-- The scanner after one more character, by the rules without the one for comments: outside strings
and expressions a slash is a character like any other. -/
def feedLiterally (vars : Vars) (s : Scanner) (c : Char) : Except ScriptError Scanner :=
  if s.mode = .plain ∧ c = '/' then
    .ok (({ s with here := s.here.advance c } : Scanner).take c s.here .plain)
  else s.feed vars c

/-- The scanner after a text, by the rules without the one for comments. -/
def feedAllLiterally (vars : Vars) (s : Scanner) (u : Text) : Except ScriptError Scanner :=
  u.foldlM (feedLiterally vars) s

/-- The scanner that no longer waits for a second slash. -/
def settled (s : Scanner) : Scanner :=
  match s.mode with
  | .slash place => s.take '/' place .plain
  | _ => s

theorem settled_of_isSlash (h : s.mode.isSlash = false) : s.settled = s := by
  rw [settled]
  split
  · next hm =>
      rw [hm] at h
      cases h
  · rfl

theorem isSlash_feedPlain (hc : c = '/' → s.lineStart = false) (h : s.feedPlain c l = .ok t) :
    t.mode.isSlash = false := by
  cases afterPlain_feedPlain h with
  | plain hm | string _ hm | expression _ hm | escape _ hm | dollar _ hm => rw [hm]; rfl
  | slash place hm hslash hl =>
      rw [hc hslash] at hl
      cases hl

theorem isSlash_feedExpression (s : Scanner) (opened : Location) (c : Char) (l : Location) :
    (s.feedExpression opened c l).mode.isSlash = false := by
  rw [feedExpression]
  split
  · rfl
  · split <;> rfl

/-- Only outside strings and expressions, and only at a slash, the scanner begins to wait for a second
slash. -/
theorem isSlash_feed (hs : ¬(s.mode = .plain ∧ c = '/')) (h : s.feed vars c = .ok t) :
    t.mode.isSlash = false := by
  cases hm : s.mode with
  | plain =>
      rw [feed_of_plain hm] at h
      exact isSlash_feedPlain (fun hc => absurd ⟨hm, hc⟩ hs) h
  | dollar | slash =>
      simp only [feed, dispatch, hm] at h
      split at h
      · cases h
        rfl
      · exact isSlash_feedPlain (fun _ => rfl) h
  | escape | stringEscape =>
      simp only [feed, dispatch, hm] at h
      cases h
      rfl
  | comment =>
      simp only [feed, dispatch, hm] at h
      cases h
      split <;> rfl
  | string =>
      simp only [feed, dispatch, hm] at h
      split at h
      · cases h
        rfl
      · split at h <;> cases h <;> rfl
  | expression =>
      simp only [feed, dispatch, hm] at h
      cases h
      exact isSlash_feedExpression ..
  | expressionDollar =>
      simp only [feed, dispatch, hm] at h
      split at h <;> cases h
      · rfl
      · exact isSlash_feedExpression ..
  | «variable» place reversed inside =>
      simp only [feed, dispatch, hm] at h
      split at h
      · rw [substitute] at h
        split at h <;> cases h
        cases inside <;> rfl
      · cases h
        rfl

/-- At the start of a line the scanner waits for a second slash. -/
theorem feed_slash (hm : s.mode = .plain) (hl : s.lineStart = true) :
    s.feed vars '/' = .ok { s with here := s.here.advance '/', mode := .slash s.here } := by
  rw [feed_of_plain hm]
  simp [feedPlain, hl]

/-- Two slashes at the start of a line begin a comment. -/
theorem feed_slash_slash {place : Location} (hm : s.mode = .slash place) :
    s.feed vars '/' = .ok { s with here := s.here.advance '/', mode := .comment } := by
  simp only [feed, dispatch, hm]
  rfl

/-- A slash that no second slash follows belongs to a word. -/
theorem feed_settled {place : Location} (hm : s.mode = .slash place) (hc : c ≠ '/') :
    s.settled.feed vars c = s.feed vars c := by
  rw [settled, hm]
  dsimp only
  rw [feed_of_plain (s := s.take '/' place .plain) rfl]
  simp only [feed, dispatch, hm, if_neg hc]
  rfl

/-- **One character without the rule for comments**: unless a comment begins, the scanner takes a slash
at once for which it would have waited otherwise. -/
theorem feedLiterally_settled (h : ∀ t, s.feed vars c = .ok t → t.mode.isComment = false) :
    s.settled.feedLiterally vars c = (s.feed vars c).map settled := by
  by_cases hslash : s.mode = .plain ∧ c = '/'
  · -- the only character at which the rules differ
    obtain ⟨hm, rfl⟩ := hslash
    have hsettled : s.settled = s := settled_of_isSlash (by rw [hm]; rfl)
    rw [hsettled, feedLiterally, if_pos ⟨hm, rfl⟩]
    cases hl : s.lineStart with
    | true =>
        rw [feed_slash hm hl]
        rfl
    | false =>
        rw [feed_bare hm (by decide) (fun _ => hl) vars]
        rfl
  · have hmap : (s.feed vars c).map settled = s.feed vars c := by
      cases hfeed : s.feed vars c with
      | error e => rfl
      | ok t => exact congrArg Except.ok (settled_of_isSlash (isSlash_feed hslash hfeed))
    rw [hmap]
    cases hm : s.mode with
    | slash place =>
        -- one rule has the slash already, the other takes it now
        have hc : c ≠ '/' := by
          rintro rfl
          cases h _ (feed_slash_slash hm)
        rw [feedLiterally, if_neg fun h => hc h.2, feed_settled hm hc]
    | plain | escape | dollar | comment | string | stringEscape | expression | expressionDollar
    | «variable» => rw [settled_of_isSlash (by rw [hm]; rfl), feedLiterally, if_neg hslash]

/-- **A text without the rule for comments.** -/
theorem feedAllLiterally_settled (h : s.Avoids vars u ScanMode.isComment) :
    s.settled.feedAllLiterally vars u = (s.feedAll vars u).map settled := by
  induction u generalizing s with
  | nil => rfl
  | cons c u ih =>
      have hstep := feedLiterally_settled fun t hfeed => (h.tail hfeed).mode
      rw [feedAll_cons]
      show s.settled.feedLiterally vars c >>= (feedAllLiterally vars · u) = _
      rw [hstep]
      cases hfeed : s.feed vars c with
      | error e => rfl
      | ok t => exact ih (h.tail hfeed)

/-- At the end of a script it makes no difference whether a second slash was waited for. -/
theorem finish_settled (s : Scanner) : s.settled.finish = s.finish := by
  cases hm : s.mode with
  | slash place =>
      rw [settled, hm]
      simp only [finish, hm]
      rfl
  | plain | escape | dollar | comment | string | stringEscape | expression | expressionDollar
  | «variable» => rw [settled_of_isSlash (by rw [hm]; rfl)]

end Scanner

/-! ### Scripts -/

/-- The forest of entries that a script stands for by the rules without the one for comments. -/
def parseLiterally (source : Text) (vars : Vars) : Except ScriptError (List Entry) :=
  Scanner.start.feedAllLiterally vars source >>= Scanner.finish

/-- What would be a comment is a word. -/
example : parse "//a".toList [] = .ok [] ∧
    parseLiterally "//a".toList [] = .ok [.leaf "//a".toList .start] := ⟨rfl, rfl⟩

/-- **Without comments the rule for comments does nothing.** -/
theorem parseLiterally_eq {source : Text} (h : ¬BeginsComment source) (vars : Vars) :
    parseLiterally source vars = parse source vars := by
  have hsettled : Scanner.start.feedAllLiterally vars source =
      (Scanner.start.feedAll vars source).map Scanner.settled :=
    Scanner.feedAllLiterally_settled (Scanner.avoids_isComment vars h)
  rw [parseLiterally, parse, hsettled]
  cases Scanner.start.feedAll vars source with
  | error e => rfl
  | ok s => exact s.finish_settled

/-- **Without references the variables do not matter**, neither to the forest nor to the error. -/
theorem parse_congr_vars {source : Text} (h : ¬referenceMark <:+: source) (vars vars' : Vars) :
    parse source vars' = parse source vars := by
  rw [parse, parse, Scanner.feedAll_congr_vars (Scanner.avoids_isVariable vars h) vars']

end PhotoPipeline
