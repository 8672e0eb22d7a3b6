/-
**What the scanner makes of a piece of script, to the character.**

A scanner that stands between two marks reads a mark in front of a text as one step: it moves on by
the mark as written, puts a text into its word, and reads the rest.  The step is stated exactly, so
that it can be followed where the scanner stands and where its word starts as well as what the
script leads to.  A word starts where its first part does, and no later part moves the start.

A dollar sign or a slash is kept back by the scanner until it knows what follows.  What it makes of
the script is the same as if it had taken the character at once.

Main definitions:

* `PhotoPipeline.Scanner.readOn` — what the scanner makes of the rest of a script;
* `PhotoPipeline.Scanner.gain` — the scanner behind a piece that has put a text into the word.

Main results:

* `PhotoPipeline.Scanner.readOn_bare`, `PhotoPipeline.Scanner.readOn_escape`,
  `PhotoPipeline.Scanner.readOn_string`, `PhotoPipeline.Scanner.readOn_expression`,
  `PhotoPipeline.Scanner.readOn_substitution` — **the parts of words**, each one step.
-/
import PhotoPipeline.Proofs.Script.Reading

set_option relaxedAutoImplicit false
set_option autoImplicit false

namespace PhotoPipeline

theorem ExpressionPart.isReadable_substitution (vars : Vars) (name : Text) :
    ExpressionPart.isReadable vars (.substitution name) = (vars.lookup name).isSome := by
  simp [ExpressionPart.isReadable, ExpressionPart.names]

namespace Scanner

variable {vars : Vars} {s r : Scanner} {c : Char} {t : Text} {l : Location}

/-! ### Reading on -/

/-- What the scanner makes of the rest of a script. -/
def readOn (vars : Vars) (s : Scanner) (t : Text) : Except ScriptError (List Entry) :=
  s.feedAll vars t >>= finish

theorem readOn_append_of_ok (h : s.feedAll vars t = .ok r) (u : Text) :
    s.readOn vars (t ++ u) = r.readOn vars u := by
  rw [readOn, readOn, feedAll_append_of_ok h]

theorem readOn_cons_of_ok (h : s.feed vars c = .ok r) (t : Text) :
    s.readOn vars (c :: t) = r.readOn vars t := by
  rw [readOn, readOn, feedAll_cons_of_ok h]

theorem readOn_cons_of_error {e : ScriptError} (h : s.feed vars c = .error e) (t : Text) :
    s.readOn vars (c :: t) = .error e := by
  rw [readOn, feedAll_cons, h]
  rfl

/-- What comes of a script is what comes of the rest behind its first character. -/
theorem exists_feed_of_readOn {es : List Entry} (h : s.readOn vars (c :: t) = .ok es) :
    ∃ r, s.feed vars c = .ok r ∧ r.readOn vars t = .ok es := by
  cases hfeed : s.feed vars c with
  | error e =>
      rw [readOn_cons_of_error hfeed] at h
      cases h
  | ok r => exact ⟨r, rfl, (readOn_cons_of_ok hfeed t).symm.trans h⟩

/-! ### Blanks and comments -/

theorem readOn_blank (vars : Vars) (hm : s.mode = .plain) (hc : isBlank c = true) (t : Text) :
    s.readOn vars (c :: t) =
      ({ ({ s with here := s.here.advance c, mode := .plain } : Scanner).flush with
        lineStart := ({ s with here := s.here.advance c, mode := .plain } : Scanner).flush.lineStart
          || c == '\n' } : Scanner).readOn vars t :=
  readOn_cons_of_ok ((feed_of_plain hm vars c).trans (feedPlain_blank hc _ _)) t

theorem feedAll_comment (vars : Vars) {body : Text} (hbody : '\n' ∉ body) {s : Scanner}
    (hm : s.mode = .comment) : s.feedAll vars body = .ok { s with here := s.here.after body } := by
  induction body generalizing s with
  | nil => rfl
  | cons c body ih =>
      obtain ⟨hc, hbody⟩ := not_or.1 (fun h => hbody (List.mem_cons.2 h))
      have hfeed : s.feed vars c = .ok { s with here := s.here.advance c } := by
        simp [feed, dispatch, hm, Ne.symm hc]
      rw [feedAll_cons_of_ok hfeed, ih hbody (s := { s with here := s.here.advance c }) hm]
      rfl

/-- A comment is passed over. -/
theorem readOn_comment (vars : Vars) (hm : s.mode = .plain) (hl : s.lineStart = true) {body : Text}
    (hbody : '\n' ∉ body) (rest : Text) :
    s.readOn vars ('/' :: '/' :: (body ++ rest)) =
      ({ s with
        here := s.here.after ('/' :: '/' :: body)
        mode := .comment } : Scanner).readOn vars rest := by
  let p : Scanner := { s with here := s.here.advance '/', mode := .slash s.here }
  let q : Scanner := { p with here := p.here.advance '/', mode := .comment }
  have hp : s.feed vars '/' = .ok p := by
    rw [feed_of_plain hm]
    simp [feedPlain, hl, p]
  have hq : p.feed vars '/' = .ok q := rfl
  rw [readOn_cons_of_ok hp, readOn_cons_of_ok hq,
    readOn_append_of_ok (feedAll_comment vars hbody rfl)]
  rfl

/-- The line of a comment is passed over. -/
theorem readOn_commentLine (vars : Vars) (hm : s.mode = .plain) (hl : s.lineStart = true)
    {body : Text} (hbody : '\n' ∉ body) (rest : Text) :
    s.readOn vars ('/' :: '/' :: (body ++ '\n' :: rest)) =
      ({ s with here := s.here.after ('/' :: '/' :: (body ++ ['\n'])) } : Scanner).readOn vars
        rest := by
  obtain ⟨mode, here, word, lineStart, entries, opened, limit⟩ := s
  obtain rfl : mode = .plain := hm
  obtain rfl : lineStart = true := hl
  rw [readOn_comment vars rfl rfl hbody, ← List.cons_append, ← List.cons_append,
    Location.after_append]
  exact readOn_cons_of_ok rfl rest

/-- So is a comment that the script ends with. -/
theorem readOn_lastComment (vars : Vars) (hm : s.mode = .plain) (hl : s.lineStart = true)
    {body : Text} (hbody : '\n' ∉ body) :
    s.readOn vars ('/' :: '/' :: body) =
      ({ s with here := s.here.after ('/' :: '/' :: body) } : Scanner).readOn vars [] := by
  obtain ⟨mode, here, word, lineStart, entries, opened, limit⟩ := s
  obtain rfl : mode = .plain := hm
  have hrun := readOn_comment vars (s := ⟨.plain, here, word, lineStart, entries, opened, limit⟩)
    rfl hl hbody []
  rw [List.append_nil] at hrun
  rw [hrun]
  show complete _ = complete _
  simp only [complete, flush]
  cases word.isEmpty <;> rfl

/-! ### Characters that stand for themselves -/

/-- A slash at the beginning of a line stands for itself, unless a second one follows. -/
theorem readOn_slash (hm : s.mode = .plain) (hl : s.lineStart = true) (ht : t.head? ≠ some '/') :
    s.readOn vars ('/' :: t) = (s.gain ['/'] ['/'] s.here .plain).readOn vars t := by
  let q : Scanner := { s with here := s.here.advance '/', mode := .slash s.here }
  have hq : s.feed vars '/' = .ok q := by
    rw [feed_of_plain hm]
    simp [feedPlain, hl, q]
  rw [readOn_cons_of_ok hq]
  cases t with
  | nil => rfl
  | cons c t =>
      have hc : c ≠ '/' := fun hc => ht (by rw [hc]; rfl)
      rw [readOn, feedAll_slash rfl hc]
      rfl

/-- A dollar sign in front of anything but a brace stands for itself. -/
theorem readOn_dollar (hm : s.mode = .plain) (ht : t.head? ≠ some '{') :
    s.readOn vars ('$' :: t) = (s.gain ['$'] ['$'] s.here .plain).readOn vars t := by
  cases t with
  | nil =>
      rw [readOn_cons_of_ok (feed_dollar hm vars)]
      rfl
  | cons c t =>
      have hc : c ≠ '{' := fun hc => ht (by rw [hc]; rfl)
      rw [readOn, feedAll_dollar hm hc]
      rfl

/-- A character that stands for itself goes into the word. -/
theorem readOn_bare (hm : s.mode = .plain) (hc : isBare c = true ∨ c = '$' ∧ t.head? ≠ some '{')
    (hcomment : s.lineStart = true → looksLikeComment (c :: t) = false) :
    s.readOn vars (c :: t) = (s.gain [c] [c] s.here .plain).readOn vars t := by
  rcases hc with hc | ⟨rfl, ht⟩
  · by_cases hslash : c = '/' ∧ s.lineStart = true
    · obtain ⟨rfl, hl⟩ := hslash
      refine readOn_slash hm hl ?_
      intro ht
      obtain ⟨u, rfl⟩ := List.head?_eq_some_iff.1 ht
      cases hcomment hl
    · have hfeed := feed_bare hm hc (fun h => by simpa [h] using hslash) vars
      exact readOn_cons_of_ok hfeed t
  · exact readOn_dollar hm ht

/-- A backslash is where the character behind it starts. -/
theorem readOn_escape (vars : Vars) (hm : s.mode = .plain) (c : Char) (t : Text) :
    s.readOn vars ('\\' :: c :: t) = (s.gain ['\\', c] [c] s.here .plain).readOn vars t := by
  have hq : s.feed vars '\\' = .ok { s with
      here := s.here.advance '\\'
      mode := .escape s.here
      lineStart := false } := by
    rw [feed_of_plain hm]
    rfl
  rw [readOn_cons_of_ok hq, readOn_cons_of_ok rfl]
  rfl

/-! ### Strings -/

/-- The scanner behind an opening quote. -/
def openQuote (s : Scanner) : Scanner := { s with word := s.word.quote s.here }

theorem readOn_stringBody (vars : Vars) (hm : s.mode = .plain) {body text : Text}
    (h : IsStringBody body text) (rest : Text) :
    s.readOn vars ('"' :: (body ++ rest)) =
      (s.openQuote.gain ('"' :: body) text s.here (.string s.here)).readOn vars rest := by
  let q : Scanner := { s.openQuote with
    here := s.here.advance '"'
    mode := .string s.here
    lineStart := false }
  have hq : s.feed vars '"' = .ok q := by
    rw [feed_of_plain hm]
    rfl
  have hbody : q.feedAll vars body = .ok (q.gain body text s.here (.string s.here)) := by
    rw [feedAll_stringBody vars h (l := s.word.start.getD s.here) rfl rfl rfl]
    exact congrArg Except.ok (gain_congr (l := s.word.start.getD s.here) rfl ..)
  rw [readOn_cons_of_ok hq, readOn_append_of_ok hbody]
  rfl

/-- A string goes into the word, which starts at the quote if it had not started. -/
theorem readOn_string (vars : Vars) (hm : s.mode = .plain) {body text : Text}
    (h : IsStringBody body text) (rest : Text) :
    s.readOn vars ('"' :: (body ++ '"' :: rest)) =
      (s.openQuote.gain ('"' :: (body ++ ['"'])) text s.here .plain).readOn vars rest := by
  have hclose : (s.openQuote.gain ('"' :: body) text s.here (.string s.here)).feed vars '"' =
      .ok (s.openQuote.gain ('"' :: (body ++ ['"'])) text s.here .plain) := by
    rw [← List.cons_append, gain, gain, Location.after_append]
    rfl
  rw [readOn_stringBody vars hm h, readOn_cons_of_ok hclose]

/-! ### Substitutions -/

theorem feedAll_name (vars : Vars) {place : Location} {inside : Option Location} {name : Text}
    (hname : '}' ∉ name) {s : Scanner} {reversed : Text}
    (hm : s.mode = .variable place reversed inside) :
    s.feedAll vars name = .ok { s with
      here := s.here.after name
      mode := .variable place (name.reverse ++ reversed) inside } := by
  induction name generalizing s reversed with
  | nil => rw [List.reverse_nil, List.nil_append, ← hm]; rfl
  | cons c name ih =>
      obtain ⟨hc, hname⟩ := not_or.1 (fun h => hname (List.mem_cons.2 h))
      have h₁ : s.feed vars c = .ok { s with
          here := s.here.advance c
          mode := .variable place (c :: reversed) inside } := by
        simp only [feed, dispatch, hm, if_neg (Ne.symm hc)]
      rw [feedAll_cons_of_ok h₁, ih hname rfl, List.reverse_cons, List.append_assoc]
      rfl

/-- The name of a variable: its value goes into the word, and without a value the script is
refused. -/
theorem readOn_name (vars : Vars) {place : Location} {inside : Option Location} {name : Text}
    (hname : '}' ∉ name) (hm : s.mode = .variable place [] inside) (rest : Text) :
    s.readOn vars (name ++ '}' :: rest) =
      match vars.lookup name with
      | none => .error ⟨.unknownVariable name, place⟩
      | some value =>
        (s.gain (name ++ ['}']) value place (inside.elim .plain .expression)).readOn vars rest := by
  let q : Scanner := { s with
    here := s.here.after name
    mode := .variable place (name.reverse ++ []) inside }
  have hq : s.feedAll vars name = .ok q := feedAll_name vars hname hm
  have hfeed : q.feed vars '}' = ({ q with here := q.here.advance '}' } : Scanner).substitute vars
      name place (inside.elim .plain .expression) := by
    simp [feed, dispatch, q]
  rw [readOn_append_of_ok hq]
  cases hlookup : vars.lookup name with
  | none =>
      rw [substitute, hlookup] at hfeed
      exact readOn_cons_of_error hfeed rest
  | some value =>
      have hp : q.feed vars '}' =
          .ok (s.gain (name ++ ['}']) value place (inside.elim .plain .expression)) := by
        rw [hfeed, substitute, hlookup, gain, Location.after_append]
        rfl
      exact readOn_cons_of_ok hp rest

/-- The scanner behind a dollar sign and a brace. -/
def openBrace (s : Scanner) (inside : Option Location) : Scanner :=
  { s with
    here := (s.here.advance '$').advance '{'
    mode := .variable s.here [] inside }

theorem readOn_brace (vars : Vars) (hm : s.mode = .plain) (t : Text) :
    s.readOn vars ('$' :: '{' :: t) = (s.openBrace none).readOn vars t := by
  rw [readOn_cons_of_ok (feed_dollar hm vars), readOn_cons_of_ok rfl]
  rfl

theorem readOn_expressionBrace (vars : Vars) {opened : Location} (hm : s.mode = .expression opened)
    (t : Text) : s.readOn vars ('$' :: '{' :: t) = (s.openBrace (some opened)).readOn vars t := by
  rw [readOn_cons_of_ok (feed_expressionDollar hm vars), readOn_cons_of_ok rfl]
  rfl

theorem gain_openBrace (s : Scanner) (inside : Option Location) (a t : Text) (l : Location)
    (mode : ScanMode) :
    (s.openBrace inside).gain a t l mode = s.gain ('$' :: '{' :: a) t l mode := rfl

/-- The value of a variable goes into the word, which starts at the dollar sign if it had not
started. -/
theorem readOn_substitution (hm : s.mode = .plain) {name value : Text} (hname : '}' ∉ name)
    (hvalue : vars.lookup name = some value) (rest : Text) :
    s.readOn vars ('$' :: '{' :: (name ++ '}' :: rest)) =
      (s.gain ('$' :: '{' :: (name ++ ['}'])) value s.here .plain).readOn vars rest := by
  rw [readOn_brace vars hm, readOn_name (s := s.openBrace none) vars hname rfl, hvalue]
  rfl

/-! ### Expressions -/

/-- Inside an expression, a dollar sign in front of anything but a brace stands for itself. -/
theorem readOn_expressionDollar {opened : Location} (hm : s.mode = .expression opened)
    (ht : t.head? ≠ some '{') :
    s.readOn vars ('$' :: t) = (s.gain ['$'] ['$'] s.here (.expression opened)).readOn vars t := by
  cases t with
  | nil =>
      rw [readOn_cons_of_ok (feed_expressionDollar hm vars)]
      rfl
  | cons c t =>
      have hc : c ≠ '{' := fun hc => ht (by rw [hc]; rfl)
      rw [readOn, feedAll_expressionDollar hm hc]
      rfl

/-- A character of an expression goes into the word. -/
theorem readOn_expressionChar {opened : Location} (hm : s.mode = .expression opened)
    (hbacktick : c ≠ '\x60') (ht : c = '$' → t.head? ≠ some '{') :
    s.readOn vars (c :: t) = (s.gain [c] [c] s.here (.expression opened)).readOn vars t := by
  by_cases hc : c = '$'
  · subst hc
    exact readOn_expressionDollar hm (ht rfl)
  · have hfeed : s.feed vars c = .ok (s.gain [c] [c] s.here (.expression opened)) := by
      simp only [feed, dispatch, hm, feedExpression, if_neg hbacktick, if_neg hc]
      rfl
    exact readOn_cons_of_ok hfeed t

/-- The inside of an expression goes into the word; if a variable in it has no value, the script is
refused. -/
theorem readOn_expressionBody (vars : Vars) {opened : Location} {body : Text}
    {parts : List ExpressionPart} (h : IsExpressionBody body parts) {rest : Text}
    (hrest : rest.head? ≠ some '{') {s : Scanner} (hm : s.mode = .expression opened)
    (hl : s.lineStart = false) (hs : s.word.start = some l) :
    ∃ e, s.readOn vars (body ++ rest) =
      if parts.all (ExpressionPart.isReadable vars) then
        (s.gain body (parts.flatMap (ExpressionPart.text vars)) l
          (.expression opened)).readOn vars rest
      else .error e := by
  induction h generalizing s with
  | nil =>
      refine ⟨⟨.openExpression, opened⟩, ?_⟩
      rw [← hm]
      exact congrArg (fun r : Scanner => r.readOn vars rest) (gain_nil hs hl l).symm
  | @char c body parts hbacktick hdollar _ ih =>
      obtain ⟨e, hr⟩ := ih (s := s.gain [c] [c] l (.expression opened)) rfl rfl (start_gain hs ..)
      have hhead : c = '$' → (body ++ rest).head? ≠ some '{' := by
        intro hc
        cases body with
        | nil => exact hrest
        | cons d body => exact hdollar hc
      refine ⟨e, ?_⟩
      rw [List.cons_append, readOn_expressionChar hm hbacktick hhead, gain_congr hs _ _ s.here l, hr,
        gain_gain]
      rfl
  | @substitution name body parts hname _ ih =>
      rw [List.cons_append, List.cons_append, List.append_assoc, List.cons_append,
        readOn_expressionBrace vars hm,
        readOn_name (s := s.openBrace (some opened)) vars hname rfl, List.all_cons, ExpressionPart.isReadable_substitution]
      cases hlookup : vars.lookup name with
      | none => exact ⟨_, rfl⟩
      | some value =>
          let q := s.gain ('$' :: '{' :: (name ++ ['}'])) value l (.expression opened)
          obtain ⟨e, hr⟩ := ih (s := q) rfl rfl (start_gain hs ..)
          refine ⟨e, ?_⟩
          show ((s.openBrace (some opened)).gain (name ++ ['}']) value s.here
            (.expression opened)).readOn vars (body ++ rest) = _
          rw [gain_openBrace, gain_congr hs _ _ s.here l, hr, gain_gain]
          simp [ExpressionPart.text, hlookup]

theorem readOn_expressionStart (vars : Vars) (hm : s.mode = .plain) {body : Text}
    {parts : List ExpressionPart} (h : IsExpressionBody body parts) {rest : Text}
    (hrest : rest.head? ≠ some '{') :
    ∃ e, s.readOn vars ('\x60' :: (body ++ rest)) =
      if parts.all (ExpressionPart.isReadable vars) then
        (s.gain ('\x60' :: body) ('\x60' :: parts.flatMap (ExpressionPart.text vars)) s.here
          (.expression s.here)).readOn vars rest
      else .error e := by
  have hq : s.feed vars '\x60' = .ok (s.gain ['\x60'] ['\x60'] s.here (.expression s.here)) :=
    feed_backtick hm vars
  obtain ⟨e, hr⟩ := readOn_expressionBody vars h hrest
    (s := s.gain ['\x60'] ['\x60'] s.here (.expression s.here)) rfl rfl rfl
  refine ⟨e, ?_⟩
  rw [readOn_cons_of_ok hq, hr, gain_gain]
  rfl

/-- An expression goes into the word with its backticks, and the word starts at the first one if it
had not started. -/
theorem readOn_expression (hm : s.mode = .plain) {body : Text} {parts : List ExpressionPart}
    (h : IsExpressionBody body parts) (hr : parts.all (ExpressionPart.isReadable vars) = true)
    (rest : Text) :
    s.readOn vars ('\x60' :: (body ++ '\x60' :: rest)) =
      (s.gain ('\x60' :: (body ++ ['\x60']))
        ('\x60' :: (parts.flatMap (ExpressionPart.text vars) ++ ['\x60'])) s.here
        .plain).readOn vars rest := by
  have hhead : ('\x60' :: rest).head? ≠ some '{' := by simp
  obtain ⟨e, hrun⟩ := readOn_expressionStart vars hm h hhead
  have hclose := feed_expressionBacktick (s := s.gain ('\x60' :: body)
    ('\x60' :: parts.flatMap (ExpressionPart.text vars)) s.here (.expression s.here)) rfl vars
  rw [hrun, if_pos hr, readOn_cons_of_ok hclose]
  refine congrArg (fun r : Scanner => r.readOn vars rest) ?_
  exact gain_gain s ('\x60' :: body) ['\x60'] _ ['\x60'] s.here _ _ _

end Scanner

end PhotoPipeline
