/-
**What the scanner makes of one mark.**

A scanner between two marks reads on: the outcome is the forest in the end, if there is one, with
its places forgotten.  Each mark in front of a text is something done to the scanner, and the
outcome is that of the rest.

Main definitions:

* `PhotoPipeline.Scanner.outcome` — the forest that the rest of a script leads to;
* `PhotoPipeline.Scanner.nest` — the forest under construction;
* `PhotoPipeline.Scanner.Between` — the scanner is at the beginning of a word;
* `PhotoPipeline.Scanner.Ended` — the scanner has ended its word, at a bracket.

Main results:

* `PhotoPipeline.Scanner.outcome_blank`, `PhotoPipeline.Scanner.outcome_comment`,
  `PhotoPipeline.Scanner.outcome_opening`, `PhotoPipeline.Scanner.outcome_closing` — what stands
  between words;
* `PhotoPipeline.Scanner.outcome_bare`, `PhotoPipeline.Scanner.outcome_escape`,
  `PhotoPipeline.Scanner.outcome_string`, `PhotoPipeline.Scanner.outcome_expression`,
  `PhotoPipeline.Scanner.outcome_substitution` — the parts of words;
* `PhotoPipeline.Scanner.outcome_unfinished` — what is never ended.
-/
import PhotoPipeline.Proofs.Script.Steps

set_option relaxedAutoImplicit false
set_option autoImplicit false

namespace PhotoPipeline

namespace Scanner

variable {vars : Vars} {s r : Scanner} {c : Char} {t : Text}

/-! ### The outcome of reading on -/

/-- The forest under construction, with every place forgotten. -/
def nest (s : Scanner) : Nest :=
  ⟨Entry.bareAll s.entries, s.opened.map fun o => (o.head, Entry.bareAll o.before)⟩

/-- What the scanner makes of the rest of a script. -/
def outcome (vars : Vars) (s : Scanner) (t : Text) : Option (List Entry) :=
  (s.feedAll vars t >>= finish).toOption.map Entry.bareAll

/-- Scanners that read on alike have one outcome. -/
theorem outcome_congr {u : Text} (h : s.readOn vars t = r.readOn vars u) :
    s.outcome vars t = r.outcome vars u :=
  congrArg (fun x : Except ScriptError (List Entry) => x.toOption.map Entry.bareAll) h

theorem outcome_of_error {e : ScriptError} (h : s.readOn vars t = .error e) :
    s.outcome vars t = none :=
  congrArg (fun x : Except ScriptError (List Entry) => x.toOption.map Entry.bareAll) h

theorem outcome_append_of_ok (h : s.feedAll vars t = .ok r) (u : Text) :
    s.outcome vars (t ++ u) = r.outcome vars u := outcome_congr (readOn_append_of_ok h u)

theorem outcome_cons_of_ok (h : s.feed vars c = .ok r) (t : Text) :
    s.outcome vars (c :: t) = r.outcome vars t := outcome_congr (readOn_cons_of_ok h t)

theorem outcome_cons_of_error {e : ScriptError} (h : s.feed vars c = .error e) (t : Text) :
    s.outcome vars (c :: t) = none := outcome_of_error (readOn_cons_of_error h t)

theorem nest_of_eq (he : r.entries = s.entries) (ho : r.opened = s.opened) : r.nest = s.nest := by
  rw [nest, nest, he, ho]

theorem Took.nest_eq {w : Text} {mode : ScanMode} (h : s.Took w mode r) : r.nest = s.nest :=
  nest_of_eq h.entries h.opened

/-! ### Words and brackets -/

theorem isEmpty_eq (w : Word) : w.isEmpty = (w.text.isEmpty && !w.quoted) := by
  rw [Word.isEmpty, Word.text, List.isEmpty_reverse]

/-- Ending the word is building its token. -/
theorem build_wordTokens (s : Scanner) (limit : Nat) (ts : List Token) :
    s.nest.build limit (wordTokens s.word.text s.word.quoted ++ ts) =
      s.flush.nest.build limit ts := by
  rw [wordTokens, flush, ← isEmpty_eq]
  cases s.word.isEmpty <;> rfl

/-- The scanner is at the beginning of a word. -/
structure Between (s : Scanner) (b : Bool) (n : Nest) (limit : Nat) : Prop where
  mode : s.mode = .plain
  word : s.word = .empty
  lineStart : s.lineStart = b
  nest : s.nest = n
  limit : s.limit = limit

theorem flush_word (s : Scanner) : s.flush.word = .empty := by
  rw [flush]
  split <;> rfl

theorem flush_mode (s : Scanner) : s.flush.mode = s.mode := by
  rw [flush]
  split <;> rfl

theorem flush_lineStart (s : Scanner) : s.flush.lineStart = s.lineStart := by
  rw [flush]
  split <;> rfl

theorem flush_limit (s : Scanner) : s.flush.limit = s.limit := by
  rw [flush]
  split <;> rfl

/-- The scanner has ended its word and stands where it stood. -/
structure Ended (s r : Scanner) : Prop where
  mode : r.mode = s.mode
  here : r.here = s.here
  lineStart : r.lineStart = false
  word : r.word = .empty

theorem ended_openList {l : Location} (h : s.openList l = .ok r) : s.Ended r := by
  rw [openList] at h
  split at h
  · cases h
  · cases h
    exact ⟨rfl, rfl, rfl, rfl⟩

theorem ended_closeList {l : Location} (h : s.closeList l = .ok r) : s.Ended r := by
  simp only [closeList] at h
  cases ho : s.flush.opened with
  | nil => rw [ho] at h; cases h
  | cons o rest =>
      rw [ho] at h
      cases h
      exact ⟨flush_mode s, here_flush s, rfl, flush_word s⟩

theorem outcome_nil (hm : s.mode = .plain ∨ s.mode = .comment) :
    s.outcome vars [] = s.flush.nest.complete := by
  have hfinish : s.outcome vars [] = s.complete.toOption.map Entry.bareAll := by
    show s.finish.toOption.map Entry.bareAll = _
    rcases hm with hm | hm <;> rw [finish, hm]
  rw [hfinish, complete, Nest.complete, nest]
  cases hopened : s.flush.opened with
  | nil => exact congrArg some (Entry.bareAll_reverse _)
  | cons o opened => rfl

/-- Where a word ends does not matter to the forest. -/
theorem nest_flush_congr (hw : r.word = s.word) (he : r.entries = s.entries)
    (ho : r.opened = s.opened) : r.flush.nest = s.flush.nest := by
  rw [flush, flush, hw]
  cases s.word.isEmpty with
  | true => exact nest_of_eq he ho
  | false => simp [nest, Entry.bareAll, he, ho]

theorem outcome_blank (vars : Vars) (hm : s.mode = .plain) (hc : isBlank c = true) (t : Text) :
    ∃ r : Scanner, r.Between (s.lineStart || c == '\n') s.flush.nest s.limit ∧
      s.outcome vars (c :: t) = r.outcome vars t := by
  let p : Scanner := { s with here := s.here.advance c, mode := .plain }
  let r : Scanner := { p.flush with lineStart := p.flush.lineStart || c == '\n' }
  have hmode : r.mode = .plain := flush_mode p
  have hline : r.lineStart = (s.lineStart || c == '\n') := by
    show (p.flush.lineStart || c == '\n') = _
    rw [flush_lineStart]
  have hnest : r.nest = s.flush.nest := nest_flush_congr (s := s) (r := p) rfl rfl rfl
  exact ⟨r, ⟨hmode, flush_word p, hline, hnest, flush_limit p⟩,
    outcome_congr (readOn_blank vars hm hc t)⟩

/-- A comment is passed over. -/
theorem outcome_comment (vars : Vars) (hm : s.mode = .plain) (hl : s.lineStart = true) {body : Text}
    (hbody : '\n' ∉ body) :
    ∃ r : Scanner, r.mode = .comment ∧ r.word = s.word ∧ r.entries = s.entries ∧
      r.opened = s.opened ∧ r.limit = s.limit ∧
      ∀ rest, s.outcome vars ('/' :: '/' :: (body ++ rest)) = r.outcome vars rest :=
  ⟨{ s with here := s.here.after ('/' :: '/' :: body), mode := .comment }, rfl, rfl, rfl, rfl, rfl,
    fun rest => outcome_congr (readOn_comment vars hm hl hbody rest)⟩

theorem outcome_opening (vars : Vars) (hm : s.mode = .plain) (t : Text) :
    (∃ (n : Nest) (r : Scanner),
      s.nest.add s.limit (.opening (headText s.word.text s.word.quoted)) = some n ∧
        r.Between false n s.limit ∧ s.outcome vars ('(' :: t) = r.outcome vars t) ∨
      s.nest.add s.limit (.opening (headText s.word.text s.word.quoted)) = none ∧
        s.outcome vars ('(' :: t) = none := by
  let p : Scanner := { s with here := s.here.advance '(', mode := .plain }
  have hfeed : s.feed vars '(' = p.openList s.here := (feed_of_plain hm vars _).trans rfl
  have hlength : s.nest.opened.length = s.opened.length := List.length_map _
  by_cases hlt : s.opened.length < s.limit
  · have hopen : p.openList s.here = .ok _ := if_neg (Nat.not_le.2 hlt)
    refine .inl ⟨_, _, if_pos (hlength ▸ hlt), ?_, outcome_cons_of_ok (hfeed.trans hopen) t⟩
    refine ⟨rfl, rfl, rfl, ?_, rfl⟩
    simp only [nest, headText, ← isEmpty_eq, Entry.bareAll, List.map_cons, p]
    cases s.word.isEmpty <;> rfl
  · have hopen : p.openList s.here = .error ⟨.tooDeep, s.here⟩ := if_pos (Nat.not_lt.1 hlt)
    exact .inr ⟨if_neg (hlength ▸ hlt), outcome_cons_of_error (hfeed.trans hopen) t⟩

theorem outcome_closing (vars : Vars) (hm : s.mode = .plain) (t : Text) :
    (∃ (n : Nest) (r : Scanner), s.flush.nest.add s.limit .closing = some n ∧
        r.Between false n s.limit ∧ s.outcome vars (')' :: t) = r.outcome vars t) ∨
      s.flush.nest.add s.limit .closing = none ∧ s.outcome vars (')' :: t) = none := by
  let p : Scanner := { s with here := s.here.advance ')', mode := .plain }
  have hfeed : s.feed vars ')' = p.closeList s.here := (feed_of_plain hm vars _).trans rfl
  have hnest : p.flush.nest = s.flush.nest := nest_flush_congr (s := s) (r := p) rfl rfl rfl
  rw [← hnest]
  cases hopened : p.flush.opened with
  | nil =>
      have hclose : p.closeList s.here = .error ⟨.unexpectedClose, s.here⟩ := by
        simp only [closeList, hopened]
      refine .inr ⟨?_, outcome_cons_of_error (hfeed.trans hclose) t⟩
      simp [Nest.add, nest, hopened]
  | cons o opened =>
      let r : Scanner := { p.flush with
        lineStart := false
        entries := ⟨o.head, p.flush.entries.reverse, o.location⟩ :: o.before
        opened := opened }
      have hclose : p.closeList s.here = .ok r := by
        simp only [closeList, hopened, r]
      have hadd : p.flush.nest.add s.limit .closing = some r.nest := by
        simp [Nest.add, nest, hopened, r, Entry.bareAll, Entry.bare, Entry.bareAll_reverse]
      have hmode : r.mode = .plain := flush_mode p
      exact .inl ⟨r.nest, r, hadd, ⟨hmode, flush_word p, rfl, rfl, flush_limit p⟩,
        outcome_cons_of_ok (hfeed.trans hclose) t⟩

/-! ### Parts of words -/

/-- A character that stands for itself goes into the word. -/
theorem outcome_bare (hm : s.mode = .plain)
    (hc : isBare c = true ∨ c = '$' ∧ t.head? ≠ some '{')
    (hcomment : s.lineStart = true → looksLikeComment (c :: t) = false) :
    s.outcome vars (c :: t) = (s.gain [c] [c] s.here .plain).outcome vars t :=
  outcome_congr (readOn_bare hm hc hcomment)

theorem outcome_escape (vars : Vars) (hm : s.mode = .plain) (c : Char) (t : Text) :
    ∃ r, s.Took [c] .plain r ∧ s.outcome vars ('\\' :: c :: t) = r.outcome vars t :=
  ⟨_, took_gain .., outcome_congr (readOn_escape vars hm c t)⟩

/-- A string goes into the word, and the word is kept even if it has no text. -/
theorem outcome_string (vars : Vars) (hm : s.mode = .plain) {body text : Text}
    (h : IsStringBody body text) :
    ∃ r : Scanner, (∃ opened, r.mode = .string opened) ∧ r.word.text = s.word.text ++ text ∧
      r.word.quoted = true ∧ r.lineStart = false ∧ r.nest = s.nest ∧ r.limit = s.limit ∧
      ∀ rest, s.outcome vars ('"' :: (body ++ rest)) = r.outcome vars rest :=
  ⟨s.openQuote.gain ('"' :: body) text s.here (.string s.here), ⟨_, rfl⟩, Word.text_append .., rfl,
    rfl, rfl, rfl, fun rest => outcome_congr (readOn_stringBody vars hm h rest)⟩

/-- An expression goes into the word, up to the closing backtick. -/
theorem outcome_expression (vars : Vars) (hm : s.mode = .plain) {body : Text}
    {parts : List ExpressionPart} (h : IsExpressionBody body parts) :
    ∃ r opened, s.Took ('\x60' :: parts.flatMap (ExpressionPart.text vars)) (.expression opened) r ∧
      ∀ rest, rest.head? ≠ some '{' → s.outcome vars ('\x60' :: (body ++ rest)) =
        if parts.all (ExpressionPart.isReadable vars) then r.outcome vars rest else none := by
  refine ⟨_, s.here, took_gain s ('\x60' :: body) _ s.here _, ?_⟩
  intro rest hrest
  obtain ⟨e, hr⟩ := readOn_expressionStart vars hm h hrest
  cases hall : parts.all (ExpressionPart.isReadable vars) with
  | false =>
      rw [hall] at hr
      exact outcome_of_error hr
  | true =>
      rw [hall] at hr
      exact outcome_congr hr

theorem outcome_substitution (vars : Vars) (hm : s.mode = .plain) {name : Text}
    (hname : '}' ∉ name) :
    ∃ r, s.Took ((vars.lookup name).getD []) .plain r ∧
      ∀ rest, s.outcome vars ('$' :: '{' :: (name ++ '}' :: rest)) =
        if (vars.lookup name).isSome then r.outcome vars rest else none := by
  refine ⟨_, took_gain s ('$' :: '{' :: (name ++ ['}'])) _ s.here .plain, ?_⟩
  intro rest
  cases hlookup : vars.lookup name with
  | none =>
      have hr := readOn_name vars hname (s := s.openBrace none) rfl rest
      rw [hlookup, ← readOn_brace vars hm] at hr
      exact outcome_of_error hr
  | some value => exact outcome_congr (readOn_substitution hm hname hlookup rest)

/-! ### What is never ended -/

theorem outcome_openName {place : Location} {inside : Option Location} {name : Text}
    (hname : '}' ∉ name) (hm : s.mode = .variable place [] inside) :
    s.outcome vars name = none := by
  rw [← List.append_nil name, outcome_append_of_ok (feedAll_name vars hname hm)]
  rfl

theorem outcome_unfinished (hm : s.mode = .plain) (h : IsUnfinished t) :
    s.outcome vars t = none := by
  cases h with
  | escape =>
      have hq : s.feed vars '\\' = .ok { s with
          here := s.here.advance '\\'
          mode := .escape s.here
          lineStart := false } := by
        rw [feed_of_plain hm]
        rfl
      rw [outcome_cons_of_ok hq]
      rfl
  | @string body text h =>
      obtain ⟨r, ⟨opened, hr⟩, -, -, -, -, -, hrun⟩ := outcome_string vars hm h
      rw [← List.append_nil body, hrun []]
      show r.finish.toOption.map _ = none
      rw [finish, hr]
      rfl
  | @stringEscape body text h =>
      obtain ⟨r, ⟨opened, hr⟩, -, -, -, -, -, hrun⟩ := outcome_string vars hm h
      have hq : r.feed vars '\\' = .ok { r with
          here := r.here.advance '\\'
          mode := .stringEscape opened r.here } := by
        simp only [feed, dispatch, hr]
        rfl
      rw [hrun, outcome_cons_of_ok hq]
      rfl
  | @expression body parts h =>
      obtain ⟨r, opened, hr, hrun⟩ := outcome_expression vars hm h
      have hnone : r.outcome vars [] = none := by
        show r.finish.toOption.map _ = none
        rw [finish, hr.mode]
        rfl
      rw [← List.append_nil body, hrun [] (by simp), hnone, ite_self]
  | @expressionSubstitution body name parts h hname =>
      obtain ⟨r, opened, hr, hrun⟩ := outcome_expression vars hm h
      rw [hrun _ (by simp), outcome_congr (readOn_expressionBrace vars hr.mode name),
        outcome_openName hname rfl, ite_self]
  | @substitution name hname =>
      rw [outcome_congr (readOn_brace vars hm name), outcome_openName hname rfl]

end Scanner

end PhotoPipeline
