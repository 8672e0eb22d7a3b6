/-
**Which scripts can be parsed, and to what.**

A script can be parsed exactly when it ends its literals, escapes and substitutions, its variables
have values, its brackets match and not too many of them are open at once.  The forest that it is
parsed to is its tokens: written out, the forest gives them back one by one.

The scanner reads a script one mark after the other, and what it has read of the script at any time
is the forest that the tokens so far have built.

Main definitions:

* `PhotoPipeline.reading` — the forest that marks lead to by way of their tokens.

Main results:

* `PhotoPipeline.Scanner.outcome_of_lays` — **the scanner reads marks as their tokens**;
* `PhotoPipeline.parse_by_marks` — **the language of scripts**.
-/
import PhotoPipeline.Proofs.Script.Outcome

set_option relaxedAutoImplicit false
set_option autoImplicit false

namespace PhotoPipeline

/-- The forest that marks lead to, if they can be read, when `n` has been built before and the word
`w` is in the making. -/
def reading (vars : Vars) (limit : Nat) (n : Nest) (w : Text) (quoted : Bool) (ms : List Mark) :
    Option (List Entry) :=
  if ms.all (Mark.isReadable vars) then n.build limit (tokensBehind vars w quoted ms) else none

theorem isReadable_expression (vars : Vars) (parts : List ExpressionPart) :
    Mark.isReadable vars (.expression parts) =
      parts.all (ExpressionPart.isReadable vars) := by
  rw [Mark.isReadable, Mark.names, List.all_flatMap]
  rfl

theorem isReadable_substitution (vars : Vars) (name : Text) :
    Mark.isReadable vars (.substitution name) = (vars.lookup name).isSome := by
  simp [Mark.isReadable, Mark.names]

theorem reading_cons (vars : Vars) (limit : Nat) (n : Nest) (w : Text) (quoted : Bool) (m : Mark)
    (ms : List Mark) :
    reading vars limit n w quoted (m :: ms) =
      if m.isReadable vars then
        if ms.all (Mark.isReadable vars) then
          n.build limit (tokensBehind vars w quoted (m :: ms))
        else none
      else none := by
  rw [reading, List.all_cons]
  cases m.isReadable vars <;> rfl

namespace Scanner

variable {vars : Vars} {s r : Scanner} {t : Text} {ms : List Mark}

/-- The reading of the marks from where the scanner is. -/
def readingFrom (vars : Vars) (s : Scanner) (ms : List Mark) : Option (List Entry) :=
  reading vars s.limit s.nest s.word.text s.word.quoted ms

theorem Between.readingFrom_eq {b : Bool} {n : Nest} {limit : Nat} (h : r.Between b n limit)
    (vars : Vars) (ms : List Mark) :
    r.readingFrom vars ms = reading vars limit n [] false ms := by
  rw [readingFrom, h.limit, h.nest, h.word]
  rfl

theorem Took.readingFrom_eq {w : Text} {mode : ScanMode} (h : s.Took w mode r) (vars : Vars)
    (ms : List Mark) :
    r.readingFrom vars ms =
      reading vars s.limit s.nest (s.word.text ++ w) s.word.quoted ms := by
  rw [readingFrom, h.limit, h.nest_eq, h.text, h.quoted]

/-- **The scanner reads marks as their tokens.** -/
theorem outcome_of_lays (vars : Vars) {b : Bool} (h : Lays b t ms) {s : Scanner}
    (hm : s.mode = .plain) (hl : s.lineStart = b) (hw : b = true → s.word = .empty) :
    s.outcome vars t = s.readingFrom vars ms := by
  -- on the marks, for every scanner at a place that they may stand in: at the beginning of a line
  -- there is no word in the making, so a comment ends none
  induction h generalizing s with
  | done =>
      rw [outcome_nil (.inl hm), readingFrom, reading, tokensBehind,
        ← List.append_nil (wordTokens _ _), build_wordTokens]
      rfl
  | @blank b c t ms hc _ ih =>
      obtain ⟨r, hr, hrun⟩ := outcome_blank vars hm hc t
      rw [hrun, ih hr.mode (by rw [hr.lineStart, hl]) fun _ => hr.word, hr.readingFrom_eq,
        readingFrom, reading, reading, tokensBehind, build_wordTokens]
      rfl
  | @comment body t ms hbody _ ih =>
      obtain ⟨r, hmode, hword, hentries, hopened, hlimit, hrun⟩ :=
        outcome_comment vars hm hl hbody
      let q : Scanner := { r with here := r.here.advance '\n', mode := .plain, lineStart := true }
      have hq : r.feed vars '\n' = .ok q := by
        simp only [feed, dispatch, hmode, q, if_true]
      rw [hrun, outcome_cons_of_ok hq, ih (s := q) rfl rfl fun _ => hword.trans (hw rfl)]
      show reading vars r.limit r.nest r.word.text r.word.quoted ms = _
      rw [hlimit, nest_of_eq hentries hopened, hword, readingFrom, hw rfl]
      rfl
  | @lastComment body hbody =>
      obtain ⟨r, hmode, hword, hentries, hopened, hlimit, hrun⟩ :=
        outcome_comment vars hm hl hbody
      have hend := hrun []
      rw [List.append_nil, outcome_nil (.inr hmode), nest_flush_congr hword hentries hopened]
        at hend
      rw [hend, readingFrom, reading, tokensBehind, build_wordTokens]
      rfl
  | @opening b t ms _ ih =>
      rcases outcome_opening vars hm t with ⟨n, r, hadd, hr, hrun⟩ | ⟨hadd, hrun⟩
      · rw [hrun, ih hr.mode hr.lineStart fun _ => hr.word, hr.readingFrom_eq, readingFrom, reading,
          reading, tokensBehind, Nest.build, hadd]
        rfl
      · rw [hrun, readingFrom, reading, tokensBehind, Nest.build, hadd]
        exact (ite_self _).symm
  | @closing b t ms _ ih =>
      rcases outcome_closing vars hm t with ⟨n, r, hadd, hr, hrun⟩ | ⟨hadd, hrun⟩
      · rw [hrun, ih hr.mode hr.lineStart fun _ => hr.word, hr.readingFrom_eq, readingFrom, reading,
          reading, tokensBehind, build_wordTokens, Nest.build, hadd]
        rfl
      · rw [hrun, readingFrom, reading, tokensBehind, build_wordTokens, Nest.build, hadd]
        exact (ite_self _).symm
  | @bare b c t ms hc hcomment _ ih =>
      have htook := took_gain s [c] [c] s.here .plain
      rw [outcome_bare hm hc (fun h => hcomment (hl ▸ h)),
        ih htook.mode htook.lineStart Bool.noConfusion, htook.readingFrom_eq]
      rfl
  | @escape b c t ms _ ih =>
      obtain ⟨r, hr, hrun⟩ := outcome_escape vars hm c t
      rw [hrun, ih hr.mode hr.lineStart Bool.noConfusion, hr.readingFrom_eq]
      rfl
  | @string b body text t ms hbody _ ih =>
      obtain ⟨r, ⟨opened, hmode⟩, htext, hquoted, hline, hnest, hlimit, hrun⟩ :=
        outcome_string vars hm hbody
      let q : Scanner := { r with here := r.here.advance '"', mode := .plain }
      have hq : r.feed vars '"' = .ok q := by
        simp only [feed, dispatch, hmode, if_true, q]
      rw [hrun, outcome_cons_of_ok hq, ih (s := q) rfl hline Bool.noConfusion]
      show reading vars r.limit r.nest r.word.text r.word.quoted ms = _
      rw [hlimit, hnest, htext, hquoted]
      rfl
  | @expression b body t parts ms hbody _ ih =>
      obtain ⟨r, opened, hr, hrun⟩ := outcome_expression vars hm hbody
      have hqt := hr.trans (took_take r (r.here.advance '\x60') '\x60' r.here .plain)
      rw [hrun _ (by simp), outcome_cons_of_ok (feed_expressionBacktick hr.mode vars),
        ih hqt.mode hqt.lineStart Bool.noConfusion, hqt.readingFrom_eq, readingFrom, reading_cons,
        isReadable_expression]
      rfl
  | @substitution b name t ms hname _ ih =>
      obtain ⟨r, hr, hrun⟩ := outcome_substitution vars hm hname
      rw [hrun, ih hr.mode hr.lineStart Bool.noConfusion, hr.readingFrom_eq, readingFrom,
        reading_cons, isReadable_substitution]
      rfl
  | unfinished hopen =>
      rw [outcome_unfinished hm hopen]
      rfl

end Scanner

/-! ### Scripts -/

/-- The forest of a script, with places forgotten, is what its marks lead to. -/
theorem toOption_parse_eq {source : Text} {ms : List Mark} (h : Lays true source ms)
    (vars : Vars) : (parse source vars).toOption.map Entry.bareAll =
      reading vars maxDepth ⟨[], []⟩ [] false ms :=
  Scanner.outcome_of_lays vars h (s := .start) rfl rfl fun _ => rfl

theorem exists_parse_iff {source : Text} {ms : List Mark} (h : Lays true source ms)
    (vars : Vars) : (∃ es, parse source vars = .ok es) ↔
      ms.all (Mark.isReadable vars) = true ∧ Balanced maxDepth 0 (tokensOf vars ms) := by
  have hbuild : (∃ es, (⟨[], []⟩ : Nest).build maxDepth (tokensOf vars ms) = some es) ↔
      Balanced maxDepth 0 (tokensOf vars ms) := Nest.exists_build_iff (Nat.zero_le maxDepth)
  -- places are forgotten in what is built, but not in what is parsed
  have hparse : (∃ es, parse source vars = .ok es) ↔
      ∃ es, reading vars maxDepth ⟨[], []⟩ [] false ms = some es := by
    rw [← toOption_parse_eq h vars]
    cases parse source vars with
    | error e => exact ⟨fun ⟨_, hes⟩ => (nomatch hes), fun ⟨_, hes⟩ => (nomatch hes)⟩
    | ok es => exact ⟨fun _ => ⟨_, rfl⟩, fun _ => ⟨_, rfl⟩⟩
  rw [hparse, reading]
  cases ms.all (Mark.isReadable vars) with
  | false => simp
  | true => simpa [tokensOf] using hbuild

theorem ofEntries_of_parse {source : Text} {ms : List Mark} (h : Lays true source ms)
    {vars : Vars} {es : List Entry} (hes : parse source vars = .ok es) :
    Token.ofEntries es = contract (tokensOf vars ms) := by
  have hreading := toOption_parse_eq h vars
  obtain ⟨hreadable, -⟩ := (exists_parse_iff h vars).1 ⟨es, hes⟩
  rw [hes, reading, hreadable] at hreading
  rw [← Token.ofEntries_bareAll]
  exact Nest.ofEntries_of_build hreading.symm

/-- **The language of scripts.**  Every script consists of marks.  It can be parsed exactly when no
literal, escape or substitution is left unfinished, every variable has a value, and the brackets
match with at most 256 of them open at once.  The forest that it is parsed to, written out, is its
tokens, where a head with nothing between its brackets is a word. -/
theorem parse_by_marks (source : Text) (vars : Vars) :
    (∃ ms, Lays true source ms) ∧ ∀ ms, Lays true source ms →
      ((∃ es, parse source vars = .ok es) ↔
        .unfinished ∉ ms ∧ (∀ name ∈ ms.flatMap Mark.names, (vars.lookup name).isSome = true) ∧
          Balanced 256 0 (tokensOf vars ms)) ∧
      ∀ es, parse source vars = .ok es →
        Token.ofEntries es = contract (tokensOf vars ms) := by
  refine ⟨exists_lays true source, fun ms hms => ⟨?_, fun es hes => ofEntries_of_parse hms hes⟩⟩
  rw [← and_assoc, ← all_isReadable_iff]
  exact exists_parse_iff hms vars

end PhotoPipeline
