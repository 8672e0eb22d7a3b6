/-
**Comments are invisible.**

Behind a newline that no literal, no name and no backslash takes in, the scanner is at the beginning
of a line with no word in the making, whatever it has read and however many lists are open.  From
there it passes blanks and a comment over, with all that the comment holds, and is as it was but for
the place it is at.  So a script with a line of comment put in comes to what it comes to without it.

Main definitions:

* `PhotoPipeline.placeless` — the outcome of a script with every place forgotten.

Main results:

* `PhotoPipeline.Scanner.exists_behind_mark` — one mark that is finished;
* `PhotoPipeline.Scanner.lineStart_of_laysFrom` — a text that ends with its line;
* `PhotoPipeline.placeless_readOn` — the place a scanner is at;
* `PhotoPipeline.parse_insert_comment` — **comments are invisible**.
-/
import PhotoPipeline.Proofs.Script.Concatenation

set_option relaxedAutoImplicit false
set_option autoImplicit false

namespace PhotoPipeline

namespace Scanner

variable {vars : Vars} {s q : Scanner} {b : Bool} {m : Mark} {c : Char} {written t : Text}

/-! ### Behind a mark -/

/-- Reading on from a scanner that is outside literals; the flag says whether it takes itself to be at
the beginning of a line. -/
def ReadsFrom (vars : Vars) (b : Bool) (t : Text) (q : Scanner) : Prop :=
  ∃ r : Scanner, r.mode = .plain ∧ r.lineStart = b ∧ r.feedAll vars t = .ok q

/-- A character that stands for itself is known to do so once the next one is read. -/
theorem readsFrom_bare (hm : s.mode = .plain)
    (hc : isBare c = true ∨ c = '$' ∧ t.head? ≠ some '{')
    (hcomment : s.lineStart = true → looksLikeComment (c :: t) = false) (ht : t ≠ [])
    (h : s.feedAll vars (c :: t) = .ok q) : ReadsFrom vars false t q := by
  obtain ⟨d, u, rfl⟩ := List.exists_cons_of_ne_nil ht
  rcases hc with hc | ⟨rfl, hd⟩
  · by_cases hslash : c = '/' ∧ s.lineStart = true
    · obtain ⟨rfl, hl⟩ := hslash
      have hd : d ≠ '/' := by
        rintro rfl
        cases hcomment hl
      rw [feedAll_cons_of_ok (feed_slash hm hl), feedAll_slash rfl hd] at h
      exact ⟨_, rfl, rfl, h⟩
    · rw [feedAll_cons_of_ok (feed_bare hm hc (fun h => by simpa [h] using hslash) vars)] at h
      exact ⟨_, rfl, rfl, h⟩
  · have hd : d ≠ '{' := fun h => hd (congrArg some h)
    rw [feedAll_dollar hm hd] at h
    exact ⟨_, rfl, rfl, h⟩

/-- The value of a variable goes into the word, and the scanner is where it was before. -/
theorem exists_behind_name {place : Location} {inside : Option Location} {name : Text}
    (hname : '}' ∉ name) (hm : s.mode = .variable place [] inside)
    (h : s.feedAll vars (name ++ '}' :: t) = .ok q) :
    ∃ r : Scanner, r.mode = inside.elim .plain .expression ∧ r.lineStart = false ∧
      r.feedAll vars t = .ok q := by
  rw [feedAll_append_of_ok (feedAll_name vars hname hm)] at h
  obtain ⟨r, hr, h⟩ := exists_feed_of_feedAll h
  simp only [feed, dispatch, if_true, substitute] at hr
  split at hr
  · cases hr
  · cases hr
    exact ⟨_, rfl, rfl, h⟩

theorem readsFrom_expressionBody {body : Text} {parts : List ExpressionPart}
    (hbody : IsExpressionBody body parts) {opened : Location} {s : Scanner}
    (hm : s.mode = .expression opened) (h : s.feedAll vars (body ++ '\x60' :: t) = .ok q) :
    ReadsFrom vars false t q := by
  induction hbody generalizing s with
  | nil =>
      rw [List.nil_append, feedAll_cons_of_ok (feed_expressionBacktick hm vars)] at h
      exact ⟨_, rfl, rfl, h⟩
  | @char c body parts hbacktick hdollar _ ih =>
      rw [List.cons_append] at h
      by_cases hc : c = '$'
      · subst hc
        -- what follows is a character of the body, or the backtick behind it
        obtain ⟨d, u, hu, hd⟩ : ∃ d u, body ++ '\x60' :: t = d :: u ∧ d ≠ '{' := by
          cases body with
          | nil => exact ⟨_, _, rfl, by decide⟩
          | cons d body => exact ⟨d, _, rfl, fun hd => hdollar rfl (congrArg some hd)⟩
        rw [hu, feedAll_expressionDollar hm hd, ← hu] at h
        exact ih rfl h
      · have hfeed : s.feed vars c =
            .ok (({ s with here := s.here.advance c } : Scanner).take c s.here
              (.expression opened)) := by
          simp only [feed, dispatch, hm, feedExpression, if_neg hbacktick, if_neg hc]
        rw [feedAll_cons_of_ok hfeed] at h
        exact ih rfl h
  | substitution hname _ ih =>
      rw [List.cons_append, List.cons_append, List.append_assoc, List.cons_append,
        feedAll_cons_of_ok (feed_expressionDollar hm vars), feedAll_cons_of_ok rfl] at h
      obtain ⟨r, hr, -, h⟩ := exists_behind_name hname rfl h
      exact ih hr h

/-- **One mark.**  Behind a mark that is finished the scanner is outside literals, unless the text ends
before the scanner knows it. -/
theorem exists_behind_mark (hw : Writes b m written t) (hfinished : m ≠ .unfinished)
    (hend : ∀ c ∈ (written ++ t).getLast?, c = '\n') (hm : s.mode = .plain) (hl : s.lineStart = b)
    (h : s.feedAll vars (written ++ t) = .ok q) : ReadsFrom vars (m.lineStart b) t q := by
  cases hw with
  | @blank _ c _ hc =>
      rw [List.singleton_append, feedAll_cons_of_ok
        ((feed_of_plain hm vars _).trans (feedPlain_blank hc _ _))] at h
      refine ⟨_, flush_mode _, ?_, h⟩
      rw [Mark.lineStart, ← hl]
      exact congrArg (· || c == '\n') (flush_lineStart _)
  | comment hbody =>
      rw [List.cons_append, List.cons_append, List.append_assoc,
        feedAll_cons_of_ok (feed_slash hm hl), feedAll_cons_of_ok (feed_slash_slash rfl),
        feedAll_append_of_ok (feedAll_comment vars hbody rfl)] at h
      exact ⟨_, rfl, rfl, h⟩
  | @lastComment body hbody =>
      -- the text ends inside the comment, and not with a newline
      obtain ⟨c, hc⟩ : ∃ c, ('/' :: '/' :: body).getLast? = some c := ⟨_, List.getLast?_cons ..⟩
      rw [List.append_nil] at hend
      obtain rfl := hend c hc
      have hmem := List.mem_of_getLast? hc
      simp [hbody] at hmem
  | opening =>
      obtain ⟨r, hr, h⟩ := exists_feed_of_feedAll h
      rw [feed_of_plain hm, feedPlain_open] at hr
      exact ⟨r, (ended_openList hr).mode, (ended_openList hr).lineStart, h⟩
  | closing =>
      obtain ⟨r, hr, h⟩ := exists_feed_of_feedAll h
      rw [feed_of_plain hm, feedPlain_close] at hr
      exact ⟨r, (ended_closeList hr).mode, (ended_closeList hr).lineStart, h⟩
  | @bare _ c _ hc hcomment =>
      refine readsFrom_bare hm hc (fun h => hcomment (hl.symm.trans h)) ?_ h
      rintro rfl
      obtain rfl : c = '\n' := hend c rfl
      simp [isBare] at hc
  | escape =>
      rw [List.cons_append, List.singleton_append, feedAll_cons_of_ok (feed_of_plain hm vars _),
        feedAll_cons_of_ok rfl] at h
      exact ⟨_, rfl, rfl, h⟩
  | string hbody =>
      rw [List.cons_append, List.append_assoc, List.singleton_append,
        feedAll_cons_of_ok (feed_of_plain hm vars _),
        feedAll_append_of_ok (feedAll_stringBody vars hbody rfl rfl rfl),
        feedAll_cons_of_ok rfl] at h
      exact ⟨_, rfl, rfl, h⟩
  | expression hbody =>
      rw [List.cons_append, List.append_assoc, List.singleton_append,
        feedAll_cons_of_ok (feed_backtick hm vars)] at h
      exact readsFrom_expressionBody hbody rfl h
  | substitution hname =>
      rw [List.cons_append, List.cons_append, List.append_assoc, List.singleton_append,
        feedAll_cons_of_ok (feed_dollar hm vars), feedAll_cons_of_ok rfl] at h
      exact exists_behind_name hname rfl h
  | unfinished => exact absurd rfl hfinished

/-- A mark that ends with a newline is a blank or a comment, unless a backslash takes the newline in. -/
theorem lineStart_of_newline (hw : Writes b m written []) (hfinished : m ≠ .unfinished)
    (hescape : m ≠ .escape '\n') (hend : ∀ c ∈ written.getLast?, c = '\n') :
    m.lineStart b = true := by
  cases hw with
  | @blank _ c =>
      obtain rfl : c = '\n' := hend c rfl
      exact Bool.or_true b
  | comment | lastComment => rfl
  | opening | closing => cases hend _ rfl
  | @bare _ c _ hc =>
      obtain rfl : c = '\n' := hend c rfl
      simp [isBare] at hc
  | @escape _ c =>
      obtain rfl : c = '\n' := hend c rfl
      exact absurd rfl hescape
  | string | expression => cases hend _ (by rw [← List.cons_append]; exact List.getLast?_concat)
  | substitution =>
      cases hend _ (by rw [← List.cons_append, ← List.cons_append]; exact List.getLast?_concat)
  | unfinished => exact absurd rfl hfinished

/-- **Behind a text that ends with its line** the scanner is at the beginning of a line: the text is
empty, or its last character is a newline that no literal and no backslash takes in. -/
theorem lineStart_of_laysFrom {l : Location} {ps : List (Mark × Location)} (h : LaysFrom l b t ps)
    (hfinished : ∀ p ∈ ps, p.1 ≠ .unfinished) (hescape : ∀ p ∈ ps.getLast?, p.1 ≠ .escape '\n')
    (hend : ∀ c ∈ t.getLast?, c = '\n') (hb : t = [] → b = true) (hm : s.mode = .plain)
    (hl : s.lineStart = b) (hrun : s.feedAll vars t = .ok q) :
    q.mode = .plain ∧ q.lineStart = true := by
  induction h generalizing s with
  | done =>
      obtain rfl := Except.ok.inj hrun
      exact ⟨hm, hl.trans (hb rfl)⟩
  | @cons l b m written t ps hw h ih =>
      obtain ⟨hmark, hfinished⟩ := List.forall_mem_cons.1 hfinished
      obtain ⟨r, hr, hline, hrun⟩ := exists_behind_mark hw hmark hend hm hl hrun
      refine ih hfinished (fun p hp => hescape p ?_) (fun c hc => hend c ?_) ?_ hr hline hrun
      · rw [List.getLast?_cons, Option.mem_def.1 hp]
        rfl
      · rw [List.getLast?_append, Option.mem_def.1 hc]
        rfl
      · rintro rfl
        rw [List.append_nil] at hend
        obtain rfl : ps = [] := List.map_eq_nil_iff.1 h.lays.eq_nil
        exact lineStart_of_newline hw hmark (hescape (m, l) rfl) hend

/-! ### A line of comment -/

/-- Blanks at the beginning of a line are passed over. -/
theorem readOn_blanks (vars : Vars) {blanks : Text} (hblanks : ∀ c ∈ blanks, isBlank c = true)
    {s : Scanner} (hm : s.mode = .plain) (hl : s.lineStart = true) (hw : s.word = .empty)
    (rest : Text) :
    s.readOn vars (blanks ++ rest) =
      ({ s with here := s.here.after blanks } : Scanner).readOn vars rest := by
  induction blanks generalizing s with
  | nil => rfl
  | cons c blanks ih =>
      obtain ⟨hc, hblanks⟩ := List.forall_mem_cons.1 hblanks
      obtain ⟨mode, here, word, lineStart, entries, opened, limit⟩ := s
      obtain rfl : mode = .plain := hm
      obtain rfl : lineStart = true := hl
      obtain rfl : word = .empty := hw
      rw [List.cons_append, readOn_blank vars rfl hc]
      exact ih hblanks rfl rfl rfl

end Scanner

/-! ### Scripts -/

/-- The outcome of a script with every place forgotten: the forest without its places, or what the
script is refused for. -/
def placeless : Except ScriptError (List Entry) → Except ScriptError (List Entry) :=
  relocated (fun _ => .start) Entry.bareAll

/-- Where a scanner stands makes no difference to what it comes to. -/
theorem placeless_readOn (s : Scanner) (l : Location) (vars : Vars) (t : Text) :
    placeless (({ s with here := l } : Scanner).readOn vars t) = placeless (s.readOn vars t) := by
  have h := Scanner.relocated_readOn_const (l := .start) (s := { s with here := l }) (r := s) rfl
    vars t
  rwa [funext Entry.relocateAll_const] at h

/-- **Comments are invisible.**  Let a text be empty or end with a newline, let it leave no literal and
no substitution unfinished, and let no backslash stand for its last newline; lists may be open.  Put
blanks and a comment with its newline behind the text, whatever is in the comment.  Then every script
that begins with the text is parsed to the same forest as without them, up to places, or it is refused
for the same fault. -/
theorem parse_insert_comment {a : Text} {ms : List Mark} (hmarks : Lays true a ms)
    (hfinished : .unfinished ∉ ms) (hescape : ms.getLast? ≠ some (.escape '\n'))
    (hend : ∀ c ∈ a.getLast?, c = '\n') {blanks body : Text}
    (hblanks : ∀ c ∈ blanks, isBlank c = true ∧ c ≠ '\n') (hbody : '\n' ∉ body) (b : Text)
    (vars : Vars) :
    placeless (parse (a ++ (blanks ++ '/' :: '/' :: (body ++ '\n' :: b))) vars) =
      placeless (parse (a ++ b) vars) := by
  cases hs : Scanner.start.feedAll vars a with
  | error e =>
      -- what the text itself is refused for does not depend on what follows
      rw [parse, parse, Scanner.feedAll_append, Scanner.feedAll_append, hs]
      rfl
  | ok s =>
      obtain ⟨ps, hps, rfl⟩ := hmarks.laysFrom .start
      obtain ⟨hm, hl⟩ : s.mode = .plain ∧ s.lineStart = true := by
        refine Scanner.lineStart_of_laysFrom hps (fun p hp heq => hfinished ?_) (fun p hp heq => ?_)
          hend (fun _ => rfl) rfl rfl hs
        · exact heq ▸ List.mem_map_of_mem hp
        · rw [List.getLast?_map, Option.mem_def.1 hp] at hescape
          exact hescape (congrArg some heq)
      have hw : s.word = .empty := (Scanner.Tidy.start.feedAll hs).word (.inl hl)
      have hread : ∀ t, parse (a ++ t) vars = s.readOn vars t := Scanner.readOn_append_of_ok hs
      rw [hread, hread, Scanner.readOn_blanks vars (fun c hc => (hblanks c hc).1) hm hl hw,
        Scanner.readOn_commentLine vars (s := { s with here := s.here.after blanks }) hm hl hbody]
      exact placeless_readOn s _ vars b

/-- Behind a list that is open and an escaped quote, with brackets and a quote in the comment: nothing
but the place of what comes after the comment is different. -/
theorem parse_insert_comment_brackets :
    let a := "p(\\\"\n".toList
    let commented := a ++ (" \t".toList ++ '/' :: '/' :: ("\" ) $\x7b".toList ++ '\n' :: "q)".toList))
    Lays true a [.bare 'p', .opening, .escape '"', .blank '\n'] ∧
      placeless (parse commented []) = placeless (parse (a ++ "q)".toList) []) ∧
      parse commented [] =
        .ok [⟨"p".toList, [.leaf ['"'] ⟨2, 1, 3⟩, .leaf "q".toList ⟨16, 3, 1⟩], .start⟩] ∧
      parse (a ++ "q)".toList) [] =
        .ok [⟨"p".toList, [.leaf ['"'] ⟨2, 1, 3⟩, .leaf "q".toList ⟨5, 2, 1⟩], .start⟩] := by
  intro a commented
  have hmarks : Lays true a [.bare 'p', .opening, .escape '"', .blank '\n'] :=
    .bare (.inl rfl) (fun _ => rfl) (.opening (.escape (.blank rfl .done)))
  have hblanks : ∀ c ∈ [' ', '\t'], isBlank c = true ∧ c ≠ '\n' :=
    List.forall_mem_cons.2 ⟨⟨rfl, by decide⟩, List.forall_mem_singleton.2 ⟨rfl, by decide⟩⟩
  have hend : ∀ c ∈ a.getLast?, c = '\n' := fun c hc => (Option.some.inj hc).symm
  exact ⟨hmarks, parse_insert_comment hmarks (by decide) (by decide) hend hblanks (by decide) _ [],
    rfl, rfl⟩

end PhotoPipeline
