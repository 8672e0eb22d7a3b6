/-
**What the scanner makes of written words and lists.**

A piece of script is described by what it does to a scanner that stands between two words: the
entries that it adds to the innermost open list.  Pieces that are separated by blanks add their
entries one after the other, and a bracketed piece behind a word adds one entry with that word as
its head.  A word itself is only finished by the character behind it, so every statement about a
piece is about the piece followed by a character that may end it.

Main definitions:

* `PhotoPipeline.Scanner.Resting` — the scanner is between two words;
* `PhotoPipeline.Scanner.Added` — entries have been added to the innermost list, and nothing else
  has happened;
* `PhotoPipeline.Spells` — a piece of script is one word;
* `PhotoPipeline.Settles`, `PhotoPipeline.Reads` — a piece of script adds entries, by itself or
  when something ends it.

Main results:

* `PhotoPipeline.Spells.bare`, `PhotoPipeline.Spells.quoted`, `PhotoPipeline.Spells.quote` — how
  words may be written;
* `PhotoPipeline.Reads.list` — **a head and a bracketed piece are one entry**;
* `PhotoPipeline.parse_of_settles` — what a script is parsed to;
* `PhotoPipeline.Settles.unique` — a text adds one list of entries only.
-/
import PhotoPipeline.Proofs.Script.Marks

set_option relaxedAutoImplicit false
set_option autoImplicit false

namespace PhotoPipeline

namespace Entry

theorem bareAll_eq_map (es : List Entry) : bareAll es = es.map bare := by
  induction es with
  | nil => rfl
  | cons e es ih => rw [bareAll, ih, List.map_cons]

theorem bareAll_reverse (es : List Entry) : bareAll es.reverse = (bareAll es).reverse := by
  rw [bareAll_eq_map, bareAll_eq_map, List.map_reverse]

theorem bareAll_append (as bs : List Entry) : bareAll (as ++ bs) = bareAll as ++ bareAll bs := by
  rw [bareAll_eq_map, bareAll_eq_map, bareAll_eq_map, List.map_append]

@[simp] theorem bare_leaf (w : Text) (l : Location) : bare (leaf w l) = leaf w .start := rfl

end Entry

/-- The characters that may end a word. -/
def isDelimiter (c : Char) : Bool := isBlank c || c == '(' || c == ')'

theorem ne_of_isBlank {c d : Char} (hc : isBlank c = true) (hd : isBlank d = false) : c ≠ d := by
  rintro rfl
  rw [hc] at hd
  exact nomatch hd

theorem ne_of_isDelimiter {c d : Char} (hc : isDelimiter c = true) (hd : isDelimiter d = false) :
    c ≠ d := by
  rintro rfl
  rw [hc] at hd
  exact nomatch hd

theorem isBare_iff {c : Char} :
    isBare c = true ↔ isBlank c = false ∧ c ≠ '(' ∧ c ≠ ')' ∧ c ≠ '"' ∧ c ≠ '\\' ∧ c ≠ '\x60' ∧
      c ≠ '$' := by
  simp [isBare, isSpecial, and_assoc]

namespace Word

theorem append_append (w : Word) (t u : Text) (l l' : Location) :
    (w.append t l).append u l' = w.append (t ++ u) l := by
  simp [append]

/-- A word that has started does not start again. -/
theorem append_congr {w : Word} {l : Location} (h : w.start = some l) (t : Text)
    (l₁ l₂ : Location) : w.append t l₁ = w.append t l₂ := by
  simp [append, h]

theorem append_nil {w : Word} {l : Location} (h : w.start = some l) (l' : Location) :
    w.append [] l' = w := by
  obtain ⟨reversed, quoted, start⟩ := w
  obtain rfl : start = some l := h
  rfl

end Word

namespace Scanner

/-! ### Plain characters -/

theorem feed_of_plain {s : Scanner} (h : s.mode = .plain) (vars : Vars) (c : Char) :
    s.feed vars c = ({ s with here := s.here.advance c } : Scanner).feedPlain c s.here := by
  simp only [feed, dispatch, h]

theorem feedPlain_blank {c : Char} (h : isBlank c = true) (s : Scanner) (l : Location) :
    s.feedPlain c l = .ok
      { ({ s with mode := .plain } : Scanner).flush with
        lineStart := ({ s with mode := .plain } : Scanner).flush.lineStart || c == '\n' } := by
  have ne : ∀ d : Char, isBlank d = false → c ≠ d := fun d hd => ne_of_isBlank h hd
  simp only [feedPlain, ne '"' (by decide), ne '\x60' (by decide), ne '\\' (by decide),
    ne '$' (by decide), ne '/' (by decide), ne '(' (by decide), ne ')' (by decide), h, if_false,
    if_true, false_and]

theorem feedPlain_open (s : Scanner) (l : Location) :
    s.feedPlain '(' l = ({ s with mode := .plain } : Scanner).openList l := rfl

theorem feedPlain_close (s : Scanner) (l : Location) :
    s.feedPlain ')' l = ({ s with mode := .plain } : Scanner).closeList l := rfl

theorem feedPlain_bare {c : Char} (h : isBare c = true) {s : Scanner}
    (hs : c = '/' → s.lineStart = false) (l : Location) :
    s.feedPlain c l = .ok (s.take c l .plain) := by
  obtain ⟨hb, ho, hc, hq, he, hx, hd⟩ := isBare_iff.1 h
  have hslash : ¬(c = '/' ∧ s.lineStart = true) := by
    rintro ⟨rfl, hl⟩
    rw [hs rfl] at hl
    exact nomatch hl
  simp only [feedPlain, ho, hc, hq, he, hx, hd, hb, hslash, if_false, Bool.false_eq_true, take]

theorem feed_bare {s : Scanner} (hm : s.mode = .plain) {c : Char} (h : isBare c = true)
    (hs : c = '/' → s.lineStart = false) (vars : Vars) :
    s.feed vars c =
      .ok (({ s with here := s.here.advance c } : Scanner).take c s.here .plain) := by
  rw [feed_of_plain hm]
  exact feedPlain_bare h (s := { s with here := s.here.advance c }) hs s.here

/-! ### Between words -/

/-- The scanner is between two words. -/
structure Resting (s : Scanner) : Prop where
  mode : s.mode = .plain
  word : s.word = .empty

/-- The scanner `r` has read the entries `es` since it was `s`, and rests. -/
structure Added (s : Scanner) (es : List Entry) (r : Scanner) : Prop where
  resting : r.Resting
  entries : Entry.bareAll r.entries = (Entry.bareAll es).reverse ++ Entry.bareAll s.entries
  opened : r.opened = s.opened
  limit : r.limit = s.limit

theorem resting_start : start.Resting := ⟨rfl, rfl⟩

theorem Resting.added_nil {s : Scanner} (h : s.Resting) : s.Added [] s := ⟨h, rfl, rfl, rfl⟩

theorem Added.trans {s r q : Scanner} {es fs : List Entry} (h : s.Added es r)
    (h' : r.Added fs q) : s.Added (es ++ fs) q where
  resting := h'.resting
  entries := by
    rw [h'.entries, h.entries, Entry.bareAll_append, List.reverse_append, List.append_assoc]
  opened := h'.opened.trans h.opened
  limit := h'.limit.trans h.limit

theorem Resting.flush {s : Scanner} (h : s.Resting) : s.flush = s := by
  obtain ⟨mode, here, word, lineStart, entries, opened, limit⟩ := s
  obtain rfl : word = .empty := h.word
  rfl

/-- A blank between words changes nothing. -/
theorem Resting.feed_blank {s : Scanner} (h : s.Resting) {c : Char} (hc : isBlank c = true)
    (vars : Vars) : ∃ r, s.feed vars c = .ok r ∧ s.Added [] r := by
  have hrest : ({ s with here := s.here.advance c, mode := .plain } : Scanner).Resting :=
    ⟨rfl, h.word⟩
  refine ⟨_, (feed_of_plain h.mode vars c).trans (feedPlain_blank hc _ _), ?_⟩
  rw [hrest.flush]
  exact ⟨⟨rfl, h.word⟩, rfl, rfl, rfl⟩

/-! ### In a word -/

/-- The scanner `r` has read a word since it was `s`, and does not know yet that it ends. -/
structure Carrying (s : Scanner) (w : Text) (r : Scanner) : Prop where
  mode : r.mode = .plain
  text : r.word.text = w
  kept : r.word.isEmpty = false
  started : ∃ l, r.word.start = some l
  entries : r.entries = s.entries
  opened : r.opened = s.opened
  limit : r.limit = s.limit

/-- Ending the word adds it as a leaf. -/
theorem Carrying.added_flush {s r : Scanner} {w : Text} (h : s.Carrying w r) :
    s.Added [.leaf w .start] r.flush := by
  have hf : r.flush = { r with
      word := .empty
      entries := .leaf r.word.text (r.word.start.getD r.here) :: r.entries } := by
    rw [Scanner.flush, if_neg (by rw [h.kept]; exact Bool.false_ne_true)]
  rw [hf]
  refine ⟨⟨h.mode, rfl⟩, ?_, h.opened, h.limit⟩
  simp [Entry.bareAll, h.text, h.entries]

/-- A character that ends a word does the same to the word and to the leaf that it becomes. -/
theorem Carrying.feed_flush {s r : Scanner} {w : Text} (h : s.Carrying w r) {c : Char}
    (hc : isBlank c = true ∨ c = ')') (vars : Vars) : r.feed vars c = r.flush.feed vars c := by
  obtain ⟨mode, here, word, lineStart, entries, opened, limit⟩ := r
  obtain rfl : mode = .plain := h.mode
  obtain ⟨l, hl⟩ := h.started
  have hk : word.isEmpty = false := h.kept
  have hl' : word.start = some l := hl
  have hflush : ∀ here : Location,
      (⟨.plain, here, word, lineStart, entries, opened, limit⟩ : Scanner).flush =
        ⟨.plain, here, .empty, lineStart, .leaf word.text l :: entries, opened, limit⟩ := by
    intro here
    simp [Scanner.flush, hk, hl']
  have hempty : ∀ here : Location,
      (⟨.plain, here, .empty, lineStart, .leaf word.text l :: entries, opened, limit⟩ :
        Scanner).flush =
        ⟨.plain, here, .empty, lineStart, .leaf word.text l :: entries, opened, limit⟩ :=
    fun here => Resting.flush ⟨rfl, rfl⟩
  rw [hflush, feed_of_plain rfl, feed_of_plain rfl]
  rcases hc with hc | rfl
  · rw [feedPlain_blank hc, feedPlain_blank hc]
    dsimp only
    rw [hflush, hempty]
  · rw [feedPlain_close, feedPlain_close]
    simp only [closeList, hflush, hempty]

/-- A bracket behind a word opens a list with the word as its head. -/
theorem Carrying.feed_open {s r : Scanner} {w : Text} (h : s.Carrying w r)
    (hs : s.opened.length < s.limit) (vars : Vars) :
    ∃ l q, r.feed vars '(' = .ok q ∧ q.Resting ∧ q.entries = [] ∧
      q.opened = ⟨w, l, s.entries⟩ :: s.opened ∧ q.limit = s.limit := by
  obtain ⟨l, hl⟩ := h.started
  rw [feed_of_plain h.mode, feedPlain_open, openList, if_neg]
  · refine ⟨l, _, rfl, ⟨rfl, rfl⟩, rfl, ?_, h.limit⟩
    simp [h.kept, h.text, hl, h.entries, h.opened]
  · show ¬ r.limit ≤ r.opened.length
    rw [h.limit, h.opened]
    omega

/-- A closing bracket makes one entry of the innermost list. -/
theorem Resting.feed_close {s : Scanner} (h : s.Resting) {o : OpenList} {rest : List OpenList}
    (ho : s.opened = o :: rest) (vars : Vars) :
    ∃ q, s.feed vars ')' = .ok q ∧ q.Resting ∧
      q.entries = ⟨o.head, s.entries.reverse, o.location⟩ :: o.before ∧ q.opened = rest ∧
      q.limit = s.limit := by
  obtain ⟨mode, here, word, lineStart, entries, opened, limit⟩ := s
  obtain rfl : mode = .plain := h.mode
  obtain rfl : word = .empty := h.word
  obtain rfl : opened = o :: rest := ho
  exact ⟨_, rfl, ⟨rfl, rfl⟩, rfl, rfl, rfl⟩

/-! ### Inside a word -/

theorem feedAll_cons_of_ok {vars : Vars} {s r : Scanner} {c : Char} (h : s.feed vars c = .ok r)
    (t : Text) : s.feedAll vars (c :: t) = r.feedAll vars t := by
  rw [feedAll_cons, h]
  rfl

/-- A text that can be read is read by its first character and then the rest. -/
theorem exists_feed_of_feedAll {vars : Vars} {s q : Scanner} {c : Char} {t : Text}
    (h : s.feedAll vars (c :: t) = .ok q) :
    ∃ r, s.feed vars c = .ok r ∧ r.feedAll vars t = .ok q := by
  cases hfeed : s.feed vars c with
  | error e =>
      rw [feedAll_cons, hfeed] at h
      cases h
  | ok r => exact ⟨r, rfl, (feedAll_cons_of_ok hfeed t).symm.trans h⟩

theorem feedAll_append_of_ok {vars : Vars} {s r : Scanner} {t : Text}
    (h : s.feedAll vars t = .ok r) (u : Text) :
    s.feedAll vars (t ++ u) = r.feedAll vars u := by
  rw [feedAll_append, h]
  rfl

/-- The scanner `r` has taken the characters `w` into its word since it was `s`. -/
structure Took (s : Scanner) (w : Text) (mode : ScanMode) (r : Scanner) : Prop where
  mode : r.mode = mode
  text : r.word.text = s.word.text ++ w
  quoted : r.word.quoted = s.word.quoted
  started : s.word.start.isSome = true ∨ w ≠ [] → r.word.start.isSome = true
  lineStart : r.lineStart = false
  entries : r.entries = s.entries
  opened : r.opened = s.opened
  limit : r.limit = s.limit

theorem Took.nil {s : Scanner} (h : s.lineStart = false) : s.Took [] s.mode s where
  mode := rfl
  text := (List.append_nil _).symm
  quoted := rfl
  started := fun h => h.resolve_right fun h => h rfl
  lineStart := h
  entries := rfl
  opened := rfl
  limit := rfl

theorem Took.trans {s r q : Scanner} {a b : Text} {m m' : ScanMode} (h : s.Took a m r)
    (h' : r.Took b m' q) : s.Took (a ++ b) m' q where
  mode := h'.mode
  text := by rw [h'.text, h.text, List.append_assoc]
  quoted := h'.quoted.trans h.quoted
  started := by
    intro hs
    rcases hs with hs | hab
    · exact h'.started (.inl (h.started (.inl hs)))
    · by_cases ha : a = []
      · exact h'.started (.inr fun hb => hab (by rw [ha, hb]; rfl))
      · exact h'.started (.inl (h.started (.inr ha)))
  lineStart := h'.lineStart
  entries := h'.entries.trans h.entries
  opened := h'.opened.trans h.opened
  limit := h'.limit.trans h.limit

/-- Where the scanner stands does not matter to what it takes. -/
theorem took_take (s : Scanner) (here : Location) (c : Char) (l : Location) (mode : ScanMode) :
    s.Took [c] mode (({ s with here := here } : Scanner).take c l mode) where
  mode := rfl
  text := Word.text_push s.word c l
  quoted := rfl
  started := fun _ => rfl
  lineStart := rfl
  entries := rfl
  opened := rfl
  limit := rfl

/-- The scanner behind a piece of script that has put a text into the word.  If the word had not
started, it starts at the given place. -/
def gain (s : Scanner) (written text : Text) (l : Location) (mode : ScanMode) : Scanner :=
  { s with
    mode := mode
    here := s.here.after written
    word := s.word.append text l
    lineStart := false }

theorem gain_gain (s : Scanner) (a b t u : Text) (l l' : Location) (mode mode' : ScanMode) :
    (s.gain a t l mode).gain b u l' mode' = s.gain (a ++ b) (t ++ u) l mode' := by
  simp [gain, Location.after_append, Word.append_append]

/-- What a word that has started gains does not depend on a place. -/
theorem gain_congr {s : Scanner} {l : Location} (h : s.word.start = some l) (a t : Text)
    (l₁ l₂ : Location) (mode : ScanMode) : s.gain a t l₁ mode = s.gain a t l₂ mode := by
  rw [gain, gain, Word.append_congr h t l₁ l₂]

theorem gain_nil {s : Scanner} {l : Location} (h : s.word.start = some l)
    (hl : s.lineStart = false) (l' : Location) :
    s.gain [] [] l' s.mode = s := by
  obtain ⟨mode, here, word, lineStart, entries, opened, limit⟩ := s
  obtain rfl : lineStart = false := hl
  simp [gain, Word.append_nil h]

theorem start_gain {s : Scanner} {l : Location} (h : s.word.start = some l) (a t : Text)
    (l' : Location) (mode : ScanMode) :
    (s.gain a t l' mode).word.start = some l := by
  show some (s.word.start.getD l') = some l
  rw [h]
  rfl

theorem took_gain (s : Scanner) (a t : Text) (l : Location) (mode : ScanMode) :
    s.Took t mode (s.gain a t l mode) where
  mode := rfl
  text := Word.text_append s.word t l
  quoted := rfl
  started := fun _ => rfl
  lineStart := rfl
  entries := rfl
  opened := rfl
  limit := rfl

/-- A word that has characters, or a quoted part, is carried. -/
theorem Took.carrying {s q r : Scanner} {w : Text} (h : q.Took w .plain r)
    (hq : q.word.text = []) (hw : w ≠ [] ∨ q.word.quoted = true ∧ q.word.start.isSome = true)
    (he : q.entries = s.entries) (ho : q.opened = s.opened) (hl : q.limit = s.limit) :
    s.Carrying w r where
  mode := h.mode
  text := by rw [h.text, hq, List.nil_append]
  kept := by
    rw [Bool.eq_false_iff, Ne, Word.isEmpty_iff, h.text, hq, h.quoted, List.nil_append]
    rintro ⟨hnil, hquoted⟩
    rcases hw with hw | hw
    · exact hw hnil
    · rw [hw.1] at hquoted
      exact nomatch hquoted
  started := Option.isSome_iff_exists.1 (h.started (hw.symm.imp And.right id))
  entries := h.entries.trans he
  opened := h.opened.trans ho
  limit := h.limit.trans hl

theorem feedAll_bare (vars : Vars) {t : Text} (ht : t.all isBare = true) {s : Scanner}
    (hm : s.mode = .plain) (hl : s.lineStart = false) :
    ∃ r, s.feedAll vars t = .ok r ∧ s.Took t .plain r := by
  induction t generalizing s with
  | nil => exact ⟨s, rfl, hm ▸ Took.nil hl⟩
  | cons c t ih =>
      obtain ⟨hc, ht⟩ := Bool.and_eq_true_iff.1 ht
      have hfeed := feed_bare hm hc (fun _ => hl) vars
      have htook := took_take s (s.here.advance c) c s.here .plain
      obtain ⟨r, hr, hrt⟩ := ih ht htook.mode htook.lineStart
      exact ⟨r, (feedAll_cons_of_ok hfeed t).trans hr, htook.trans hrt⟩

/-- After a slash at the beginning of a line, anything but a second slash shows that the first
belongs to a word. -/
theorem feedAll_slash {s : Scanner} {place : Location} (hm : s.mode = .slash place) {vars : Vars}
    {c : Char} (hc : c ≠ '/') (u : Text) :
    s.feedAll vars (c :: u) = (s.take '/' place .plain).feedAll vars (c :: u) := by
  have h : s.feed vars c = (s.take '/' place .plain).feed vars c := by
    rw [feed_of_plain (s := s.take '/' place .plain) rfl]
    simp only [feed, dispatch, hm, if_neg hc]
    rfl
  rw [feedAll_cons, feedAll_cons, h]

/-- A dollar sign is kept back. -/
theorem feed_dollar {s : Scanner} (hm : s.mode = .plain) (vars : Vars) :
    s.feed vars '$' = .ok { s with here := s.here.advance '$', mode := .dollar s.here } := by
  rw [feed_of_plain hm]
  rfl

theorem feed_expressionDollar {s : Scanner} {opened : Location} (hm : s.mode = .expression opened)
    (vars : Vars) : s.feed vars '$' =
      .ok { s with here := s.here.advance '$', mode := .expressionDollar opened s.here } := by
  simp only [feed, dispatch, hm]
  rfl

/-- A dollar sign in front of anything but a brace belongs to the word that it is in. -/
theorem feedAll_dollar {s : Scanner} (hm : s.mode = .plain) {vars : Vars} {c : Char} (hc : c ≠ '{')
    (u : Text) : s.feedAll vars ('$' :: c :: u) =
      (({ s with here := s.here.advance '$' } : Scanner).take '$' s.here .plain).feedAll vars
        (c :: u) := by
  let q : Scanner := { s with here := s.here.advance '$', mode := .dollar s.here }
  have hnext : q.feed vars c =
      (({ s with here := s.here.advance '$' } : Scanner).take '$' s.here .plain).feed vars c := by
    rw [feed_of_plain (s := Scanner.take ..) rfl]
    simp only [feed, dispatch, q, if_neg hc]
    rfl
  rw [feedAll_cons_of_ok (feed_dollar hm vars), feedAll_cons, feedAll_cons, hnext]

/-- Inside an expression too, a dollar sign in front of anything but a brace belongs to the word. -/
theorem feedAll_expressionDollar {s : Scanner} {opened : Location}
    (hm : s.mode = .expression opened) {vars : Vars} {c : Char} (hc : c ≠ '{') (u : Text) :
    s.feedAll vars ('$' :: c :: u) =
      (({ s with here := s.here.advance '$' } : Scanner).take '$' s.here
        (.expression opened)).feedAll vars (c :: u) := by
  let q : Scanner := { s with
    here := s.here.advance '$'
    mode := .expressionDollar opened s.here }
  have hnext : q.feed vars c = (({ s with here := s.here.advance '$' } : Scanner).take '$' s.here
      (.expression opened)).feed vars c := by
    simp only [feed, dispatch, q, if_neg hc, take]
  rw [feedAll_cons_of_ok (feed_expressionDollar hm vars), feedAll_cons, feedAll_cons, hnext]

theorem feedAll_stringBody (vars : Vars) {opened l : Location} {body text : Text}
    (h : IsStringBody body text) {s : Scanner} (hm : s.mode = .string opened)
    (hl : s.lineStart = false) (hs : s.word.start = some l) :
    s.feedAll vars body = .ok (s.gain body text l (.string opened)) := by
  induction h generalizing s with
  | nil => rw [← hm, gain_nil hs hl]; rfl
  | @char c body text hquote hbackslash _ ih =>
      have h₁ : s.feed vars c = .ok (s.gain [c] [c] l (.string opened)) := by
        rw [gain_congr hs _ _ l s.here]
        simp only [feed, dispatch, hm, if_neg hquote, if_neg hbackslash]
        rfl
      rw [feedAll_cons_of_ok h₁, ih rfl rfl (start_gain hs ..), gain_gain]
      rfl
  | @escape c body text _ ih =>
      let q : Scanner := { s with
        here := s.here.advance '\\'
        mode := .stringEscape opened s.here }
      have h₁ : s.feed vars '\\' = .ok q := by
        simp only [feed, dispatch, hm]
        rfl
      have h₂ : q.feed vars c = .ok (s.gain ['\\', c] [c] l (.string opened)) := by
        rw [gain_congr hs _ _ l s.here]
        rfl
      rw [feedAll_cons_of_ok h₁, feedAll_cons_of_ok h₂, ih rfl rfl (start_gain hs ..), gain_gain]
      rfl

theorem feedAll_expressionBody (vars : Vars) {opened : Location} {body : Text}
    {parts : List ExpressionPart} (h : IsExpressionBody body parts)
    (hparts : parts.flatMap ExpressionPart.names = [])
    {s : Scanner} (hm : s.mode = .expression opened) (hl : s.lineStart = false) :
    ∃ r, s.Took body (.expression opened) r ∧ ∀ c u, c ≠ '{' →
      s.feedAll vars (body ++ c :: u) = r.feedAll vars (c :: u) := by
  induction h generalizing s with
  | nil => exact ⟨s, hm ▸ Took.nil hl, fun _ _ _ => rfl⟩
  | @char c body parts hbacktick hdollar _ ih =>
      have htook := took_take s (s.here.advance c) c s.here (.expression opened)
      obtain ⟨r, hrt, hr⟩ := ih hparts htook.mode htook.lineStart
      refine ⟨r, htook.trans hrt, fun d u hd => ?_⟩
      rw [← hr d u hd, List.cons_append]
      by_cases hc : c = '$'
      · subst hc
        cases body with
        | nil => exact feedAll_expressionDollar hm hd u
        | cons e body =>
            have he : e ≠ '{' := fun he => hdollar rfl (by rw [he]; rfl)
            exact feedAll_expressionDollar hm he _
      · have hfeed : s.feed vars c =
            .ok (({ s with here := s.here.advance c } : Scanner).take c s.here
              (.expression opened)) := by
          simp only [feed, dispatch, hm, feedExpression, if_neg hbacktick, if_neg hc]
        exact feedAll_cons_of_ok hfeed _
  | substitution => cases hparts

theorem feed_backtick {s : Scanner} (hm : s.mode = .plain) (vars : Vars) :
    s.feed vars '\x60' =
      .ok (({ s with here := s.here.advance '\x60' } : Scanner).take '\x60' s.here
        (.expression s.here)) := by
  rw [feed_of_plain hm]
  rfl

theorem feed_expressionBacktick {s : Scanner} {opened : Location}
    (hm : s.mode = .expression opened) (vars : Vars) :
    s.feed vars '\x60' =
      .ok (({ s with here := s.here.advance '\x60' } : Scanner).take '\x60' s.here .plain) := by
  simp only [feed, dispatch, hm]
  rfl

/-- An expression in which nothing is substituted goes into the word as it stands. -/
theorem feedAll_expression (vars : Vars) {body : Text} {parts : List ExpressionPart}
    (h : IsExpressionBody body parts) (hparts : parts.flatMap ExpressionPart.names = [])
    {s : Scanner} (hm : s.mode = .plain) :
    ∃ r, s.Took ('\x60' :: (body ++ ['\x60'])) .plain r ∧ ∀ u,
      s.feedAll vars ('\x60' :: (body ++ '\x60' :: u)) = r.feedAll vars u := by
  have hqt := took_take s (s.here.advance '\x60') '\x60' s.here (.expression s.here)
  obtain ⟨p, hpt, hp⟩ := feedAll_expressionBody vars h hparts hqt.mode hqt.lineStart
  have htook := took_take p (p.here.advance '\x60') '\x60' p.here .plain
  refine ⟨_, hqt.trans (hpt.trans htook), fun u => ?_⟩
  rw [feedAll_cons_of_ok (feed_backtick hm vars), hp _ _ (by decide)]
  exact feedAll_cons_of_ok (feed_expressionBacktick hpt.mode vars) u

end Scanner

/-! ### Words -/

/-- The piece of script `t` is the word `w`, whatever ends it. -/
def Spells (vars : Vars) (t w : Text) : Prop :=
  ∀ s : Scanner, s.Resting → ∃ r, s.Carrying w r ∧
    ∀ c u, isDelimiter c = true → s.feedAll vars (t ++ c :: u) = r.feedAll vars (c :: u)

open Scanner

/-- A word may be written as it is, unless a character in it is special or it looks like a
comment. -/
theorem Spells.bare {vars : Vars} {t : Text} (hne : t ≠ []) (ht : t.all isBare = true)
    (hc : looksLikeComment t = false) : Spells vars t t := by
  intro s hs
  cases t with
  | nil => exact absurd rfl hne
  | cons c t =>
      obtain ⟨hcb, htb⟩ := Bool.and_eq_true_iff.1 ht
      have hword : s.word.text = [] := by rw [hs.word, Word.text_empty]
      by_cases hslash : c = '/' ∧ s.lineStart = true
      · obtain ⟨rfl, hl⟩ := hslash
        let q : Scanner := { s with here := s.here.advance '/', mode := .slash s.here }
        have hq : s.feed vars '/' = .ok q := by
          rw [feed_of_plain hs.mode]
          simp [feedPlain, hl, q]
        have htook : s.Took ['/'] .plain (q.take '/' s.here .plain) :=
          took_take s q.here '/' s.here .plain
        obtain ⟨r, hr, hrt⟩ := feedAll_bare vars htb htook.mode htook.lineStart
        refine ⟨r, (htook.trans hrt).carrying hword (.inl (List.cons_ne_nil _ _)) rfl rfl rfl, ?_⟩
        intro d u hd
        rw [List.cons_append, feedAll_cons_of_ok hq, ← feedAll_append_of_ok hr]
        cases t with
        | nil => exact feedAll_slash rfl (ne_of_isDelimiter hd (by decide)) u
        | cons e t =>
            have he : e ≠ '/' := by
              rintro rfl
              cases hc
            exact feedAll_slash rfl he _
      · have hfeed := feed_bare hs.mode hcb (fun h => by simpa [h] using hslash) vars
        have htook := took_take s (s.here.advance c) c s.here .plain
        obtain ⟨r, hr, hrt⟩ := feedAll_bare vars htb htook.mode htook.lineStart
        refine ⟨r, (htook.trans hrt).carrying hword (.inl (List.cons_ne_nil _ _)) rfl rfl rfl, ?_⟩
        intro d u _
        rw [List.cons_append, feedAll_cons_of_ok hfeed]
        exact feedAll_append_of_ok hr _

/-- Any text can be written between quotes. -/
theorem Spells.quoted (vars : Vars) (t : Text) : Spells vars (quoted t) t := by
  intro s hs
  let q : Scanner := { s with
    here := s.here.advance '"'
    mode := .string s.here
    word := s.word.quote s.here
    lineStart := false }
  have hq : s.feed vars '"' = .ok q := by
    rw [feed_of_plain hs.mode]
    rfl
  have hword : q.word.text = [] := by
    show s.word.text = []
    rw [hs.word, Word.text_empty]
  let l := s.word.start.getD s.here
  let r := q.gain (escaped t) t l (.string s.here)
  have hr : q.feedAll vars (escaped t) = .ok r :=
    feedAll_stringBody vars (isStringBody_escaped t) rfl rfl rfl
  have hrt : q.Took t (.string s.here) r := took_gain ..
  let p : Scanner := { r with here := r.here.advance '"', mode := .plain }
  have hp : r.feed vars '"' = .ok p := by
    simp only [feed, dispatch, hrt.mode]
    rfl
  have hpt : q.Took t .plain p :=
    ⟨rfl, hrt.text, hrt.quoted, hrt.started, hrt.lineStart, hrt.entries, hrt.opened, hrt.limit⟩
  refine ⟨p, hpt.carrying hword (.inr ⟨rfl, rfl⟩) rfl rfl rfl, ?_⟩
  intro d u _
  rw [PhotoPipeline.quoted, List.cons_append, feedAll_cons_of_ok hq, List.append_assoc,
    feedAll_append_of_ok hr]
  exact feedAll_cons_of_ok hp _

/-- An expression between backticks is taken as it stands. -/
theorem Spells.expression (vars : Vars) {t : Text} (ht : ∀ c ∈ t, c ≠ '\x60' ∧ c ≠ '$') :
    Spells vars ('\x60' :: (t ++ ['\x60'])) ('\x60' :: (t ++ ['\x60'])) := by
  intro s hs
  have hnames : (t.map ExpressionPart.char).flatMap ExpressionPart.names = [] := by
    simp [List.flatMap_map, ExpressionPart.names]
  obtain ⟨r, hrt, hr⟩ := feedAll_expression vars (isExpressionBody_map_char ht) hnames hs.mode
  have hword : s.word.text = [] := by rw [hs.word, Word.text_empty]
  refine ⟨r, hrt.carrying hword (.inl (List.cons_ne_nil _ _)) rfl rfl rfl, ?_⟩
  intro d u _
  rw [List.cons_append, List.append_assoc]
  exact hr _

/-- What is written for a text reads back as the text. -/
theorem Spells.quote (vars : Vars) (t : Text) : Spells vars (quote t) t := by
  cases h : needsQuotes t with
  | true =>
      rw [quote_eq_quoted h]
      exact Spells.quoted vars t
  | false =>
      rw [quote_eq_self h]
      simp only [needsQuotes, Bool.or_eq_false_iff, Bool.not_eq_false'] at h
      obtain ⟨⟨⟨hne, -⟩, hc⟩, hb⟩ := h
      exact Spells.bare (by rintro rfl; exact nomatch hne) hb hc

/-! ### Pieces of script -/

/-- The piece of script `t` adds the entries `es` and leaves the scanner between words; at most
`d` more lists are open on the way. -/
def Settles (vars : Vars) (d : Nat) (t : Text) (es : List Entry) : Prop :=
  ∀ s : Scanner, s.Resting → s.opened.length + d ≤ s.limit →
    ∃ r, s.Added es r ∧ s.feedAll vars t = .ok r

/-- The piece of script `t` adds the entries `es` when a blank or a closing bracket follows; at
most `d` more lists are open on the way. -/
def Reads (vars : Vars) (d : Nat) (t : Text) (es : List Entry) : Prop :=
  ∀ s : Scanner, s.Resting → s.opened.length + d ≤ s.limit →
    ∃ r, s.Added es r ∧ ∀ c u, isBlank c = true ∨ c = ')' →
      s.feedAll vars (t ++ c :: u) = r.feedAll vars (c :: u)

section

variable {vars : Vars} {d : Nat} {t u h w : Text} {es fs : List Entry}

theorem Settles.reads (ht : Settles vars d t es) : Reads vars d t es := by
  intro s hs hd
  obtain ⟨r, hr, hrun⟩ := ht s hs hd
  exact ⟨r, hr, fun c u _ => feedAll_append_of_ok hrun _⟩

theorem Spells.reads (ht : Spells vars t w) : Reads vars d t [.leaf w .start] := by
  intro s hs _
  obtain ⟨r, hr, hrun⟩ := ht s hs
  refine ⟨r.flush, hr.added_flush, ?_⟩
  intro c u hc
  have hdelim : isDelimiter c = true := by
    rcases hc with hc | rfl
    · simp [isDelimiter, hc]
    · decide
  rw [hrun c u hdelim, feedAll_cons, feedAll_cons, hr.feed_flush hc]

theorem Settles.mono {d' : Nat} (ht : Settles vars d t es) (hd : d ≤ d') :
    Settles vars d' t es :=
  fun s hs h => ht s hs (by omega)

theorem Reads.mono {d' : Nat} (ht : Reads vars d t es) (hd : d ≤ d') : Reads vars d' t es :=
  fun s hs h => ht s hs (by omega)

theorem Settles.nil : Settles vars d [] [] := fun s hs _ => ⟨s, hs.added_nil, rfl⟩

theorem Settles.append (ht : Settles vars d t es) (hu : Settles vars d u fs) :
    Settles vars d (t ++ u) (es ++ fs) := by
  intro s hs hd
  obtain ⟨r, hr, hrun⟩ := ht s hs hd
  obtain ⟨q, hq, hqrun⟩ := hu r hr.resting (by rw [hr.opened, hr.limit]; exact hd)
  exact ⟨q, hr.trans hq, (feedAll_append_of_ok hrun u).trans hqrun⟩

theorem Settles.append_reads (ht : Settles vars d t es) (hu : Reads vars d u fs) :
    Reads vars d (t ++ u) (es ++ fs) := by
  intro s hs hd
  obtain ⟨r, hr, hrun⟩ := ht s hs hd
  obtain ⟨q, hq, hqrun⟩ := hu r hr.resting (by rw [hr.opened, hr.limit]; exact hd)
  refine ⟨q, hr.trans hq, ?_⟩
  intro c v hc
  rw [List.append_assoc, feedAll_append_of_ok hrun]
  exact hqrun c v hc

/-- A blank settles what stands before it. -/
theorem Reads.append_blank (ht : Reads vars d t es) {c : Char} (hc : isBlank c = true) :
    Settles vars d (t ++ [c]) es := by
  intro s hs hd
  obtain ⟨r, hr, hrun⟩ := ht s hs hd
  obtain ⟨q, hq, hadd⟩ := hr.resting.feed_blank hc vars
  refine ⟨q, by simpa using hr.trans hadd, ?_⟩
  rw [hrun c [] (.inl hc), feedAll_cons_of_ok hq, feedAll_nil]

theorem Settles.blanks (ht : t.all isBlank = true) : Settles vars d t [] := by
  induction t with
  | nil => exact Settles.nil
  | cons c t ih =>
      obtain ⟨hc, ht⟩ := Bool.and_eq_true_iff.1 ht
      have hone : Settles vars d [c] [] := Settles.nil.reads.append_blank hc
      exact hone.append (ih ht)

/-- **A head and a bracketed piece directly behind it are one entry.** -/
theorem Reads.list (ht : Reads vars d t es) (hh : Spells vars h w) :
    Settles vars (d + 1) (h ++ '(' :: (t ++ [')'])) [⟨w, es, .start⟩] := by
  intro s hs hd
  obtain ⟨p, hp, hprun⟩ := hh s hs
  obtain ⟨l, q, hopen, hqrest, hqentries, hqopened, hqlimit⟩ := hp.feed_open (by omega) vars
  obtain ⟨r, hr, hrrun⟩ := ht q hqrest (by rw [hqopened, hqlimit, List.length_cons]; omega)
  obtain ⟨z, hclose, hzrest, hzentries, hzopened, hzlimit⟩ :=
    hr.resting.feed_close (hr.opened.trans hqopened) vars
  refine ⟨z, ⟨hzrest, ?_, hzopened, by rw [hzlimit, hr.limit, hqlimit]⟩, ?_⟩
  · rw [hzentries, Entry.bareAll, Entry.bare, Entry.bareAll_reverse, hr.entries, hqentries]
    simp [Entry.bareAll, Entry.bare]
  · rw [hprun '(' _ (by decide), feedAll_cons_of_ok hopen, hrrun ')' [] (.inr rfl),
      feedAll_cons_of_ok hclose, feedAll_nil]

/-- A script that settles is parsed to the entries that it adds. -/
theorem parse_of_settles (ht : Settles vars d t es) (hd : d ≤ maxDepth) :
    ∃ es', parse t vars = .ok es' ∧ Entry.bareAll es' = Entry.bareAll es := by
  obtain ⟨r, hr, hrun⟩ := ht .start resting_start (by simpa [Scanner.start] using hd)
  have hopened : r.opened = [] := hr.opened
  refine ⟨r.entries.reverse, ?_, ?_⟩
  · rw [parse, hrun]
    show r.finish = _
    simp only [finish, hr.resting.mode, complete, hr.resting.flush, hopened]
  · have hstart : Entry.bareAll start.entries = [] := rfl
    rw [Entry.bareAll_reverse, hr.entries, hstart, List.append_nil, List.reverse_reverse]

/-- A text adds the same entries however many lists are counted for it. -/
theorem Settles.unique {d' : Nat} (ht : Settles vars d t es) (ht' : Settles vars d' t fs) :
    Entry.bareAll es = Entry.bareAll fs := by
  -- a scanner whose limit is high enough for both
  let s : Scanner := { Scanner.start with limit := d + d' }
  have hs : s.Resting := ⟨rfl, rfl⟩
  obtain ⟨r, hr, hrun⟩ := ht s hs (by simp [s, Scanner.start])
  obtain ⟨r', hr', hrun'⟩ := ht' s hs (by simp [s, Scanner.start])
  obtain rfl : r = r' := Except.ok.inj (hrun.symm.trans hrun')
  exact List.reverse_inj.1 (List.append_cancel_right (hr.entries.symm.trans hr'.entries))

end

end PhotoPipeline
