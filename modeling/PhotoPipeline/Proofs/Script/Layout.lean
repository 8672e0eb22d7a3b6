/-
**Where the marks of a script stand.**

A place can be computed from the whole text before it: the bytes of that text, its newlines, and its
characters behind the last newline.  Moving on by one character at a time comes to the same.

The marks of a script are laid out one behind the other.  Each stands at the place of its first
character, and every mark has one, so the places of the marks increase.

Main definitions:

* `PhotoPipeline.Location.behind` — the place behind a text, computed from the text as a whole;
* `PhotoPipeline.StandsAt` — a character of a text and its place;
* `PhotoPipeline.Writes` — how one mark is written in front of a text;
* `PhotoPipeline.LaysFrom` — the marks of a text, each with its place.

Main results:

* `PhotoPipeline.Location.after_start` — **moving on by characters is counting them**;
* `PhotoPipeline.exists_laysFrom`, `PhotoPipeline.LaysFrom.lays` — a text with its marks and their
  places, and without the places;
* `PhotoPipeline.LaysFrom.standsAt` — **a mark stands where its first character does**;
* `PhotoPipeline.LaysFrom.pairwise_offset` — **the places of the marks increase**.
-/
import PhotoPipeline.Proofs.Script.Marks

set_option relaxedAutoImplicit false
set_option autoImplicit false

namespace PhotoPipeline

/-! ### Places in a text -/

theorem Text.utf8_append (a b : Text) : Text.utf8 (a ++ b) = a.utf8 ++ b.utf8 :=
  List.flatMap_append

theorem Text.length_utf8_singleton (c : Char) : (Text.utf8 [c]).length = c.utf8Size := by
  simp [Text.utf8]

namespace Location

/-- The place behind a text, computed from the text as a whole. -/
def behind (before : Text) : Location where
  offset := before.utf8.length
  line := before.count '\n' + 1
  column := (before.reverse.takeWhile (· != '\n')).length + 1

theorem behind_append_singleton (before : Text) (c : Char) :
    behind (before ++ [c]) = (behind before).advance c := by
  have hoffset : (Text.utf8 (before ++ [c])).length = before.utf8.length + c.utf8Size := by
    rw [Text.utf8_append, List.length_append, Text.length_utf8_singleton]
  by_cases hc : c = '\n'
  · subst hc
    simp [behind, advance, hoffset]
  · simp [behind, advance, hoffset, hc]

theorem behind_append (before t : Text) : behind (before ++ t) = (behind before).after t := by
  induction t generalizing before with
  | nil => rw [List.append_nil, after_nil]
  | cons c t ih => rw [List.append_cons, ih, behind_append_singleton, after_cons]

/-- **Moving on by characters is counting them.** -/
theorem after_start (t : Text) : start.after t = behind t := (behind_append [] t).symm

theorem line_behind_le (before : Text) : (behind before).line ≤ before.length + 1 :=
  Nat.succ_le_succ List.count_le_length

theorem column_behind_le (before : Text) : (behind before).column ≤ before.length + 1 := by
  have h := (List.takeWhile_sublist (l := before.reverse) (· != '\n')).length_le
  rw [List.length_reverse] at h
  exact Nat.succ_le_succ h

theorem offset_lt_offset_after (l : Location) (c : Char) (t : Text) :
    l.offset < (l.after (c :: t)).offset := by
  have hc := c.utf8Size_pos
  rw [after_cons, offset_after, offset_advance]
  omega

end Location

/-- The character stands in the text, at the place. -/
def StandsAt (source : Text) (c : Char) (l : Location) : Prop :=
  ∃ before rest, source = before ++ c :: rest ∧ l = .behind before

/-- Lines and columns are no greater than the number of characters. -/
theorem StandsAt.le_length {source : Text} {c : Char} {l : Location} (h : StandsAt source c l) :
    l.line ≤ source.length ∧ l.column ≤ source.length := by
  obtain ⟨before, rest, rfl, rfl⟩ := h
  have hlength : before.length + 1 ≤ (before ++ c :: rest).length := by simp
  exact ⟨Nat.le_trans (Location.line_behind_le before) hlength,
    Nat.le_trans (Location.column_behind_le before) hlength⟩

/-! ### One mark -/

/-- The character that the mark begins with, unless it is unfinished. -/
def Mark.initial? : Mark → Option Char
  | blank c | bare c => some c
  | comment _ => some '/'
  | opening => some '('
  | closing => some ')'
  | escape _ => some '\\'
  | string _ => some '"'
  | expression _ => some '\x60'
  | substitution _ => some '$'
  | unfinished => none

/-- Whether nothing but blanks stands on the line behind the mark; the flag says it of the mark
itself. -/
def Mark.lineStart (b : Bool) : Mark → Bool
  | blank c => b || c == '\n'
  | comment _ => true
  | _ => false

/-- The mark is written like this in front of the last text. -/
inductive Writes : Bool → Mark → Text → Text → Prop
  | blank {b : Bool} {c : Char} {t : Text} (hc : isBlank c = true) : Writes b (.blank c) [c] t
  | comment {body t : Text} (hbody : '\n' ∉ body) :
      Writes true (.comment body) ('/' :: '/' :: (body ++ ['\n'])) t
  | lastComment {body : Text} (hbody : '\n' ∉ body) :
      Writes true (.comment body) ('/' :: '/' :: body) []
  | opening {b : Bool} {t : Text} : Writes b .opening ['('] t
  | closing {b : Bool} {t : Text} : Writes b .closing [')'] t
  | bare {b : Bool} {c : Char} {t : Text} (hc : isBare c = true ∨ c = '$' ∧ t.head? ≠ some '{')
      (hcomment : b = true → looksLikeComment (c :: t) = false) : Writes b (.bare c) [c] t
  | escape {b : Bool} {c : Char} {t : Text} : Writes b (.escape c) ['\\', c] t
  | string {b : Bool} {body text t : Text} (hbody : IsStringBody body text) :
      Writes b (.string text) ('"' :: (body ++ ['"'])) t
  | expression {b : Bool} {body t : Text} {parts : List ExpressionPart}
      (hbody : IsExpressionBody body parts) :
      Writes b (.expression parts) ('\x60' :: (body ++ ['\x60'])) t
  | substitution {b : Bool} {name t : Text} (hname : '}' ∉ name) :
      Writes b (.substitution name) ('$' :: '{' :: (name ++ ['}'])) t
  | unfinished {b : Bool} {u : Text} (h : IsUnfinished u) : Writes b .unfinished u []

section

variable {b : Bool} {m : Mark} {written t : Text}

theorem Writes.exists_cons (h : Writes b m written t) :
    ∃ c u, written = c :: u ∧ ∀ d ∈ m.initial?, d = c := by
  cases h with
  | unfinished h => cases h <;> exact ⟨_, _, rfl, fun d hd => by cases hd⟩
  | _ => exact ⟨_, _, rfl, fun d hd => (Option.some.inj hd).symm⟩

theorem Writes.offset_lt (h : Writes b m written t) (l : Location) :
    l.offset < (l.after written).offset := by
  obtain ⟨c, u, rfl, -⟩ := h.exists_cons
  exact l.offset_lt_offset_after c u

theorem Lays.eq_nil {ms : List Mark} (h : Lays b [] ms) : ms = [] := by
  cases h with
  | done => rfl
  | unfinished h => cases h

/-- A mark in front of a text that consists of marks. -/
theorem Writes.lays {ms : List Mark} (h : Writes b m written t)
    (ht : Lays (m.lineStart b) t ms) : Lays b (written ++ t) (m :: ms) := by
  cases h with
  | blank hc => exact .blank hc ht
  | comment hbody =>
      rw [List.cons_append, List.cons_append, List.append_assoc]
      exact .comment hbody ht
  | lastComment hbody =>
      obtain rfl := ht.eq_nil
      rw [List.append_nil]
      exact .lastComment hbody
  | opening => exact .opening ht
  | closing => exact .closing ht
  | bare hc hcomment => exact .bare hc hcomment ht
  | escape => exact .escape ht
  | string hbody =>
      rw [List.cons_append, List.append_assoc]
      exact .string hbody ht
  | expression hbody =>
      rw [List.cons_append, List.append_assoc]
      exact .expression hbody ht
  | substitution hname =>
      rw [List.cons_append, List.cons_append, List.append_assoc]
      exact .substitution hname ht
  | unfinished h =>
      obtain rfl := ht.eq_nil
      rw [List.append_nil]
      exact .unfinished h

end

/-! ### The marks of a text -/

/-- The text consists of the marks, each with the place that it stands at, when the text itself
stands at the given place. -/
inductive LaysFrom : Location → Bool → Text → List (Mark × Location) → Prop
  | done {l : Location} {b : Bool} : LaysFrom l b [] []
  | cons {l : Location} {b : Bool} {m : Mark} {written t : Text} {ps : List (Mark × Location)}
      (hm : Writes b m written t) (h : LaysFrom (l.after written) (m.lineStart b) t ps) :
      LaysFrom l b (written ++ t) ((m, l) :: ps)

section

variable {l : Location} {b : Bool} {t : Text} {ps : List (Mark × Location)}

theorem LaysFrom.lays (h : LaysFrom l b t ps) : Lays b t (ps.map Prod.fst) := by
  induction h with
  | done => exact .done
  | cons hm _ ih => exact hm.lays ih

/-- The marks that a text consists of have places. -/
theorem Lays.laysFrom {ms : List Mark} (h : Lays b t ms) (l : Location) :
    ∃ ps, LaysFrom l b t ps ∧ ps.map Prod.fst = ms := by
  -- every rule writes one mark in front of what is left
  have cons : ∀ {b : Bool} {m : Mark} {ms : List Mark} {written t : Text} (l : Location),
      Writes b m written t → (∀ l, ∃ ps, LaysFrom l (m.lineStart b) t ps ∧ ps.map Prod.fst = ms) →
        ∃ ps, LaysFrom l b (written ++ t) ps ∧ ps.map Prod.fst = m :: ms := by
    intro b m ms written t l hm ht
    obtain ⟨ps, h, rfl⟩ := ht (l.after written)
    exact ⟨_, .cons hm h, rfl⟩
  have last : ∀ {b : Bool} {m : Mark} {written : Text} (l : Location), Writes b m written [] →
      ∃ ps, LaysFrom l b written ps ∧ ps.map Prod.fst = [m] := by
    intro b m written l hm
    obtain ⟨ps, h, hps⟩ := cons l hm fun _ => ⟨[], .done, rfl⟩
    exact ⟨ps, by rwa [List.append_nil] at h, hps⟩
  induction h generalizing l with
  | done => exact ⟨[], .done, rfl⟩
  | blank hc _ ih => exact cons l (.blank hc) ih
  | comment hbody _ ih => simpa using cons l (.comment hbody) ih
  | lastComment hbody => exact last l (.lastComment hbody)
  | opening _ ih => exact cons l .opening ih
  | closing _ ih => exact cons l .closing ih
  | bare hc hcomment _ ih => exact cons l (.bare hc hcomment) ih
  | escape _ ih => exact cons l .escape ih
  | string hbody _ ih => simpa using cons l (.string hbody) ih
  | expression hbody _ ih => simpa using cons l (.expression hbody) ih
  | substitution hname _ ih => simpa using cons l (.substitution hname) ih
  | unfinished h => exact last l (.unfinished h)

theorem exists_laysFrom (l : Location) (b : Bool) (t : Text) : ∃ ps, LaysFrom l b t ps := by
  obtain ⟨ms, h⟩ := exists_lays b t
  obtain ⟨ps, hps, -⟩ := h.laysFrom l
  exact ⟨ps, hps⟩

/-- **A mark stands where its first character does.** -/
theorem LaysFrom.standsAt (h : LaysFrom l b t ps) (before : Text) (hl : l = .behind before) :
    ∀ p ∈ ps, ∃ c, StandsAt (before ++ t) c p.2 ∧ ∀ d ∈ p.1.initial?, d = c := by
  induction h generalizing before with
  | done =>
      intro p hp
      cases hp
  | @cons l b m written t ps hm _ ih =>
      intro p hp
      rcases List.mem_cons.1 hp with rfl | hp
      · obtain ⟨c, u, rfl, hc⟩ := hm.exists_cons
        exact ⟨c, ⟨before, u ++ t, rfl, hl⟩, hc⟩
      · rw [← List.append_assoc]
        exact ih (before ++ written) (by rw [hl, Location.behind_append]) p hp

theorem LaysFrom.offset_le (h : LaysFrom l b t ps) : ∀ p ∈ ps, l.offset ≤ p.2.offset := by
  induction h with
  | done =>
      intro p hp
      cases hp
  | @cons l b m written t ps hm _ ih =>
      intro p hp
      rcases List.mem_cons.1 hp with rfl | hp
      · exact Nat.le_refl _
      · exact Nat.le_trans (Nat.le_of_lt (hm.offset_lt l)) (ih p hp)

/-- **The places of the marks increase.** -/
theorem LaysFrom.pairwise_offset (h : LaysFrom l b t ps) :
    ps.Pairwise fun p q => p.2.offset < q.2.offset := by
  induction h with
  | done => exact .nil
  | @cons l b m written t ps hm h ih =>
      exact .cons (fun p hp => Nat.lt_of_lt_of_le (hm.offset_lt l) (h.offset_le p hp)) ih

end

end PhotoPipeline
