/-
**The values of variables are not syntax.**

A value that is put into a word becomes a part of the word, and nothing else: it is never looked at
again.  So what a script is parsed to depends on the values of its variables by the heads of entries
only.  Two readings of one script with two sets of values are in lock step from the first character
to the last: they are in the same mode at the same place, with the same lists open, and have read
entries of the same shape.  Only whether a value is empty matters, since a word without text leaves
no trace.

Main definitions:

* `PhotoPipeline.Matching` — values of the same variables;
* `PhotoPipeline.Entry.shape`, `PhotoPipeline.Entry.shapeAll` — entries without their heads;
* `PhotoPipeline.ScriptFault.kind` — a fault without the head that it names;
* `PhotoPipeline.Parallel` — two outcomes that match, or errors of one kind at one place;
* `PhotoPipeline.Scanner.Alike` — **two scanners in lock step**.

Main results:

* `PhotoPipeline.Scanner.Alike.feed`, `PhotoPipeline.Scanner.Alike.finish` — one character, and the
  end;
* `PhotoPipeline.parallel_parse` — **values cannot change what a script looks like**.
-/
import PhotoPipeline.Script.Scanner

set_option relaxedAutoImplicit false
set_option autoImplicit false

namespace PhotoPipeline

/-! ### What does not depend on values -/

namespace Entry

mutual

/-- The entry with every head forgotten. -/
def shape : Entry → Entry
  | ⟨_, cs, l⟩ => ⟨[], shapeAll cs, l⟩

/-- The entries with every head forgotten. -/
def shapeAll : List Entry → List Entry
  | [] => []
  | e :: es => shape e :: shapeAll es

end

theorem shapeAll_eq_map (es : List Entry) : shapeAll es = es.map shape := by
  induction es with
  | nil => rfl
  | cons e es ih => rw [shapeAll, ih, List.map_cons]

theorem shapeAll_reverse (es : List Entry) : shapeAll es.reverse = (shapeAll es).reverse := by
  rw [shapeAll_eq_map, shapeAll_eq_map, List.map_reverse]

end Entry

open Entry (shape shapeAll)

/-- The same variables have values, and those whose value is empty are the same. -/
def Matching (vars vars' : Vars) : Prop :=
  ∀ name, (vars.lookup name).map List.isEmpty = (vars'.lookup name).map List.isEmpty

/-- The fault without the head that it names. -/
def ScriptFault.kind : ScriptFault → ScriptFault
  | unclosed _ => unclosed []
  | fault => fault

/-- Both outcomes are results that match, or errors of one kind at one place. -/
inductive Parallel {α : Type} (r : α → α → Prop) :
    Except ScriptError α → Except ScriptError α → Prop
  | ok {a b : α} (h : r a b) : Parallel r (.ok a) (.ok b)
  | error {e e' : ScriptError} (hkind : e.fault.kind = e'.fault.kind)
      (hlocation : e.location = e'.location) : Parallel r (.error e) (.error e')

namespace Parallel

variable {α β : Type} {r : α → α → Prop} {q : β → β → Prop} {a a' b b' : Except ScriptError α}

/-- The same error twice. -/
theorem refused (e : ScriptError) : Parallel r (.error e) (.error e) := .error rfl rfl

theorem bind {f g : α → Except ScriptError β} (h : Parallel r a b)
    (hfg : ∀ x y, r x y → Parallel q (f x) (g y)) : Parallel q (a >>= f) (b >>= g) := by
  cases h with
  | ok h => exact hfg _ _ h
  | error hkind hlocation => exact .error hkind hlocation

theorem ite {p : Prop} [Decidable p] (h : Parallel r a b) (h' : Parallel r a' b') :
    Parallel r (if p then a else a') (if p then b else b') := by
  split
  · exact h
  · exact h'

end Parallel

/-! ### Words and lists in the making -/

namespace Word

/-- The words have text or have none, and agree in everything but the text. -/
structure Alike (v w : Word) : Prop where
  reversed : v.reversed = [] ↔ w.reversed = []
  quoted : v.quoted = w.quoted
  start : v.start = w.start

variable {v w : Word}

theorem Alike.refl (v : Word) : v.Alike v := ⟨Iff.rfl, rfl, rfl⟩

theorem Alike.isEmpty (h : v.Alike w) : v.isEmpty = w.isEmpty := by
  rw [Bool.eq_iff_iff, isEmpty_iff, isEmpty_iff, text, text, List.reverse_eq_nil_iff,
    List.reverse_eq_nil_iff, h.reversed, h.quoted]

theorem Alike.push (h : v.Alike w) (c : Char) (l : Location) : (v.push c l).Alike (w.push c l) :=
  ⟨by simp [Word.push], h.quoted, by rw [Word.push, Word.push, h.start]⟩

theorem Alike.append (h : v.Alike w) {t u : Text} (htu : t = [] ↔ u = []) (l : Location) :
    (v.append t l).Alike (w.append u l) where
  reversed := by
    simp only [Word.append, List.append_eq_nil_iff, List.reverse_eq_nil_iff, htu, h.reversed]
  quoted := h.quoted
  start := by rw [Word.append, Word.append, h.start]

theorem Alike.quote (h : v.Alike w) (l : Location) : (v.quote l).Alike (w.quote l) :=
  ⟨h.reversed, rfl, by rw [Word.quote, Word.quote, h.start]⟩

end Word

/-- The place of an open list, and the entries before it without their heads. -/
def OpenList.shape (o : OpenList) : Location × List Entry := (o.location, shapeAll o.before)

namespace Scanner

/-- **The scanners are in lock step**: they differ by the text of words and heads only. -/
structure Alike (s t : Scanner) : Prop where
  mode : s.mode = t.mode
  here : s.here = t.here
  word : s.word.Alike t.word
  lineStart : s.lineStart = t.lineStart
  entries : shapeAll s.entries = shapeAll t.entries
  opened : s.opened.map OpenList.shape = t.opened.map OpenList.shape
  limit : s.limit = t.limit

namespace Alike

variable {s t : Scanner}

theorem refl (s : Scanner) : s.Alike s := ⟨rfl, rfl, .refl _, rfl, rfl, rfl, rfl⟩

theorem setMode (h : s.Alike t) (mode : ScanMode) :
    Alike { s with mode := mode } { t with mode := mode } :=
  ⟨rfl, h.here, h.word, h.lineStart, h.entries, h.opened, h.limit⟩

theorem setLineStart (h : s.Alike t) (b : Bool) :
    Alike { s with lineStart := b } { t with lineStart := b } :=
  ⟨h.mode, h.here, h.word, rfl, h.entries, h.opened, h.limit⟩

theorem setHere (h : s.Alike t) (l : Location) : Alike { s with here := l } { t with here := l } :=
  ⟨h.mode, rfl, h.word, h.lineStart, h.entries, h.opened, h.limit⟩

theorem setWord (h : s.Alike t) {v w : Word} (hw : v.Alike w) :
    Alike { s with word := v } { t with word := w } :=
  ⟨h.mode, h.here, hw, h.lineStart, h.entries, h.opened, h.limit⟩

theorem take (h : s.Alike t) (c : Char) (l : Location) (mode : ScanMode) :
    (s.take c l mode).Alike (t.take c l mode) :=
  ((h.setMode mode).setWord (h.word.push c l)).setLineStart false

theorem flush (h : s.Alike t) : s.flush.Alike t.flush := by
  rw [Scanner.flush, Scanner.flush, h.word.isEmpty]
  split
  · exact h.setWord (.refl _)
  · refine ⟨h.mode, h.here, .refl _, h.lineStart, ?_, h.opened, h.limit⟩
    simp only [shapeAll, Entry.leaf, shape, h.entries, h.word.start, h.here]

theorem openList (h : s.Alike t) (l : Location) :
    Parallel Alike (s.openList l) (t.openList l) := by
  have hlength : s.opened.length = t.opened.length := by
    simpa using congrArg List.length h.opened
  rw [Scanner.openList, Scanner.openList, h.limit, hlength]
  refine .ite (.refused _) (.ok ⟨h.mode, h.here, .refl _, rfl, rfl, ?_, rfl⟩)
  rw [h.word.isEmpty, List.map_cons, List.map_cons, h.opened]
  congr 1
  split <;> simp only [OpenList.shape, h.entries, h.word.start]

theorem closeList (h : s.Alike t) (l : Location) :
    Parallel Alike (s.closeList l) (t.closeList l) := by
  have hflush := h.flush
  have hopened := hflush.opened
  simp only [Scanner.closeList]
  cases hs : s.flush.opened with
  | nil =>
      rw [hs, List.map_nil, eq_comm, List.map_eq_nil_iff] at hopened
      rw [hopened]
      exact .refused _
  | cons o rest =>
      rw [hs, List.map_cons, eq_comm, List.map_eq_cons_iff] at hopened
      obtain ⟨o', rest', ht, ho, hrest⟩ := hopened
      obtain ⟨hlocation, hbefore⟩ := Prod.mk.inj ho
      rw [ht]
      refine .ok ⟨hflush.mode, hflush.here, hflush.word, rfl, ?_, hrest.symm, hflush.limit⟩
      simp only [shapeAll, shape, Entry.shapeAll_reverse, hflush.entries, hlocation, hbefore]

theorem substitute {vars vars' : Vars} (hvars : Matching vars vars') (h : s.Alike t) (name : Text)
    (l : Location) (mode : ScanMode) :
    Parallel Alike (s.substitute vars name l mode) (t.substitute vars' name l mode) := by
  have hvars := hvars name
  rw [Scanner.substitute, Scanner.substitute]
  cases hs : vars.lookup name with
  | none =>
      rw [hs, Option.map_none, eq_comm, Option.map_eq_none_iff] at hvars
      rw [hvars]
      exact .refused _
  | some value =>
      rw [hs, Option.map_some, eq_comm, Option.map_eq_some_iff] at hvars
      obtain ⟨value', ht, hvalue⟩ := hvars
      have hempty : value = [] ↔ value' = [] := by
        rw [← List.isEmpty_iff, ← List.isEmpty_iff, hvalue]
      rw [ht]
      exact .ok (((h.setMode mode).setWord (h.word.append hempty l)).setLineStart false)

/-! ### One character -/

theorem feedPlain (h : s.Alike t) (c : Char) (l : Location) :
    Parallel Alike (s.feedPlain c l) (t.feedPlain c l) := by
  obtain ⟨_, _, _, lineStart, _, _, _⟩ := s
  obtain ⟨_, _, _, lineStart', _, _, _⟩ := t
  obtain rfl : lineStart = lineStart' := h.lineStart
  have hplain := h.setMode .plain
  simp only [Scanner.feedPlain]
  refine .ite (.ok (((h.setMode _).setWord (h.word.quote l)).setLineStart false)) ?_
  refine .ite (.ok (hplain.take c l _)) ?_
  refine .ite (.ok ((h.setMode _).setLineStart false)) ?_
  refine .ite (.ok (h.setMode _)) ?_
  refine .ite (.ok (h.setMode _)) ?_
  refine .ite (hplain.openList l) ?_
  refine .ite (hplain.closeList l) ?_
  refine .ite ?_ (.ok (hplain.take c l _))
  rw [hplain.flush.lineStart]
  exact .ok (hplain.flush.setLineStart _)

theorem feedExpression (h : s.Alike t) (opened : Location) (c : Char) (l : Location) :
    (s.feedExpression opened c l).Alike (t.feedExpression opened c l) := by
  rw [Scanner.feedExpression, Scanner.feedExpression]
  split
  · exact h.take c l _
  · split
    · exact h.setMode _
    · exact h.take c l _

theorem dispatch {vars vars' : Vars} (hvars : Matching vars vars') (h : s.Alike t) (c : Char)
    (l : Location) :
    Parallel Alike (Scanner.dispatch vars s c l) (Scanner.dispatch vars' t c l) := by
  rw [Scanner.dispatch, Scanner.dispatch, ← h.mode]
  cases s.mode with
  | plain => exact h.feedPlain c l
  | escape backslash => exact .ok (h.take c backslash _)
  | dollar place => exact .ite (.ok (h.setMode _)) ((h.take '$' place _).feedPlain c l)
  | slash place => exact .ite (.ok (h.setMode _)) ((h.take '/' place _).feedPlain c l)
  | comment =>
      refine .ok ?_
      split
      · exact (h.setMode _).setLineStart true
      · exact h
  | string opened =>
      exact .ite (.ok (h.setMode _)) (.ite (.ok (h.setMode _)) (.ok (h.take c l _)))
  | stringEscape opened backslash => exact .ok (h.take c backslash _)
  | expression opened => exact .ok (h.feedExpression opened c l)
  | expressionDollar opened place =>
      exact .ite (.ok (h.setMode _)) (.ok ((h.take '$' place _).feedExpression opened c l))
  | «variable» place reversed inside =>
      exact .ite (h.substitute hvars _ place _) (.ok (h.setMode _))

variable {vars vars' : Vars}

/-- One character more. -/
theorem feed (hvars : Matching vars vars') (h : s.Alike t) (c : Char) :
    Parallel Alike (s.feed vars c) (t.feed vars' c) := by
  rw [Scanner.feed, Scanner.feed, h.here]
  exact (h.setHere _).dispatch hvars c _

/-- A whole text. -/
theorem feedAll (hvars : Matching vars vars') (h : s.Alike t) (u : Text) :
    Parallel Alike (s.feedAll vars u) (t.feedAll vars' u) := by
  induction u generalizing s t with
  | nil => exact .ok h
  | cons c u ih => exact (h.feed hvars c).bind fun _ _ h => ih h

/-! ### The end of the script -/

theorem complete (h : s.Alike t) :
    Parallel (fun es fs => shapeAll es = shapeAll fs) s.complete t.complete := by
  have hopened := h.flush.opened
  simp only [Scanner.complete]
  cases hs : s.flush.opened with
  | nil =>
      rw [hs, List.map_nil, eq_comm, List.map_eq_nil_iff] at hopened
      rw [hopened]
      refine .ok ?_
      rw [Entry.shapeAll_reverse, Entry.shapeAll_reverse, h.flush.entries]
  | cons o rest =>
      rw [hs, List.map_cons, eq_comm, List.map_eq_cons_iff] at hopened
      obtain ⟨o', rest', ht, ho, -⟩ := hopened
      rw [ht]
      exact .error rfl (Prod.mk.inj ho).1.symm

theorem finish (h : s.Alike t) :
    Parallel (fun es fs => shapeAll es = shapeAll fs) s.finish t.finish := by
  rw [Scanner.finish, Scanner.finish, ← h.mode]
  cases s.mode with
  | plain => exact h.complete
  | comment => exact h.complete
  | dollar place => exact (h.take '$' place .plain).complete
  | slash place => exact (h.take '/' place .plain).complete
  | _ => exact .refused _

end Alike

end Scanner

/-- **The values of variables are not syntax.**  Whatever values the same variables have in two
readings of a script, as long as the same ones are empty, both readings fail with errors of one kind
at one place, or both give forests with the same entries at the same places, up to their heads. -/
theorem parallel_parse (source : Text) {vars vars' : Vars} (hvars : Matching vars vars') :
    Parallel (fun es fs => shapeAll es = shapeAll fs) (parse source vars) (parse source vars') :=
  ((Scanner.Alike.refl .start).feedAll hvars source).bind fun _ _ h => h.finish

/-- A value of brackets, quotes and slashes stands where another one is a word. -/
theorem parallel_parse_brackets :
    let source := "$\x7bx\x7d(a\n$\x7bx\x7d)".toList
    let value := ") // \"\n".toList
    Matching [("x".toList, value)] [("x".toList, "y".toList)] ∧
      Parallel (fun es fs => shapeAll es = shapeAll fs) (parse source [("x".toList, value)])
        (parse source [("x".toList, "y".toList)]) ∧
      parse source [("x".toList, value)] =
        .ok [⟨value, [.leaf "a".toList ⟨5, 1, 6⟩, .leaf value ⟨7, 2, 1⟩], .start⟩] ∧
      parse source [("x".toList, "y".toList)] =
        .ok [⟨"y".toList, [.leaf "a".toList ⟨5, 1, 6⟩, .leaf "y".toList ⟨7, 2, 1⟩], .start⟩] := by
  intro source value
  have hvars : Matching [("x".toList, value)] [("x".toList, "y".toList)] := by
    intro name
    rw [List.lookup_cons, List.lookup_cons]
    cases name == "x".toList <;> rfl
  exact ⟨hvars, parallel_parse source hvars, rfl, rfl⟩

end PhotoPipeline
