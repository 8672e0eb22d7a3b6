/-
**Reading back a forest that was written out.**

A forest can be written out in many ways: every head is quoted where it has to be, a list stands
between brackets directly behind its head, an entry without arguments may have an empty list or
none, and there are any number of blanks between entries and inside the brackets.  Whatever the
heads are made of, whatever the blanks are and whatever the variables stand for, a script that was
written in such a way is parsed to the forest, as long as no more than 256 lists are open at once.

A word is only ended by what stands behind it.  Inside brackets that is a blank or the closing one;
at the end of a script it is the end.

Main definitions:

* `PhotoPipeline.Prints` — **the ways to write a forest out**, with the number of lists that are
  open at once.

Main results:

* `PhotoPipeline.Scanner.outcome_nil_of_feed_blank` — the end of a script ends a word as a blank
  does;
* `PhotoPipeline.Prints.reads`, `PhotoPipeline.Prints.overflows` — what the scanner makes of a
  forest that is written out;
* `PhotoPipeline.Prints.levels` — how many lists are open at once;
* `PhotoPipeline.parse_of_prints` — **a forest that is written out is read back**.
-/
import PhotoPipeline.Proofs.Script.Depth

set_option relaxedAutoImplicit false
set_option autoImplicit false

namespace PhotoPipeline

/-! ### Writing a forest out -/

/-- **The ways to write a forest out.**  The number is that of the lists which are open at once,
empty ones among them.  A word needs a blank before the next entry; behind a closing bracket there
may be none. -/
inductive Prints : List Entry → Nat → Text → Prop
  | blanks {t : Text} (ht : t.all isBlank = true) : Prints [] 0 t
  | word {head : Text} {l : Location} {es : List Entry} {d : Nat} {b rest : Text}
      (hb : b.all isBlank = true) (hrest : Prints es d rest)
      (hgap : es ≠ [] → ∃ c u, rest = c :: u ∧ isBlank c = true) :
      Prints (⟨head, [], l⟩ :: es) d (b ++ (quote head ++ rest))
  | list {head : Text} {children : List Entry} {l : Location} {es : List Entry} {d d' : Nat}
      {b t rest : Text} (hb : b.all isBlank = true) (hchildren : Prints children d t)
      (hrest : Prints es d' rest) :
      Prints (⟨head, children, l⟩ :: es) (max (d + 1) d')
        (b ++ (quote head ++ '(' :: (t ++ [')']) ++ rest))

namespace Prints

variable {es : List Entry} {d : Nat} {t : Text}

/-- Without entries there are blanks only. -/
theorem of_nil (h : Prints [] d t) : d = 0 ∧ t.all isBlank = true := by
  cases h with
  | blanks ht => exact ⟨rfl, ht⟩

/-- Behind a word there is nothing, or a blank. -/
theorem eq_nil_or_blank (h : Prints es d t)
    (hgap : es ≠ [] → ∃ c u, t = c :: u ∧ isBlank c = true) :
    t = [] ∧ es = [] ∨ ∃ c u, t = c :: u ∧ isBlank c = true := by
  by_cases hes : es = []
  · subst hes
    cases t with
    | nil => exact .inl ⟨rfl, rfl⟩
    | cons c u => exact .inr ⟨c, u, rfl, (Bool.and_eq_true_iff.1 h.of_nil.2).1⟩
  · exact .inr (hgap hes)

/-- **How many lists are open at once**: as many as the forest has levels, or one less. -/
theorem levels (h : Prints es d t) : d ≤ Entry.levelsAll es ∧ Entry.levelsAll es ≤ d + 1 := by
  induction h with
  | blanks => exact ⟨Nat.le_refl 0, Nat.zero_le _⟩
  | word _ _ _ ih =>
      simp only [Entry.levelsAll, Entry.levels]
      omega
  | list _ _ _ ihchildren ih =>
      simp only [Entry.levelsAll, Entry.levels]
      omega

end Prints

/-! ### The end of a script -/

namespace Scanner

variable {vars : Vars} {s r : Scanner}

/-- The end of a script ends a word as a blank does. -/
theorem outcome_nil_of_feed_blank (h : s.feed vars ' ' = .ok r) (hr : r.Resting) :
    s.outcome vars [] = r.outcome vars [] := by
  have hplain : ∀ {q : Scanner}, q.mode = .plain → q.outcome vars [] = q.outcome vars [' '] := by
    intro q hq
    obtain ⟨p, hp, hrun⟩ := outcome_blank vars hq isBlank_space []
    have hrest : p.Resting := ⟨hp.mode, hp.word⟩
    rw [hrun, outcome_nil (.inl hq), outcome_nil (.inl hp.mode), hrest.flush, hp.nest]
  have hmode := hr.mode
  have hword := hr.word
  rw [← outcome_cons_of_ok h []]
  obtain ⟨mode, here, word, lineStart, entries, opened, limit⟩ := s
  -- a literal, an escape or a comment goes on behind the blank, so the scanner would not rest
  cases mode with
  | plain => exact hplain rfl
  | dollar place => exact hplain (q := Scanner.take _ '$' place .plain) rfl
  | slash place => exact hplain (q := Scanner.take _ '/' place .plain) rfl
  | escape backslash =>
      obtain rfl := Except.ok.inj h
      exact nomatch hword
  | _ =>
      obtain rfl := Except.ok.inj h
      exact nomatch hmode

end Scanner

section

open Scanner

variable {vars : Vars} {d d' : Nat} {t u : Text} {es fs : List Entry}

/-- A script that a blank would end is ended by its end. -/
theorem parse_of_reads (ht : Reads vars d t es) (hd : d ≤ maxDepth) :
    ∃ es', parse t vars = .ok es' ∧ Entry.bareAll es' = Entry.bareAll es := by
  have hsettles := ht.append_blank isBlank_space
  obtain ⟨fs, hparse, hbare⟩ := parse_of_settles hsettles hd
  obtain ⟨r, hr, hrun⟩ := hsettles .start resting_start (by simpa [Scanner.start] using hd)
  have hsame : start.outcome vars t = start.outcome vars (t ++ [' ']) := by
    cases hq : start.feedAll vars t with
    | error e =>
        rw [feedAll_append, hq] at hrun
        cases hrun
    | ok q =>
        have hblank : q.feed vars ' ' = .ok r := by
          rw [feedAll_append_of_ok hq, feedAll_cons] at hrun
          exact (bind_pure (q.feed vars ' ')).symm.trans hrun
        rw [outcome_append_of_ok hq, outcome_cons_of_ok hblank,
          ← outcome_nil_of_feed_blank hblank hr.resting, ← outcome_append_of_ok hq, List.append_nil]
  have hparse' : (parse t vars).toOption.map Entry.bareAll = some (Entry.bareAll es) := by
    refine hsame.trans ?_
    show (parse (t ++ [' ']) vars).toOption.map Entry.bareAll = _
    rw [hparse, ← hbare]
    rfl
  cases hes : parse t vars with
  | error e =>
      rw [hes] at hparse'
      cases hparse'
  | ok es' =>
      rw [hes] at hparse'
      exact ⟨es', rfl, Option.some.inj hparse'⟩

/-! ### What the scanner makes of it -/

/-- Places do not matter to what is read. -/
theorem Reads.of_bare (ht : Reads vars d t es) (h : Entry.bareAll es = Entry.bareAll fs) :
    Reads vars d t fs := by
  intro s hs hd
  obtain ⟨r, hr, hrun⟩ := ht s hs hd
  exact ⟨r, ⟨hr.resting, h ▸ hr.entries, hr.opened, hr.limit⟩, hrun⟩

/-- What follows a word is read behind it if it begins with a blank. -/
theorem Reads.append (ht : Reads vars d t es) (hu : Reads vars d u fs)
    (hgap : u = [] ∧ fs = [] ∨ ∃ c v, u = c :: v ∧ isBlank c = true) :
    Reads vars d (t ++ u) (es ++ fs) := by
  rcases hgap with ⟨rfl, rfl⟩ | ⟨c, v, rfl, hc⟩
  · rwa [List.append_nil, List.append_nil]
  · intro s hs hd
    obtain ⟨r, hr, hrun⟩ := ht s hs hd
    obtain ⟨q, hq, hqrun⟩ := hu r hr.resting (by rw [hr.opened, hr.limit]; exact hd)
    refine ⟨q, hr.trans hq, ?_⟩
    intro b w hb
    rw [List.append_assoc, List.cons_append, hrun c _ (.inl hc)]
    exact hqrun b w hb

/-- What opens too many lists does so behind a word, if it begins with a blank. -/
theorem Reads.append_overflows (ht : Reads vars 0 t es) (hu : Overflows vars d u)
    (hgap : ∃ c v, u = c :: v ∧ isBlank c = true) : Overflows vars d (t ++ u) := by
  obtain ⟨c, v, rfl, hc⟩ := hgap
  intro s hs hle hlt w
  obtain ⟨r, hr, hrun⟩ := ht s hs hle
  rw [List.append_assoc, List.cons_append, hrun c _ (.inl hc)]
  refine hu r hr.resting ?_ ?_ w <;> rw [hr.opened, hr.limit] <;> assumption

namespace Prints

/-- **A forest that is written out is read**, when a blank or a closing bracket follows. -/
theorem reads (vars : Vars) (h : Prints es d t) : Reads vars d t es := by
  induction h with
  | blanks ht => exact (Settles.blanks ht).reads
  | @word head l es d front rest hfront hrest hgap ih =>
      have hword : Reads vars d (quote head) [⟨head, [], l⟩] :=
        ((Spells.quote vars head).reads.mono (Nat.zero_le d)).of_bare rfl
      have hnext := hword.append ih (hrest.eq_nil_or_blank hgap)
      exact (Settles.blanks hfront).append_reads hnext
  | @list head children l es d d' front t rest hfront _ _ ihchildren ih =>
      have hlist := (ihchildren.list (Spells.quote vars head)).mono (Nat.le_max_left (d + 1) d')
      have hnext := hlist.append_reads (ih.mono (Nat.le_max_right (d + 1) d'))
      exact ((Settles.blanks hfront).append_reads hnext).of_bare rfl

/-- **A forest that is written out opens too many lists** where there is no room for them. -/
theorem overflows (vars : Vars) (h : Prints es d t) : Overflows vars d t := by
  induction h with
  | blanks => exact overflows_zero vars _
  | @word head l es d front rest hfront hrest hgap ih =>
      have hword : Reads vars 0 (quote head) [.leaf head .start] := (Spells.quote vars head).reads
      have hnext : Overflows vars d (quote head ++ rest) := by
        rcases hrest.eq_nil_or_blank hgap with ⟨-, rfl⟩ | hblank
        · rw [hrest.of_nil.1]
          exact overflows_zero vars _
        · exact hword.append_overflows ih hblank
      exact (Settles.blanks hfront).append_overflows_zero hnext
  | @list head children l es d d' front t rest hfront hchildren _ ihchildren ih =>
      have hlist := (hchildren.reads vars).list (Spells.quote vars head)
      have hinner := (ihchildren.append_right [')']).list (Spells.quote vars head)
      exact (Settles.blanks hfront).append_overflows_zero (hlist.append_overflows hinner ih)

end Prints

end

/-- **A forest that is written out is read back**, whatever its heads are made of and whatever the
variables stand for, if no more than 256 lists are open at once; else it is refused as too deep.
As many lists are open at once as the forest has levels, or one less. -/
theorem parse_of_prints {es : List Entry} {d : Nat} {t : Text} (h : Prints es d t) (vars : Vars) :
    (d ≤ Entry.levelsAll es ∧ Entry.levelsAll es ≤ d + 1) ∧
      (d ≤ 256 → ∃ es', parse t vars = .ok es' ∧ Entry.sameAll es' es = true) ∧
      (256 < d → ∃ l, parse t vars = .error ⟨.tooDeep, l⟩) := by
  refine ⟨h.levels, fun hd => ?_, parse_of_overflows (h.overflows vars)⟩
  obtain ⟨es', hparse, hbare⟩ := parse_of_reads (h.reads vars) hd
  exact ⟨es', hparse, (Entry.sameAll_iff_bareAll_eq es' es).2 hbare⟩

/-- A list under a head that looks like a comment, with the empty text, a name and special
characters in it, and a word behind it that looks like a substitution. -/
def sampleForest : List Entry :=
  [⟨"//".toList, [.leaf [] .start, .leaf ".p".toList .start, .leaf "a\"\\\n\x60".toList .start],
      .start⟩,
    .leaf "$\x7bx\x7d".toList .start]

/-- The sample written out, with an empty list behind one of its words. -/
def sampleForm : Text :=
  "\n\"//\"( \"\"\n\".p\"()\"a\\\"\\\\\n\x60\" )\t\"$\x7bx\x7d\"".toList

theorem prints_sampleForest : Prints sampleForest 2 sampleForm := by
  have hinner : Prints [.leaf [] .start, .leaf ".p".toList .start,
      .leaf "a\"\\\n\x60".toList .start] 1 " \"\"\n\".p\"()\"a\\\"\\\\\n\x60\" ".toList :=
    .word (b := [' ']) rfl
      (.list (b := ['\n']) rfl (.blanks (t := []) rfl)
        (.word (b := []) rfl (.blanks (t := [' ']) rfl) (fun h => absurd rfl h)))
      (fun _ => ⟨'\n', _, rfl, rfl⟩)
  exact .list (b := ['\n']) rfl hinner
    (.word (b := ['\t']) rfl (.blanks (t := []) rfl) (fun h => absurd rfl h))

theorem parse_of_prints_sampleForest :
    Prints sampleForest 2 sampleForm ∧
      ∃ es, parse sampleForm [("x".toList, "(".toList)] = .ok es ∧
        Entry.sameAll es sampleForest = true :=
  ⟨prints_sampleForest, (parse_of_prints prints_sampleForest _).2.1 (by decide)⟩

end PhotoPipeline
