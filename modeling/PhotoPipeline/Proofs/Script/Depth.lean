/-
**How deep a script may be.**

At most 256 lists may be open at once.  An entry without arguments opens no list, so the forest of
a script has up to 257 levels.  A text that opens one list more than the scanner has room for is
refused, whatever follows it.

Main definitions:

* `PhotoPipeline.Entry.levels`, `PhotoPipeline.Entry.levelsAll` — the number of levels;
* `PhotoPipeline.Nest.Fits` — the levels built so far, list by list;
* `PhotoPipeline.Overflows` — a piece of script opens too many lists.

Main results:

* `PhotoPipeline.levelsAll_le_of_parse` — **how many levels a script has**;
* `PhotoPipeline.Overflows.list`, `PhotoPipeline.Settles.append_overflows` — where too many lists
  are opened;
* `PhotoPipeline.parse_of_overflows` — **what is too deep is refused**.
-/
import PhotoPipeline.Proofs.Script.Grammar

set_option relaxedAutoImplicit false
set_option autoImplicit false

namespace PhotoPipeline

/-! ### Levels -/

namespace Entry

mutual

/-- The number of levels of an entry. -/
def levels : Entry → Nat
  | ⟨_, children, _⟩ => levelsAll children + 1

/-- The number of levels of entries. -/
def levelsAll : List Entry → Nat
  | [] => 0
  | e :: es => max (levels e) (levelsAll es)

end

theorem levelsAll_append (as bs : List Entry) :
    levelsAll (as ++ bs) = max (levelsAll as) (levelsAll bs) := by
  induction as with
  | nil => exact (Nat.zero_max _).symm
  | cons a as ih => rw [List.cons_append, levelsAll, levelsAll, ih, Nat.max_assoc]

theorem levelsAll_reverse (es : List Entry) : levelsAll es.reverse = levelsAll es := by
  induction es with
  | nil => rfl
  | cons e es ih =>
      rw [List.reverse_cons, levelsAll_append, ih, levelsAll, levelsAll, levelsAll, Nat.max_zero,
        Nat.max_comm]

mutual

theorem levels_bare : ∀ e : Entry, e.bare.levels = e.levels
  | ⟨_, children, _⟩ => by rw [bare, levels, levels, levelsAll_bareAll children]

theorem levelsAll_bareAll : ∀ es : List Entry, levelsAll (bareAll es) = levelsAll es
  | [] => rfl
  | e :: es => by rw [bareAll, levelsAll, levelsAll, levels_bare e, levelsAll_bareAll es]

end

end Entry

open Entry

namespace Nest

/-- The entries in every open list have at most one level more than there is room for further
lists. -/
def Fits (limit : Nat) (entries : List Entry) : List (Text × List Entry) → Prop
  | [] => levelsAll entries ≤ limit + 1
  | (_, before) :: opened =>
    opened.length < limit ∧ levelsAll entries + opened.length ≤ limit ∧ Fits limit before opened

variable {limit : Nat} {entries es : List Entry} {opened : List (Text × List Entry)}
  {n m : Nest} {t : Token} {ts : List Token}

theorem Fits.length_le (h : Fits limit entries opened) : opened.length ≤ limit := by
  cases opened with
  | nil => exact Nat.zero_le _
  | cons o opened => exact h.1

theorem fits_iff (h : opened.length ≤ limit) : Fits limit entries opened ↔
    levelsAll entries + opened.length ≤ limit + 1 ∧
      ∀ head before outer, opened = (head, before) :: outer → Fits limit before outer := by
  cases opened with
  | nil => simp [Fits]
  | cons o opened =>
      obtain ⟨head, before⟩ := o
      have hlt : opened.length < limit := h
      simp only [Fits, hlt, true_and, List.length_cons, List.cons.injEq, Prod.mk.injEq]
      constructor
      · rintro ⟨hlevels, hbefore⟩
        refine ⟨by omega, ?_⟩
        rintro _ _ _ ⟨⟨rfl, rfl⟩, rfl⟩
        exact hbefore
      · rintro ⟨hlevels, hbefore⟩
        exact ⟨by omega, hbefore _ _ _ ⟨⟨rfl, rfl⟩, rfl⟩⟩

/-- A token keeps the levels within the limit. -/
theorem Fits.add (h : Fits limit n.entries n.opened) (hm : n.add limit t = some m) :
    Fits limit m.entries m.opened := by
  obtain ⟨hlevels, houter⟩ := (fits_iff h.length_le).1 h
  cases t with
  | word w =>
      obtain rfl := Option.some.inj hm
      refine (fits_iff h.length_le).2 ⟨?_, houter⟩
      have hle := h.length_le
      simp only [levelsAll, levels, leaf]
      omega
  | opening head =>
      rw [Nest.add] at hm
      split at hm
      · next hlt =>
          obtain rfl := Option.some.inj hm
          refine ⟨hlt, ?_, h⟩
          rw [levelsAll]
          omega
      · cases hm
  | closing =>
      obtain ⟨entries, _ | ⟨⟨head, before⟩, opened⟩⟩ := n
      · cases hm
      · obtain rfl := Option.some.inj hm
        obtain ⟨hlt, (hinner : levelsAll entries + opened.length ≤ limit), hbefore⟩ := h
        obtain ⟨hlevels, houter⟩ := (fits_iff (Nat.le_of_lt hlt)).1 hbefore
        refine (fits_iff (Nat.le_of_lt hlt)).2 ⟨?_, houter⟩
        simp only [levelsAll, levels, levelsAll_reverse]
        omega

/-- The forest that tokens lead to is within the limit. -/
theorem Fits.build (h : Fits limit n.entries n.opened) (hes : n.build limit ts = some es) :
    levelsAll es ≤ limit + 1 := by
  induction ts generalizing n with
  | nil =>
      obtain ⟨entries, _ | ⟨o, opened⟩⟩ := n
      · obtain rfl := Option.some.inj hes
        rw [levelsAll_reverse]
        exact h
      · exact nomatch hes
  | cons t ts ih =>
      obtain ⟨m, hm, hes⟩ := Option.bind_eq_some_iff.1 hes
      exact ih (h.add hm) hes

end Nest

/-- **How many levels a script has.** -/
theorem levelsAll_le_of_parse {source : Text} {vars : Vars} {es : List Entry}
    (h : parse source vars = .ok es) : levelsAll es ≤ 257 := by
  obtain ⟨ms, hlays⟩ := exists_lays true source
  have hreading := toOption_parse_eq hlays vars
  rw [h, reading] at hreading
  split at hreading
  · rw [← levelsAll_bareAll]
    have hfits : Nest.Fits maxDepth [] [] := Nat.zero_le _
    exact hfits.build hreading.symm
  · cases hreading

/-! ### Too many lists -/

/-- The piece of script `t` is refused, whatever follows it, where fewer than `d` more lists may be
opened. -/
def Overflows (vars : Vars) (d : Nat) (t : Text) : Prop :=
  ∀ s : Scanner, s.Resting → s.opened.length ≤ s.limit → s.limit < s.opened.length + d →
    ∀ u, ∃ l, s.feedAll vars (t ++ u) = .error ⟨.tooDeep, l⟩

section

open Scanner

variable {vars : Vars} {d d' : Nat} {t u h w : Text} {es : List Entry}

theorem overflows_zero (vars : Vars) (t : Text) : Overflows vars 0 t :=
  fun _ _ hle hlt => absurd hle (Nat.not_le.2 hlt)

theorem Overflows.append_right (ht : Overflows vars d t) (u : Text) :
    Overflows vars d (t ++ u) := by
  intro s hs hle hlt v
  rw [List.append_assoc]
  exact ht s hs hle hlt (u ++ v)

/-- Two pieces in turn open too many lists when the first does, or the second behind it. -/
theorem Settles.append_overflows (ht : Settles vars d t es) (hover : Overflows vars d t)
    (hu : Overflows vars d' u) : Overflows vars (max d d') (t ++ u) := by
  intro s hs hle hlt v
  rw [List.append_assoc]
  by_cases hfirst : s.limit < s.opened.length + d
  · exact hover s hs hle hfirst (u ++ v)
  · obtain ⟨r, hr, hrun⟩ := ht s hs (Nat.not_lt.1 hfirst)
    rw [feedAll_append_of_ok hrun]
    refine hu r hr.resting ?_ ?_ v <;> rw [hr.opened, hr.limit] <;> omega

/-- A piece that opens no list leaves to the next one how many it opens. -/
theorem Settles.append_overflows_zero (ht : Settles vars 0 t es) (hu : Overflows vars d u) :
    Overflows vars d (t ++ u) := by
  have h := ht.append_overflows (overflows_zero vars t) hu
  rwa [Nat.zero_max] at h

/-- A bracket is refused when no more lists may be opened. -/
theorem Scanner.Carrying.feed_open_full {s r : Scanner} (h : s.Carrying w r)
    (hs : s.limit ≤ s.opened.length) (vars : Vars) :
    ∃ l, r.feed vars '(' = .error ⟨.tooDeep, l⟩ := by
  refine ⟨r.here, ?_⟩
  rw [feed_of_plain h.mode, feedPlain_open, openList, if_pos]
  show r.limit ≤ r.opened.length
  rw [h.limit, h.opened]
  exact hs

/-- A head and a bracket open one list more than what stands behind them. -/
theorem Overflows.list (hh : Spells vars h w) (ht : Overflows vars d t) :
    Overflows vars (d + 1) (h ++ '(' :: t) := by
  intro s hs hle hlt u
  obtain ⟨p, hp, hprun⟩ := hh s hs
  rw [List.append_assoc, List.cons_append, hprun '(' _ (by decide)]
  -- the bracket itself is one too many, or what stands behind it opens too many
  by_cases hfull : s.limit ≤ s.opened.length
  · obtain ⟨l, hl⟩ := hp.feed_open_full hfull vars
    exact ⟨l, by rw [feedAll_cons, hl]; rfl⟩
  · obtain ⟨l, q, hopen, hqrest, -, hqopened, hqlimit⟩ := hp.feed_open (Nat.not_le.1 hfull) vars
    rw [feedAll_cons_of_ok hopen]
    refine ht q hqrest ?_ ?_ u <;> rw [hqopened, hqlimit, List.length_cons] <;> omega

/-- **What is too deep is refused.** -/
theorem parse_of_overflows (ht : Overflows vars d t) (hd : maxDepth < d) :
    ∃ l, parse t vars = .error ⟨.tooDeep, l⟩ := by
  obtain ⟨l, hl⟩ := ht .start resting_start (Nat.zero_le _)
    (by simpa [Scanner.start] using hd) []
  rw [List.append_nil] at hl
  exact ⟨l, by rw [parse, hl]; rfl⟩

end

end PhotoPipeline
