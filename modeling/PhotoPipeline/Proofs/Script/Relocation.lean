/-
**Reading elsewhere.**

The scanner hands places on and never asks what they are: they go into the word, into the lists that
it opens, and into errors.  Nor does it look at the entries that it has read.  So what it makes of a
text at another place of a script, behind other entries, is what it makes of the text by itself, with
other places and with those entries in front.

The limit of open lists and the faults that a text is refused for do not depend on either.

Main definitions:

* `PhotoPipeline.Entry.relocate`, `PhotoPipeline.Entry.relocateAll` — entries with other places;
* `PhotoPipeline.relocated` — an outcome with another result, or with the error at another place;
* `PhotoPipeline.Scanner.elsewhere` — **a scanner with other places and with entries in front**.

Main results:

* `PhotoPipeline.Scanner.relocated_dispatch`, `PhotoPipeline.Scanner.relocated_finish` — one
  character, and the end, wherever they are read;
* `PhotoPipeline.Scanner.relocated_readOn` — a text, if its places change as the text moves;
* `PhotoPipeline.Scanner.relocated_readOn_const` — a text, if its places are forgotten.
-/
import PhotoPipeline.Proofs.Script.Steps

set_option relaxedAutoImplicit false
set_option autoImplicit false

namespace PhotoPipeline

/-! ### Other places -/

namespace Entry

mutual

/-- The entry with every place changed. -/
def relocate (f : Location → Location) : Entry → Entry
  | ⟨v, cs, l⟩ => ⟨v, relocateAll f cs, f l⟩

/-- The entries with every place changed. -/
def relocateAll (f : Location → Location) : List Entry → List Entry
  | [] => []
  | e :: es => relocate f e :: relocateAll f es

end

variable (f : Location → Location)

theorem relocateAll_eq_map (es : List Entry) : relocateAll f es = es.map (relocate f) := by
  induction es with
  | nil => rfl
  | cons e es ih => rw [relocateAll, ih, List.map_cons]

theorem relocateAll_reverse (es : List Entry) :
    relocateAll f es.reverse = (relocateAll f es).reverse := by
  rw [relocateAll_eq_map, relocateAll_eq_map, List.map_reverse]

mutual

/-- Forgetting places is moving all of them to the beginning. -/
theorem relocate_const : ∀ e : Entry, relocate (fun _ => .start) e = bare e
  | ⟨v, cs, l⟩ => by rw [relocate, bare, relocateAll_const cs]

theorem relocateAll_const : ∀ es : List Entry, relocateAll (fun _ => .start) es = bareAll es
  | [] => rfl
  | e :: es => by rw [relocateAll, bareAll, relocate_const e, relocateAll_const es]

end

end Entry

/-- An outcome with another result, or with the error at another place. -/
def relocated {α β : Type} (f : Location → Location) (g : α → β) :
    Except ScriptError α → Except ScriptError β
  | .ok a => .ok (g a)
  | .error e => .error ⟨e.fault, f e.location⟩

section

variable {α β γ δ : Type} {f : Location → Location} {g : α → β} {h : γ → δ}

theorem relocated_bind {k : α → Except ScriptError γ} {k' : β → Except ScriptError δ}
    (hk : ∀ a, relocated f h (k a) = k' (g a)) (x : Except ScriptError α) :
    relocated f h (x >>= k) = relocated f g x >>= k' := by
  cases x with
  | error e => rfl
  | ok a => exact hk a

theorem relocated_ite {p : Prop} [Decidable p] {x y : Except ScriptError α}
    {x' y' : Except ScriptError β} (hx : relocated f g x = x') (hy : relocated f g y = y') :
    relocated f g (if p then x else y) = if p then x' else y' := by
  split
  · exact hx
  · exact hy

end

/-- The mode with every place changed. -/
def ScanMode.relocate (f : Location → Location) : ScanMode → ScanMode
  | plain => plain
  | escape l => escape (f l)
  | dollar l => dollar (f l)
  | slash l => slash (f l)
  | comment => comment
  | string l => string (f l)
  | stringEscape l l' => stringEscape (f l) (f l')
  | expression l => expression (f l)
  | expressionDollar l l' => expressionDollar (f l) (f l')
  | .variable l name inside => .variable (f l) name (inside.map f)

namespace Word

/-- The word with another start. -/
def relocate (f : Location → Location) (w : Word) : Word := { w with start := w.start.map f }

variable (f : Location → Location) (w : Word) (l : Location)

theorem getD_relocate : (w.relocate f).start.getD (f l) = f (w.start.getD l) := by
  cases h : w.start <;> simp [relocate, h]

theorem relocate_push (c : Char) : (w.push c l).relocate f = (w.relocate f).push c (f l) := by
  rw [push, push, getD_relocate]
  rfl

theorem relocate_append (t : Text) :
    (w.append t l).relocate f = (w.relocate f).append t (f l) := by
  rw [append, append, getD_relocate]
  rfl

theorem relocate_quote : (w.quote l).relocate f = (w.relocate f).quote (f l) := by
  rw [quote, quote, getD_relocate]
  rfl

end Word

namespace Scanner

/-! ### Other entries -/

section

variable (f : Location → Location) (front : List Entry)

/-- The entries of a list that stands inside the open lists.  Only at the top level there are more
entries in front of them. -/
def entriesOver (es : List Entry) : List OpenList → List Entry
  | [] => Entry.relocateAll f es ++ front.reverse
  | _ :: _ => Entry.relocateAll f es

/-- The open lists, with more entries in front of those at the top level. -/
def openedOver : List OpenList → List OpenList
  | [] => []
  | o :: os => ⟨o.head, f o.location, entriesOver f front o.before os⟩ :: openedOver os

/-- **The scanner as it would be elsewhere**: with every place changed, and with more entries in
front of those at the top level. -/
def elsewhere (s : Scanner) : Scanner where
  mode := s.mode.relocate f
  here := f s.here
  word := s.word.relocate f
  lineStart := s.lineStart
  entries := entriesOver f front s.entries s.opened
  opened := openedOver f front s.opened
  limit := s.limit

end

variable {f : Location → Location} {front : List Entry}

theorem entriesOver_cons (e : Entry) (es : List Entry) (os : List OpenList) :
    entriesOver f front (e :: es) os = e.relocate f :: entriesOver f front es os := by
  cases os <;> rfl

theorem length_openedOver (os : List OpenList) : (openedOver f front os).length = os.length := by
  induction os with
  | nil => rfl
  | cons o os ih => rw [openedOver, List.length_cons, List.length_cons, ih]

variable {s : Scanner} {l : Location}

theorem elsewhere_take (c : Char) (mode : ScanMode) :
    (s.take c l mode).elsewhere f front =
      (s.elsewhere f front).take c (f l) (mode.relocate f) := by
  simp only [take, elsewhere, Word.relocate_push]

theorem elsewhere_flush (s : Scanner) :
    s.flush.elsewhere f front = (s.elsewhere f front).flush := by
  have hempty : (s.word.relocate f).isEmpty = s.word.isEmpty := rfl
  simp only [flush, elsewhere, hempty]
  split
  · rfl
  · simp only [entriesOver_cons, Entry.leaf, Entry.relocate, Word.getD_relocate]
    rfl

/-! ### One character -/

theorem relocated_openList (s : Scanner) (l : Location) :
    relocated f (elsewhere f front) (s.openList l) = (s.elsewhere f front).openList (f l) := by
  have hempty : (s.word.relocate f).isEmpty = s.word.isEmpty := rfl
  simp only [openList, elsewhere, hempty, length_openedOver]
  split
  · rfl
  · refine congrArg Except.ok ?_
    simp only [elsewhere, openedOver, Word.getD_relocate]
    split <;> rfl

theorem relocated_closeList (s : Scanner) (l : Location) :
    relocated f (elsewhere f front) (s.closeList l) = (s.elsewhere f front).closeList (f l) := by
  simp only [closeList, ← elsewhere_flush]
  cases ho : s.flush.opened with
  | nil => simp [elsewhere, ho, openedOver, relocated]
  | cons o os =>
      have hclosed : entriesOver f front (⟨o.head, s.flush.entries.reverse, o.location⟩ :: o.before)
          os = ⟨o.head, (Entry.relocateAll f s.flush.entries).reverse, f o.location⟩ ::
            entriesOver f front o.before os := by
        rw [entriesOver_cons, Entry.relocate, Entry.relocateAll_reverse]
      simp only [relocated, elsewhere, ho, openedOver, hclosed]
      rfl

theorem relocated_substitute (vars : Vars) (s : Scanner) (name : Text) (l : Location)
    (mode : ScanMode) :
    relocated f (elsewhere f front) (s.substitute vars name l mode) =
      (s.elsewhere f front).substitute vars name (f l) (mode.relocate f) := by
  rw [substitute, substitute]
  cases vars.lookup name with
  | none => rfl
  | some value => simp only [relocated, elsewhere, Word.relocate_append]

theorem relocated_feedPlain (s : Scanner) (c : Char) (l : Location) :
    relocated f (elsewhere f front) (s.feedPlain c l) =
      (s.elsewhere f front).feedPlain c (f l) := by
  have hplain : ({ s with mode := .plain } : Scanner).elsewhere f front =
      { s.elsewhere f front with mode := .plain } := rfl
  have hblank : relocated f (elsewhere f front) (.ok
      { ({ s with mode := .plain } : Scanner).flush with
        lineStart := ({ s with mode := .plain } : Scanner).flush.lineStart || c == '\n' }) = .ok
      { (({ s with mode := .plain } : Scanner).elsewhere f front).flush with
        lineStart := (({ s with mode := .plain } : Scanner).elsewhere f front).flush.lineStart ||
          c == '\n' } := by
    rw [← elsewhere_flush]
    rfl
  simp only [feedPlain, ← hplain]
  refine relocated_ite ?_ (relocated_ite ?_ (relocated_ite rfl (relocated_ite rfl (relocated_ite rfl
    (relocated_ite (relocated_openList ..) (relocated_ite (relocated_closeList ..)
      (relocated_ite hblank ?_)))))))
  · simp only [relocated, elsewhere, Word.relocate_quote]
    rfl
  · exact congrArg Except.ok (elsewhere_take ..)
  · exact congrArg Except.ok (elsewhere_take ..)

theorem elsewhere_feedExpression (s : Scanner) (opened : Location) (c : Char) (l : Location) :
    (s.feedExpression opened c l).elsewhere f front =
      (s.elsewhere f front).feedExpression (f opened) c (f l) := by
  rw [feedExpression, feedExpression]
  split
  · exact elsewhere_take ..
  · split
    · rfl
    · exact elsewhere_take ..

/-- **One character elsewhere.** -/
theorem relocated_dispatch (vars : Vars) (s : Scanner) (c : Char) (l : Location) :
    relocated f (elsewhere f front) (dispatch vars s c l) =
      dispatch vars (s.elsewhere f front) c (f l) := by
  have hmode : (s.elsewhere f front).mode = s.mode.relocate f := rfl
  rw [dispatch, dispatch, hmode]
  cases s.mode with
  | plain => exact relocated_feedPlain ..
  | escape backslash => exact congrArg Except.ok (elsewhere_take ..)
  | dollar place =>
      refine relocated_ite rfl ?_
      rw [relocated_feedPlain, elsewhere_take]
      rfl
  | slash place =>
      refine relocated_ite rfl ?_
      rw [relocated_feedPlain, elsewhere_take]
      rfl
  | comment =>
      refine congrArg Except.ok ?_
      split <;> rfl
  | string opened =>
      exact relocated_ite rfl (relocated_ite rfl (congrArg Except.ok (elsewhere_take ..)))
  | stringEscape opened backslash => exact congrArg Except.ok (elsewhere_take ..)
  | expression opened => exact congrArg Except.ok (elsewhere_feedExpression ..)
  | expressionDollar opened place =>
      refine relocated_ite rfl ?_
      rw [relocated, elsewhere_feedExpression, elsewhere_take]
      rfl
  | «variable» place reversed inside =>
      refine relocated_ite ?_ rfl
      rw [relocated_substitute]
      cases inside <;> rfl

/-! ### The end of the script -/

theorem relocated_complete (s : Scanner) :
    relocated f (fun es => front ++ Entry.relocateAll f es) s.complete =
      (s.elsewhere f front).complete := by
  simp only [complete, ← elsewhere_flush]
  cases ho : s.flush.opened with
  | nil => simp [elsewhere, ho, openedOver, entriesOver, relocated, Entry.relocateAll_reverse]
  | cons o os => simp [elsewhere, ho, openedOver, relocated]

/-- **The end of the script elsewhere.** -/
theorem relocated_finish (s : Scanner) :
    relocated f (fun es => front ++ Entry.relocateAll f es) s.finish =
      (s.elsewhere f front).finish := by
  have hmode : (s.elsewhere f front).mode = s.mode.relocate f := rfl
  rw [finish, finish, hmode]
  cases s.mode with
  | plain | comment => exact relocated_complete s
  | dollar place =>
      rw [relocated_complete, elsewhere_take]
      rfl
  | slash place =>
      rw [relocated_complete, elsewhere_take]
      rfl
  | _ => rfl

/-! ### A text -/

/-- **A text elsewhere**, when its places change as they do if the text moves. -/
theorem relocated_readOn (hf : ∀ l c, f (l.advance c) = (f l).advance c) (vars : Vars) (t : Text)
    (s : Scanner) :
    relocated f (fun es => front ++ Entry.relocateAll f es) (s.readOn vars t) =
      (s.elsewhere f front).readOn vars t := by
  induction t generalizing s with
  | nil => exact relocated_finish s
  | cons c t ih =>
      have hfeed : relocated f (elsewhere f front) (s.feed vars c) =
          (s.elsewhere f front).feed vars c := by
        rw [feed, relocated_dispatch, feed]
        simp only [elsewhere, hf]
      rw [readOn, readOn, feedAll_cons, feedAll_cons, bind_assoc, bind_assoc, ← hfeed]
      exact relocated_bind ih _

/-- **A text elsewhere**, when its places are forgotten: it does not matter where it stands. -/
theorem relocated_readOn_const {s r : Scanner} {l : Location}
    (h : s.elsewhere (fun _ => l) [] = r.elsewhere (fun _ => l) []) (vars : Vars) (t : Text) :
    relocated (fun _ => l) (Entry.relocateAll fun _ => l) (s.readOn vars t) =
      relocated (fun _ => l) (Entry.relocateAll fun _ => l) (r.readOn vars t) := by
  induction t generalizing s r with
  | nil =>
      have hfinish : ∀ s : Scanner,
          relocated (fun _ => l) (fun es => [] ++ Entry.relocateAll (fun _ => l) es) s.finish =
            (s.elsewhere (fun _ => l) []).finish := relocated_finish
      exact (hfinish s).trans ((congrArg finish h).trans (hfinish r).symm)
  | cons c t ih =>
      have hfeed : relocated (fun _ => l) (elsewhere (fun _ => l) []) (s.feed vars c) =
          relocated (fun _ => l) (elsewhere (fun _ => l) []) (r.feed vars c) := by
        rw [feed, feed, relocated_dispatch, relocated_dispatch]
        exact congrArg (dispatch vars · c l) h
      rw [readOn, readOn, feedAll_cons, feedAll_cons, bind_assoc, bind_assoc]
      cases hs : s.feed vars c with
      | error e =>
          cases hr : r.feed vars c with
          | error e' =>
              rw [hs, hr] at hfeed
              exact congrArg Except.error (Except.error.inj hfeed)
          | ok r' => rw [hs, hr] at hfeed; cases hfeed
      | ok s' =>
          cases hr : r.feed vars c with
          | error e' => rw [hs, hr] at hfeed; cases hfeed
          | ok r' =>
              rw [hs, hr] at hfeed
              exact ih (Except.ok.inj hfeed)

end Scanner

end PhotoPipeline
