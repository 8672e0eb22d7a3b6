/-
**Scalars that are written are read again.**

A kind of element says in which order its arguments are written and reads them in the same order.  When
they are scalars, it can rely on getting back what was written: whatever strings, integers, values and
colours they are, at any level of indentation and whether or not they are written on one line, the text
of the element is parsed to one entry, whose arguments are one word for each scalar, and each accessor
finds the scalar it expects.  Afterwards nothing is left.  An expression comes back with the text it was
written as and with its tree; a literal stays a literal, even where it looks like a number, a name or a
comment, or consists of a backtick.

A number that is no value is left out, as no text says how it is read back.

Main definitions:

* `PhotoPipeline.Reader.inTurn` — readings one after another;
* `PhotoPipeline.Reader.OrDefault` — a reading, or the same with a default;
* `PhotoPipeline.Scalar.MatchedBy` — the accessors that fit a scalar.

Main results:

* `PhotoPipeline.Scalar.MatchedBy.gives` — an accessor reads its scalar from the word of it;
* `PhotoPipeline.Reader.gives_inTurn` — and so do accessors in turn;
* `PhotoPipeline.Element.render_reads_back` — **scalars that are written are read again**.
-/
import PhotoPipeline.Proofs.Expr.Grammar
import PhotoPipeline.Proofs.Recipe.Decode

set_option relaxedAutoImplicit false
set_option autoImplicit false

namespace PhotoPipeline

/-! ### Accessors -/

namespace Reader

variable {ε α β : Type}

/-- Readings one after another. -/
def inTurn : List (Reader ε α) → Reader ε (List α)
  | [] => return []
  | r :: rs => do
    let first ← r
    let others ← inTurn rs
    return first :: others

/-- The reading is the given one, or the given one with a default for when nothing is left. -/
def OrDefault (base r : Reader ε α) : Prop := r = base ∨ ∃ default, r = withDefault default base

theorem gives_map {r : Reader ε α} {f : α → β} {c d : Cursor ε} {b : β} :
    Gives (f <$> r) c b d ↔ ∃ a, Gives r c a d ∧ f a = b := by
  rw [map_eq_pure_bind, gives_bind]
  simp only [gives_pure]
  constructor
  · rintro ⟨a, u, ha, hb, rfl⟩
    exact ⟨a, ha, hb⟩
  · rintro ⟨a, ha, hb⟩
    exact ⟨a, d, ha, hb, rfl⟩

/-- Where there is an argument, a default makes no difference. -/
theorem OrDefault.gives_iff {base r : Reader ε α} (h : OrDefault base r) {c d : Cursor ε} {a : α}
    (hne : c.rest ≠ []) : Gives r c a d ↔ Gives base c a d := by
  rcases h with rfl | ⟨default, rfl⟩
  · exact Iff.rfl
  · rw [Gives, withDefault_of_ne_nil default base c hne, Gives]

end Reader

open Reader

/-- The reading is the accessor that fits the scalar, with or without a default. -/
inductive Scalar.MatchedBy {ε : Type} : Scalar → Reader ε Scalar → Prop
  | string {t : Text} {r : Reader ε Text} (hr : OrDefault Reader.string r) :
      MatchedBy (.string t) (Scalar.string <$> r)
  | int {n : Int64} {r : Reader ε Int64} (hr : OrDefault Reader.int r) :
      MatchedBy (.int n) (Scalar.int <$> r)
  | value {v : Value} {r : Reader ε Value} (hr : OrDefault Reader.value r) :
      MatchedBy (.value v) (Scalar.value <$> r)
  | colour {k : Colour} {r : Reader ε Colour} (hr : OrDefault Reader.colour r) :
      MatchedBy (.colour k) (Scalar.colour <$> r)

section

variable {ε : Type}

/-- An accessor that takes a word reads a scalar from it that the word is read as. -/
theorem gives_of_takes {α : Type} {base r : Reader ε α} {p : Text → α → Prop} (hbase : Takes base p)
    (hr : OrDefault base r) (make : α → Scalar) {c : Cursor ε} {x : Argument ε}
    {rest : List (Argument ε)} {w : Text} {a : α} (hrest : c.rest = x :: rest) (hx : x.IsWord w)
    (hp : p w a) : Gives (make <$> r) c (make a) (c.advance 1 rest c.scope) := by
  have hne : c.rest ≠ [] := by
    rw [hrest]
    exact List.cons_ne_nil _ _
  refine gives_map.2 ⟨a, (hr.gives_iff hne).2 ?_, rfl⟩
  exact (hbase c _ a).2 ⟨x, rest, w, hrest, hx, hp, rfl⟩

/-- **An accessor reads its scalar** from the word that the scalar is written as. -/
theorem Scalar.MatchedBy.gives {s : Scalar} {r : Reader ε Scalar} (h : s.MatchedBy r) (hs : s.Sane)
    {c : Cursor ε} {x : Argument ε} {rest : List (Argument ε)} (hrest : c.rest = x :: rest)
    (hx : x.IsWord s.word) : Gives r c s (c.advance 1 rest c.scope) := by
  have haccepts := Scalar.accepts_word hs
  cases h with
  | string hr => exact gives_of_takes takes_string hr Scalar.string hrest hx haccepts.symm
  | int hr => exact gives_of_takes takes_int hr Scalar.int hrest hx haccepts
  | value hr => exact gives_of_takes takes_value hr Scalar.value hrest hx haccepts
  | colour hr => exact gives_of_takes takes_colour hr Scalar.colour hrest hx haccepts

/-- **Accessors in turn read scalars** from the words that those are written as. -/
theorem Reader.gives_inTurn {items : List Scalar} {readers : List (Reader ε Scalar)}
    (h : List.Forall₂ Scalar.MatchedBy items readers) (hs : ∀ s ∈ items, s.Sane) {c : Cursor ε}
    (hrest : List.Forall₂ Argument.IsWord (items.map Scalar.word) c.rest) :
    Gives (inTurn readers) c items (c.advance items.length [] c.scope) := by
  induction h generalizing c with
  | nil =>
      cases hc : c.rest with
      | nil => exact gives_pure.2 ⟨rfl, (c.advance_zero hc).symm⟩
      | cons => rw [hc] at hrest; cases hrest
  | @cons s r items readers hr _ ih =>
      cases hc : c.rest with
      | nil => rw [hc] at hrest; cases hrest
      | cons x rest =>
          rw [hc] at hrest
          obtain ⟨hx, hwords⟩ := List.forall₂_cons.1 hrest
          obtain ⟨hs, hothers⟩ := List.forall_mem_cons.1 hs
          have hfirst := hr.gives hs hc hx
          have hinTurn := ih hothers (c := c.advance 1 rest c.scope) hwords
          have hend : (c.advance 1 rest c.scope).advance items.length [] c.scope =
              c.advance (s :: items).length [] c.scope := by
            simp only [Cursor.advance, List.length_cons, Nat.add_assoc, Nat.add_comm 1]
          rw [inTurn, gives_bind]
          refine ⟨s, _, hfirst, gives_bind.2 ⟨items, _, hinTurn, gives_pure.2 ⟨rfl, hend⟩⟩⟩

end

/-! ### Writing and reading -/

/-- A layout of scalars only is filled with what they are written as. -/
theorem fillLayout_scalars (items : List Scalar) (elements : List Text) :
    fillLayout (items.map some) elements = items.map Scalar.render := by
  induction items with
  | nil => rfl
  | cons s items ih => rw [List.map_cons, fillLayout, ih, List.map_cons]

namespace Element

variable {ε : Type} [Plugin ε]

/-- The text of an element that writes scalars is parsed to one entry, whose arguments are their
words. -/
theorem parse_render {x : ε} {items : List Scalar} (hlayout : Plugin.layout x = items.map some)
    (hne : Plugin.name x ≠ []) (hbare : (Plugin.name x).all isBare = true)
    (hcomment : looksLikeComment (Plugin.name x) = false) (hitems : ∀ s ∈ items, s.Sane)
    (es : List (Element ε)) (depth : Nat) (vars : Vars) :
    ∃ entry, parse ((plugin x es).render depth) vars = .ok [entry] ∧ entry.value = Plugin.name x ∧
      List.Forall₂ Entry.IsWord (items.map Scalar.word) entry.children := by
  have harguments : List.Forall₂ (fun t e => Reads vars 0 t [e]) (items.map Scalar.render)
      (items.map fun s => Entry.leaf s.word .start) := by
    rw [List.forall₂_map_left_iff, List.forall₂_map_right_iff, List.forall₂_same]
    exact fun s hs => (Scalar.spells_render vars (hitems s hs)).reads
  have hsettles := Settles.layOut (Spells.bare hne hbare hcomment) harguments (Plugin.isInline x)
    depth
  have hrender : (plugin x es).render depth =
      layOut (Plugin.name x) (Plugin.isInline x) depth (items.map Scalar.render) := by
    rw [render, hlayout, fillLayout_scalars]
  obtain ⟨entries, hparse, hentries⟩ := parse_of_settles hsettles (by decide)
  rw [← hrender] at hparse
  have hone : ∃ entry, entries = [entry] := by
    rw [Entry.bareAll_eq_map, Entry.bareAll_eq_map] at hentries
    exact List.length_eq_one_iff.1 (by simpa using congrArg List.length hentries)
  obtain ⟨⟨head, children, l⟩, rfl⟩ := hone
  obtain ⟨hentry, -⟩ := List.cons.inj hentries
  obtain ⟨hhead, hchildren, -⟩ := Entry.mk.inj hentry
  have hwords : (items.map fun s => Entry.leaf s.word .start) =
      (items.map Scalar.word).map fun w => .leaf w .start := by
    rw [List.map_map]
    rfl
  rw [hwords, bareAll_words] at hchildren
  exact ⟨_, hparse, hhead, forall₂_isWord_of_bareAll_eq hchildren⟩

/-- **Scalars that are written are read again.**  Let an element write strings, integers, colours and
values that words are read as, in this order, under a name that may stand in a script as it is.  At any
level of indentation, on one line or not, its text is parsed to one entry, whatever the variables stand
for.  The entry has the name as its head and below it one leaf for each scalar; and with any kinds of
elements, whatever is known and under whatever name, the accessors that fit the scalars read in turn
what was written, and reading may end there. -/
theorem render_reads_back {x : ε} {items : List Scalar}
    (hlayout : Plugin.layout x = items.map some) (hne : Plugin.name x ≠ [])
    (hbare : (Plugin.name x).all isBare = true)
    (hcomment : looksLikeComment (Plugin.name x) = false)
    (hfloat : ∀ y, Scalar.float y ∉ items)
    (hvalue : ∀ v, Scalar.value v ∈ items → ∃ w, Value.parse w = .ok v)
    (es : List (Element ε)) (depth : Nat) (vars : Vars) :
    ∃ entry, parse ((plugin x es).render depth) vars = .ok [entry] ∧ entry.value = Plugin.name x ∧
      List.Forall₂ Entry.IsWord (items.map Scalar.word) entry.children ∧
      ∀ (c : Catalogue ε) (readers : List (Reader ε Scalar)) (name : Text) (scope : Scope ε),
        List.Forall₂ Scalar.MatchedBy items readers →
          ∃ d, Gives (inTurn readers) ⟨name, 0, argumentsOf c entry.children, scope⟩ items d ∧
            Gives finish d () d := by
  have hsane : ∀ s ∈ items, s.Sane := by
    intro s hs
    cases s with
    | value v =>
        obtain ⟨w, hw⟩ := hvalue v hs
        exact Scalar.Accepts.sane (s := .value v) hw
    | float y => exact hfloat y hs
    | _ => exact trivial
  obtain ⟨entry, hparse, hhead, hwords⟩ :=
    parse_render hlayout hne hbare hcomment hsane es depth vars
  refine ⟨entry, hparse, hhead, hwords, fun c readers name scope hreaders => ?_⟩
  refine ⟨_, gives_inTurn hreaders hsane (forall₂_isWord_argumentsOf.2 hwords), ?_⟩
  exact (finish_eq_ok_iff _).2 rfl

/-! ### A sample -/

/-- An element that writes scalars of every kind and passes the image on. -/
inductive Ledger where
  | ledger

/-- The width of the image with a line break behind it, as a value. -/
def brokenWidth : Value := .expression "\x60w\n\x60".toList (.dimension .width)

theorem parse_brokenWidth : Value.parse "\x60w\n\x60".toList = .ok brokenWidth := by
  have hletter : isBlank 'w' = false ∧ ExprToken.isNumberChar 'w' = false := by decide
  have hname : ExprToken.isNameStart 'w' = true ∧ ExprToken.isNameChar '\n' = false := by
    decide +kernel
  have htokens : ExprToken.ofText ['w', '\n'] = .ok [.name ['w']] := by
    simp [ExprToken.ofText, ExprToken.cons, hletter, hname, isBlank_newline]
  have hbody : Value.body? "\x60w\n\x60".toList = some ['w', '\n'] := rfl
  have hderived : Expr.ofTokens [.name ['w']] = .ok (.dimension .width) :=
    Expr.ofTokens_eq_ok_iff.2 ⟨.single Expr.Layer.noConfusion
      (.single (l := .product) Expr.Layer.noConfusion (.dimension .width ['w'] (by decide))), rfl, rfl⟩
  have hparse : Expr.parse ['w', '\n'] = .ok (.dimension .width) := by
    rw [Expr.parse, htokens]
    exact hderived
  simp only [Value.parse, hbody, hparse, brokenWidth]

/-- Scalars whose written forms could be taken for something else. -/
def ledgerItems : List Scalar :=
  [.string [], .string "// $\x7bw\x7d".toList, .int (-7), .value brokenWidth,
    .value (.literal "\x60".toList), .value (.literal "12".toList), .colour ⟨255, 0, 0, 136⟩]

instance : Plugin Ledger where
  name _ := "a/b//".toList
  isInline _ := true
  layout _ := ledgerItems.map some
  apply _ image s := (.ok image, s)

/-- The accessors that fit the scalars, the last two of them with defaults. -/
def ledgerReaders : List (Reader Ledger Scalar) :=
  [Scalar.string <$> Reader.string, Scalar.string <$> Reader.string, Scalar.int <$> Reader.int,
    Scalar.value <$> Reader.value, Scalar.value <$> Reader.value,
    Scalar.value <$> Reader.valueD (.literal []), Scalar.colour <$> Reader.colourD .transparent]

/-- The line break in the expression brings about the block form. -/
theorem render_reads_back_ledger :
    (∀ v, Scalar.value v ∈ ledgerItems → ∃ w, Value.parse w = .ok v) ∧
      (plugin Ledger.ledger []).render 1 =
        ("a/b//(\n    \"\"\n    \"// $\x7bw\x7d\"\n    -7\n    \x60w\n\x60\n    \"\x60\"\n" ++
          "    12\n    #FF000088\n  )").toList ∧
      ∃ entry, parse ((plugin Ledger.ledger []).render 1) [("w".toList, "x".toList)] = .ok [entry] ∧
        ∃ d, Gives (inTurn ledgerReaders)
            ⟨entry.value, 0, argumentsOf (.builtin defaultBudget) entry.children, .empty⟩
            ledgerItems d ∧
          Gives finish d () d := by
  have hfloat : ∀ y, Scalar.float y ∉ ledgerItems := by
    intro y hy
    simp [ledgerItems] at hy
  have hvalue : ∀ v, Scalar.value v ∈ ledgerItems → ∃ w, Value.parse w = .ok v := by
    intro v hv
    have hv : v = brokenWidth ∨ v = .literal "\x60".toList ∨ v = .literal "12".toList := by
      simpa [ledgerItems] using hv
    rcases hv with rfl | rfl | rfl
    · exact ⟨_, parse_brokenWidth⟩
    · exact ⟨"\x60".toList, rfl⟩
    · exact ⟨"12".toList, rfl⟩
  have hreaders : List.Forall₂ Scalar.MatchedBy ledgerItems ledgerReaders :=
    .cons (.string (.inl rfl)) (.cons (.string (.inl rfl)) (.cons (.int (.inl rfl))
      (.cons (.value (.inl rfl)) (.cons (.value (.inl rfl)) (.cons (.value (.inr ⟨_, rfl⟩))
        (.cons (.colour (.inr ⟨_, rfl⟩)) .nil))))))
  obtain ⟨entry, hparse, -, -, hread⟩ := render_reads_back (x := Ledger.ledger) rfl (by decide)
    (by decide) rfl hfloat hvalue [] 1 [("w".toList, "x".toList)]
  exact ⟨hvalue, rfl, entry, hparse, hread _ _ _ _ hreaders⟩

end Element

end PhotoPipeline
