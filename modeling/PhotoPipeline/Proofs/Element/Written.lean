/-
**What a written element reads back as.**

The canonical text of an element is laid out in several ways, but to the scanner it is always one
entry: the name of the element over the words of its scalars and the entries of its elements.
This module says which entry that is, and that the text is read as it, at whatever level of
indentation it was written and with whatever variables it is read.

Two conditions are needed.  A pipeline's name is written as it stands, so it must be read as one
word, as it is when it is made of bare characters.  And an expression is written as it was found in
a script, so it must really be the text of that expression: this is so for every element that was
decoded.

Main definitions:

* `PhotoPipeline.Element.nodes`, `PhotoPipeline.Element.written` — the elements of a tree, with
  and without those that a reference stands for;
* `PhotoPipeline.Element.depth` — the number of levels on which an element is written;
* `PhotoPipeline.Element.toEntry` — the entry of a written element;
* `PhotoPipeline.Element.Sane`, `PhotoPipeline.Element.SpellsName` — the two conditions, for one
  element of a tree; `PhotoPipeline.Element.PlainName` is enough for the second.

Main results:

* `PhotoPipeline.Settles.layOut` — all layouts read alike;
* `PhotoPipeline.Element.settles_render_of_spells` — **a written element is read as its entry**.
-/
import Mathlib.Data.List.Forall2
import PhotoPipeline.Element.Render
import PhotoPipeline.Proofs.Script.Reading

set_option relaxedAutoImplicit false
set_option autoImplicit false

namespace PhotoPipeline

/-! ### Layouts -/

section

variable {vars : Vars} {d : Nat} {args : List Text} {entries : List Entry}

theorem isBlank_of_mem_indent {k : Nat} {c : Char} (h : c ∈ indent k) : isBlank c = true := by
  obtain rfl : c = ' ' := List.eq_of_mem_replicate h
  exact isBlank_space

theorem settles_indent (k : Nat) : Settles vars d (indent k) [] :=
  Settles.blanks (List.all_eq_true.2 fun _ h => isBlank_of_mem_indent h)

/-- Arguments on lines of their own add their entries in turn. -/
theorem settles_argumentLines (k : Nat)
    (h : List.Forall₂ (fun t e => Reads vars d t [e]) args entries) :
    Settles vars d (args.flatMap (argumentLine k)) entries := by
  induction h with
  | nil => exact Settles.nil
  | cons hhead _ ih =>
      rw [List.flatMap_cons]
      have hline := ((settles_indent (k + 1)).append_reads hhead).append_blank isBlank_newline
      exact hline.append ih

/-- Arguments on one line add their entries in turn. -/
theorem reads_intercalate
    (h : List.Forall₂ (fun t e => Reads vars d t [e]) args entries) :
    Reads vars d (List.intercalate [' '] args) entries := by
  induction h with
  | nil => exact Settles.nil.reads
  | @cons t e rest es hhead hrest ih =>
      cases hrest with
      | nil => simpa [List.intercalate] using hhead
      | @cons u f rest es hu hrest =>
          have hcat : List.intercalate [' '] (t :: u :: rest) =
              (t ++ [' ']) ++ List.intercalate [' '] (u :: rest) := by
            simp [List.intercalate]
          rw [hcat]
          exact (hhead.append_blank isBlank_space).append_reads ih

/-- **All layouts read alike**: as one entry with the arguments below it. -/
theorem Settles.layOut {name w : Text} (hname : Spells vars name w)
    (h : List.Forall₂ (fun t e => Reads vars d t [e]) args entries) (inline : Bool) (k : Nat) :
    Settles vars (d + 1) (layOut name inline k args) [⟨w, entries, .start⟩] := by
  rw [PhotoPipeline.layOut]
  split
  · next hempty =>
      obtain rfl : args = [] := List.isEmpty_iff.1 hempty
      obtain rfl : entries = [] := by cases h; rfl
      have hnil : Reads vars d [] [] := Settles.nil.reads
      exact hnil.list hname
  · split
    · exact (reads_intercalate h).list hname
    · -- the line break behind the bracket and the indentation before the last one are blanks
      have hbody : Settles vars d (['\n'] ++ args.flatMap (argumentLine k) ++ indent k)
          ([] ++ entries ++ []) :=
        ((Settles.blanks rfl).append (settles_argumentLines k h)).append (settles_indent k)
      simpa [layOutBlock] using hbody.reads.list hname

end

/-! ### Scalars -/

namespace ExprToken

/-- The characters that stand for themselves inside an expression of a script. -/
def IsPlain (c : Char) : Prop := c ≠ '\x60' ∧ c ≠ '$'

theorem isPlain_of_isBlank {c : Char} (h : isBlank c = true) : IsPlain c :=
  ⟨ne_of_isBlank h (by decide), ne_of_isBlank h (by decide)⟩

theorem isPlain_of_isNumberChar {c : Char} (h : isNumberChar c = true) : IsPlain c := by
  constructor <;> rintro rfl <;> exact absurd h (by decide)

theorem isPlain_of_isNameChar {c : Char} (h : isNameChar c = true) : IsPlain c := by
  constructor <;> rintro rfl <;> exact absurd h (by decide +kernel)

theorem isPlain_of_isNameStart {c : Char} (h : isNameStart c = true) : IsPlain c := by
  constructor <;> rintro rfl <;> exact absurd h (by decide +kernel)

theorem isPlain_of_single? {c : Char} {token : ExprToken} (h : single? c = some token) :
    IsPlain c := by
  constructor <;> rintro rfl <;> exact nomatch h

/-- A run of plain characters in front of plain characters. -/
theorem isPlain_of_mem_run {p : Char → Bool} (hp : ∀ c, p c = true → IsPlain c) {cs : Text}
    (h : ∀ c ∈ cs.dropWhile p, IsPlain c) : ∀ c ∈ cs, IsPlain c := by
  intro c hc
  rw [← List.takeWhile_append_dropWhile (p := p) (l := cs)] at hc
  rcases List.mem_append.1 hc with hc | hc
  · exact hp c (List.all_eq_true.1 List.all_takeWhile c hc)
  · exact h c hc

theorem eq_ok_of_cons {token : ExprToken} {r : Except ExprError (List ExprToken)}
    {ts : List ExprToken} (h : cons token r = .ok ts) : ∃ rest, r = .ok rest := by
  cases r with
  | error e => exact nomatch h
  | ok rest => exact ⟨rest, rfl⟩

/-- A text that consists of tokens has none of the characters that scripts treat specially inside
an expression. -/
theorem isPlain_of_ofText {t : Text} {tokens : List ExprToken} (h : ofText t = .ok tokens) :
    ∀ c ∈ t, IsPlain c := by
  fun_induction ofText t generalizing tokens with
  | case1 => exact fun c hc => nomatch hc
  | case2 c cs hb ih => exact List.forall_mem_cons.2 ⟨isPlain_of_isBlank hb, ih h⟩
  | case3 => exact nomatch h
  | case4 c cs _ hn =>
      rename_i ih
      obtain ⟨rest, hrest⟩ := eq_ok_of_cons h
      exact List.forall_mem_cons.2 ⟨isPlain_of_isNumberChar hn,
        isPlain_of_mem_run (fun _ => isPlain_of_isNumberChar) (ih hrest)⟩
  | case5 c cs _ _ hs ih =>
      obtain ⟨rest, hrest⟩ := eq_ok_of_cons h
      exact List.forall_mem_cons.2 ⟨isPlain_of_isNameStart hs,
        isPlain_of_mem_run (fun _ => isPlain_of_isNameChar) (ih hrest)⟩
  | case6 c cs _ _ _ token hx ih =>
      obtain ⟨rest, hrest⟩ := eq_ok_of_cons h
      exact List.forall_mem_cons.2 ⟨isPlain_of_single? hx, ih hrest⟩
  | case7 => exact nomatch h

end ExprToken

namespace Value

/-- The text of an expression stands between backticks and has none inside. -/
theorem source_of_parse {source : Text} {e : Expr}
    (h : Value.parse source = .ok (.expression source e)) :
    ∃ body, source = '\x60' :: (body ++ ['\x60']) ∧ ∀ c ∈ body, ExprToken.IsPlain c := by
  rw [Value.parse] at h
  cases hbody : body? source with
  | none =>
      rw [hbody] at h
      exact nomatch h
  | some body =>
      rw [hbody] at h
      have hplain : ∀ c ∈ body, ExprToken.IsPlain c := by
        cases htokens : ExprToken.ofText body with
        | ok tokens => exact ExprToken.isPlain_of_ofText htokens
        | error err =>
            simp only [Expr.parse, htokens] at h
            exact nomatch h
      refine ⟨body, ?_, hplain⟩
      rw [body?.eq_def] at hbody
      split at hbody
      · next rest =>
          split at hbody
          · next hlast =>
              obtain rfl := Option.some.inj hbody
              have hne : rest ≠ [] := by
                rintro rfl
                exact nomatch hlast
              have hl : rest.getLast hne = '\x60' := by
                rw [List.getLast?_eq_some_getLast hne] at hlast
                exact Option.some.inj hlast
              rw [← hl, List.dropLast_concat_getLast]
          · exact nomatch hbody
      · exact nomatch hbody

end Value

theorem all_isBare_hexDigits (b : UInt8) : (hexDigits b).all isBare = true := by
  have h : ∀ i : Fin 256, (hexDigits (UInt8.ofFin i)).all isBare = true := by decide +kernel
  exact h b.toFin

theorem Colour.all_isBare_text (c : Colour) : c.text.all isBare = true := by
  have halpha : (if c.alpha = 255 then [] else hexDigits c.alpha).all isBare = true := by
    split
    · rfl
    · exact all_isBare_hexDigits c.alpha
  simp only [text, digits, List.all_cons, List.all_append, all_isBare_hexDigits, halpha,
    Bool.and_true]
  decide

namespace Scalar

/-- The word that a written scalar reads back as. -/
def word : Scalar → Text
  | string t => t
  | int n => signedDecimal n.toInt
  | float x => floatText x
  | value v => v.source
  | colour c => c.text

/-- A scalar as a script can have it: a value is what its own text is read as.  No built-in
element has a number that is not a value. -/
def Sane : Scalar → Prop
  | value v => Value.parse v.source = .ok v
  | float _ => False
  | _ => True

theorem isBare_of_isDigit {c : Char} (h : c.isDigit = true) : isBare c = true := by
  have hne : ∀ d : Char, d.isDigit = false → c ≠ d := by
    rintro d hd rfl
    rw [h] at hd
    exact nomatch hd
  rw [isBare_iff]
  refine ⟨?_, hne _ rfl, hne _ rfl, hne _ rfl, hne _ rfl, hne _ rfl, hne _ rfl⟩
  rw [Bool.eq_false_iff]
  intro hb
  simp only [Char.isDigit, Bool.and_eq_true, decide_eq_true_eq] at h
  have h48 : 48 ≤ c.toNat := h.1
  have h57 : c.toNat ≤ 57 := h.2
  simp [isBlank, inRanges, blankRanges] at hb
  omega

theorem all_isBare_signedDecimal (i : Int) : (signedDecimal i).all isBare = true := by
  have hd : (decimal i.natAbs).all isBare = true :=
    List.all_eq_true.2 fun c hc => isBare_of_isDigit (isDigit_of_mem_decimal hc)
  rw [signedDecimal]
  split
  · rw [List.all_cons, hd]
    decide
  · exact hd

theorem spells_int (vars : Vars) (n : Int) : Spells vars (signedDecimal n) (signedDecimal n) := by
  have hne : ∀ m, decimal m ≠ [] := fun _ => Nat.toDigits_ne_nil
  refine Spells.bare ?_ (all_isBare_signedDecimal n) ?_
  · rw [signedDecimal]
    split
    · exact List.cons_ne_nil _ _
    · exact hne _
  · rw [Bool.eq_false_iff]
    intro h
    rw [signedDecimal] at h
    split at h
    · cases h
    · cases hd : decimal n.natAbs with
      | nil => exact hne _ hd
      | cons c cs =>
          have hc : c.isDigit = true := isDigit_of_mem_decimal (hd ▸ List.mem_cons_self)
          rw [hd] at h
          rw [looksLikeComment.eq_def] at h
          split at h
          · next heq =>
              obtain ⟨rfl, -⟩ := List.cons.inj heq
              exact absurd hc (by decide)
          · cases h

theorem spells_colour (vars : Vars) (c : Colour) : Spells vars c.text c.text :=
  Spells.bare (List.cons_ne_nil _ _) c.all_isBare_text rfl

/-- A scalar is written as one word. -/
theorem spells_render (vars : Vars) {s : Scalar} (h : s.Sane) : Spells vars s.render s.word := by
  cases s with
  | string t => exact Spells.quote vars t
  | int n => exact spells_int vars n.toInt
  | float x => exact h.elim
  | value v =>
      cases v with
      | literal t => exact Spells.quote vars t
      | expression source e =>
          obtain ⟨body, hsource, hplain⟩ := Value.source_of_parse h
          have hword := Spells.expression vars hplain
          rw [← hsource] at hword
          exact hword
  | colour c => exact spells_colour vars c

end Scalar

namespace Operation

/-- The names of the operations. -/
def names : List Text :=
  ["canvas", "contrast", "brightness", "rotate", "resize", "crop", "blur", "grayscale", "invert",
    "saturate", "tint", "load", "save", "stash", "recall"].map String.toList

theorem name_mem_names (op : Operation) : op.name ∈ names := by
  cases op with
  | adjust a => cases a <;> dsimp only [name, Adjustment.name] <;> decide
  | _ => dsimp only [name]; decide

end Operation

/-! ### Trees -/

/-- The words in front of the elements of a group. -/
def Group.words : Group → List Text
  | only mode => [mode.name]
  | _ => []

/-- The entries below the head of a group, given those of its elements. -/
def groupEntries (kind : Group) (entries : List Entry) : List Entry :=
  (kind.words.map fun w => .leaf w .start) ++ entries

namespace Element

section

variable {ε : Type}

mutual

/-- The elements of a tree, those that a reference stands for among them. -/
def nodes : Element ε → List (Element ε)
  | step op => [step op]
  | group kind es => group kind es :: nodesAll es
  | plugin x es => plugin x es :: nodesAll es

/-- The elements of trees, those that a reference stands for among them. -/
def nodesAll : List (Element ε) → List (Element ε)
  | [] => []
  | e :: es => nodes e ++ nodesAll es

end

mutual

/-- The elements of a tree that are written: a reference is, but not what it stands for. -/
def written : Element ε → List (Element ε)
  | step op => [step op]
  | group (.reference name) es => [group (.reference name) es]
  | group kind es => group kind es :: writtenAll es
  | plugin x es => plugin x es :: writtenAll es

/-- The elements of trees that are written. -/
def writtenAll : List (Element ε) → List (Element ε)
  | [] => []
  | e :: es => written e ++ writtenAll es

end

mutual

/-- The number of levels on which an element is written. -/
def depth : Element ε → Nat
  | step _ => 1
  | group (.reference _) _ => 1
  | group _ es => depthAll es + 1
  | plugin _ es => depthAll es + 1

/-- The number of levels on which elements are written. -/
def depthAll : List (Element ε) → Nat
  | [] => 0
  | e :: es => max (depth e) (depthAll es)

end

/-- The name of a pipeline that is defined or referred to is made of bare characters. -/
def PlainName : Element ε → Prop
  | group (.definition name) _ => name.all isBare = true
  | group (.reference name) _ => name.all isBare = true
  | _ => True

/-- The name of a pipeline that is defined or referred to is read as one word when it is written as
it stands. -/
def SpellsName (vars : Vars) : Element ε → Prop
  | group (.definition name) _ => Spells vars name name
  | group (.reference name) _ => Spells vars name name
  | _ => True

/-- An element as a script can have it: its scalars are, a pipeline's name looks like one, and a
definition is not empty. -/
def Sane : Element ε → Prop
  | step op => ∀ s ∈ op.scalars, s.Sane
  | group (.definition name) es => Entry.isName name = true ∧ es ≠ []
  | group (.reference name) _ => Entry.isName name = true
  | _ => True

end

mutual

/-- The entry that an element is written as. -/
def toEntry : Element Empty → Entry
  | step op => ⟨op.name, op.scalars.map fun s => .leaf s.word .start, .start⟩
  | group (.reference name) _ => .leaf name .start
  | group kind es => ⟨kind.name, groupEntries kind (toEntries es), .start⟩
  | plugin x _ => x.elim

/-- The entries that elements are written as. -/
def toEntries : List (Element Empty) → List Entry
  | [] => []
  | e :: es => toEntry e :: toEntries es

end

theorem toEntry_group {kind : Group} (h : kind.announced? = none) (es : List (Element Empty)) :
    (group kind es).toEntry = ⟨kind.name, groupEntries kind (toEntries es), .start⟩ := by
  cases kind with
  | reference => exact nomatch h
  | _ => rfl

theorem spells_name {vars : Vars} {name : Text} (h : Entry.isName name = true)
    (hplain : name.all isBare = true) : Spells vars name name := by
  rw [Entry.isName.eq_def] at h
  split at h
  · next c d rest =>
      obtain rfl : c = sigil := eq_of_beq h
      exact Spells.bare (List.cons_ne_nil _ _) hplain rfl
  · exact nomatch h

theorem spellsName_of_plainName {vars : Vars} {e : Element Empty} (h : e.Sane)
    (hplain : e.PlainName) : e.SpellsName vars := by
  match e with
  | group (.definition name) _ => exact spells_name h.1 hplain
  | group (.reference name) _ => exact spells_name h hplain
  | step _ => exact trivial
  | group .anonymous _ => exact trivial
  | group (.only _) _ => exact trivial
  | group .cache _ => exact trivial
  | group .once _ => exact trivial

theorem spells_operation (vars : Vars) (op : Operation) : Spells vars op.name op.name := by
  have h : ∀ name ∈ Operation.names,
      name ≠ [] ∧ name.all isBare = true ∧ looksLikeComment name = false := by decide
  obtain ⟨hne, hbare, hcomment⟩ := h op.name op.name_mem_names
  exact Spells.bare hne hbare hcomment

/-- The arguments in front of a group's elements are words. -/
theorem forall₂_groupArguments {vars : Vars} {d : Nat} {texts : List Text} {entries : List Entry}
    (kind : Group) (h : List.Forall₂ (fun t e => Reads vars d t [e]) texts entries) :
    List.Forall₂ (fun t e => Reads vars d t [e]) (groupArguments kind texts)
      (groupEntries kind entries) := by
  cases kind with
  | only mode => exact .cons (Spells.quote vars mode.name).reads h
  | _ => exact h

mutual

/-- **A written element is read as its entry**, at any level of indentation. -/
theorem settles_render_of_spells (vars : Vars) : ∀ (e : Element Empty) (k : Nat),
    (∀ x ∈ e.written, x.Sane ∧ x.SpellsName vars) → Settles vars e.depth (e.render k) [e.toEntry]
  | step op, k, h => by
      have hsane : ∀ s ∈ op.scalars, s.Sane := (h _ List.mem_cons_self).1
      have hargs : List.Forall₂ (fun t e => Reads vars 0 t [e]) (op.scalars.map Scalar.render)
          (op.scalars.map fun s => Entry.leaf s.word .start) := by
        rw [List.forall₂_map_left_iff, List.forall₂_map_right_iff, List.forall₂_same]
        exact fun s hs => (Scalar.spells_render vars (hsane s hs)).reads
      exact Settles.layOut (spells_operation vars op) hargs op.isInline k
  | group (.reference name) es, k, h => by
      exact Settles.layOut (h _ List.mem_cons_self).2 (d := 0) .nil true k
  | group (.definition name) es, k, h => by
      have hes := reads_renderAll vars es (k + 1) fun x hx => h x (List.mem_cons_of_mem _ hx)
      exact Settles.layOut (h _ List.mem_cons_self).2 hes false k
  | group .anonymous es, k, h => by
      have hes := reads_renderAll vars es (k + 1) fun x hx => h x (List.mem_cons_of_mem _ hx)
      exact Settles.layOut (.bare (by decide) (by decide) rfl) hes false k
  | group (.only mode) es, k, h => by
      have hes := reads_renderAll vars es (k + 1) fun x hx => h x (List.mem_cons_of_mem _ hx)
      have honly : Spells vars (Group.only mode).name (Group.only mode).name :=
        Spells.bare (t := "only".toList) (by decide) (by decide) rfl
      exact Settles.layOut honly (forall₂_groupArguments (.only mode) hes) false k
  | group .cache es, k, h => by
      have hes := reads_renderAll vars es (k + 1) fun x hx => h x (List.mem_cons_of_mem _ hx)
      exact Settles.layOut (.bare (by decide) (by decide) rfl) hes false k
  | group .once es, k, h => by
      have hes := reads_renderAll vars es (k + 1) fun x hx => h x (List.mem_cons_of_mem _ hx)
      exact Settles.layOut (.bare (by decide) (by decide) rfl) hes false k
  | plugin x _, _, _ => x.elim

/-- Written elements are read as their entries, one by one. -/
theorem reads_renderAll (vars : Vars) : ∀ (es : List (Element Empty)) (k : Nat),
    (∀ x ∈ writtenAll es, x.Sane ∧ x.SpellsName vars) →
      List.Forall₂ (fun t e => Reads vars (depthAll es) t [e]) (renderAll k es) (toEntries es)
  | [], _, _ => .nil
  | e :: es, k, h => by
      have he := settles_render_of_spells vars e k fun x hx => h x (List.mem_append_left _ hx)
      have hes := reads_renderAll vars es k fun x hx => h x (List.mem_append_right _ hx)
      refine .cons (he.reads.mono (Nat.le_max_left _ _)) ?_
      exact hes.imp fun _ _ ht => ht.mono (Nat.le_max_right _ _)

end

/-- A written element with plain names is read as its entry. -/
theorem settles_render (vars : Vars) (e : Element Empty) (k : Nat)
    (h : ∀ x ∈ e.written, x.Sane ∧ x.PlainName) : Settles vars e.depth (e.render k) [e.toEntry] :=
  settles_render_of_spells vars e k fun x hx =>
    ⟨(h x hx).1, spellsName_of_plainName (h x hx).1 (h x hx).2⟩

end Element

end PhotoPipeline
