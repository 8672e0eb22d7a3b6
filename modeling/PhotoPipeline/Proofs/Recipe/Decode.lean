/-
**What decoding finds.**

With the built-in kinds an entry is decoded by one of four rules: as an operation, as a group, as
the definition of a pipeline or as a reference to one.  From the rules follow the two halves of
reading back what was written.  What decoding returns is sane: every value in it is what its own
text is read as.  And the entry that a decoded element is written as is decoded, from where the
first entry was decoded, to the same element again.

Main definitions:

* `PhotoPipeline.decodeAll` — entries decoded in turn;
* `PhotoPipeline.Decodes` — the rules;
* `PhotoPipeline.Scope.Sane` — what is known consists of sane elements.

Main results:

* `PhotoPipeline.gives_decodeEntry_iff` — **decoding goes by the rules**;
* `PhotoPipeline.sane_of_gives_decodeAll` — what decoding returns is sane;
* `PhotoPipeline.gives_decodeAll_again` — **what a decoded element is written as is decoded to it**.
-/
import PhotoPipeline.Proofs.Kind.Builtin

set_option relaxedAutoImplicit false
set_option autoImplicit false

namespace PhotoPipeline

/-! ### The rules -/

/-- Decodes entries in turn. -/
def decodeAll {ε : Type} (c : Catalogue ε) : List Entry → Decoding ε (List (Element ε))
  | [] => return []
  | e :: es => do
    let first ← decodeEntry c e
    let others ← decodeAll c es
    return first :: others

/-- The entry is the word `w`. -/
def Entry.IsWord (w : Text) (e : Entry) : Prop := e.isLeaf = true ∧ e.value = w

/-- **The rules of decoding**: the entry, with what is known before, is decoded to the element,
and then so much is known. -/
inductive Decodes (budget : UInt64) (s : Scope Empty) : Entry → Element Empty → Scope Empty → Prop
  | step {op : Operation} {words : List Text} {children : List Entry} {l : Location}
      (haccepts : op.Accepts words) (hwords : List.Forall₂ Entry.IsWord words children) :
      Decodes budget s ⟨op.name, children, l⟩ (.step op) s
  | group {kind : Group} {front children : List Entry} {l : Location} {t : Scope Empty}
      {es : List (Element Empty)} (hkind : kind.announced? = none)
      (hwords : List.Forall₂ Entry.IsWord kind.words front)
      (helements : Gives (decodeAll (.builtin budget) children) s es t) :
      Decodes budget s ⟨kind.name, front ++ children, l⟩ (.group kind es) t
  | definition {name : Text} {children : List Entry} {l : Location} {t : Scope Empty}
      {es : List (Element Empty)} (hname : Entry.isName name = true) (hne : children ≠ [])
      (helements : Gives (decodeAll (.builtin budget) children) s es t)
      (hfresh : t.find? name = none) :
      Decodes budget s ⟨name, children, l⟩ (.group (.definition name) es) (t.define name es)
  | reference {name : Text} {l : Location} {es : List (Element Empty)}
      (hname : Entry.isName name = true) (hknown : s.find? name = some es) :
      Decodes budget s ⟨name, [], l⟩ (.group (.reference name) es) s

section

variable {ε : Type} {c : Catalogue ε} {s t u : Scope ε}

theorem decodeArguments_argumentsOf (c : Catalogue ε) (entries : List Entry) :
    decodeArguments (argumentsOf c entries) = decodeAll c entries := by
  induction entries with
  | nil => rfl
  | cons e entries ih => rw [argumentsOf, decodeArguments, decodeAll, ih]

theorem forall₂_isWord_argumentsOf {words : List Text} {entries : List Entry} :
    List.Forall₂ Argument.IsWord words (argumentsOf c entries) ↔
      List.Forall₂ Entry.IsWord words entries := by
  rw [argumentsOf_eq_map, List.forall₂_map_right_iff]
  exact Iff.rfl

theorem gives_decodeAll_nil {es : List (Element ε)} :
    Gives (decodeAll c []) s es t ↔ es = [] ∧ s = t := gives_decodeArguments_nil

theorem gives_decodeAll_cons {entry : Entry} {entries : List Entry} {es : List (Element ε)} :
    Gives (decodeAll c (entry :: entries)) s es u ↔
      ∃ e t others, Gives (decodeEntry c entry) s e t ∧ Gives (decodeAll c entries) t others u ∧
        es = e :: others := by
  rw [← decodeArguments_argumentsOf, ← decodeArguments_argumentsOf]
  exact gives_decodeArguments_cons

theorem gives_resolve {name : Text} {e : Element ε} :
    Gives (resolve name) s e t ↔
      ∃ es, s.find? name = some es ∧ e = .group (.reference name) es ∧ s = t := by
  rw [resolve, gives_get_bind]
  cases h : s.find? name with
  | none => simp [gives_throw]
  | some es => simp [gives_pure, eq_comm]

theorem gives_defineElements {name : Text} {children : List Entry} {es : List (Element ε)} :
    Gives (defineElements name (argumentsOf c children)) s es u ↔
      ∃ t, Gives (decodeAll c children) s es t ∧ t.find? name = none ∧ t.define name es = u := by
  have hrest : ∀ (inner : List (Element ε)) (t : Scope ε), Gives (do
      if ((← get).find? name).isSome then throw (.duplicatePipeline name)
      modify fun s => s.define name inner
      return inner : Decoding ε (List (Element ε))) t es u ↔
        inner = es ∧ t.find? name = none ∧ t.define name inner = u := by
    intro inner t
    rw [gives_get_bind]
    cases h : t.find? name with
    | some known => simp [gives_throw]
    | none =>
        simp only [Option.isSome_none, Bool.false_eq_true, if_false, gives_bind, gives_pure,
          gives_modify]
        constructor
        · rintro ⟨_, _, rfl, rfl, rfl⟩
          exact ⟨rfl, trivial, rfl⟩
        · rintro ⟨rfl, -, rfl⟩
          exact ⟨(), _, rfl, rfl, rfl⟩
  simp only [defineElements, gives_bind (x := Reader.runAll name _ _), Reader.gives_runAll_elements,
    decodeArguments_argumentsOf, hrest]
  constructor
  · rintro ⟨_, t, hes, rfl, hfresh, rfl⟩
    exact ⟨t, hes, hfresh, rfl⟩
  · rintro ⟨t, hes, hfresh, rfl⟩
    exact ⟨es, t, hes, rfl, hfresh, rfl⟩

theorem gives_define {name : Text} {children : List Entry} {e : Element ε} :
    Gives (define name (argumentsOf c children)) s e u ↔
      ∃ es t, Gives (decodeAll c children) s es t ∧ t.find? name = none ∧
        e = .group (.definition name) es ∧ t.define name es = u := by
  simp only [define, gives_bind, gives_pure, gives_defineElements]
  constructor
  · rintro ⟨es, _, ⟨t, hes, hfresh, rfl⟩, rfl, rfl⟩
    exact ⟨es, t, hes, hfresh, rfl, rfl⟩
  · rintro ⟨es, t, hes, hfresh, rfl, rfl⟩
    exact ⟨es, _, ⟨t, hes, hfresh, rfl⟩, rfl, rfl⟩

end

variable {budget : UInt64} {s t u : Scope Empty}

/-- No built-in element is named like a pipeline. -/
theorem isName_name_eq_false {kind : Group} (h : kind.announced? = none) :
    Entry.isName kind.name = false := by
  cases kind with
  | definition => exact nomatch h
  | reference => exact nomatch h
  | _ => rfl

theorem isName_operation_eq_false (op : Operation) : Entry.isName op.name = false := by
  have h : ∀ name ∈ Operation.names, Entry.isName name = false := by decide
  exact h op.name op.name_mem_names

/-- **Decoding goes by the rules.** -/
theorem gives_decodeEntry_iff {entry : Entry} {e : Element Empty} :
    Gives (decodeEntry (.builtin budget) entry) s e t ↔ Decodes budget s entry e t := by
  obtain ⟨head, children, l⟩ := entry
  rw [decodeEntry, decodeHead]
  constructor
  · intro h
    split at h
    · next hname =>
        split at h
        · next hempty =>
            have hnil : children = [] := by
              rw [argumentsOf_eq_map] at hempty
              simpa using hempty
            obtain ⟨es, hknown, rfl, rfl⟩ := gives_resolve.1 h
            rw [hnil]
            exact .reference hname hknown
        · next hempty =>
            have hne : children ≠ [] := by
              rintro rfl
              exact hempty rfl
            obtain ⟨es, t, hes, hfresh, rfl, rfl⟩ := gives_define.1 h
            exact .definition hname hne hes hfresh
    · rcases of_gives_construct h with ⟨op, words, rfl, haccepts, hwords, rfl, rfl⟩ |
        ⟨kind, es, ys, zs, rfl, hkind, hxs, hys, hes, rfl⟩
      · exact .step haccepts (forall₂_isWord_argumentsOf.1 hwords)
      · rw [argumentsOf_eq_map] at hxs
        obtain ⟨front, rest, rfl, rfl, rfl⟩ := List.map_eq_append_iff.1 hxs
        rw [← argumentsOf_eq_map, forall₂_isWord_argumentsOf] at hys
        rw [← argumentsOf_eq_map, decodeArguments_argumentsOf] at hes
        exact .group hkind hys hes
  · intro h
    cases h with
    | step haccepts hwords =>
        rw [if_neg (by rw [isName_operation_eq_false]; exact Bool.false_ne_true)]
        exact gives_construct_step haccepts (forall₂_isWord_argumentsOf.2 hwords)
    | group hkind hwords helements =>
        rw [if_neg (by rw [isName_name_eq_false hkind]; exact Bool.false_ne_true),
          argumentsOf_eq_map, List.map_append, ← argumentsOf_eq_map, ← argumentsOf_eq_map]
        rw [← decodeArguments_argumentsOf] at helements
        exact gives_construct_group hkind (forall₂_isWord_argumentsOf.2 hwords) helements
    | definition hname hne helements hfresh =>
        rw [if_pos hname, if_neg (by rw [argumentsOf_eq_map]; simpa using hne)]
        exact gives_define.2 ⟨_, _, helements, hfresh, rfl, rfl⟩
    | reference hname hknown =>
        rw [if_pos hname]
        exact gives_resolve.2 ⟨_, hknown, rfl, rfl⟩

/-! ### Sanity -/

namespace Scope

/-- What is known consists of sane elements. -/
def Sane (s : Scope Empty) : Prop :=
  ∀ name es, s.find? name = some es → ∀ x ∈ Element.nodesAll es, x.Sane

theorem sane_empty : (Scope.empty : Scope Empty).Sane := fun _ _ h => nomatch h

theorem Sane.define {name : Text} {es : List (Element Empty)} (hs : s.Sane)
    (hes : ∀ x ∈ Element.nodesAll es, x.Sane) : (s.define name es).Sane := by
  intro other fs h
  rw [find?, Scope.define, List.lookup_cons] at h
  split at h
  · obtain rfl := Option.some.inj h
    exact hes
  · exact hs other fs h

end Scope

open Element

mutual

/-- What an entry is decoded to is sane. -/
theorem sane_of_gives_decodeEntry : ∀ (entry : Entry) {s t : Scope Empty} {e : Element Empty},
    Gives (decodeEntry (.builtin budget) entry) s e t → s.Sane →
      (∀ x ∈ e.nodes, x.Sane) ∧ t.Sane
  | ⟨head, children, l⟩, s, t, e, h, hs => by
      cases gives_decodeEntry_iff.1 h with
      | step haccepts hwords => exact ⟨List.forall_mem_singleton.2 haccepts.sane, hs⟩
      | @group kind front children _ t es hkind hwords helements =>
          obtain ⟨hes, ht⟩ := sane_of_gives_decodeAll children helements hs
          refine ⟨List.forall_mem_cons.2 ⟨?_, hes⟩, ht⟩
          cases kind with
          | definition => exact nomatch hkind
          | reference => exact nomatch hkind
          | _ => exact trivial
      | @definition _ _ _ t es hname hne helements hfresh =>
          obtain ⟨hes, ht⟩ := sane_of_gives_decodeAll children helements hs
          have hcons : es ≠ [] := by
            rintro rfl
            cases children with
            | nil => exact hne rfl
            | cons c cs =>
                obtain ⟨_, _, _, -, -, heq⟩ := gives_decodeAll_cons.1 helements
                exact nomatch heq
          exact ⟨List.forall_mem_cons.2 ⟨⟨hname, hcons⟩, hes⟩, ht.define hes⟩
      | reference hname hknown =>
          exact ⟨List.forall_mem_cons.2 ⟨hname, hs _ _ hknown⟩, hs⟩
termination_by _ _ _ e => sizeOf e

/-- What entries are decoded to is sane. -/
theorem sane_of_gives_decodeAll : ∀ (entries : List Entry) {s t : Scope Empty}
    {es : List (Element Empty)}, Gives (decodeAll (.builtin budget) entries) s es t → s.Sane →
      (∀ x ∈ nodesAll es, x.Sane) ∧ t.Sane
  | [], _, _, _, h, hs => by
      obtain ⟨rfl, rfl⟩ := gives_decodeAll_nil.1 h
      exact ⟨fun x hx => (nomatch hx), hs⟩
  | entry :: entries, _, _, _, h, hs => by
      obtain ⟨e, t, others, he, hothers, rfl⟩ := gives_decodeAll_cons.1 h
      obtain ⟨hx, ht⟩ := sane_of_gives_decodeEntry entry he hs
      obtain ⟨hxs, hu⟩ := sane_of_gives_decodeAll entries hothers ht
      exact ⟨List.forall_mem_append.2 ⟨hx, hxs⟩, hu⟩
termination_by _ _ _ es => sizeOf es

end

/-! ### Decoding again -/

theorem isWord_of_bare_eq {w : Text} {e : Entry} (h : e.bare = .leaf w .start) : e.IsWord w := by
  obtain ⟨v, cs, l⟩ := e
  obtain ⟨rfl, hcs, -⟩ := Entry.mk.inj h
  cases cs with
  | nil => exact ⟨rfl, rfl⟩
  | cons c cs => exact nomatch hcs

theorem forall₂_isWord_of_bareAll_eq {words : List Text} {entries : List Entry}
    (h : Entry.bareAll entries = words.map fun w => .leaf w .start) :
    List.Forall₂ Entry.IsWord words entries := by
  induction words generalizing entries with
  | nil =>
      cases entries with
      | nil => exact .nil
      | cons e entries => exact nomatch h
  | cons w words ih =>
      cases entries with
      | nil => exact nomatch h
      | cons e entries =>
          obtain ⟨he, hentries⟩ := List.cons.inj h
          exact .cons (isWord_of_bare_eq he) (ih hentries)

theorem bareAll_words (words : List Text) :
    Entry.bareAll (words.map fun w => .leaf w .start) = words.map fun w => .leaf w .start := by
  induction words with
  | nil => rfl
  | cons w words ih => rw [List.map_cons, Entry.bareAll, ih, Entry.bare_leaf]

mutual

/-- **What a decoded element is written as is decoded to it again**, from where it was decoded
first and wherever it is found. -/
theorem gives_decodeEntry_again : ∀ (entry : Entry) {s t : Scope Empty} {e : Element Empty},
    Gives (decodeEntry (.builtin budget) entry) s e t → ∀ entry' : Entry,
      entry'.bare = e.toEntry.bare → Gives (decodeEntry (.builtin budget) entry') s e t
  | ⟨head, children, l⟩, s, t, e, h, ⟨head', children', l'⟩, hbare => by
      rw [gives_decodeEntry_iff]
      cases gives_decodeEntry_iff.1 h with
      | @step op words _ _ haccepts hwords =>
          obtain ⟨rfl, hchildren, -⟩ := Entry.mk.inj hbare
          have hmap : op.scalars.map (fun s => Entry.leaf s.word .start) =
              (op.scalars.map Scalar.word).map fun w => .leaf w .start := by
            rw [List.map_map]
            rfl
          rw [hmap, bareAll_words] at hchildren
          exact .step (Operation.accepts_words haccepts.sane)
            (forall₂_isWord_of_bareAll_eq hchildren)
      | @group kind front children _ t es hkind hwords helements =>
          rw [toEntry_group hkind] at hbare
          obtain ⟨rfl, hchildren, -⟩ := Entry.mk.inj hbare
          rw [groupEntries, Entry.bareAll_append, bareAll_words, Entry.bareAll_eq_map] at hchildren
          obtain ⟨front', rest', rfl, hfront, hrest⟩ := List.map_eq_append_iff.1 hchildren
          rw [← Entry.bareAll_eq_map] at hfront hrest
          exact .group hkind (forall₂_isWord_of_bareAll_eq hfront)
            (gives_decodeAll_again children helements rest' hrest)
      | @definition _ _ _ t es hname hne helements hfresh =>
          obtain ⟨rfl, hchildren, -⟩ := Entry.mk.inj hbare
          have hne' : children' ≠ [] := by
            rintro rfl
            cases children with
            | nil => exact hne rfl
            | cons c cs =>
                obtain ⟨_, _, _, -, -, rfl⟩ := gives_decodeAll_cons.1 helements
                exact nomatch hchildren
          have hagain := gives_decodeAll_again children helements children' hchildren
          exact .definition hname hne' hagain hfresh
      | reference hname hknown =>
          obtain ⟨rfl, hchildren, -⟩ := Entry.mk.inj hbare
          cases children' with
          | nil => exact .reference hname hknown
          | cons c cs => exact nomatch hchildren
termination_by _ _ _ e => sizeOf e

/-- What decoded elements are written as is decoded to them again. -/
theorem gives_decodeAll_again : ∀ (entries : List Entry) {s t : Scope Empty}
    {es : List (Element Empty)}, Gives (decodeAll (.builtin budget) entries) s es t →
      ∀ entries' : List Entry, Entry.bareAll entries' = Entry.bareAll (toEntries es) →
        Gives (decodeAll (.builtin budget) entries') s es t
  | [], _, _, _, h, entries', hbare => by
      obtain ⟨rfl, rfl⟩ := gives_decodeAll_nil.1 h
      cases entries' with
      | nil => exact h
      | cons e es => exact nomatch hbare
  | entry :: entries, _, _, _, h, entries', hbare => by
      obtain ⟨e, t, others, he, hothers, rfl⟩ := gives_decodeAll_cons.1 h
      cases entries' with
      | nil => exact nomatch hbare
      | cons entry' entries' =>
          obtain ⟨hbare, hbares⟩ := List.cons.inj hbare
          exact gives_decodeAll_cons.2 ⟨e, t, others,
            gives_decodeEntry_again entry he entry' hbare,
            gives_decodeAll_again entries hothers entries' hbares, rfl⟩
termination_by _ _ _ es => sizeOf es

end

end PhotoPipeline
