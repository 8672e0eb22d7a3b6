/-
**The shape of a decoded script.**

Every entry at the top level of a script is decoded to one element.  A definition there becomes a
pipeline of its own, under its name; the elements of the entries between two definitions become one
pipeline without a name, and so do those before the first and behind the last.  No such pipeline is
empty, and no two of them stand side by side.  They are counted from one, and the number cannot be
mistaken for the name of a definition; a name is defined once only, be it at the top level or deeper
in.  So every pipeline is found under its label.

The script is decoded and gathered in one pass, which comes to the stretches of its elements
(`PhotoPipeline.Recipe.decode_eq`); what is left is that these have the shape.

This holds whatever kinds of elements there are, provided that a kind that reads its arguments leaves
the names known that were known before, as all readings do.

Main definitions:

* `PhotoPipeline.Catalogue.KeepsNames` — kinds that leave known names known;
* `PhotoPipeline.Pipeline.MadeOf` — the entries, with their elements, that a pipeline is made of;
* `PhotoPipeline.Recipe.Gathers` — the shape of the recipe of entries.

Main results:

* `PhotoPipeline.exists_madeOf` — pipelines are made of the entries in their order;
* `PhotoPipeline.nodup_definitions_of_gives_decodeAll` — no two definitions have one name;
* `PhotoPipeline.Recipe.ofEntries_gathers` — **the shape of a decoded script**.
-/
import Mathlib.Data.List.Chain
import Mathlib.Data.List.Nodup
import PhotoPipeline.Proofs.Recipe.RoundTrip

set_option relaxedAutoImplicit false
set_option autoImplicit false

namespace PhotoPipeline

open Element

/-! ### Names stay known -/

section

variable {ε α : Type}

/-- What is known before is known afterwards. -/
def Decoding.KeepsNames (x : Decoding ε α) : Prop :=
  ∀ (s : Scope ε) (a : α) (t : Scope ε), Gives x s a t →
    ∀ name, t.find? name = none → s.find? name = none

/-- An element of the kind leaves known what is known, if its arguments do where they are decoded. -/
def ElementKind.KeepsNames (k : ElementKind ε) : Prop :=
  ∀ arguments : List (Argument ε), (∀ x ∈ arguments, Decoding.KeepsNames x.decode) →
    Decoding.KeepsNames (Reader.runAll k.name arguments k.read)

/-- All kinds of the catalogue leave known what is known. -/
def Catalogue.KeepsNames (c : Catalogue ε) : Prop :=
  ∀ name k, c.find? name = some k → k.KeepsNames

theorem Scope.find?_define_eq_none_iff {s : Scope ε} {name other : Text}
    {es : List (Element ε)} :
    (s.define name es).find? other = none ↔ other ≠ name ∧ s.find? other = none := by
  rw [find?, find?, define, List.lookup_cons]
  cases h : other == name with
  | true => simp [eq_of_beq h]
  | false => simp [ne_of_beq_false h]

theorem keepsNames_decodeArguments {xs : List (Argument ε)}
    (h : ∀ x ∈ xs, Decoding.KeepsNames x.decode) : Decoding.KeepsNames (decodeArguments xs) := by
  induction xs with
  | nil =>
      intro s es t hes
      obtain ⟨-, rfl⟩ := gives_decodeArguments_nil.1 hes
      exact fun _ => id
  | cons x xs ih =>
      intro s es t hes name ht
      obtain ⟨e, u, others, he, hothers, rfl⟩ := gives_decodeArguments_cons.1 hes
      have hu := ih (fun x hx => h x (List.mem_cons_of_mem _ hx)) u others t hothers name ht
      exact h x List.mem_cons_self s e u he name hu

variable {c : Catalogue ε} {s t u : Scope ε}

theorem keepsNames_decodeAll_of_forall {entries : List Entry}
    (h : ∀ x ∈ argumentsOf c entries, Decoding.KeepsNames x.decode) :
    Decoding.KeepsNames (decodeAll c entries) := by
  rw [← decodeArguments_argumentsOf]
  exact keepsNames_decodeArguments h

/-- A definition was not known before it, and is known behind it. -/
theorem find?_of_gives_define {name : Text} {children : List Entry} {e : Element ε}
    (hchildren : Decoding.KeepsNames (decodeAll c children))
    (h : Gives (define name (argumentsOf c children)) s e u) :
    (∃ inside, e = .group (.definition name) inside) ∧ s.find? name = none ∧
      u.find? name ≠ none ∧ ∀ other, u.find? other = none → s.find? other = none := by
  obtain ⟨es, t, hes, hfresh, rfl, rfl⟩ := gives_define.1 h
  refine ⟨⟨es, rfl⟩, hchildren _ _ _ hes name hfresh, ?_, fun other hother => ?_⟩
  · rw [Scope.find?_define_self]
    exact nofun
  · exact hchildren _ _ _ hes other (Scope.find?_define_eq_none_iff.1 hother).2

mutual

/-- Decoding an entry leaves known what is known. -/
theorem keepsNames_decodeEntry (hc : c.KeepsNames) :
    ∀ entry : Entry, Decoding.KeepsNames (decodeEntry c entry)
  | ⟨head, children, _⟩ => by
      have harguments := keepsNames_arguments hc children
      intro s e t h
      rw [decodeEntry, decodeHead] at h
      split at h
      · split at h
        · obtain ⟨es, -, -, rfl⟩ := gives_resolve.1 h
          exact fun _ => id
        · exact (find?_of_gives_define (keepsNames_decodeAll_of_forall harguments) h).2.2.2
      · rw [construct] at h
        split at h
        · next k hk => exact hc head k hk _ harguments s e t h
        · exact absurd h gives_throw

/-- Decoding an argument leaves known what is known. -/
theorem keepsNames_arguments (hc : c.KeepsNames) : ∀ entries : List Entry,
    ∀ x ∈ argumentsOf c entries, Decoding.KeepsNames x.decode
  | [], _, hx => by
      cases hx
  | entry :: entries, x, hx => by
      rw [argumentsOf, List.mem_cons] at hx
      rcases hx with rfl | hx
      · exact keepsNames_decodeEntry hc entry
      · exact keepsNames_arguments hc entries x hx

end

theorem keepsNames_decodeAll (hc : c.KeepsNames) (entries : List Entry) :
    Decoding.KeepsNames (decodeAll c entries) :=
  keepsNames_decodeAll_of_forall (keepsNames_arguments hc entries)

/-! ### Definitions at the top level -/

/-- An entry that is a definition is decoded to a group under its name, which was not known before
and is known afterwards. -/
theorem definition_of_gives_decodeEntry (hc : c.KeepsNames) {entry : Entry} {e : Element ε}
    (hentry : entry.isDefinition = true) (h : Gives (decodeEntry c entry) s e t) :
    (∃ inside, e = .group (.definition entry.value) inside) ∧ s.find? entry.value = none ∧
      t.find? entry.value ≠ none := by
  obtain ⟨head, children, l⟩ := entry
  rw [Entry.isDefinition, Bool.and_eq_true, Bool.not_eq_true'] at hentry
  have hname : Entry.isName head = true := hentry.1
  have hchildren : ¬ (argumentsOf c children).isEmpty = true := by
    cases children with
    | nil => cases hentry.2
    | cons => exact Bool.false_ne_true
  rw [decodeEntry, decodeHead, if_pos hname, if_neg hchildren] at h
  obtain ⟨hinside, hbefore, hafter, -⟩ :=
    find?_of_gives_define (keepsNames_decodeAll hc children) h
  exact ⟨hinside, hbefore, hafter⟩

/-- The names of the definitions among entries. -/
def definitionNames (entries : List Entry) : List Text :=
  (entries.filter Entry.isDefinition).map Entry.value

/-- **No two definitions have one name**, and none has a name that was known before. -/
theorem nodup_definitions_of_gives_decodeAll (hc : c.KeepsNames) {entries : List Entry}
    {es : List (Element ε)} (h : Gives (decodeAll c entries) s es t) :
    (definitionNames entries).Nodup ∧ ∀ name ∈ definitionNames entries, s.find? name = none := by
  induction entries generalizing s es with
  | nil => exact ⟨List.nodup_nil, fun _ hname => by cases hname⟩
  | cons entry entries ih =>
      obtain ⟨e, u, others, he, hothers, rfl⟩ := gives_decodeAll_cons.1 h
      obtain ⟨hnodup, hfresh⟩ := ih hothers
      have hkept := keepsNames_decodeEntry hc entry s e u he
      cases hentry : entry.isDefinition with
      | false =>
          rw [definitionNames, List.filter_cons_of_neg (Bool.not_eq_true _ ▸ hentry)]
          exact ⟨hnodup, fun name hname => hkept name (hfresh name hname)⟩
      | true =>
          obtain ⟨-, hbefore, hafter⟩ := definition_of_gives_decodeEntry hc hentry he
          rw [definitionNames, List.filter_cons_of_pos hentry, List.map_cons]
          exact ⟨List.nodup_cons.2 ⟨fun hmem => hafter (hfresh _ hmem), hnodup⟩,
            List.forall_mem_cons.2 ⟨hbefore, fun name hname => hkept name (hfresh name hname)⟩⟩

/-- An entry with its element, which is a definition if the entry is one. -/
def DefinesIfWritten (x : Entry × Element ε) : Prop :=
  x.1.isDefinition = true → ∃ inside, x.2 = .group (.definition x.1.value) inside

/-- Every entry has one element. -/
theorem definesIfWritten_of_gives_decodeAll (hc : c.KeepsNames) {entries : List Entry}
    {es : List (Element ε)} (h : Gives (decodeAll c entries) s es t) :
    es.length = entries.length ∧ ∀ x ∈ entries.zip es, DefinesIfWritten x := by
  induction entries generalizing s es with
  | nil =>
      obtain ⟨rfl, -⟩ := gives_decodeAll_nil.1 h
      exact ⟨rfl, fun _ hx => by cases hx⟩
  | cons entry entries ih =>
      obtain ⟨e, u, others, he, hothers, rfl⟩ := gives_decodeAll_cons.1 h
      obtain ⟨hlength, hothers⟩ := ih hothers
      refine ⟨congrArg Nat.succ hlength, ?_⟩
      rw [List.zip_cons_cons, List.forall_mem_cons]
      exact ⟨fun hentry => (definition_of_gives_decodeEntry hc hentry he).1, hothers⟩

end

/-! ### Pipelines and the entries they are made of -/

section

variable {ε : Type}

/-- The entries, each with its element, that a pipeline is made of: one definition, or other entries
and at least one. -/
inductive Pipeline.MadeOf : Pipeline ε → List (Entry × Element ε) → Prop
  | definition {entry : Entry} {inside : List (Element ε)} (hentry : entry.isDefinition = true) :
      MadeOf (.definition entry.value inside)
        [(entry, .group (.definition entry.value) inside)]
  | anonymous {number : Nat} {run : List (Entry × Element ε)} (hne : run ≠ [])
      (hrun : ∀ x ∈ run, x.1.isDefinition = false) :
      MadeOf (.anonymous number (run.map Prod.snd)) run

/-- The elements of entries, each with whether its entry is a definition. -/
def markAll (xs : List (Entry × Element ε)) : List (Bool × Element ε) :=
  xs.map fun x => (x.1.isDefinition, x.2)

/-- One pipeline without a name does not stand next to another. -/
def Pipeline.Apart (p q : Pipeline ε) : Prop := ¬ (p.isAnonymous = true ∧ q.isAnonymous = true)

theorem gather_markAll_definition {entry : Entry} {inside : List (Element ε)}
    (hentry : entry.isDefinition = true) (xs : List (Entry × Element ε)) :
    gather (markAll ((entry, .group (.definition entry.value) inside) :: xs)) =
      .definition entry.value inside :: gather (markAll xs) := by
  rw [markAll, List.map_cons, hentry, gather, markAll]

theorem gather_markAll_other {x : Entry × Element ε} (hx : x.1.isDefinition = false)
    (xs : List (Entry × Element ε)) :
    gather (markAll (x :: xs)) = prepend x.2 (gather (markAll xs)) := by
  rw [markAll, List.map_cons, hx, gather, markAll]
  all_goals exact nofun

/-- An element that is no definition in front of stretches lengthens the first of them, or is the
first stretch itself. -/
theorem prepend_cases (e : Element ε) (l : List (Stretch ε)) :
    (∃ es rest, l = .loose es :: rest ∧ prepend e l = .loose (e :: es) :: rest) ∨
      (∀ es, l.head? ≠ some (.loose es)) ∧ prepend e l = .loose [e] :: l := by
  cases l with
  | nil => exact .inr ⟨nofun, rfl⟩
  | cons s rest =>
      cases s with
      | definition name inside => exact .inr ⟨nofun, rfl⟩
      | loose es => exact .inl ⟨es, rest, rfl, rfl⟩

/-- A count of stretches that does not begin with a loose one begins with a definition. -/
theorem isAnonymous_head?_numberFrom {l : List (Stretch ε)} (h : ∀ es, l.head? ≠ some (.loose es))
    (n : Nat) : ∀ p ∈ (numberFrom n l).head?, p.isAnonymous = false := by
  cases l with
  | nil => exact fun p hp => by cases hp
  | cons s rest =>
      cases s with
      | loose es => exact absurd rfl (h es)
      | definition name inside =>
          intro p hp
          cases hp
          rfl

variable {xs : List (Entry × Element ε)}

/-- **Pipelines are made of the entries in their order**, and no two without a name stand side by
side. -/
theorem exists_madeOf (h : ∀ x ∈ xs, DefinesIfWritten x) (n : Nat) :
    (∃ runs, runs.flatten = xs ∧
      List.Forall₂ Pipeline.MadeOf (numberFrom n (gather (markAll xs))) runs) ∧
      (numberFrom n (gather (markAll xs))).IsChain Pipeline.Apart := by
  induction xs generalizing n with
  | nil => exact ⟨⟨[], rfl, .nil⟩, .nil⟩
  | cons x xs ih =>
      have ih := ih fun y hy => h y (List.mem_cons_of_mem _ hy)
      cases hx : x.1.isDefinition with
      | true =>
          obtain ⟨entry, e⟩ := x
          obtain ⟨inside, hinside⟩ := h _ List.mem_cons_self hx
          obtain rfl : e = .group (.definition entry.value) inside := hinside
          obtain ⟨⟨runs, hflatten, hruns⟩, hchain⟩ := ih n
          rw [gather_markAll_definition hx, numberFrom]
          refine ⟨⟨_ :: runs, ?_, .cons (.definition hx) hruns⟩, ?_⟩
          · rw [List.flatten_cons, hflatten]
            rfl
          · exact List.isChain_cons.2 ⟨fun q _ hq => Bool.false_ne_true hq.1, hchain⟩
      | false =>
          rw [gather_markAll_other hx]
          rcases prepend_cases x.2 (gather (markAll xs)) with
            ⟨es, rest, hgather, hprepend⟩ | ⟨hhead, hprepend⟩
          · -- the first run grows by one entry
            obtain ⟨⟨runs, hflatten, hruns⟩, hchain⟩ := ih n
            rw [hgather, numberFrom] at hruns hchain
            cases hruns with
            | @cons _ run _ runs hrun hruns =>
                cases hrun with
                | anonymous hne hall =>
                    rw [hprepend, numberFrom]
                    refine ⟨⟨(x :: run) :: runs, ?_, .cons
                      (.anonymous (List.cons_ne_nil _ _) (List.forall_mem_cons.2 ⟨hx, hall⟩))
                      hruns⟩, ?_⟩
                    · rw [List.flatten_cons, List.cons_append, ← hflatten, List.flatten_cons]
                    · obtain ⟨hhead, hrest⟩ := List.isChain_cons.1 hchain
                      exact List.isChain_cons.2 ⟨hhead, hrest⟩
          · -- a run of one entry in front of a definition, or at the end
            obtain ⟨⟨runs, hflatten, hruns⟩, hchain⟩ := ih (n + 1)
            rw [hprepend, numberFrom]
            refine ⟨⟨[x] :: runs, ?_, .cons
              (.anonymous (List.cons_ne_nil _ _) (List.forall_mem_singleton.2 hx)) hruns⟩, ?_⟩
            · rw [List.flatten_cons, hflatten]
              rfl
            · refine List.isChain_cons.2 ⟨fun q hq happart => ?_, hchain⟩
              exact Bool.false_ne_true
                ((isAnonymous_head?_numberFrom hhead (n + 1) q hq).symm.trans happart.2)

/-! ### Labels -/

/-- The label of a pipeline without a name. -/
def numberLabel (n : Nat) : Text := '#' :: decimal n

theorem numberLabel_inj {m n : Nat} (h : numberLabel m = numberLabel n) : m = n := by
  rw [← ofDigitChars_decimal m, ← ofDigitChars_decimal n, (List.cons.inj h).2]

theorem numberLabel_ne_of_isName {name : Text} (h : Entry.isName name = true) (n : Nat) :
    name ≠ numberLabel n := by
  rintro rfl
  rw [numberLabel] at h
  unfold Entry.isName at h
  split at h
  · next c _ _ hcons =>
      obtain ⟨rfl, -⟩ := List.cons.inj hcons
      exact absurd h (by decide)
  · cases h

/-- Pipelines without a name are counted. -/
theorem labels_filter_numberFrom (n : Nat) (l : List (Stretch ε)) :
    ((numberFrom n l).filter Pipeline.isAnonymous).map Pipeline.label =
      (List.range' n ((numberFrom n l).countP Pipeline.isAnonymous)).map numberLabel := by
  fun_induction numberFrom n l with
  | case1 => rfl
  | case2 n name elements rest ih =>
      rw [List.filter_cons_of_neg Bool.false_ne_true, List.countP_cons_of_neg Bool.false_ne_true,
        ih]
  | case3 n elements rest ih =>
      rw [List.filter_cons_of_pos rfl, List.countP_cons_of_pos rfl, List.map_cons, ih,
        List.range'_succ, List.map_cons]
      rfl

/-- The names of the definitions among stretches. -/
def stretchNames (l : List (Stretch ε)) : List Text :=
  l.filterMap fun
    | .definition name _ => some name
    | .loose _ => none

theorem stretchNames_gather (h : ∀ x ∈ xs, DefinesIfWritten x) :
    stretchNames (gather (markAll xs)) = definitionNames (xs.map Prod.fst) := by
  induction xs with
  | nil => rfl
  | cons x xs ih =>
      have ih := ih fun y hy => h y (List.mem_cons_of_mem _ hy)
      cases hx : x.1.isDefinition with
      | true =>
          obtain ⟨entry, e⟩ := x
          obtain ⟨inside, hinside⟩ := h _ List.mem_cons_self hx
          obtain rfl : e = .group (.definition entry.value) inside := hinside
          rw [gather_markAll_definition hx, List.map_cons, definitionNames,
            List.filter_cons_of_pos hx, List.map_cons]
          exact congrArg (List.cons _) ih
      | false =>
          rw [gather_markAll_other hx, List.map_cons, definitionNames,
            List.filter_cons_of_neg (by rw [hx]; exact Bool.false_ne_true)]
          rcases prepend_cases x.2 (gather (markAll xs)) with
            ⟨es, rest, hgather, hprepend⟩ | ⟨-, hprepend⟩
          · rw [hprepend]
            rw [hgather] at ih
            exact ih
          · rw [hprepend]
            exact ih

/-- A label is the name of a definition, or counts on from where counting began. -/
theorem mem_labels_numberFrom {n : Nat} {l : List (Stretch ε)} {label : Text}
    (h : label ∈ (numberFrom n l).map Pipeline.label) :
    label ∈ stretchNames l ∨ ∃ m, n ≤ m ∧ label = numberLabel m := by
  fun_induction numberFrom n l with
  | case1 => cases h
  | case2 n name elements rest ih =>
      rw [List.map_cons, List.mem_cons] at h
      rcases h with rfl | h
      · exact .inl List.mem_cons_self
      · exact (ih h).imp_left (List.mem_cons_of_mem _)
  | case3 n elements rest ih =>
      rw [List.map_cons, List.mem_cons] at h
      rcases h with rfl | h
      · exact .inr ⟨n, Nat.le_refl n, rfl⟩
      · refine (ih h).imp_right fun h => ?_
        obtain ⟨m, hm, hlabel⟩ := h
        exact ⟨m, Nat.le_of_succ_le hm, hlabel⟩

/-- Labels differ from each other if the names of the definitions do. -/
theorem nodup_labels_numberFrom {n : Nat} {l : List (Stretch ε)} (hnodup : (stretchNames l).Nodup)
    (hnames : ∀ name ∈ stretchNames l, Entry.isName name = true) :
    ((numberFrom n l).map Pipeline.label).Nodup := by
  fun_induction numberFrom n l with
  | case1 => exact List.nodup_nil
  | case2 n name elements rest ih =>
      obtain ⟨hfresh, hrest⟩ := List.nodup_cons.1 hnodup
      obtain ⟨hname, hnames⟩ := List.forall_mem_cons.1 hnames
      rw [List.map_cons]
      refine List.nodup_cons.2 ⟨fun hmem => ?_, ih hrest hnames⟩
      rcases mem_labels_numberFrom hmem with hmem | ⟨m, -, hlabel⟩
      · exact hfresh hmem
      · exact numberLabel_ne_of_isName hname m hlabel
  | case3 n elements rest ih =>
      rw [List.map_cons]
      refine List.nodup_cons.2 ⟨fun hmem => ?_, ih hnodup hnames⟩
      rcases mem_labels_numberFrom hmem with hmem | ⟨m, hm, hlabel⟩
      · exact numberLabel_ne_of_isName (hnames _ hmem) n rfl
      · exact absurd (numberLabel_inj hlabel) (Nat.ne_of_lt hm)

end

/-! ### Recipes -/

namespace Recipe

variable {ε : Type}

/-- The recipe has the shape that entries give it which are decoded to the elements. -/
structure Gathers (r : Recipe ε) (entries : List Entry) (es : List (Element ε)) : Prop where
  /-- Every entry has one element. -/
  length_eq : es.length = entries.length
  /-- The pipelines are made of the entries and their elements, in their order. -/
  madeOf : ∃ runs, runs.flatten = entries.zip es ∧ List.Forall₂ Pipeline.MadeOf r.pipelines runs
  /-- One after the other, the definitions and the elements of the others are the elements. -/
  topElements_eq : r.topElements = es
  /-- No two pipelines without a name stand side by side. -/
  apart : r.pipelines.IsChain Pipeline.Apart
  /-- The pipelines without a name are counted from one. -/
  counted : (r.pipelines.filter Pipeline.isAnonymous).map Pipeline.label =
    (List.range' 1 (r.pipelines.countP Pipeline.isAnonymous)).map numberLabel
  /-- No two pipelines have one label. -/
  nodup : r.labels.Nodup
  /-- Every pipeline is found under its label. -/
  found : ∀ p ∈ r.pipelines, r.find? p.label = some p

/-- Where no two pipelines have one label, every pipeline is found under its own. -/
theorem find?_label_of_nodup {r : Recipe ε} (h : r.labels.Nodup) {p : Pipeline ε}
    (hp : p ∈ r.pipelines) : r.find? p.label = some p := by
  have hsome : (r.find? p.label).isSome = true :=
    List.find?_isSome.2 ⟨p, hp, beq_self_eq_true p.label⟩
  obtain ⟨q, hq⟩ := Option.isSome_iff_exists.1 hsome
  have hlabel : q.label = p.label :=
    eq_of_beq (List.find?_some (p := fun x : Pipeline ε => x.label == p.label) hq)
  rw [hq, List.inj_on_of_nodup_map h (List.mem_of_find?_eq_some hq) hp hlabel]

/-- **The shape of a decoded script.**  If entries are decoded with kinds that leave known names
known, there is one element for each of them, and the recipe consists of their pipelines in their
order: the definitions, and between two of them, in front of the first and behind the last, the other
elements in one pipeline without a name, if there are any.  Those pipelines are counted from one, no
two of them are neighbours, and every pipeline is found under its label, which no other one has. -/
theorem ofEntries_gathers {c : Catalogue ε} (hc : c.KeepsNames) {entries : List Entry}
    {r : Recipe ε} (h : ofEntries c entries = .ok r) :
    ∃ es t, Gives (decodeAll c entries) .empty es t ∧ r.Gathers entries es := by
  obtain ⟨es, t, hes, rfl⟩ := ofEntries_eq_ok_iff_assemble.1 h
  obtain ⟨hlength, hdefines⟩ := definesIfWritten_of_gives_decodeAll hc hes
  have hmark : (entries.map Entry.isDefinition).zip es = markAll (entries.zip es) := by
    rw [List.zip_map_left]
    rfl
  have hentries : (entries.zip es).map Prod.fst = entries := List.map_fst_zip hlength.ge
  have helements : (entries.zip es).map Prod.snd = es := List.map_snd_zip hlength.le
  obtain ⟨hmade, hchain⟩ := exists_madeOf hdefines 1
  have hnames := stretchNames_gather hdefines
  rw [hentries] at hnames
  have hnodup : (assemble (markAll (entries.zip es))).labels.Nodup := by
    refine nodup_labels_numberFrom ?_ ?_
    · rw [hnames]
      exact (nodup_definitions_of_gives_decodeAll hc hes).1
    · intro name hname
      rw [hnames] at hname
      obtain ⟨entry, hentry, rfl⟩ := List.mem_map.1 hname
      have hdefinition := (List.mem_filter.1 hentry).2
      rw [Entry.isDefinition, Bool.and_eq_true] at hdefinition
      exact hdefinition.1
  rw [hmark]
  refine ⟨es, t, hes, hlength, hmade, ?_, hchain, labels_filter_numberFrom 1 _, hnodup,
    fun p hp => find?_label_of_nodup hnodup hp⟩
  rw [topElements_assemble, ← hmark, List.map_snd_zip]
  rw [List.length_map]
  exact hlength.le

end Recipe

/-! ### Kinds that leave known names known -/

namespace Catalogue

variable {ε : Type}

/-- The built-in kinds leave known names known. -/
theorem keepsNames_builtin (budget : UInt64) :
    (builtin budget : Catalogue ε).KeepsNames := by
  intro name k hk arguments harguments s e t h other hother
  have hconstruct : Gives (construct (builtin budget) name arguments) s e t := by
    rw [construct, hk]
    exact h
  rcases of_gives_construct hconstruct with ⟨_, _, -, -, -, -, rfl⟩ |
    ⟨_, es, front, rest, -, -, rfl, -, hes, -⟩
  · exact hother
  · refine keepsNames_decodeArguments (fun x hx => ?_) s es t hes other hother
    exact harguments x (List.mem_append_right _ hx)

/-- One more kind. -/
theorem KeepsNames.register {c d : Catalogue ε} {k : ElementKind ε} (hc : c.KeepsNames)
    (hk : k.KeepsNames) (h : c.register k = .ok d) : d.KeepsNames := by
  intro name k' hfind
  by_cases hname : k.name = name
  · subst hname
    rw [find?_register_self h] at hfind
    obtain rfl := Option.some.inj hfind
    exact hk
  · rw [find?_register_of_ne h hname] at hfind
    exact hc name k' hfind

end Catalogue

/-! ### A sample -/

/-- A kind that stands for the element inside of it. -/
def Kind.passing : ElementKind Empty := ⟨"passing".toList, [], Reader.element⟩

theorem Kind.keepsNames_passing : Kind.passing.KeepsNames := by
  intro arguments harguments s e t h name hname
  obtain ⟨d, ⟨helement, -⟩, rfl⟩ := Reader.gives_runAll_iff.1 h
  obtain ⟨x, rest, u, hrest, hx, rfl⟩ := Reader.gives_element.1 helement
  refine harguments x ?_ s e u hx name hname
  exact (show arguments = x :: rest from hrest) ▸ List.mem_cons_self

/-- The built-in kinds and the one that stands for the element inside of it. -/
def passingCatalogue : Catalogue Empty :=
  { (Catalogue.builtin defaultBudget : Catalogue Empty) with
    kinds := builtinKinds ++ [Kind.passing] }

/-- Two definitions between other entries; inside of one of those there is a definition as well. -/
def mixedEntries : List Entry :=
  let invert : Entry := .leaf "invert".toList .start
  [invert, ⟨".a".toList, [invert], .start⟩, .leaf ".a".toList .start,
    ⟨"passing".toList, [⟨".b".toList, [invert], .start⟩], .start⟩,
    ⟨".c".toList, [.leaf ".b".toList .start], .start⟩]

/-- The recipe of the entries.  What the definition inside makes known is no pipeline of its own. -/
def mixedRecipe : Recipe Empty :=
  let invert : Element Empty := .step (.adjust .invert)
  ⟨[.anonymous 1 [invert], .definition ".a".toList [invert],
    .anonymous 2 [.group (.reference ".a".toList) [invert],
      .group (.definition ".b".toList) [invert]],
    .definition ".c".toList [.group (.reference ".b".toList) [invert]]]⟩

namespace Recipe

theorem ofEntries_gathers_mixed :
    passingCatalogue.KeepsNames ∧ ofEntries passingCatalogue mixedEntries = .ok mixedRecipe ∧
      mixedRecipe.labels = ["#1", ".a", "#2", ".c"].map String.toList ∧
      mixedRecipe.Gathers mixedEntries mixedRecipe.topElements := by
  have hc : passingCatalogue.KeepsNames :=
    (Catalogue.keepsNames_builtin defaultBudget).register Kind.keepsNames_passing
      (Catalogue.register_eq_ok_iff.2 ⟨rfl, rfl⟩)
  have hdecode : ofEntries passingCatalogue mixedEntries = .ok mixedRecipe := rfl
  obtain ⟨es, t, -, hgathers⟩ := ofEntries_gathers hc hdecode
  refine ⟨hc, hdecode, rfl, ?_⟩
  rw [hgathers.topElements_eq]
  exact hgathers

end Recipe

end PhotoPipeline
