/-
**Reading back a canonical script.**

The canonical script of a recipe is decoded to the recipe again, with whatever variables it is
read.  The recipe must have been decoded itself, since values keep the text they were written as;
the names of its pipelines must be made of bare characters, since they are written as they stand;
and it must not be deeper than scripts may be.

Main definitions:

* `PhotoPipeline.Recipe.topElements` — the elements at the top level of a recipe;
* `PhotoPipeline.Recipe.ofElements` — the recipe of elements at the top level.

Main results:

* `PhotoPipeline.Recipe.text_eq_flatMap` — the canonical script, element by element;
* `PhotoPipeline.Recipe.settles_text` — what the canonical script is read as;
* `PhotoPipeline.Recipe.ofText_text` — **a canonical script is decoded to its recipe**.
-/
import PhotoPipeline.Proofs.Recipe.Gathering

set_option relaxedAutoImplicit false
set_option autoImplicit false

namespace PhotoPipeline

open Element

/-! ### The canonical script -/

section

variable {ε : Type}

/-- The elements at the top level that make up a pipeline. -/
def Pipeline.topElements : Pipeline ε → List (Element ε)
  | definition name elements => [.group (.definition name) elements]
  | anonymous _ elements => elements

/-- The elements at the top level of a recipe. -/
def Recipe.topElements (r : Recipe ε) : List (Element ε) :=
  r.pipelines.flatMap Pipeline.topElements

theorem topElements_numberFrom (n : Nat) (l : List (Stretch ε)) :
    (numberFrom n l).flatMap Pipeline.topElements = l.flatMap Stretch.elements := by
  fun_induction numberFrom n l with
  | case1 => rfl
  | case2 n name elements rest ih => rw [List.flatMap_cons, ih]; rfl
  | case3 n elements rest ih => rw [List.flatMap_cons, ih]; rfl

theorem Recipe.topElements_assemble (es : List (Bool × Element ε)) :
    (assemble es).topElements = es.map Prod.snd := by
  rw [topElements, assemble, topElements_numberFrom, elements_gather]

/-- Whether an element defines a pipeline. -/
def Element.isDefinition : Element ε → Bool
  | group (.definition _) _ => true
  | _ => false

/-- The recipe of elements at the top level, where those that define pipelines are definitions. -/
def Recipe.ofElements (es : List (Element ε)) : Recipe ε :=
  assemble (es.map fun e => (e.isDefinition, e))

@[simp] theorem Recipe.topElements_ofElements (es : List (Element ε)) :
    (ofElements es).topElements = es := by
  rw [ofElements, topElements_assemble, List.map_map]
  exact List.map_id es

variable [Plugin ε]

theorem Recipe.text_eq_flatMap (r : Recipe ε) :
    r.text = r.topElements.flatMap fun e => e.text ++ ['\n'] := by
  have hlines : ∀ p : Pipeline ε, pipelineLines p = p.topElements.map Element.text := by
    rintro (_ | _) <;> rfl
  rw [text, topElements, List.flatMap_assoc, List.flatMap_assoc]
  simp only [hlines, List.flatMap_map]

end

mutual

/-- The elements of a tree that are written are elements of the tree. -/
theorem mem_nodes_of_mem_written : ∀ (e : Element Empty), ∀ x ∈ e.written, x ∈ e.nodes
  | step _, _, hx => hx
  | group (.reference _) _, _, hx => by
      obtain rfl := List.mem_singleton.1 hx
      exact List.mem_cons_self
  | group (.definition _) es, x, hx
  | group .anonymous es, x, hx
  | group (.only _) es, x, hx
  | group .cache es, x, hx
  | group .once es, x, hx => by
      rcases List.mem_cons.1 hx with rfl | hx
      · exact List.mem_cons_self
      · exact List.mem_cons_of_mem _ (mem_nodesAll_of_mem_writtenAll es x hx)
  | plugin x _, _, _ => x.elim

/-- The elements of trees that are written are elements of the trees. -/
theorem mem_nodesAll_of_mem_writtenAll :
    ∀ (es : List (Element Empty)), ∀ x ∈ writtenAll es, x ∈ nodesAll es
  | [], _, hx => nomatch hx
  | e :: es, x, hx => by
      rcases List.mem_append.1 hx with hx | hx
      · exact List.mem_append_left _ (mem_nodes_of_mem_written e x hx)
      · exact List.mem_append_right _ (mem_nodesAll_of_mem_writtenAll es x hx)

end

namespace Recipe

variable {budget : UInt64}

/-- The canonical script of sane elements is read as their entries, where their names are read as
they are written. -/
theorem settles_text_of_spells (vars : Vars) {es : List (Element Empty)}
    (h : ∀ x ∈ writtenAll es, x.Sane ∧ x.SpellsName vars) :
    Settles vars (depthAll es) (es.flatMap fun e => e.text ++ ['\n']) (toEntries es) := by
  induction es with
  | nil => exact Settles.nil
  | cons e es ih =>
      have he := settles_render_of_spells vars e 0 fun x hx => h x (List.mem_append_left _ hx)
      have hes := ih fun x hx => h x (List.mem_append_right _ hx)
      have hline : Settles vars (depthAll (e :: es)) (e.text ++ ['\n']) [e.toEntry] :=
        (he.reads.append_blank isBlank_newline).mono (Nat.le_max_left _ _)
      exact hline.append (hes.mono (Nat.le_max_right _ _))

/-- The canonical script of sane elements with plain names is read as their entries. -/
theorem settles_text (vars : Vars) {es : List (Element Empty)}
    (h : ∀ x ∈ writtenAll es, x.Sane ∧ x.PlainName) :
    Settles vars (depthAll es) (es.flatMap fun e => e.text ++ ['\n']) (toEntries es) :=
  settles_text_of_spells vars fun x hx =>
    ⟨(h x hx).1, spellsName_of_plainName (h x hx).1 (h x hx).2⟩

theorem ofEntries_eq_ok_iff_assemble {ε : Type} {c : Catalogue ε} {entries : List Entry}
    {r : Recipe ε} :
    ofEntries c entries = .ok r ↔
      ∃ es t, Gives (decodeAll c entries) .empty es t ∧
        assemble ((entries.map Entry.isDefinition).zip es) = r := by
  constructor
  · intro h
    rw [ofEntries, decode_eq] at h
    cases hout : (decodeAll c entries .empty).1 with
    | error err =>
        simp only [hout] at h
        exact nomatch h
    | ok es =>
        simp only [hout] at h
        exact ⟨es, _, Prod.ext hout rfl, Except.ok.inj h⟩
  · rintro ⟨es, t, hes, rfl⟩
    rw [ofEntries, decode_eq]
    exact congrArg (fun out : Except Error (List (Element ε)) × Scope ε =>
      out.1.map fun es => assemble ((entries.map Entry.isDefinition).zip es)) hes

/-- The built-in kinds make no definitions, other than those that are written as such. -/
theorem isDefinition_of_gives_decodeEntry {entry : Entry} {e : Element Empty}
    {s t : Scope Empty} (h : Gives (decodeEntry (.builtin budget) entry) s e t) :
    entry.isDefinition = e.isDefinition := by
  cases gives_decodeEntry_iff.1 h with
  | @step op _ _ _ _ _ =>
      rw [Entry.isDefinition, Entry.isNamed, isName_operation_eq_false]
      rfl
  | @group kind _ _ _ _ _ hkind _ _ =>
      rw [Entry.isDefinition, Entry.isNamed, isName_name_eq_false hkind]
      cases kind with
      | definition => cases hkind
      | _ => rfl
  | @definition _ children _ _ _ hname hne _ _ =>
      rw [Entry.isDefinition, Entry.isNamed, hname]
      cases children with
      | nil => exact absurd rfl hne
      | cons => rfl
  | reference hname _ =>
      rw [Entry.isDefinition, Entry.isNamed, hname]
      rfl

theorem map_isDefinition_of_gives_decodeAll {entries : List Entry} {es : List (Element Empty)}
    {s t : Scope Empty} (h : Gives (decodeAll (.builtin budget) entries) s es t) :
    entries.map Entry.isDefinition = es.map isDefinition := by
  induction entries generalizing s es with
  | nil =>
      obtain ⟨rfl, -⟩ := gives_decodeAll_nil.1 h
      rfl
  | cons entry entries ih =>
      obtain ⟨e, u, others, he, hothers, rfl⟩ := gives_decodeAll_cons.1 h
      rw [List.map_cons, List.map_cons, isDefinition_of_gives_decodeEntry he, ih hothers]

theorem ofEntries_eq_ok_iff {entries : List Entry} {r : Recipe Empty} :
    ofEntries (.builtin budget) entries = .ok r ↔
      ∃ es t, Gives (decodeAll (.builtin budget) entries) .empty es t ∧ ofElements es = r := by
  have hzip : ∀ es : List (Element Empty),
      (es.map isDefinition).zip es = es.map fun e => (e.isDefinition, e) := by
    intro es
    induction es with
    | nil => rfl
    | cons e es ih => rw [List.map_cons, List.zip_cons_cons, ih, List.map_cons]
  rw [ofEntries_eq_ok_iff_assemble]
  refine exists_congr fun es => exists_congr fun t => and_congr_right fun hes => ?_
  rw [map_isDefinition_of_gives_decodeAll hes, hzip, ofElements]

theorem ofText_eq_ok_iff {c : Catalogue Empty} {source : Text} {vars : Vars} {r : Recipe Empty} :
    ofText c source vars = .ok r ↔
      ∃ entries, parse source vars = .ok entries ∧ ofEntries c entries = .ok r := by
  rw [ofText]
  cases parse source vars <;> simp

/-- Every element of a decoded script is sane. -/
theorem sane_of_ofText {source : Text} {vars : Vars} {r : Recipe Empty}
    (h : ofText (.builtin budget) source vars = .ok r) : ∀ x ∈ nodesAll r.topElements, x.Sane := by
  obtain ⟨entries, -, hentries⟩ := ofText_eq_ok_iff.1 h
  obtain ⟨es, t, hes, rfl⟩ := ofEntries_eq_ok_iff.1 hentries
  rw [topElements_ofElements]
  exact (sane_of_gives_decodeAll entries hes Scope.sane_empty).1

/-- A canonical script is parsed to the entries of the elements in it, where their names are read as
they are written. -/
theorem parse_text_of_spells {source : Text} {vars vars' : Vars} {r : Recipe Empty}
    (h : ofText (.builtin budget) source vars = .ok r)
    (hnames : ∀ e ∈ writtenAll r.topElements, e.SpellsName vars')
    (hdepth : depthAll r.topElements ≤ 256) :
    ∃ entries, parse r.text vars' = .ok entries ∧
      Entry.bareAll entries = Entry.bareAll (toEntries r.topElements) := by
  have hsettles := settles_text_of_spells vars' fun e he =>
    ⟨sane_of_ofText h e (mem_nodesAll_of_mem_writtenAll _ e he), hnames e he⟩
  rw [text_eq_flatMap]
  exact parse_of_settles hsettles hdepth

/-- A script that is parsed to the entries of a recipe is decoded to the recipe. -/
theorem ofText_of_bareAll_eq {source text : Text} {vars vars' : Vars} {r : Recipe Empty}
    {entries : List Entry} (h : ofText (.builtin budget) source vars = .ok r)
    (hparse : parse text vars' = .ok entries)
    (hbare : Entry.bareAll entries = Entry.bareAll (toEntries r.topElements)) :
    ofText (.builtin budget) text vars' = .ok r := by
  obtain ⟨first, -, hfirst⟩ := ofText_eq_ok_iff.1 h
  obtain ⟨es, t, hes, rfl⟩ := ofEntries_eq_ok_iff.1 hfirst
  rw [topElements_ofElements] at hbare
  exact ofText_eq_ok_iff.2 ⟨entries, hparse,
    ofEntries_eq_ok_iff.2 ⟨es, t, gives_decodeAll_again first hes entries hbare, rfl⟩⟩

/-- **A canonical script is decoded to its recipe**, whatever the variables stand for. -/
theorem ofText_text {source : Text} {vars : Vars} {r : Recipe Empty}
    (h : ofText (.builtin budget) source vars = .ok r)
    (hnames : ∀ e ∈ writtenAll r.topElements, e.PlainName)
    (hdepth : depthAll r.topElements ≤ 256) (vars' : Vars) :
    ofText (.builtin budget) r.text vars' = .ok r := by
  obtain ⟨entries, -, hentries⟩ := ofText_eq_ok_iff.1 h
  obtain ⟨es, t, hes, rfl⟩ := ofEntries_eq_ok_iff.1 hentries
  rw [topElements_ofElements] at hnames hdepth
  have hsane := (sane_of_gives_decodeAll entries hes Scope.sane_empty).1
  have hsettles := settles_text vars' fun x hx =>
    ⟨hsane x (mem_nodesAll_of_mem_writtenAll es x hx), hnames x hx⟩
  obtain ⟨entries', hparse, hbare⟩ := parse_of_settles hsettles hdepth
  rw [text_eq_flatMap, topElements_ofElements, ofText_eq_ok_iff]
  exact ⟨entries', hparse,
    ofEntries_eq_ok_iff.2 ⟨es, t, gives_decodeAll_again entries hes entries' hbare, rfl⟩⟩

/-! ### A sample -/

/-- A comment, a definition with a string and a word for a mode inside, and a group with a
reference to the definition and with a string of special characters. -/
def sampleScript : Text :=
  ("// twice\n.p(stash(\"a b\") only(edit rotate(1)))\n" ++
    "cache(.p tint(#F008 \"\x60 $\"))").toList

/-- The elements of the pipeline that the sample defines. -/
def sampleElements : List (Element Empty) :=
  [.step (.stash "a b".toList), .group (.only .edit) [.step (.adjust (.rotate 1))]]

/-- What the sample is decoded to. -/
def sampleRecipe : Recipe Empty :=
  ⟨[.definition ".p".toList sampleElements,
    .anonymous 1
      [.group .cache [.group (.reference ".p".toList) sampleElements,
        .step (.adjust (.tint ⟨255, 0, 0, 136⟩ (.literal "\x60 $".toList)))]]]⟩

/-- The entries of the sample with their places. -/
def sampleEntries : List Entry :=
  [⟨".p".toList,
      [⟨"stash".toList, [.leaf "a b".toList ⟨18, 2, 10⟩], ⟨12, 2, 4⟩⟩,
        ⟨"only".toList, [.leaf "edit".toList ⟨30, 2, 22⟩,
            ⟨"rotate".toList, [.leaf "1".toList ⟨42, 2, 34⟩], ⟨35, 2, 27⟩⟩], ⟨25, 2, 17⟩⟩],
      ⟨9, 2, 1⟩⟩,
    ⟨"cache".toList, [.leaf ".p".toList ⟨53, 3, 7⟩,
        ⟨"tint".toList, [.leaf "#F008".toList ⟨61, 3, 15⟩, .leaf "\x60 $".toList ⟨67, 3, 21⟩],
          ⟨56, 3, 10⟩⟩], ⟨47, 3, 1⟩⟩]

theorem ofText_text_sample :
    ofText (.builtin defaultBudget) sampleScript [] = .ok sampleRecipe ∧
      ofText (.builtin defaultBudget) sampleRecipe.text [("p".toList, "q".toList)] =
        .ok sampleRecipe := by
  have hparse : parse sampleScript [] = .ok sampleEntries := rfl
  have hdecode : ofText (.builtin defaultBudget) sampleScript [] = .ok sampleRecipe :=
    ofText_eq_ok_iff.2 ⟨sampleEntries, hparse, rfl⟩
  have hnames : ∀ e ∈ writtenAll sampleRecipe.topElements, e.PlainName := by
    simp only [sampleRecipe, sampleElements, topElements, Pipeline.topElements, writtenAll,
      written, PlainName, List.flatMap_cons, List.flatMap_nil, List.append_nil, List.cons_append,
      List.nil_append, List.forall_mem_cons, List.not_mem_nil, false_implies, implies_true, and_true]
    decide
  exact ⟨hdecode, ofText_text hdecode hnames (by decide) _⟩

end Recipe

end PhotoPipeline
