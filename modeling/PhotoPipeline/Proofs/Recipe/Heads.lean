/-
**The names in a canonical script.**

The canonical script has the name of a pipeline as it stands, where it is defined and where it is
referred to.  A name may have been written in quotes, with escapes or by means of a variable, and
then consist of any characters.  It is read back as it is exactly when it is verbatim.  So a
canonical script is decoded to its recipe again where all its names are verbatim; with a blank in a
name it is a script of other entries.

Main definitions:

* `PhotoPipeline.Element.pipelineName?` — the name that an element defines or refers to.

Main results:

* `PhotoPipeline.Element.head_render` — names are written as they stand;
* `PhotoPipeline.Recipe.names_read_back` — **which names are read back**.
-/
import PhotoPipeline.Proofs.Recipe.RoundTrip
import PhotoPipeline.Proofs.Script.Verbatim

set_option relaxedAutoImplicit false
set_option autoImplicit false

namespace PhotoPipeline

theorem head_layOut (name : Text) (inline : Bool) (k : Nat) (arguments : List Text) :
    name ++ ['('] <+: layOut name inline k arguments := by
  rw [layOut]
  split
  · exact ⟨[')'], by simp⟩
  split
  · exact ⟨List.intercalate [' '] arguments ++ [')'], by simp [layOutInline]⟩
  · exact ⟨['\n'] ++ arguments.flatMap (argumentLine k) ++ indent k ++ [')'],
      by simp [layOutBlock]⟩

namespace Element

/-- The name of the pipeline that an element defines or refers to. -/
def pipelineName? {ε : Type} : Element ε → Option Text
  | group kind _ => kind.announced?
  | _ => none

/-- A definition and a reference are written with the name as it stands in front of a bracket. -/
theorem head_render {e : Element Empty} {name : Text} (h : e.pipelineName? = some name) (k : Nat) :
    name ++ ['('] <+: e.render k := by
  match e, h with
  | group (.definition _) _, rfl => exact head_layOut _ _ k _
  | group (.reference _) _, rfl => exact head_layOut _ _ k _

theorem isName_of_pipelineName? {e : Element Empty} {name : Text}
    (h : e.pipelineName? = some name) (he : e.Sane) : Entry.isName name = true := by
  match e, h with
  | group (.definition _) _, rfl => exact he.1
  | group (.reference _) _, rfl => exact he

theorem spellsName_of_verbatim {vars : Vars} {e : Element Empty} (he : e.Sane)
    (h : ∀ name, e.pipelineName? = some name → Verbatim name) : e.SpellsName vars := by
  match e with
  | group (.definition name) _ => exact Spells.name he.1 (h name rfl)
  | group (.reference name) _ => exact Spells.name he (h name rfl)
  | step _ => exact trivial
  | group .anonymous _ => exact trivial
  | group (.only _) _ => exact trivial
  | group .cache _ => exact trivial
  | group .once _ => exact trivial

end Element

open Element

namespace Recipe

/-- **Which names are read back.**  The canonical script of a recipe has every name as it stands.
Without variables such a head is read as one entry with that name exactly when the name is verbatim,
and then so it is with any variables.  Where all names are, and no element is deeper than scripts
may be, the canonical script is decoded to the recipe. -/
theorem names_read_back {budget : UInt64} {source : Text} {vars : Vars} {r : Recipe Empty}
    (h : ofText (.builtin budget) source vars = .ok r) :
    (∀ e ∈ writtenAll r.topElements, ∀ name, e.pipelineName? = some name →
      (∀ k, name ++ ['('] <+: e.render k) ∧
        ((∃ l, parse (name ++ ['(', ')']) [] = .ok [.leaf name l]) ↔ Verbatim name) ∧
        (Verbatim name → ∀ vars', ∃ l, parse (name ++ ['(', ')']) vars' = .ok [.leaf name l])) ∧
    ((∀ e ∈ writtenAll r.topElements, ∀ name, e.pipelineName? = some name → Verbatim name) →
      depthAll r.topElements ≤ 256 → ∀ vars', ofText (.builtin budget) r.text vars' = .ok r) := by
  have hsane : ∀ e ∈ writtenAll r.topElements, e.Sane := fun e he =>
    sane_of_ofText h e (mem_nodesAll_of_mem_writtenAll _ e he)
  constructor
  · intro e he name hname
    have hsigil : Entry.isName name = true := isName_of_pipelineName? hname (hsane e he)
    exact ⟨head_render hname, parse_name_iff hsigil, exists_parse_name hsigil⟩
  · intro hverbatim hdepth vars'
    have hspells : ∀ e ∈ writtenAll r.topElements, e.SpellsName vars' := fun e he =>
      spellsName_of_verbatim (hsane e he) (hverbatim e he)
    obtain ⟨entries, hparse, hbare⟩ := parse_text_of_spells h hspells hdepth
    exact ofText_of_bareAll_eq h hparse hbare

/-! ### A name with an expression in it -/

/-- A name that is verbatim with a blank and with brackets in it. -/
def expressionName : Text := ['.', 'a', '\x60', '(', ' ', ')', '\x60']

/-- What is decoded from the definition of that name and a reference to it. -/
def expressionRecipe : Recipe Empty :=
  ⟨[.definition expressionName [.step (.adjust .invert)],
    .anonymous 1 [.group (.reference expressionName) [.step (.adjust .invert)]]]⟩

theorem verbatim_expressionName : Verbatim expressionName := by
  have hbody : IsExpressionBody ['(', ' ', ')'] [.char '(', .char ' ', .char ')'] :=
    .char (by decide) (by decide) (.char (by decide) (by decide)
      (.char (by decide) (by decide) .nil))
  have hlays : Lays true expressionName
      [.bare '.', .bare 'a', .expression [.char '(', .char ' ', .char ')']] :=
    .bare (.inl rfl) (fun _ => rfl) (.bare (.inl rfl) (fun _ => rfl) (.expression hbody .done))
  exact ⟨_, hlays, by decide⟩

/-- The entries of the definition of that name and of a reference to it. -/
def expressionEntries : List Entry :=
  [⟨expressionName, [.leaf "invert".toList ⟨8, 1, 9⟩], ⟨0, 1, 1⟩⟩,
    .leaf expressionName ⟨16, 1, 17⟩]

theorem names_read_back_expressionName :
    ofText (.builtin defaultBudget) (expressionName ++ "(invert) ".toList ++ expressionName) [] =
        .ok expressionRecipe ∧
      (∃ l, parse (expressionName ++ ['(', ')']) [] = .ok [.leaf expressionName l]) ∧
      ofText (.builtin defaultBudget) expressionRecipe.text [] = .ok expressionRecipe := by
  have hparse : parse (expressionName ++ "(invert) ".toList ++ expressionName) [] =
      .ok expressionEntries := rfl
  have hdecode : ofText (.builtin defaultBudget)
      (expressionName ++ "(invert) ".toList ++ expressionName) [] = .ok expressionRecipe :=
    ofText_eq_ok_iff.2 ⟨expressionEntries, hparse, rfl⟩
  obtain ⟨hnames, hagain⟩ := names_read_back hdecode
  refine ⟨hdecode, ?_, hagain ?_ (by decide) []⟩
  · exact (hnames (.group (.reference expressionName) [.step (.adjust .invert)])
      (by simp [expressionRecipe, topElements, Pipeline.topElements, writtenAll, written])
      expressionName rfl).2.1.2 verbatim_expressionName
  · simp only [expressionRecipe, topElements, Pipeline.topElements, writtenAll, written,
      List.flatMap_cons, List.flatMap_nil, List.append_nil, List.cons_append, List.nil_append,
      List.forall_mem_cons, List.not_mem_nil, false_implies, implies_true, and_true]
    refine ⟨?_, fun _ h => (by cases h), ?_⟩ <;> rintro _ ⟨⟩ <;> exact verbatim_expressionName

/-! ### A name with a blank in it -/

/-- What is decoded from the definition of a name with a blank, which is written in quotes. -/
def blankRecipe : Recipe Empty :=
  ⟨[.definition ".a b".toList [.step (.adjust .invert)]]⟩

/-- A name with a blank is written without its quotes, and read back as two words. -/
theorem not_read_back_blank :
    ofText (.builtin defaultBudget) "\".a b\"(invert)".toList [] = .ok blankRecipe ∧
      (∃ e ∈ writtenAll blankRecipe.topElements, e.pipelineName? = some ".a b".toList) ∧
      (∀ l, parse (".a b".toList ++ ['(', ')']) [] ≠ .ok [.leaf ".a b".toList l]) ∧
      ofText (.builtin defaultBudget : Catalogue Empty) blankRecipe.text [] =
        .error (.undefinedPipeline ".a".toList) := by
  have hparse : parse "\".a b\"(invert)".toList [] =
      .ok [⟨".a b".toList, [.leaf "invert".toList ⟨7, 1, 8⟩], ⟨0, 1, 1⟩⟩] := rfl
  have hhead : parse (".a b".toList ++ ['(', ')']) [] =
      .ok [.leaf ".a".toList ⟨0, 1, 1⟩, .leaf "b".toList ⟨3, 1, 4⟩] := rfl
  have htext : parse blankRecipe.text [] = .ok [.leaf ".a".toList ⟨0, 1, 1⟩,
      ⟨"b".toList, [.leaf "invert".toList ⟨8, 2, 3⟩], ⟨3, 1, 4⟩⟩] := rfl
  refine ⟨ofText_eq_ok_iff.2 ⟨_, hparse, rfl⟩, ⟨_, List.mem_cons_self, rfl⟩, fun l h => ?_, ?_⟩
  · rw [hhead] at h
    exact nomatch (List.cons.inj (Except.ok.inj h)).2
  · rw [ofText, htext]
    rfl

end Recipe

end PhotoPipeline
