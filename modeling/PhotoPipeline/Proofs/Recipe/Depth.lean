/-
**How deep a canonical script is.**

A script has up to 257 levels: inside 256 open lists there may still be an element without
brackets.  The canonical script writes brackets behind every element, and so opens a list for each
level of the recipe.  A recipe with 257 levels is therefore written as a script that is refused, and
every other recipe as one that is accepted.

Main results:

* `PhotoPipeline.depthAll_le_of_gives_decodeAll` — decoding adds no levels;
* `PhotoPipeline.Element.overflows_render` — **a written element opens a list for each level**;
* `PhotoPipeline.Recipe.parse_text_iff` — **which canonical scripts are accepted**.
-/
import PhotoPipeline.Proofs.Recipe.Heads
import PhotoPipeline.Proofs.Script.Depth

set_option relaxedAutoImplicit false
set_option autoImplicit false

namespace PhotoPipeline

open Element

/-! ### Levels of elements -/

section

variable {budget : UInt64}

mutual

/-- An element has no more levels than the entry that it is decoded from. -/
theorem depth_le_of_gives_decodeEntry : ∀ (entry : Entry) {s t : Scope Empty} {e : Element Empty},
    Gives (decodeEntry (.builtin budget) entry) s e t → e.depth ≤ entry.levels
  | ⟨head, children, l⟩, s, t, e, h => by
      rw [Entry.levels]
      cases gives_decodeEntry_iff.1 h with
      | step => exact Nat.succ_le_succ (Nat.zero_le _)
      | @group kind front children _ t es hkind hwords helements =>
          have hes := depthAll_le_of_gives_decodeAll children helements
          have hdepth : (group kind es).depth = depthAll es + 1 := by
            cases kind with
            | reference => exact nomatch hkind
            | _ => rfl
          rw [hdepth, Entry.levelsAll_append]
          omega
      | definition _ _ helements =>
          exact Nat.succ_le_succ (depthAll_le_of_gives_decodeAll children helements)
      | reference => exact Nat.succ_le_succ (Nat.zero_le _)
termination_by _ _ _ e => sizeOf e

/-- Elements have no more levels than the entries that they are decoded from. -/
theorem depthAll_le_of_gives_decodeAll : ∀ (entries : List Entry) {s t : Scope Empty}
    {es : List (Element Empty)}, Gives (decodeAll (.builtin budget) entries) s es t →
      depthAll es ≤ Entry.levelsAll entries
  | [], _, _, _, h => by
      obtain ⟨rfl, -⟩ := gives_decodeAll_nil.1 h
      exact Nat.le_refl _
  | entry :: entries, _, _, _, h => by
      obtain ⟨e, t, others, he, hothers, rfl⟩ := gives_decodeAll_cons.1 h
      have hfirst := depth_le_of_gives_decodeEntry entry he
      have hrest := depthAll_le_of_gives_decodeAll entries hothers
      rw [depthAll, Entry.levelsAll]
      omega
termination_by _ _ _ es => sizeOf es

end

end

/-! ### Written elements -/

section

variable {vars : Vars} {d : Nat} {name w : Text} {args : List Text}

/-- A head is written with a bracket behind it. -/
theorem overflows_head (hname : Spells vars name w) (inline : Bool) (k : Nat) (args : List Text) :
    Overflows vars 1 (layOut name inline k args) := by
  obtain ⟨rest, hrest⟩ := head_layOut name inline k args
  rw [← hrest, List.append_assoc]
  exact (overflows_zero vars rest).list hname

/-- In block form a head opens one list more than the lines of its arguments. -/
theorem overflows_layOut {k : Nat} (hname : Spells vars name w)
    (h : Overflows vars d (args.flatMap (argumentLine k))) :
    Overflows vars (d + 1) (layOut name false k args) := by
  rw [layOut]
  split
  · next hempty =>
      obtain rfl : args = [] := List.isEmpty_iff.1 hempty
      exact (h.append_right [')']).list hname
  · have hbreak : Settles vars 0 ['\n'] [] := Settles.blanks rfl
    have hlines := (hbreak.append_overflows_zero h).append_right (indent k ++ [')'])
    simpa [layOutBlock] using hlines.list hname

/-- The words in front of a group's elements open no list. -/
theorem overflows_groupArguments (kind : Group) {k : Nat} {texts : List Text}
    (h : Overflows vars d (texts.flatMap (argumentLine k))) :
    Overflows vars d ((groupArguments kind texts).flatMap (argumentLine k)) := by
  cases kind with
  | only mode =>
      have hword : Reads vars 0 (quote mode.name) [.leaf mode.name .start] :=
        (Spells.quote vars mode.name).reads
      have hline := ((settles_indent (k + 1)).append_reads hword).append_blank isBlank_newline
      exact hline.append_overflows_zero h
  | _ => exact h

end

namespace Element

/-- The name of a group is read as one word. -/
theorem spells_group {vars : Vars} {kind : Group} {es : List (Element Empty)}
    (h : (group kind es).SpellsName vars) : Spells vars kind.name kind.name := by
  cases kind with
  | definition => exact h
  | reference => exact h
  | anonymous => exact Spells.bare (by decide) (by decide) rfl
  | only => exact Spells.bare (t := "only".toList) (by decide) (by decide) rfl
  | cache => exact Spells.bare (t := "cache".toList) (by decide) (by decide) rfl
  | once => exact Spells.bare (t := "once".toList) (by decide) (by decide) rfl

mutual

/-- **A written element opens a list for each level.** -/
theorem overflows_render (vars : Vars) : ∀ (e : Element Empty) (k : Nat),
    (∀ x ∈ e.written, x.Sane ∧ x.SpellsName vars) → Overflows vars e.depth (e.render k)
  | step op, k, _ => overflows_head (spells_operation vars op) op.isInline k _
  | group (.reference name) es, k, h =>
      overflows_head (spells_group (h _ List.mem_cons_self).2) true k []
  | group (.definition name) es, k, h
  | group .anonymous es, k, h
  | group (.only _) es, k, h
  | group .cache es, k, h
  | group .once es, k, h => by
      have hlines := overflows_lines vars es k fun x hx => h x (List.mem_cons_of_mem _ hx)
      exact overflows_layOut (spells_group (h _ List.mem_cons_self).2)
        (overflows_groupArguments _ hlines)
  | plugin x _, _, _ => x.elim

/-- Written elements, each on a line of its own, open a list for each level. -/
theorem overflows_lines (vars : Vars) : ∀ (es : List (Element Empty)) (k : Nat),
    (∀ x ∈ writtenAll es, x.Sane ∧ x.SpellsName vars) →
      Overflows vars (depthAll es) ((renderAll (k + 1) es).flatMap (argumentLine k))
  | [], _, _ => overflows_zero vars []
  | e :: es, k, h => by
      have hfirst : ∀ x ∈ e.written, x.Sane ∧ x.SpellsName vars :=
        fun x hx => h x (List.mem_append_left _ hx)
      have hrest := overflows_lines vars es k fun x hx => h x (List.mem_append_right _ hx)
      have hindent : Settles vars 0 (indent (k + 1)) [] := settles_indent (k + 1)
      have hsettles := ((settles_indent (k + 1)).append_reads
        (settles_render_of_spells vars e (k + 1) hfirst).reads).append_blank isBlank_newline
      have hover := (hindent.append_overflows_zero
        (overflows_render vars e (k + 1) hfirst)).append_right ['\n']
      exact hsettles.append_overflows hover hrest

end

end Element

/-! ### Canonical scripts -/

namespace Recipe

/-- A canonical script opens a list for each level of its elements. -/
theorem overflows_text (vars : Vars) {es : List (Element Empty)}
    (h : ∀ x ∈ writtenAll es, x.Sane ∧ x.SpellsName vars) :
    Overflows vars (depthAll es) (es.flatMap fun e => e.text ++ ['\n']) := by
  induction es with
  | nil => exact overflows_zero vars []
  | cons e es ih =>
      have hfirst : ∀ x ∈ e.written, x.Sane ∧ x.SpellsName vars :=
        fun x hx => h x (List.mem_append_left _ hx)
      have hrest := ih fun x hx => h x (List.mem_append_right _ hx)
      have hsettles := (settles_render_of_spells vars e 0 hfirst).reads.append_blank isBlank_newline
      exact hsettles.append_overflows ((overflows_render vars e 0 hfirst).append_right ['\n']) hrest

variable {budget : UInt64}

theorem depthAll_le_of_ofText {source : Text} {vars : Vars} {r : Recipe Empty}
    (h : ofText (.builtin budget) source vars = .ok r) : depthAll r.topElements ≤ 257 := by
  obtain ⟨entries, hparse, hentries⟩ := ofText_eq_ok_iff.1 h
  obtain ⟨es, t, hes, rfl⟩ := ofEntries_eq_ok_iff.1 hentries
  rw [topElements_ofElements]
  exact (depthAll_le_of_gives_decodeAll entries hes).trans (levelsAll_le_of_parse hparse)

/-- Plain names of a decoded script are read as they are written. -/
theorem spellsName_of_ofText {source : Text} {vars vars' : Vars} {r : Recipe Empty}
    (h : ofText (.builtin budget) source vars = .ok r)
    (hnames : ∀ e ∈ writtenAll r.topElements, e.PlainName) :
    ∀ e ∈ writtenAll r.topElements, e.SpellsName vars' := fun e he =>
  spellsName_of_plainName (sane_of_ofText h e (mem_nodesAll_of_mem_writtenAll _ e he)) (hnames e he)

/-- A canonical script of more than 256 levels is refused. -/
theorem parse_text_tooDeep {source : Text} {vars vars' : Vars} {r : Recipe Empty}
    (h : ofText (.builtin budget) source vars = .ok r)
    (hnames : ∀ e ∈ writtenAll r.topElements, e.SpellsName vars')
    (hdepth : 256 < depthAll r.topElements) : ∃ l, parse r.text vars' = .error ⟨.tooDeep, l⟩ := by
  have hover := overflows_text vars' fun e he =>
    ⟨sane_of_ofText h e (mem_nodesAll_of_mem_writtenAll _ e he), hnames e he⟩
  rw [text_eq_flatMap]
  exact parse_of_overflows hover hdepth

/-- **Which canonical scripts are accepted.**  What a script with plain names is decoded to has at
most 257 levels.  Its canonical script is accepted, whatever the variables stand for, when there
are at most 256 of them, and else refused as too deep. -/
theorem parse_text_iff {source : Text} {vars : Vars} {r : Recipe Empty}
    (h : ofText (.builtin budget) source vars = .ok r)
    (hnames : ∀ e ∈ writtenAll r.topElements, e.PlainName) :
    depthAll r.topElements ≤ 257 ∧ ∀ vars',
      ((∃ entries, parse r.text vars' = .ok entries) ↔ depthAll r.topElements ≤ 256) ∧
      (depthAll r.topElements = 257 → ∃ l, parse r.text vars' = .error ⟨.tooDeep, l⟩) := by
  refine ⟨depthAll_le_of_ofText h, fun vars' => ?_⟩
  have hspells : ∀ e ∈ writtenAll r.topElements, e.SpellsName vars' :=
    spellsName_of_ofText h hnames
  refine ⟨⟨?_, ?_⟩, fun hdepth => parse_text_tooDeep h hspells (by omega)⟩
  · rintro ⟨entries, hparse⟩
    by_contra hdepth
    obtain ⟨l, hl⟩ := parse_text_tooDeep h hspells (Nat.not_le.1 hdepth)
    exact nomatch hparse.symm.trans hl
  · intro hdepth
    obtain ⟨entries, hparse, -⟩ := parse_text_of_spells h hspells hdepth
    exact ⟨entries, hparse⟩

/-! ### As deep as a script may be -/

/-- An element without brackets inside `n` lists. -/
def nestedScript : Nat → Text
  | 0 => "grayscale".toList
  | n + 1 => anonymousHead ++ '(' :: (nestedScript n ++ [')'])

/-- What that script is decoded to. -/
def nestedElement : Nat → Element Empty
  | 0 => .step (.adjust .grayscale)
  | n + 1 => .group .anonymous [nestedElement n]

theorem depth_nestedElement (n : Nat) : (nestedElement n).depth = n + 1 := by
  induction n with
  | zero => rfl
  | succ n ih =>
      show depthAll [nestedElement n] + 1 = n + 1 + 1
      rw [depthAll, depthAll, ih, Nat.max_zero]

theorem plainName_nestedElement (n : Nat) :
    ∀ e ∈ writtenAll [nestedElement n], e.PlainName := by
  rw [writtenAll, writtenAll, List.append_nil]
  induction n with
  | zero => exact List.forall_mem_singleton.2 trivial
  | succ n ih =>
      refine List.forall_mem_cons.2 ⟨trivial, ?_⟩
      rw [writtenAll, writtenAll, List.append_nil]
      exact ih

theorem reads_nestedScript (n : Nat) :
    Reads [] n (nestedScript n) [(nestedElement n).toEntry] := by
  induction n with
  | zero => exact (spells_operation [] (.adjust .grayscale)).reads
  | succ n ih =>
      have hhead : Spells [] anonymousHead anonymousHead := Spells.bare (by decide) (by decide) rfl
      exact (ih.list hhead).reads

theorem gives_nestedElement (n : Nat) (s : Scope Empty) :
    Gives (decodeEntry (.builtin budget) (nestedElement n).toEntry) s (nestedElement n) s := by
  induction n with
  | zero =>
      have haccepts : (Operation.adjust .grayscale).Accepts [] := ⟨[], .inl rfl, .nil⟩
      exact gives_decodeEntry_iff.2 (.step haccepts .nil)
  | succ n ih =>
      have helements : Gives (decodeAll (.builtin budget) [(nestedElement n).toEntry]) s
          [nestedElement n] s :=
        gives_decodeAll_cons.2 ⟨_, s, [], ih, gives_decodeAll_nil.2 ⟨rfl, rfl⟩, rfl⟩
      have hkind : Group.anonymous.announced? = none := rfl
      exact gives_decodeEntry_iff.2 (.group hkind .nil helements)

/-- With up to 256 lists around its element, the script is accepted. -/
theorem ofText_nestedScript {n : Nat} (hn : n < 256) :
    ofText (.builtin budget) (nestedScript (n + 1)) [] =
      .ok (ofElements [nestedElement (n + 1)]) := by
  have hhead : Spells [] anonymousHead anonymousHead := Spells.bare (by decide) (by decide) rfl
  have hsettles : Settles [] (n + 1) (nestedScript (n + 1)) [(nestedElement (n + 1)).toEntry] :=
    (reads_nestedScript n).list hhead
  obtain ⟨entries, hparse, hbare⟩ := parse_of_settles hsettles hn
  have hgives : Gives (decodeAll (.builtin budget) [(nestedElement (n + 1)).toEntry]) .empty
      [nestedElement (n + 1)] .empty :=
    gives_decodeAll_cons.2 ⟨_, _, [], gives_nestedElement (n + 1) _,
      gives_decodeAll_nil.2 ⟨rfl, rfl⟩, rfl⟩
  exact ofText_eq_ok_iff.2 ⟨entries, hparse,
    ofEntries_eq_ok_iff.2 ⟨_, _, gives_decodeAll_again _ hgives entries hbare, rfl⟩⟩

theorem depthAll_nestedRecipe (n : Nat) :
    depthAll (ofElements [nestedElement n]).topElements = n + 1 := by
  rw [topElements_ofElements, depthAll, depthAll, depth_nestedElement, Nat.max_zero]

/-- Inside 255 lists there is room for the brackets of one more element. -/
theorem parse_text_iff_nested :
    ofText (.builtin defaultBudget) (nestedScript 255) [] = .ok (ofElements [nestedElement 255]) ∧
      ∃ entries, parse (ofElements [nestedElement 255]).text [] = .ok entries := by
  have hdecode : ofText (.builtin defaultBudget) (nestedScript 255) [] =
      .ok (ofElements [nestedElement 255]) := ofText_nestedScript (by decide)
  have hplain : ∀ e ∈ writtenAll (ofElements [nestedElement 255]).topElements, e.PlainName := by
    rw [topElements_ofElements]
    exact plainName_nestedElement 255
  exact ⟨hdecode, ((parse_text_iff hdecode hplain).2 []).1.2 (depthAll_nestedRecipe 255).le⟩

/-- Inside 256 lists there is none: the script is accepted, and its canonical script refused. -/
theorem not_parse_text_nested :
    ofText (.builtin defaultBudget) (nestedScript 256) [] = .ok (ofElements [nestedElement 256]) ∧
      (∀ e ∈ writtenAll (ofElements [nestedElement 256]).topElements, e.PlainName) ∧
      ∃ l, parse (ofElements [nestedElement 256]).text [] = .error ⟨.tooDeep, l⟩ := by
  have hdecode : ofText (.builtin defaultBudget) (nestedScript 256) [] =
      .ok (ofElements [nestedElement 256]) := ofText_nestedScript (by decide)
  have hplain : ∀ e ∈ writtenAll (ofElements [nestedElement 256]).topElements, e.PlainName := by
    rw [topElements_ofElements]
    exact plainName_nestedElement 256
  refine ⟨hdecode, hplain, parse_text_tooDeep hdecode (spellsName_of_ofText hdecode hplain) ?_⟩
  rw [depthAll_nestedRecipe]
  decide

end Recipe

end PhotoPipeline
