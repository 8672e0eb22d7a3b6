/-
**References within one script.**

A name is defined once in a script, so all references to it stand for the same elements, wherever
they are: at the top level, inside groups and definitions, and inside what other references stand
for.  The text of elements does not show what their references stand for; but of two groups of one
script it need not, and their texts tell them apart.

Main results:

* `PhotoPipeline.Resolves.find?_of_refers` — a reference stands for what its name is known as in
  the end;
* `PhotoPipeline.Recipe.eq_of_mem_references` — **references of one name stand for the same
  elements**;
* `PhotoPipeline.Recipe.eq_of_text_eq` — **the texts of groups of one script tell their elements**.
-/
import PhotoPipeline.Proofs.Cache.Fingerprint
import PhotoPipeline.Proofs.Recipe.Names

set_option relaxedAutoImplicit false
set_option autoImplicit false

namespace PhotoPipeline

open Element

/-! ### What names are known as -/

namespace Resolves

variable {s t : Scope Empty} {us : List (NameUse × List (Element Empty))} {name : Text}
  {es : List (Element Empty)}

/-- What a name is known as does not change. -/
theorem find?_eq_some (h : Resolves s us t) (hs : s.find? name = some es) :
    t.find? name = some es := by
  induction h with
  | nil => exact hs
  | @defines s t other fs us hfresh _ ih =>
      refine ih ((Scope.find?_define_of_ne ?_ fs).trans hs)
      rintro rfl
      rw [hfresh] at hs
      cases hs
  | refers _ _ ih => exact ih hs

/-- A reference stands for what its name is known as in the end. -/
theorem find?_of_refers (h : Resolves s us t) (hmem : (.refers name, es) ∈ us) :
    t.find? name = some es := by
  induction h with
  | nil => cases hmem
  | defines _ _ ih => exact ih ((List.mem_cons.1 hmem).resolve_left fun heq => by cases heq)
  | refers hknown hrest ih =>
      rcases List.mem_cons.1 hmem with heq | hmem
      · cases heq
        exact hrest.find?_eq_some hknown
      · exact ih hmem

end Resolves

/-! ### Inside references -/

namespace Element

mutual

/-- The names that are used in a definition are used around it. -/
theorem mem_uses_of_mem_defines {name : Text} {es : List (Element Empty)}
    {u : NameUse × List (Element Empty)} (hu : u ∈ usesAll es) :
    ∀ e : Element Empty, (.defines name, es) ∈ e.uses → u ∈ e.uses
  | step _, h => by cases h
  | group (.definition _) fs, h => by
      rcases List.mem_append.1 h with h | h
      · exact List.mem_append_left _ (mem_usesAll_of_mem_defines hu fs h)
      · cases List.mem_singleton.1 h
        exact List.mem_append_left _ hu
  | group (.reference _) _, h => by cases List.mem_singleton.1 h
  | group .anonymous fs, h
  | group (.only _) fs, h
  | group .cache fs, h
  | group .once fs, h => mem_usesAll_of_mem_defines hu fs h
  | plugin x _, _ => x.elim

/-- The names that are used in a definition are used around it. -/
theorem mem_usesAll_of_mem_defines {name : Text} {es : List (Element Empty)}
    {u : NameUse × List (Element Empty)} (hu : u ∈ usesAll es) :
    ∀ fs : List (Element Empty), (.defines name, es) ∈ usesAll fs → u ∈ usesAll fs
  | [], h => by cases h
  | f :: fs, h => by
      rcases List.mem_append.1 h with h | h
      · exact List.mem_append_left _ (mem_uses_of_mem_defines hu f h)
      · exact List.mem_append_right _ (mem_usesAll_of_mem_defines hu fs h)

end

/-- What is used by the elements that a reference stands for is used as well. -/
def UsesClosed (us : List (NameUse × List (Element Empty))) : Prop :=
  ∀ name es, (.refers name, es) ∈ us → ∀ u ∈ usesAll es, u ∈ us

section

variable {us : List (NameUse × List (Element Empty))} {name : Text} {es : List (Element Empty)}

mutual

/-- The references in a tree are used, also those inside what others stand for. -/
theorem refers_mem_of_mem_nodes (hus : UsesClosed us) : ∀ e : Element Empty,
    (∀ u ∈ e.uses, u ∈ us) → group (.reference name) es ∈ e.nodes → (.refers name, es) ∈ us
  | step _, _, h => by cases List.mem_singleton.1 h
  | group (.reference _) fs, he, h => by
      have hrefers := he _ List.mem_cons_self
      rcases List.mem_cons.1 h with h | h
      · cases h
        exact hrefers
      · exact refers_mem_of_mem_nodesAll hus fs (hus _ _ hrefers) h
  | group (.definition _) fs, he, h => by
      refine refers_mem_of_mem_nodesAll hus fs (fun u hu => he u (List.mem_append_left _ hu)) ?_
      exact (List.mem_cons.1 h).resolve_left fun h => by cases h
  | group .anonymous fs, he, h
  | group (.only _) fs, he, h
  | group .cache fs, he, h
  | group .once fs, he, h => by
      refine refers_mem_of_mem_nodesAll hus fs he ?_
      exact (List.mem_cons.1 h).resolve_left fun h => by cases h
  | plugin x _, _, _ => x.elim

/-- The references in trees are used, also those inside what others stand for. -/
theorem refers_mem_of_mem_nodesAll (hus : UsesClosed us) : ∀ fs : List (Element Empty),
    (∀ u ∈ usesAll fs, u ∈ us) → group (.reference name) es ∈ nodesAll fs →
      (.refers name, es) ∈ us
  | [], _, h => by cases h
  | f :: fs, hfs, h => by
      rcases List.mem_append.1 h with h | h
      · exact refers_mem_of_mem_nodes hus f (fun u hu => hfs u (List.mem_append_left _ hu)) h
      · exact refers_mem_of_mem_nodesAll hus fs (fun u hu => hfs u (List.mem_append_right _ hu)) h

end

mutual

/-- The references that are written in a tree are elements of it. -/
theorem mem_nodes_of_mem_references : ∀ e : Element Empty,
    (name, es) ∈ e.references → group (.reference name) es ∈ e.nodes
  | step _, h => by cases h
  | group (.reference _) _, h => by
      cases List.mem_singleton.1 h
      exact List.mem_cons_self
  | group (.definition _) fs, h
  | group .anonymous fs, h
  | group (.only _) fs, h
  | group .cache fs, h
  | group .once fs, h => List.mem_cons_of_mem _ (mem_nodesAll_of_mem_referencesAll fs h)
  | plugin x _, _ => x.elim

/-- The references that are written in trees are elements of them. -/
theorem mem_nodesAll_of_mem_referencesAll : ∀ fs : List (Element Empty),
    (name, es) ∈ referencesAll fs → group (.reference name) es ∈ nodesAll fs
  | [], h => by cases h
  | f :: fs, h => by
      rcases List.mem_append.1 h with h | h
      · exact List.mem_append_left _ (mem_nodes_of_mem_references f h)
      · exact List.mem_append_right _ (mem_nodesAll_of_mem_referencesAll fs h)

end

end

end Element

/-! ### Scripts -/

namespace Recipe

variable {budget : UInt64} {source : Text} {vars : Vars} {r : Recipe Empty}

/-- **References of one name stand for the same elements.** -/
theorem eq_of_mem_references (hr : ofText (.builtin budget) source vars = .ok r) {name : Text}
    {es fs : List (Element Empty)} (hes : group (.reference name) es ∈ nodesAll r.topElements)
    (hfs : group (.reference name) fs ∈ nodesAll r.topElements) : es = fs := by
  obtain ⟨entries, -, hentries⟩ := ofText_eq_ok_iff.1 hr
  obtain ⟨top, t, hgives, rfl⟩ := ofEntries_eq_ok_iff.1 hentries
  rw [topElements_ofElements] at hes hfs
  obtain ⟨-, -, hresolves⟩ := resolves_of_gives_decodeAll entries hgives
  have hclosed : UsesClosed (usesAll top) := by
    intro name gs hgs u hu
    obtain ⟨before, after, hsplit⟩ := List.append_of_mem hgs
    have hdefines := (hresolves.target before name gs after hsplit).resolve_left nofun
    have hmem : (.defines name, gs) ∈ usesAll top := hsplit ▸ List.mem_append_left _ hdefines
    exact mem_usesAll_of_mem_defines hu top hmem
  have hfind : ∀ gs, group (.reference name) gs ∈ nodesAll top → t.find? name = some gs :=
    fun gs hgs => hresolves.find?_of_refers
      (refers_mem_of_mem_nodesAll hclosed top (fun _ hu => hu) hgs)
  exact Option.some.inj ((hfind es hes).symm.trans (hfind fs hfs))

/-- **The texts of groups of one script tell their elements**, where the names in them are plain. -/
theorem eq_of_text_eq (hr : ofText (.builtin budget) source vars = .ok r)
    {kind kind' : Group} {es fs : List (Element Empty)}
    (hes : group kind es ∈ nodesAll r.topElements) (hfs : group kind' fs ∈ nodesAll r.topElements)
    (hplain : ∀ x ∈ writtenAll es, x.PlainName) (hplain' : ∀ x ∈ writtenAll fs, x.PlainName)
    (h : (group .anonymous es).text = (group .anonymous fs).text) : es = fs := by
  have hwritten : ∀ {k : Group} {gs : List (Element Empty)},
      group k gs ∈ nodesAll r.topElements → (∀ x ∈ writtenAll gs, x.PlainName) →
        ∀ x ∈ writtenAll gs, x.Sane ∧ x.PlainName := by
    intro k gs hgs hnames x hx
    have hnode := mem_nodesAll_of_mem_writtenAll gs x hx
    exact ⟨sane_of_ofText hr x (mem_nodesAll_of_mem_group hnode _ hgs), hnames x hx⟩
  refine eq_of_outlineAll_eq es fs (fun name gs hs hgs hhs => ?_)
    ((text_anonymous_eq_iff (hwritten hes hplain) (hwritten hfs hplain')).1 h)
  exact eq_of_mem_references hr
    (mem_nodesAll_of_mem_group (mem_nodesAll_of_mem_referencesAll es hgs) _ hes)
    (mem_nodesAll_of_mem_group (mem_nodesAll_of_mem_referencesAll fs hhs) _ hfs)

end Recipe

end PhotoPipeline
