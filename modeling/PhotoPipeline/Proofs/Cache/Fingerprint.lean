/-
**What a fingerprint tells.**

The key of a group that keeps its result is a digest of its canonical text and of its input.  As
long as no two different strings of bytes have one digest, the key tells the input, to the last
byte, and of the elements everything that is written; nothing else is used of the hash.  What a
reference stands for is not written: two groups have the same keys exactly when their elements are
equal once the elements that references stand for are taken away.

So a key tells the elements of a group without references, and those of groups whose references
mean the same.  It does not tell what a reference means: when a pipeline is defined anew under its
old name, the groups that refer to it keep their keys.

Main definitions:

* `PhotoPipeline.NoCollision` — no two of the given strings of bytes share a digest;
* `PhotoPipeline.Element.outline` — an element without what its references stand for;
* `PhotoPipeline.Element.references` — the references of an element, each with what it stands for.

Main results:

* `PhotoPipeline.Text.utf8_injective`, `PhotoPipeline.inputBytes_injective` — the bytes of a text
  and of an image tell them;
* `PhotoPipeline.Element.outline_eq_of_toEntry_eq` — an entry tells what is written;
* `PhotoPipeline.cacheKey_eq_iff` — **what a key tells**.
-/
import PhotoPipeline.Cache.Fingerprint
import PhotoPipeline.Engine.Run
import PhotoPipeline.Proofs.Recipe.RoundTrip

set_option relaxedAutoImplicit false
set_option autoImplicit false

namespace PhotoPipeline

/-! ### Bytes -/

/-- The bytes of a text tell the text. -/
theorem Text.utf8_injective {t u : Text} (h : Text.utf8 t = Text.utf8 u) : t = u := by
  have hencode : List.utf8Encode t = List.utf8Encode u :=
    congrArg List.toByteArray h
  have hdecode := congrArg ByteArray.utf8Decode? hencode
  rw [List.utf8Decode?_utf8Encode, List.utf8Decode?_utf8Encode] at hdecode
  exact congrArg Array.toList (Option.some.inj hdecode)

/-- No name of a format begins another. -/
theorem format_eq_of_name_append {f g : Format} {a b : List UInt8}
    (h : Text.utf8 f.name.toList ++ a = Text.utf8 g.name.toList ++ b) : f = g := by
  have hnames : ∀ f g : Format, (Text.utf8 f.name.toList).isPrefixOf (Text.utf8 g.name.toList) →
      f = g := by
    intro f g
    cases f <;> cases g <;> decide
  have hf : Text.utf8 f.name.toList <+: Text.utf8 g.name.toList ++ b := h ▸ List.prefix_append _ _
  have hg : Text.utf8 g.name.toList <+: Text.utf8 g.name.toList ++ b := List.prefix_append _ _
  rcases List.prefix_or_prefix_of_prefix hf hg with hpre | hpre
  · exact hnames f g (List.isPrefixOf_iff_prefix.2 hpre)
  · exact (hnames g f (List.isPrefixOf_iff_prefix.2 hpre)).symm

/-- The bytes that stand for an image tell the image. -/
theorem imageKeyBytes_injective {i j : Image} (h : imageKeyBytes i = imageKeyBytes j) : i = j := by
  obtain ⟨w, ht, f, bytes, hsize⟩ := i
  obtain ⟨w', ht', f', bytes', hsize'⟩ := j
  obtain ⟨-, htail⟩ := List.cons.inj h
  simp only [List.append_assoc] at htail
  obtain ⟨hw, hrest⟩ := List.append_inj htail rfl
  obtain ⟨hh, hnames⟩ := List.append_inj hrest rfl
  obtain rfl := littleEndian_injective hw
  obtain rfl := littleEndian_injective hh
  obtain rfl := format_eq_of_name_append hnames
  obtain rfl : bytes = bytes' := Array.toList_inj.1 (List.append_cancel_left hnames)
  rfl

/-- The bytes of an input tell whether there is an image, and which. -/
theorem inputBytes_injective {i j : Option Image} (h : inputBytes i = inputBytes j) : i = j := by
  cases i with
  | none =>
      cases j with
      | none => rfl
      | some j => exact nomatch (List.cons.inj h).1
  | some i =>
      cases j with
      | none => exact nomatch (List.cons.inj h).1
      | some j => rw [imageKeyBytes_injective h]

/-- The bytes of a key tell the seed and the input. -/
theorem cacheKeyBytes_inj {ε : Type} [Plugin ε] {es fs : List (Element ε)} {i j : Option Image}
    (h : cacheKeyBytes es i = cacheKeyBytes fs j) : seedOf es = seedOf fs ∧ i = j := by
  have hlength : (seedOf es).toList.length = (seedOf fs).toList.length := by
    rw [Vector.length_toList, Vector.length_toList]
  obtain ⟨hseed, hinput⟩ := List.append_inj h hlength
  exact ⟨Vector.toList_inj.1 hseed, inputBytes_injective hinput⟩

/-! ### Outlines -/

namespace Element

section

variable {ε : Type}

mutual

/-- The element without what its references stand for. -/
def outline : Element ε → Element ε
  | step op => step op
  | group (.reference name) _ => group (.reference name) []
  | group kind es => group kind (outlineAll es)
  | plugin x es => plugin x (outlineAll es)

/-- The elements without what their references stand for. -/
def outlineAll : List (Element ε) → List (Element ε)
  | [] => []
  | e :: es => outline e :: outlineAll es

end

mutual

/-- The references that are written in an element, each with what it stands for. -/
def references : Element ε → List (Text × List (Element ε))
  | step _ => []
  | group (.reference name) es => [(name, es)]
  | group _ es => referencesAll es
  | plugin _ es => referencesAll es

/-- The references that are written in elements, each with what it stands for. -/
def referencesAll : List (Element ε) → List (Text × List (Element ε))
  | [] => []
  | e :: es => references e ++ referencesAll es

end

end

/-- The words of an operation tell it, together with its name. -/
theorem operation_eq_of_words {op op' : Operation} (h : ∀ s ∈ op.scalars, s.Sane)
    (h' : ∀ s ∈ op'.scalars, s.Sane) (hname : op.name = op'.name)
    (hwords : op.scalars.map Scalar.word = op'.scalars.map Scalar.word) : op = op' := by
  -- both are what the words are decoded to
  let xs : List (Argument Empty) := (op.scalars.map Scalar.word).map fun w =>
    ⟨.leaf w .start, throw (.undefinedPipeline [])⟩
  have hxs : List.Forall₂ Argument.IsWord (op.scalars.map Scalar.word) xs := by
    rw [List.forall₂_map_right_iff, List.forall₂_same]
    exact fun w _ => ⟨rfl, rfl⟩
  have hop : Gives (construct (.builtin 0) op.name xs) .empty (.step op) .empty :=
    gives_construct_step (Operation.accepts_words h) hxs
  have hop' : Gives (construct (.builtin 0) op.name xs) .empty (.step op') .empty := by
    rw [hname]
    exact gives_construct_step (Operation.accepts_words h') (hwords ▸ hxs)
  exact Element.step.inj (hop.unique hop').1

/-- No operation is named like a group. -/
theorem operation_name_ne {op : Operation} {kind : Group} (h : kind.announced? = none) :
    op.name ≠ kind.name := by
  have hnames : ∀ name ∈ Operation.names, name ≠ anonymousHead ∧ name ≠ "only".toList ∧
      name ≠ "cache".toList ∧ name ≠ "once".toList := by decide
  obtain ⟨hanonymous, honly, hcache, honce⟩ := hnames op.name op.name_mem_names
  cases kind with
  | anonymous => exact hanonymous
  | definition => cases h
  | reference => cases h
  | only => exact honly
  | cache => exact hcache
  | once => exact honce

/-- The head and the words in front tell a group that is no pipeline with a name. -/
theorem groupEntries_inj {kind kind' : Group} (h : kind.announced? = none)
    (h' : kind'.announced? = none) (hname : kind.name = kind'.name) {entries entries' : List Entry}
    (hentries : groupEntries kind entries = groupEntries kind' entries') :
    kind = kind' ∧ entries = entries' := by
  have hplain : ∀ {k : Group}, k.announced? = none →
      k = .anonymous ∨ k = .cache ∨ k = .once ∨ ∃ m, k = .only m := by
    intro k hk
    cases k with
    | definition => cases hk
    | reference => cases hk
    | _ => simp
  rcases hplain h with rfl | rfl | rfl | ⟨m, rfl⟩ <;>
    rcases hplain h' with rfl | rfl | rfl | ⟨m', rfl⟩
  case inr.inr.inr.inr.inr.inr =>
    obtain ⟨hword, hrest⟩ := List.cons.inj hentries
    have hm : Mode.ofText m.name = Mode.ofText m'.name := congrArg _ (Entry.mk.inj hword).1
    rw [Mode.ofText_name, Mode.ofText_name] at hm
    obtain rfl := Except.ok.inj hm
    exact ⟨rfl, hrest⟩
  all_goals first
    | exact ⟨rfl, hentries⟩
    | exact absurd hname (by simp only [Group.name]; decide)

theorem outline_group {kind : Group} (h : kind.announced? = none) (es : List (Element Empty)) :
    (group kind es).outline = group kind (outlineAll es) := by
  cases kind with
  | reference => cases h
  | _ => rfl

theorem written_group {kind : Group} (h : kind.announced? = none) (es : List (Element Empty)) :
    (group kind es).written = group kind es :: writtenAll es := by
  cases kind with
  | reference => cases h
  | _ => rfl

/-- The name that an element announces while it runs. -/
def announced? : Element Empty → Option Text
  | group kind _ => kind.announced?
  | _ => none

/-- The head of an entry tells whether it is the name of a pipeline. -/
theorem isName_toEntry : ∀ {e : Element Empty}, (∀ x ∈ e.written, x.Sane) →
    Entry.isName e.toEntry.value = e.announced?.isSome
  | step op, _ => isName_operation_eq_false op
  | group (.reference _) _, h => h _ List.mem_cons_self
  | group (.definition _) _, h => (h _ List.mem_cons_self).1
  | group .anonymous _, _ => rfl
  | group (.only _) _, _ => rfl
  | group .cache _, _ => rfl
  | group .once _, _ => rfl
  | plugin x _, _ => x.elim

/-- Equal entries are both of pipelines with names, or neither is. -/
theorem isSome_announced?_eq {e f : Element Empty} (he : ∀ x ∈ e.written, x.Sane)
    (hf : ∀ x ∈ f.written, x.Sane) (h : e.toEntry = f.toEntry) :
    e.announced?.isSome = f.announced?.isSome := by
  rw [← isName_toEntry he, ← isName_toEntry hf, h]

/-- An operation and a group have different entries. -/
theorem toEntry_step_ne_group {op : Operation} {kind : Group} {es : List (Element Empty)}
    (hop : ∀ x ∈ (step op : Element Empty).written, x.Sane)
    (hes : ∀ x ∈ (group kind es).written, x.Sane) :
    (step op).toEntry ≠ (group kind es).toEntry := by
  intro h
  have hsome := isSome_announced?_eq hop hes h
  have hkind : kind.announced? = none :=
    Option.isNone_iff_eq_none.1 (Option.isSome_eq_false_iff.1 hsome.symm)
  rw [toEntry_group hkind] at h
  exact operation_name_ne hkind (Entry.mk.inj h).1

mutual

/-- **An entry tells what is written.** -/
theorem outline_eq_of_toEntry_eq : ∀ (e f : Element Empty), (∀ x ∈ e.written, x.Sane) →
    (∀ x ∈ f.written, x.Sane) → e.toEntry = f.toEntry → e.outline = f.outline
  | step op, step op', he, hf, h => by
      obtain ⟨hname, hwords, -⟩ := Entry.mk.inj h
      have hmap := congrArg (List.map Entry.value) hwords
      rw [List.map_map, List.map_map] at hmap
      rw [operation_eq_of_words (he _ List.mem_cons_self) (hf _ List.mem_cons_self) hname hmap]
  | step op, group kind es, he, hf, h => absurd h (toEntry_step_ne_group he hf)
  | group kind es, step op, he, hf, h => absurd h.symm (toEntry_step_ne_group hf he)
  | group kind es, group kind' es', he, hf, h => by
      have hsome : kind.announced?.isSome = kind'.announced?.isSome :=
        isSome_announced?_eq he hf h
      cases hk : kind.announced? with
      | none =>
          have hk' : kind'.announced? = none := by
            rw [hk] at hsome
            exact Option.not_isSome_iff_eq_none.1 (by rw [← hsome]; exact Bool.false_ne_true)
          rw [toEntry_group hk, toEntry_group hk'] at h
          obtain ⟨hname, hentries, -⟩ := Entry.mk.inj h
          obtain ⟨rfl, hes⟩ := groupEntries_inj hk hk' hname hentries
          rw [written_group hk] at he hf
          rw [outline_group hk, outline_group hk, outlineAll_eq_of_toEntries_eq es es'
            (fun x hx => he x (List.mem_cons_of_mem _ hx))
            (fun x hx => hf x (List.mem_cons_of_mem _ hx)) hes]
      | some name =>
          rw [hk] at hsome
          -- a definition has elements below it, and a reference has none
          have hnil : ∀ {fs : List (Element Empty)}, fs ≠ [] → toEntries fs ≠ [] := by
            intro fs hfs
            cases fs with
            | nil => exact absurd rfl hfs
            | cons f fs => exact List.cons_ne_nil _ _
          cases kind with
          | definition n =>
              cases kind' with
              | definition n' =>
                  obtain ⟨rfl, hes, -⟩ := Entry.mk.inj h
                  exact congrArg (group (.definition n)) (outlineAll_eq_of_toEntries_eq es es'
                    (fun x hx => he x (List.mem_cons_of_mem _ hx))
                    (fun x hx => hf x (List.mem_cons_of_mem _ hx)) hes)
              | reference n' =>
                  exact absurd (Entry.mk.inj h).2.1 (hnil (he _ List.mem_cons_self).2)
              | _ => exact nomatch hsome
          | reference n =>
              cases kind' with
              | definition n' =>
                  exact absurd (Entry.mk.inj h).2.1.symm (hnil (hf _ List.mem_cons_self).2)
              | reference n' =>
                  obtain ⟨rfl, -, -⟩ := Entry.mk.inj h
                  rfl
              | _ => exact nomatch hsome
          | _ => exact nomatch hk
  | plugin x _, _, _, _, _ => x.elim
  | _, plugin x _, _, _, _ => x.elim

/-- Entries tell what is written. -/
theorem outlineAll_eq_of_toEntries_eq : ∀ (es fs : List (Element Empty)),
    (∀ x ∈ writtenAll es, x.Sane) → (∀ x ∈ writtenAll fs, x.Sane) →
      toEntries es = toEntries fs → outlineAll es = outlineAll fs
  | [], [], _, _, _ => rfl
  | [], _ :: _, _, _, h => nomatch h
  | _ :: _, [], _, _, h => nomatch h
  | e :: es, f :: fs, he, hf, h => by
      obtain ⟨hhead, htail⟩ := List.cons.inj h
      rw [outlineAll, outlineAll, outline_eq_of_toEntry_eq e f
          (fun x hx => he x (List.mem_append_left _ hx))
          (fun x hx => hf x (List.mem_append_left _ hx)) hhead,
        outlineAll_eq_of_toEntries_eq es fs (fun x hx => he x (List.mem_append_right _ hx))
          (fun x hx => hf x (List.mem_append_right _ hx)) htail]

end

mutual

/-- Places do not matter in what an element is written as. -/
theorem bare_toEntry : ∀ e : Element Empty, e.toEntry.bare = e.toEntry
  | step op => by
      rw [toEntry, Entry.bare, Entry.bareAll_eq_map, List.map_map]
      rfl
  | group kind es => by
      cases hk : kind.announced? with
      | none =>
          rw [toEntry_group hk, Entry.bare, groupEntries, Entry.bareAll_append, bareAll_words,
            bareAll_toEntries es]
      | some name =>
          cases kind with
          | definition n => exact congrArg (Entry.mk n · .start) (bareAll_toEntries es)
          | reference n => rfl
          | _ => exact nomatch hk
  | plugin x _ => x.elim

/-- Places do not matter in what elements are written as. -/
theorem bareAll_toEntries : ∀ es : List (Element Empty),
    Entry.bareAll (toEntries es) = toEntries es
  | [] => rfl
  | e :: es => by rw [toEntries, Entry.bareAll, bare_toEntry e, bareAll_toEntries es]

end

mutual

/-- What references stand for is not written. -/
theorem render_outline : ∀ (e : Element Empty) (k : Nat), e.outline.render k = e.render k
  | step _, _ => rfl
  | group (.reference _) _, _ => rfl
  | group (.definition _) es, k
  | group .anonymous es, k
  | group (.only _) es, k
  | group .cache es, k
  | group .once es, k => by
      simp only [outline, render, renderAll_outlineAll es (k + 1)]
  | plugin x _, _ => x.elim

/-- What references stand for is not written. -/
theorem renderAll_outlineAll : ∀ (es : List (Element Empty)) (k : Nat),
    renderAll k (outlineAll es) = renderAll k es
  | [], _ => rfl
  | e :: es, k => by
      rw [outlineAll, renderAll, renderAll, render_outline e k, renderAll_outlineAll es k]

end

/-- **The canonical text of elements tells what is written, and nothing else.** -/
theorem text_anonymous_eq_iff {es fs : List (Element Empty)}
    (hes : ∀ x ∈ writtenAll es, x.Sane ∧ x.PlainName)
    (hfs : ∀ x ∈ writtenAll fs, x.Sane ∧ x.PlainName) :
    (group .anonymous es).text = (group .anonymous fs).text ↔ outlineAll es = outlineAll fs := by
  constructor
  · intro h
    have hsettles : ∀ gs : List (Element Empty), (∀ x ∈ writtenAll gs, x.Sane ∧ x.PlainName) →
        Settles [] (group .anonymous gs).depth (group .anonymous gs).text
          [(group .anonymous gs).toEntry] :=
      fun gs hgs => settles_render [] (group .anonymous gs) 0
        (List.forall_mem_cons.2 ⟨⟨trivial, trivial⟩, hgs⟩)
    have hbare := (hsettles es hes).unique (h ▸ hsettles fs hfs)
    simp only [Entry.bareAll, bare_toEntry] at hbare
    exact outlineAll_eq_of_toEntries_eq es fs (fun x hx => (hes x hx).1) (fun x hx => (hfs x hx).1)
      (Entry.mk.inj (List.cons.inj hbare).1).2.1
  · intro h
    have hrender :
        (group .anonymous (outlineAll es)).text = (group .anonymous (outlineAll fs)).text :=
      congrArg (fun gs : List (Element Empty) => (group .anonymous gs).text) h
    have houtline : ∀ gs : List (Element Empty),
        (group .anonymous (outlineAll gs)).text = (group .anonymous gs).text :=
      fun gs => render_outline (group .anonymous gs) 0
    rwa [houtline, houtline] at hrender

theorem exists_outline_group (kind : Group) (es : List (Element Empty)) :
    ∃ fs, (group kind es).outline = group kind fs := by
  cases kind with
  | reference => exact ⟨[], rfl⟩
  | _ => exact ⟨outlineAll es, rfl⟩

mutual

/-- Where references mean the same, the outline tells the element. -/
theorem eq_of_outline_eq : ∀ (e f : Element Empty),
    (∀ name es fs, (name, es) ∈ e.references → (name, fs) ∈ f.references → es = fs) →
      e.outline = f.outline → e = f
  | step _, step _, _, h => h
  | step _, group kind es, _, h => by
      obtain ⟨fs, hfs⟩ := exists_outline_group kind es
      exact nomatch h.trans hfs
  | group kind es, step _, _, h => by
      obtain ⟨fs, hfs⟩ := exists_outline_group kind es
      exact nomatch hfs.symm.trans h
  | group kind es, group kind' es', href, h => by
      obtain ⟨fs, hfs⟩ := exists_outline_group kind es
      obtain ⟨fs', hfs'⟩ := exists_outline_group kind' es'
      obtain rfl : kind = kind' := (Element.group.inj (hfs.symm.trans (h.trans hfs'))).1
      cases kind with
      | reference name =>
          have hes := href name es es' List.mem_cons_self List.mem_cons_self
          rw [hes]
      | _ => rw [eq_of_outlineAll_eq es es' href (Element.group.inj h).2]
  | plugin x _, _, _, _ => x.elim
  | _, plugin x _, _, _ => x.elim

/-- Where references mean the same, outlines tell the elements. -/
theorem eq_of_outlineAll_eq : ∀ (es fs : List (Element Empty)),
    (∀ name gs hs, (name, gs) ∈ referencesAll es → (name, hs) ∈ referencesAll fs → gs = hs) →
      outlineAll es = outlineAll fs → es = fs
  | [], [], _, _ => rfl
  | [], _ :: _, _, h => nomatch h
  | _ :: _, [], _, h => nomatch h
  | e :: es, f :: fs, href, h => by
      obtain ⟨hhead, htail⟩ := List.cons.inj h
      have he := eq_of_outline_eq e f (fun name gs hs hg hh =>
        href name gs hs (List.mem_append_left _ hg) (List.mem_append_left _ hh)) hhead
      have hes := eq_of_outlineAll_eq es fs (fun name gs hs hg hh =>
        href name gs hs (List.mem_append_right _ hg) (List.mem_append_right _ hh)) htail
      rw [he, hes]

end

end Element

open Element

/-! ### Keys -/

/-- No two different strings of bytes among the given ones have one digest. -/
def NoCollision (hashed : List (List UInt8)) : Prop :=
  ∀ a ∈ hashed, ∀ b ∈ hashed, Blake3.hash a = Blake3.hash b → a = b

instance (hashed : List (List UInt8)) : Decidable (NoCollision hashed) :=
  inferInstanceAs (Decidable (∀ a ∈ hashed, ∀ b ∈ hashed, Blake3.hash a = Blake3.hash b → a = b))

theorem NoCollision.mono {hashed hashed' : List (List UInt8)} (h : NoCollision hashed)
    (hsub : ∀ a ∈ hashed', a ∈ hashed) : NoCollision hashed' :=
  fun a ha b hb => h a (hsub a ha) b (hsub b hb)

theorem noCollision_pair {a b : List UInt8} (h : Blake3.hash a ≠ Blake3.hash b) :
    NoCollision [a, b] := by
  intro x hx y hy heq
  simp only [List.mem_cons, List.not_mem_nil, or_false] at hx hy
  rcases hx with rfl | rfl <;> rcases hy with rfl | rfl
  · rfl
  · exact absurd heq h
  · exact absurd heq.symm h
  · rfl

/-- The bytes whose digest is the seed of a group. -/
def seedBytes (es : List (Element Empty)) : List UInt8 := Text.utf8 (group .anonymous es).text

/-- The strings of bytes that are hashed for the key of a group. -/
def keyHashes (es : List (Element Empty)) (image : Option Image) : List (List UInt8) :=
  [seedBytes es, cacheKeyBytes es image]

/-- **Without collisions a key tells the canonical text and the input.** -/
theorem cacheKey_eq_iff_text {es fs : List (Element Empty)} {i j : Option Image}
    (h : NoCollision (keyHashes es i ++ keyHashes fs j)) :
    cacheKey es i = cacheKey fs j ↔
      (group .anonymous es).text = (group .anonymous fs).text ∧ i = j := by
  constructor
  · intro hkey
    have hbytes := h (cacheKeyBytes es i) (by simp [keyHashes]) (cacheKeyBytes fs j)
      (by simp [keyHashes]) hkey
    obtain ⟨hseed, hij⟩ := cacheKeyBytes_inj hbytes
    have htext := h (seedBytes es) (by simp [keyHashes]) (seedBytes fs) (by simp [keyHashes]) hseed
    exact ⟨Text.utf8_injective htext, hij⟩
  · rintro ⟨htext, rfl⟩
    have hseed : seedOf es = seedOf fs := by rw [seedOf, seedOf, htext]
    rw [cacheKey, cacheKey, cacheKeyBytes, cacheKeyBytes, hseed]

/-- **What a key tells**: the input, and the elements but for what references stand for. -/
theorem cacheKey_eq_iff {es fs : List (Element Empty)} {i j : Option Image}
    (hes : ∀ x ∈ writtenAll es, x.Sane ∧ x.PlainName)
    (hfs : ∀ x ∈ writtenAll fs, x.Sane ∧ x.PlainName)
    (h : NoCollision (keyHashes es i ++ keyHashes fs j)) :
    cacheKey es i = cacheKey fs j ↔ outlineAll es = outlineAll fs ∧ i = j := by
  rw [cacheKey_eq_iff_text h, text_anonymous_eq_iff hes hfs]

/-! ### Groups of scripts -/

mutual

/-- What is inside a group of a tree is inside the tree. -/
theorem mem_nodes_of_mem_group {kind : Group} {es : List (Element Empty)} {x : Element Empty}
    (hx : x ∈ nodesAll es) : ∀ e : Element Empty, group kind es ∈ e.nodes → x ∈ e.nodes
  | step _, h => nomatch List.mem_singleton.1 h
  | group _ fs, h => by
      rcases List.mem_cons.1 h with heq | h
      · obtain ⟨rfl, rfl⟩ := Element.group.inj heq
        exact List.mem_cons_of_mem _ hx
      · exact List.mem_cons_of_mem _ (mem_nodesAll_of_mem_group hx fs h)
  | plugin x _, _ => x.elim

/-- What is inside a group of trees is inside the trees. -/
theorem mem_nodesAll_of_mem_group {kind : Group} {es : List (Element Empty)} {x : Element Empty}
    (hx : x ∈ nodesAll es) :
    ∀ fs : List (Element Empty), group kind es ∈ nodesAll fs → x ∈ nodesAll fs
  | [], h => nomatch h
  | f :: fs, h => by
      rcases List.mem_append.1 h with h | h
      · exact List.mem_append_left _ (mem_nodes_of_mem_group hx f h)
      · exact List.mem_append_right _ (mem_nodesAll_of_mem_group hx fs h)

end

/-- **When a key tells what a group does.**  Of two groups of decoded scripts, the keys for an
image agree exactly when the canonical texts of their elements do.  Where all names are plain,
that is when the elements are equal but for what references stand for.  So where, besides,
references of one name stand for the same elements, groups with one key run alike. -/
theorem cacheKey_tells_elements {budget : UInt64} {source source' : Text} {vars vars' : Vars}
    {r r' : Recipe Empty} {es fs : List (Element Empty)} {image : Option Image}
    (hr : Recipe.ofText (.builtin budget) source vars = .ok r)
    (hr' : Recipe.ofText (.builtin budget) source' vars' = .ok r')
    (hes : group .cache es ∈ nodesAll r.topElements)
    (hfs : group .cache fs ∈ nodesAll r'.topElements)
    (hH : NoCollision (keyHashes es image ++ keyHashes fs image)) :
    (cacheKey es image = cacheKey fs image ↔
      (group .anonymous es).text = (group .anonymous fs).text) ∧
    ((∀ x ∈ writtenAll es, x.PlainName) → (∀ x ∈ writtenAll fs, x.PlainName) →
      (cacheKey es image = cacheKey fs image ↔ outlineAll es = outlineAll fs) ∧
      ((∀ name gs hs, (name, gs) ∈ referencesAll es → (name, hs) ∈ referencesAll fs → gs = hs) →
        cacheKey es image = cacheKey fs image → ∀ s, run es image s = run fs image s)) := by
  have hsane : ∀ {gs : List (Element Empty)} {q : Recipe Empty},
      (∀ x ∈ nodesAll q.topElements, x.Sane) → group .cache gs ∈ nodesAll q.topElements →
        (∀ x ∈ writtenAll gs, x.PlainName) → ∀ x ∈ writtenAll gs, x.Sane ∧ x.PlainName := by
    intro gs q hq hgs hplain x hx
    have hnode := mem_nodesAll_of_mem_writtenAll gs x hx
    exact ⟨hq x (mem_nodesAll_of_mem_group hnode _ hgs), hplain x hx⟩
  have htext : cacheKey es image = cacheKey fs image ↔
      (group .anonymous es).text = (group .anonymous fs).text := by
    rw [cacheKey_eq_iff_text hH]
    simp
  refine ⟨htext, fun hplain hplain' => ?_⟩
  have houtline : cacheKey es image = cacheKey fs image ↔ outlineAll es = outlineAll fs := by
    rw [htext, text_anonymous_eq_iff (hsane (Recipe.sane_of_ofText hr) hes hplain)
      (hsane (Recipe.sane_of_ofText hr') hfs hplain')]
  refine ⟨houtline, fun href hkey s => ?_⟩
  rw [eq_of_outlineAll_eq es fs href (houtline.1 hkey)]

/-! ### A pipeline defined anew -/

/-- A script that defines a pipeline of one step and refers to it in a group that keeps its
result. -/
def redefining (step : Text) : Text := ".p(".toList ++ step ++ ") cache(.p)".toList

/-- The group's elements. -/
def referring (op : Operation) : List (Element Empty) :=
  [.group (.reference ".p".toList) [.step op]]

/-- What the script is decoded to. -/
def redefined (op : Operation) : Recipe Empty :=
  ⟨[.definition ".p".toList [.step op], .anonymous 1 [.group .cache (referring op)]]⟩

/-- One black pixel. -/
def blackPixel : Image := ⟨1, 1, .l8, #[0], rfl⟩

theorem ofText_inverting :
    Recipe.ofText (.builtin defaultBudget) (redefining "invert()".toList) [] =
      .ok (redefined (.adjust .invert)) :=
  Recipe.ofText_eq_ok_iff.2
    ⟨[⟨".p".toList, [.leaf "invert".toList ⟨3, 1, 4⟩], ⟨0, 1, 1⟩⟩,
      ⟨"cache".toList, [.leaf ".p".toList ⟨19, 1, 20⟩], ⟨13, 1, 14⟩⟩], rfl, rfl⟩

theorem ofText_turning :
    Recipe.ofText (.builtin defaultBudget) (redefining "rotate(1)".toList) [] =
      .ok (redefined (.adjust (.rotate 1))) :=
  Recipe.ofText_eq_ok_iff.2
    ⟨[⟨".p".toList, [⟨"rotate".toList, [.leaf "1".toList ⟨10, 1, 11⟩], ⟨3, 1, 4⟩⟩], ⟨0, 1, 1⟩⟩,
      ⟨"cache".toList, [.leaf ".p".toList ⟨20, 1, 21⟩], ⟨14, 1, 15⟩⟩], rfl, rfl⟩

theorem mem_redefined (op : Operation) :
    group .cache (referring op) ∈ nodesAll (redefined op).topElements :=
  List.mem_cons_of_mem _ (List.mem_cons_of_mem _ List.mem_cons_self)

/-- The keys of the two groups agree for the black pixel, as their outlines do. -/
theorem cacheKey_tells_elements_redefined :
    (cacheKey (referring (.adjust .invert)) (some blackPixel) =
        cacheKey (referring (.adjust (.rotate 1))) (some blackPixel) ↔
      outlineAll (referring (.adjust .invert)) = outlineAll (referring (.adjust (.rotate 1)))) ∧
    outlineAll (referring (.adjust .invert)) = outlineAll (referring (.adjust (.rotate 1))) := by
  have hH : NoCollision (keyHashes (referring (.adjust .invert)) (some blackPixel)) := by
    decide +kernel
  have hboth : keyHashes (referring (.adjust (.rotate 1))) (some blackPixel) =
      keyHashes (referring (.adjust .invert)) (some blackPixel) := rfl
  have hplain : ∀ op, ∀ x ∈ writtenAll (referring op), x.PlainName := by
    intro op
    refine List.forall_mem_singleton.2 ?_
    show ".p".toList.all isBare = true
    decide
  have htells := cacheKey_tells_elements ofText_inverting ofText_turning (mem_redefined _)
    (mem_redefined _) (hH.mono (by rw [hboth]; exact fun a ha => (List.mem_append.1 ha).elim id id))
  exact ⟨(htells.2 (hplain _) (hplain _)).1, rfl⟩

/-- **A key does not tell what a reference means**: two scripts that define a pipeline in two ways
have groups with the same key for every image, one of which inverts a black pixel while the other
leaves it. -/
theorem cacheKey_eq_of_redefined :
    Recipe.ofText (.builtin defaultBudget) (redefining "invert()".toList) [] =
        .ok (redefined (.adjust .invert)) ∧
      Recipe.ofText (.builtin defaultBudget) (redefining "rotate(1)".toList) [] =
        .ok (redefined (.adjust (.rotate 1))) ∧
      group .cache (referring (.adjust .invert)) ∈
        nodesAll (redefined (.adjust .invert)).topElements ∧
      group .cache (referring (.adjust (.rotate 1))) ∈
        nodesAll (redefined (.adjust (.rotate 1))).topElements ∧
      (∀ image, cacheKey (referring (.adjust .invert)) image =
        cacheKey (referring (.adjust (.rotate 1))) image) ∧
      (run (referring (.adjust .invert)) (some blackPixel) ⟨.new .script [], ⟨[], []⟩⟩).1 ≠
        (run (referring (.adjust (.rotate 1))) (some blackPixel) ⟨.new .script [], ⟨[], []⟩⟩).1 := by
  refine ⟨ofText_inverting, ofText_turning, mem_redefined _, mem_redefined _, fun _ => rfl, ?_⟩
  decide +kernel

end PhotoPipeline
