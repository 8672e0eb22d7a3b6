/-
**What the names of pipelines stand for.**

A script defines pipelines and refers to them, at its top level and below groups and definitions,
but not among the words of an operation.  Read from left to right, with a definition at the end of
its arguments, those are the uses of names in the script.  They are orderly when no name is defined
twice and no name is referred to before it has been defined.

Decoding follows the uses one by one.  A script that consists of elements can be decoded exactly
when its uses are orderly; a reference then stands for the elements of the one definition of its
name.  And where the uses are not orderly, decoding fails at the first use that breaks the order.

Main definitions:

* `PhotoPipeline.NameUse`, `PhotoPipeline.Orderly` — uses of names, and when they are in order;
* `PhotoPipeline.Entry.uses`, `PhotoPipeline.Element.uses` — the uses in an entry and in an element;
* `PhotoPipeline.Entry.Shaped` — an entry that can be decoded but for the names in it;
* `PhotoPipeline.Resolves` — the uses in elements, one by one, with what is known in between.

Main results:

* `PhotoPipeline.firstError?_eq_some_iff` — the first use that breaks the order;
* `PhotoPipeline.resolves_of_gives_decodeAll` — **what decoding makes of the uses of names**;
* `PhotoPipeline.Entry.Shaped.follows` — **decoding fails at the first use out of order**;
* `PhotoPipeline.Recipe.ofEntries_resolves_names` — **names stand for the one earlier definition**.
-/
import Mathlib.Data.List.Induction
import Mathlib.Data.List.Nodup
import PhotoPipeline.Proofs.Recipe.RoundTrip

set_option relaxedAutoImplicit false
set_option autoImplicit false

namespace PhotoPipeline

/-! ### Uses of names -/

/-- A place where a pipeline is defined or referred to, with its name. -/
inductive NameUse where
  | defines (name : Text)
  | refers (name : Text)
  deriving DecidableEq

namespace NameUse

/-- What is wrong with a use that is out of order. -/
def error : NameUse → Error
  | defines name => .duplicatePipeline name
  | refers name => .undefinedPipeline name

/-- The names that are known after a use and were not before. -/
def defined : NameUse → List Text
  | defines name => [name]
  | refers _ => []

/-- A name may be defined where it is not known, and referred to where it is. -/
def Allowed (known : List Text) : NameUse → Prop
  | defines name => name ∉ known
  | refers name => name ∈ known

instance (known : List Text) (u : NameUse) : Decidable (u.Allowed known) := by
  cases u with
  | defines name => exact inferInstanceAs (Decidable (name ∉ known))
  | refers name => exact inferInstanceAs (Decidable (name ∈ known))

end NameUse

/-- The names that uses define, in their order. -/
def definedIn (us : List NameUse) : List Text := us.flatMap NameUse.defined

theorem definedIn_append (us vs : List NameUse) :
    definedIn (us ++ vs) = definedIn us ++ definedIn vs := List.flatMap_append

theorem definedIn_cons (u : NameUse) (us : List NameUse) :
    definedIn (u :: us) = u.defined ++ definedIn us := List.flatMap_cons

/-- The uses are in order. -/
structure Orderly (us : List NameUse) : Prop where
  /-- No name is defined twice. -/
  nodup : (definedIn us).Nodup
  /-- A name that is referred to has been defined before. -/
  mem_of_refers : ∀ before name after, us = before ++ .refers name :: after →
    name ∈ definedIn before

theorem orderly_nil : Orderly [] :=
  ⟨List.nodup_nil, fun before _ _ h => by cases before <;> exact nomatch h⟩

/-- One more use. -/
theorem orderly_concat {us : List NameUse} {u : NameUse} :
    Orderly (us ++ [u]) ↔ Orderly us ∧ u.Allowed (definedIn us) := by
  have hdefined : definedIn (us ++ [u]) = definedIn us ++ u.defined := by
    rw [definedIn_append, definedIn_cons]
    exact congrArg _ (List.append_nil _)
  constructor
  · intro h
    refine ⟨⟨?_, ?_⟩, ?_⟩
    · have hnodup := h.nodup
      rw [hdefined] at hnodup
      exact hnodup.of_append_left
    · rintro before name after rfl
      refine h.mem_of_refers before name (after ++ [u]) ?_
      rw [List.append_assoc, List.cons_append]
    · cases u with
      | defines name =>
          have hnodup := h.nodup
          rw [hdefined] at hnodup
          exact fun hmem => List.disjoint_of_nodup_append hnodup hmem List.mem_cons_self
      | refers name => exact h.mem_of_refers us name [] rfl
  · rintro ⟨h, hu⟩
    constructor
    · rw [hdefined]
      cases u with
      | defines name =>
          refine h.nodup.append (List.nodup_singleton name) fun other hmem heq => hu ?_
          rw [← List.mem_singleton.1 heq]
          exact hmem
      | refers name => simpa [NameUse.defined] using h.nodup
    · intro before name after heq
      rcases List.eq_nil_or_concat after with rfl | ⟨after, v, rfl⟩
      · obtain ⟨rfl, rfl⟩ := List.append_inj' heq rfl |>.imp_right List.singleton_inj.1
        exact hu
      · rw [List.concat_eq_append, ← List.cons_append, ← List.append_assoc] at heq
        obtain ⟨rfl, -⟩ := List.append_inj' heq rfl
        exact h.mem_of_refers before name after rfl

/-- What is wrong with the first use that is out of order, when `known` is known before. -/
def firstError? (known : List Text) : List NameUse → Option Error
  | [] => none
  | u :: us => if u.Allowed known then firstError? (known ++ u.defined) us else some u.error

theorem firstError?_append (known : List Text) (us vs : List NameUse) :
    firstError? known (us ++ vs) =
      (firstError? known us).or (firstError? (known ++ definedIn us) vs) := by
  induction us generalizing known with
  | nil => simp [firstError?, definedIn]
  | cons u us ih =>
      rw [List.cons_append, firstError?, firstError?, definedIn_cons, ← List.append_assoc]
      split
      · exact ih _
      · rfl

theorem firstError?_singleton_eq_none_iff {known : List Text} {u : NameUse} :
    firstError? known [u] = none ↔ u.Allowed known := by
  simp [firstError?]

theorem firstError?_singleton_eq_some_iff {known : List Text} {u : NameUse} {err : Error} :
    firstError? known [u] = some err ↔ ¬ u.Allowed known ∧ u.error = err := by
  rw [firstError?]
  split
  · next h => simp [firstError?, h]
  · next h => simp [h]

theorem firstError?_eq_none_iff {us : List NameUse} : firstError? [] us = none ↔ Orderly us := by
  induction us using List.reverseRecOn with
  | nil => exact iff_of_true rfl orderly_nil
  | append_singleton us u ih =>
      rw [firstError?_append, Option.or_eq_none_iff, ih, orderly_concat, List.nil_append,
        firstError?_singleton_eq_none_iff]

/-- **The first use out of order** is the one with which the uses stop being in order. -/
theorem firstError?_eq_some_iff {us : List NameUse} {err : Error} :
    firstError? [] us = some err ↔ ∃ before u after, us = before ++ u :: after ∧ Orderly before ∧
      ¬ Orderly (before ++ [u]) ∧ err = u.error := by
  constructor
  · -- from the last use backwards, since what is in order depends on the uses before
    induction us using List.reverseRecOn with
    | nil => exact nofun
    | append_singleton us u ih =>
        intro h
        rw [firstError?_append, Option.or_eq_some_iff, List.nil_append,
          firstError?_singleton_eq_some_iff] at h
        rcases h with h | ⟨hus, hnot, herr⟩
        · obtain ⟨before, v, after, rfl, hbefore, hv, herr⟩ := ih h
          exact ⟨before, v, after ++ [u], by simp, hbefore, hv, herr⟩
        · exact ⟨us, u, [], rfl, firstError?_eq_none_iff.1 hus,
            fun h => hnot (orderly_concat.1 h).2, herr.symm⟩
  · rintro ⟨before, u, after, rfl, hbefore, hu, rfl⟩
    have hnot : ¬ u.Allowed (definedIn before) := fun h => hu (orderly_concat.2 ⟨hbefore, h⟩)
    rw [firstError?_append, firstError?_eq_none_iff.2 hbefore, Option.none_or, List.nil_append,
      firstError?, if_neg hnot]

/-! ### Uses in entries -/

namespace Entry

/-- The groups that consist of elements from the first argument on. -/
def groupHeads : List Text := [anonymousHead, "cache".toList, "once".toList]

mutual

/-- The uses of names in an entry that is an element.  What follows the head of an operation are
words, and so is the first argument of `only`. -/
def uses : Entry → List NameUse
  | ⟨head, [], _⟩ => if isName head then [.refers head] else []
  | ⟨head, first :: rest, _⟩ =>
    if isName head then uses first ++ usesAll rest ++ [.defines head]
    else if head ∈ groupHeads then uses first ++ usesAll rest
    else if head = "only".toList then usesAll rest
    else []

/-- The uses of names in entries that are elements. -/
def usesAll : List Entry → List NameUse
  | [] => []
  | e :: es => uses e ++ usesAll es

end

theorem uses_reference {name : Text} (h : isName name = true) (l : Location) :
    uses ⟨name, [], l⟩ = [.refers name] := by
  rw [uses, if_pos h]

theorem uses_definition {name : Text} (h : isName name = true) {children : List Entry}
    (hne : children ≠ []) (l : Location) :
    uses ⟨name, children, l⟩ = usesAll children ++ [.defines name] := by
  cases children with
  | nil => exact absurd rfl hne
  | cons c cs => rw [uses, if_pos h, usesAll]

/-- A definition counts behind what is inside it. -/
example : uses ⟨".a".toList, [.leaf "invert".toList .start, .leaf ".a".toList .start], .start⟩ =
    [.refers ".a".toList, .defines ".a".toList] := by decide

theorem uses_operation (op : Operation) (children : List Entry) (l : Location) :
    uses ⟨op.name, children, l⟩ = [] := by
  have h : ∀ name ∈ Operation.names,
      isName name = false ∧ name ∉ groupHeads ∧ name ≠ "only".toList := by decide
  obtain ⟨hname, hgroup, honly⟩ := h op.name op.name_mem_names
  cases children with
  | nil => rw [uses, hname, if_neg Bool.false_ne_true]
  | cons c cs => rw [uses, hname, if_neg Bool.false_ne_true, if_neg hgroup, if_neg honly]

theorem uses_group {kind : Group} {front : List Entry} (hkind : kind.announced? = none)
    (hwords : List.Forall₂ IsWord kind.words front) (children : List Entry) (l : Location) :
    uses ⟨kind.name, front ++ children, l⟩ = usesAll children := by
  have hgroup : ∀ head ∈ groupHeads, uses ⟨head, children, l⟩ = usesAll children := by
    intro head hhead
    have hname : ∀ head ∈ groupHeads, isName head = false := by decide
    cases children with
    | nil => rw [uses, hname head hhead, if_neg Bool.false_ne_true, usesAll]
    | cons c cs => rw [uses, hname head hhead, if_neg Bool.false_ne_true, if_pos hhead, usesAll]
  cases kind with
  | definition => cases hkind
  | reference => cases hkind
  | only mode =>
      rcases hwords with _ | ⟨-, _ | _⟩
      rfl
  | _ =>
      cases hwords
      exact hgroup _ (by decide)

/-- The entry can be decoded but for the names in it: it is an operation with words that it accepts,
a group with its words, or a name, and what is inside it can be decoded but for the names. -/
inductive Shaped : Entry → Prop
  | step {op : Operation} {words : List Text} {children : List Entry} {l : Location}
      (haccepts : op.Accepts words) (hwords : List.Forall₂ IsWord words children) :
      Shaped ⟨op.name, children, l⟩
  | group {kind : Group} {front children : List Entry} {l : Location}
      (hkind : kind.announced? = none) (hwords : List.Forall₂ IsWord kind.words front)
      (hchildren : ∀ c ∈ children, Shaped c) : Shaped ⟨kind.name, front ++ children, l⟩
  | named {name : Text} {children : List Entry} {l : Location} (hname : isName name = true)
      (hchildren : ∀ c ∈ children, Shaped c) : Shaped ⟨name, children, l⟩

end Entry

/-! ### Uses in elements -/

namespace Element

variable {ε : Type}

mutual

/-- The uses of names in an element, each with the elements that the name stands for. -/
def uses : Element ε → List (NameUse × List (Element ε))
  | step _ => []
  | group (.definition name) es => usesAll es ++ [(.defines name, es)]
  | group (.reference name) es => [(.refers name, es)]
  | group _ es => usesAll es
  | plugin _ es => usesAll es

/-- The uses of names in elements. -/
def usesAll : List (Element ε) → List (NameUse × List (Element ε))
  | [] => []
  | e :: es => uses e ++ usesAll es

end

theorem uses_group {kind : Group} (h : kind.announced? = none) (es : List (Element ε)) :
    (group kind es).uses = usesAll es := by
  cases kind with
  | definition => cases h
  | reference => cases h
  | _ => rfl

end Element

/-! ### What is known -/

namespace Scope

/-- The names that are known, in the order of their definitions. -/
def names (s : Scope Empty) : List Text := (s.defined.map Prod.fst).reverse

theorem names_define (s : Scope Empty) (name : Text) (es : List (Element Empty)) :
    (s.define name es).names = s.names ++ [name] := by
  rw [names, define, List.map_cons, List.reverse_cons]
  rfl

theorem find?_eq_none_iff {s : Scope Empty} {name : Text} :
    s.find? name = none ↔ name ∉ s.names := by
  rw [find?, names, List.mem_reverse]
  generalize s.defined = l
  induction l with
  | nil => simp
  | cons p l ih =>
      rw [List.lookup_cons, List.map_cons, List.mem_cons, not_or, ← ih]
      cases h : name == p.1 with
      | true => simp [eq_of_beq h]
      | false => simp [ne_of_beq_false h]

theorem find?_define_of_ne {s : Scope Empty} {name other : Text} (h : other ≠ name)
    (es : List (Element Empty)) : (s.define name es).find? other = s.find? other := by
  rw [find?, find?, define, List.lookup_cons, beq_false_of_ne h]

end Scope

variable {budget : UInt64} {s t u : Scope Empty}

theorem allowed_defines_iff {name : Text} :
    (NameUse.defines name).Allowed s.names ↔ s.find? name = none := Scope.find?_eq_none_iff.symm

theorem allowed_refers_iff {name : Text} :
    (NameUse.refers name).Allowed s.names ↔ s.find? name ≠ none := by
  rw [Ne, Scope.find?_eq_none_iff, not_not]
  exact Iff.rfl

/-- The uses of names, from what is known before to what is known after. -/
inductive Resolves : Scope Empty → List (NameUse × List (Element Empty)) → Scope Empty → Prop
  | nil {s : Scope Empty} : Resolves s [] s
  | defines {s t : Scope Empty} {name : Text} {es : List (Element Empty)}
      {us : List (NameUse × List (Element Empty))} (hfresh : s.find? name = none)
      (hrest : Resolves (s.define name es) us t) : Resolves s ((.defines name, es) :: us) t
  | refers {s t : Scope Empty} {name : Text} {es : List (Element Empty)}
      {us : List (NameUse × List (Element Empty))} (hknown : s.find? name = some es)
      (hrest : Resolves s us t) : Resolves s ((.refers name, es) :: us) t

namespace Resolves

variable {us vs : List (NameUse × List (Element Empty))}

theorem append (h : Resolves s us t) (h' : Resolves t vs u) : Resolves s (us ++ vs) u := by
  induction h with
  | nil => exact h'
  | defines hfresh _ ih => exact .defines hfresh (ih h')
  | refers hknown _ ih => exact .refers hknown (ih h')

/-- The uses are in order, and the names that they define are known in the end. -/
theorem names (h : Resolves s us t) :
    firstError? s.names (us.map Prod.fst) = none ∧
      t.names = s.names ++ definedIn (us.map Prod.fst) := by
  induction h with
  | nil => exact ⟨rfl, (List.append_nil _).symm⟩
  | @defines s t name es us hfresh _ ih =>
      rw [Scope.names_define, List.append_assoc] at ih
      rw [List.map_cons, firstError?, if_pos (allowed_defines_iff.2 hfresh), definedIn_cons]
      exact ih
  | @refers s t name es us hknown _ ih =>
      have hallowed : (NameUse.refers name).Allowed s.names :=
        allowed_refers_iff.2 (Option.ne_none_iff_exists'.2 ⟨es, hknown⟩)
      rw [List.map_cons, firstError?, if_pos hallowed, definedIn_cons]
      simpa [NameUse.defined] using ih

/-- A reference stands for the elements that its name was defined with. -/
theorem target (h : Resolves s us t) : ∀ before name es after,
    us = before ++ (.refers name, es) :: after →
      s.find? name = some es ∨ (.defines name, es) ∈ before := by
  induction h with
  | nil => exact fun before _ _ _ h => by cases before <;> exact nomatch h
  | @defines s t other fs us hfresh _ ih =>
      intro before name es after h
      cases before with
      | nil => exact nomatch h
      | cons b before =>
          obtain ⟨rfl, rfl⟩ := List.cons.inj h
          rcases ih before name es after rfl with hknown | hmem
          · by_cases hname : name = other
            · subst hname
              rw [Scope.find?_define_self] at hknown
              rw [Option.some.inj hknown]
              exact .inr List.mem_cons_self
            · rw [Scope.find?_define_of_ne hname] at hknown
              exact .inl hknown
          · exact .inr (List.mem_cons_of_mem _ hmem)
  | @refers s t other fs us hknown _ ih =>
      intro before name es after h
      cases before with
      | nil =>
          obtain ⟨heq, -⟩ := List.cons.inj h
          cases heq
          exact .inl hknown
      | cons b before =>
          obtain ⟨rfl, rfl⟩ := List.cons.inj h
          exact (ih before name es after rfl).imp_right (List.mem_cons_of_mem _)

end Resolves

/-! ### Decoding -/

mutual

/-- What decoding makes of the uses of names in an entry. -/
theorem resolves_of_gives_decodeEntry : ∀ (entry : Entry) {s t : Scope Empty} {e : Element Empty},
    Gives (decodeEntry (.builtin budget) entry) s e t →
      entry.Shaped ∧ e.uses.map Prod.fst = entry.uses ∧ Resolves s e.uses t
  | ⟨head, children, l⟩, s, t, e, h => by
      cases gives_decodeEntry_iff.1 h with
      | step haccepts hwords =>
          refine ⟨.step haccepts hwords, ?_, .nil⟩
          rw [Entry.uses_operation]
          rfl
      | @group kind front children _ t es hkind hwords helements =>
          obtain ⟨hshaped, huses, hes⟩ := resolves_of_gives_decodeAll children helements
          rw [Element.uses_group hkind, Entry.uses_group hkind hwords]
          exact ⟨.group hkind hwords hshaped, huses, hes⟩
      | @definition _ _ _ t es hname hne helements hfresh =>
          obtain ⟨hshaped, huses, hes⟩ := resolves_of_gives_decodeAll children helements
          -- the name is looked up and added once its elements have been decoded
          refine ⟨.named hname hshaped, ?_, hes.append (.defines hfresh .nil)⟩
          rw [Entry.uses_definition hname hne, Element.uses, List.map_append, huses]
          rfl
      | reference hname hknown =>
          refine ⟨.named hname (fun c hc => nomatch hc), ?_, .refers hknown .nil⟩
          rw [Entry.uses_reference hname]
          rfl
termination_by _ _ _ e => sizeOf e

/-- **What decoding makes of the uses of names**: they are followed one by one. -/
theorem resolves_of_gives_decodeAll : ∀ (entries : List Entry) {s t : Scope Empty}
    {es : List (Element Empty)}, Gives (decodeAll (.builtin budget) entries) s es t →
      (∀ c ∈ entries, c.Shaped) ∧
        (Element.usesAll es).map Prod.fst = Entry.usesAll entries ∧
          Resolves s (Element.usesAll es) t
  | [], _, _, _, h => by
      obtain ⟨rfl, rfl⟩ := gives_decodeAll_nil.1 h
      exact ⟨fun c hc => (nomatch hc), rfl, .nil⟩
  | entry :: entries, _, _, _, h => by
      obtain ⟨e, t, others, he, hothers, rfl⟩ := gives_decodeAll_cons.1 h
      obtain ⟨hshaped, huses, hresolves⟩ := resolves_of_gives_decodeEntry entry he
      obtain ⟨hshapeds, husess, hresolvess⟩ := resolves_of_gives_decodeAll entries hothers
      refine ⟨List.forall_mem_cons.2 ⟨hshaped, hshapeds⟩, ?_, hresolves.append hresolvess⟩
      rw [Element.usesAll, Entry.usesAll, List.map_append, huses, husess]
termination_by _ _ _ es => sizeOf es

end

/-- What decoding an entry leaves known is what its uses define. -/
theorem names_of_gives_decodeEntry {entry : Entry} {e : Element Empty}
    (h : Gives (decodeEntry (.builtin budget) entry) s e t) :
    s.names ++ definedIn entry.uses = t.names := by
  obtain ⟨-, huses, hresolves⟩ := resolves_of_gives_decodeEntry entry h
  rw [← huses, hresolves.names.2]

theorem names_of_gives_decodeAll {entries : List Entry} {es : List (Element Empty)}
    (h : Gives (decodeAll (.builtin budget) entries) s es t) :
    s.names ++ definedIn (Entry.usesAll entries) = t.names := by
  obtain ⟨-, huses, hresolves⟩ := resolves_of_gives_decodeAll entries h
  rw [← huses, hresolves.names.2]

/-- Decoding that follows the uses `us`: it succeeds where they are in order, and else fails with
the first that is not. -/
structure Follows {α : Type} (x : Decoding Empty α) (us : List NameUse) : Prop where
  gives : ∀ s : Scope Empty, firstError? s.names us = none → ∃ a t, Gives x s a t
  fails : ∀ (s : Scope Empty) (err : Error), firstError? s.names us = some err → Fails x s err

theorem follows_decodeAll {entries : List Entry}
    (h : ∀ c ∈ entries, Follows (decodeEntry (.builtin budget) c) c.uses) :
    Follows (decodeAll (.builtin budget) entries) (Entry.usesAll entries) := by
  induction entries with
  | nil => exact ⟨fun s _ => ⟨[], s, gives_decodeAll_nil.2 ⟨rfl, rfl⟩⟩, fun _ _ h => nomatch h⟩
  | cons entry entries ih =>
      have hentry := h entry List.mem_cons_self
      have hentries := ih fun c hc => h c (List.mem_cons_of_mem _ hc)
      -- the other entries are decoded with the names known that the first has defined
      rw [Entry.usesAll]
      constructor
      · intro s hnone
        rw [firstError?_append, Option.or_eq_none_iff] at hnone
        obtain ⟨e, t, he⟩ := hentry.gives s hnone.1
        obtain ⟨es, u, hes⟩ := hentries.gives t (names_of_gives_decodeEntry he ▸ hnone.2)
        exact ⟨e :: es, u, gives_decodeAll_cons.2 ⟨e, t, es, he, hes, rfl⟩⟩
      · intro s err hsome
        rw [firstError?_append, Option.or_eq_some_iff] at hsome
        rw [decodeAll, fails_bind]
        rcases hsome with hfirst | ⟨hnone, hrest⟩
        · exact .inl (hentry.fails s err hfirst)
        · obtain ⟨e, t, he⟩ := hentry.gives s hnone
          have hfails := hentries.fails t err (names_of_gives_decodeEntry he ▸ hrest)
          exact .inr ⟨e, t, he, fails_bind.2 (.inl hfails)⟩

/-- A reference to a name that is not known fails. -/
theorem fails_resolve {name : Text} (h : s.find? name = none) :
    Fails (resolve name) s (.undefinedPipeline name) := by
  rw [resolve, fails_get_bind, h]
  exact fails_throw.2 rfl

/-- A definition fails as decoding its elements does. -/
theorem fails_define_of_fails {name : Text} {children : List Entry} {err : Error}
    (h : Fails (decodeAll (.builtin budget) children) s err) :
    Fails (define name (argumentsOf (.builtin budget) children)) s err := by
  rw [← decodeArguments_argumentsOf] at h
  exact fails_bind.2 (.inl (fails_bind.2 (.inl (Reader.fails_runAll (Reader.fails_elements h)))))

/-- A definition fails when its name is known once its elements have been decoded. -/
theorem fails_define_of_known {name : Text} {children : List Entry} {es : List (Element Empty)}
    (h : Gives (decodeAll (.builtin budget) children) s es t) (hknown : t.find? name ≠ none) :
    Fails (define name (argumentsOf (.builtin budget) children)) s (.duplicatePipeline name) := by
  rw [← decodeArguments_argumentsOf] at h
  refine fails_bind.2 (.inl (fails_bind.2 (.inr ⟨es, t, Reader.gives_runAll_elements.2 h, ?_⟩)))
  rw [fails_get_bind, if_pos (Option.isSome_iff_ne_none.2 hknown)]
  exact fails_bind.2 (.inl (fails_throw.2 rfl))

/-- A reference follows its one use of a name. -/
theorem follows_reference {name : Text} (hname : Entry.isName name = true) (l : Location) :
    Follows (decodeEntry (.builtin budget) ⟨name, [], l⟩) [.refers name] := by
  have hresolve : decodeEntry (.builtin budget : Catalogue Empty) ⟨name, [], l⟩ = resolve name := by
    rw [decodeEntry, decodeHead, if_pos hname]
    rfl
  constructor
  · intro s hnone
    rw [firstError?_singleton_eq_none_iff, allowed_refers_iff] at hnone
    obtain ⟨es, hknown⟩ := Option.ne_none_iff_exists'.1 hnone
    exact ⟨_, _, gives_decodeEntry_iff.2 (.reference hname hknown)⟩
  · intro s err hsome
    rw [firstError?_singleton_eq_some_iff, allowed_refers_iff, not_not] at hsome
    obtain ⟨hunknown, rfl⟩ := hsome
    rw [hresolve]
    exact fails_resolve hunknown

/-- A definition follows the uses in its elements and then its own. -/
theorem follows_definition {name : Text} {children : List Entry} (hname : Entry.isName name = true)
    (hne : children ≠ []) (l : Location)
    (h : Follows (decodeAll (.builtin budget) children) (Entry.usesAll children)) :
    Follows (decodeEntry (.builtin budget) ⟨name, children, l⟩)
      (Entry.usesAll children ++ [.defines name]) := by
  have hdefine : decodeEntry (.builtin budget : Catalogue Empty) ⟨name, children, l⟩ =
      define name (argumentsOf (.builtin budget) children) := by
    rw [decodeEntry, decodeHead, if_pos hname, if_neg]
    rw [argumentsOf_eq_map]
    simpa using hne
  constructor
  · intro s hnone
    rw [firstError?_append, Option.or_eq_none_iff] at hnone
    obtain ⟨es, t, hes⟩ := h.gives s hnone.1
    rw [names_of_gives_decodeAll hes, firstError?_singleton_eq_none_iff,
      allowed_defines_iff] at hnone
    exact ⟨_, _, gives_decodeEntry_iff.2 (.definition hname hne hes hnone.2)⟩
  · intro s err hsome
    rw [firstError?_append, Option.or_eq_some_iff] at hsome
    rw [hdefine]
    rcases hsome with hinner | ⟨hnone, hlast⟩
    · exact fails_define_of_fails (h.fails s err hinner)
    · obtain ⟨es, t, hes⟩ := h.gives s hnone
      rw [names_of_gives_decodeAll hes, firstError?_singleton_eq_some_iff,
        allowed_defines_iff] at hlast
      obtain ⟨hknown, rfl⟩ := hlast
      exact fails_define_of_known hes hknown

/-- A group follows the uses in its elements. -/
theorem follows_group {kind : Group} {front children : List Entry} (hkind : kind.announced? = none)
    (hwords : List.Forall₂ Entry.IsWord kind.words front) (l : Location)
    (h : Follows (decodeAll (.builtin budget) children) (Entry.usesAll children)) :
    Follows (decodeEntry (.builtin budget) ⟨kind.name, front ++ children, l⟩)
      (Entry.usesAll children) := by
  constructor
  · intro s hnone
    obtain ⟨es, t, hes⟩ := h.gives s hnone
    exact ⟨_, _, gives_decodeEntry_iff.2 (.group hkind hwords hes)⟩
  · intro s err hsome
    have hchildren := h.fails s err hsome
    rw [← decodeArguments_argumentsOf] at hchildren
    rw [decodeEntry, decodeHead, isName_name_eq_false hkind, if_neg Bool.false_ne_true,
      argumentsOf_eq_map, List.map_append, ← argumentsOf_eq_map, ← argumentsOf_eq_map]
    exact fails_construct_group hkind (forall₂_isWord_argumentsOf.2 hwords) hchildren

/-- **Decoding follows the uses of names.**  An entry that can be decoded but for the names in it is
decoded where those are in order; where they are not, decoding fails with the first that is not. -/
theorem Entry.Shaped.follows {entry : Entry} (h : entry.Shaped) :
    Follows (decodeEntry (.builtin budget) entry) entry.uses := by
  induction h with
  | step haccepts hwords =>
      rw [uses_operation]
      exact ⟨fun s _ => ⟨_, s, gives_decodeEntry_iff.2 (.step haccepts hwords)⟩,
        fun _ _ h => nomatch h⟩
  | @group kind front children l hkind hwords _ ih =>
      rw [uses_group hkind hwords]
      exact follows_group hkind hwords l (follows_decodeAll ih)
  | @named name children l hname _ ih =>
      by_cases hne : children = []
      · subst hne
        rw [uses_reference hname]
        exact follows_reference hname l
      · rw [uses_definition hname hne]
        exact follows_definition hname hne l (follows_decodeAll ih)

/-! ### Scripts -/

namespace Recipe

theorem ofEntries_eq_error_iff {ε : Type} {c : Catalogue ε} {entries : List Entry} {err : Error} :
    ofEntries c entries = .error err ↔ Fails (decodeAll c entries) .empty err := by
  rw [ofEntries, decode_eq, Fails]
  show (decodeAll c entries .empty).1.map _ = _ ↔ _
  cases (decodeAll c entries .empty).1 with
  | error e => simp [Except.map]
  | ok es => simp [Except.map]

/-- Entries that can be decoded but for the names in them are decoded where those are in order, and
fail with the first that is not. -/
theorem follows_decodeAll_of_shaped {entries : List Entry} (h : ∀ c ∈ entries, c.Shaped) :
    Follows (decodeAll (.builtin budget) entries) (Entry.usesAll entries) :=
  follows_decodeAll fun c hc => (h c hc).follows

theorem exists_ofEntries_iff {entries : List Entry} :
    (∃ r : Recipe Empty, ofEntries (.builtin budget) entries = .ok r) ↔
      (∀ c ∈ entries, c.Shaped) ∧ Orderly (Entry.usesAll entries) := by
  constructor
  · rintro ⟨r, h⟩
    obtain ⟨es, t, hes, -⟩ := ofEntries_eq_ok_iff.1 h
    obtain ⟨hshaped, huses, hresolves⟩ := resolves_of_gives_decodeAll entries hes
    have hnone : firstError? [] ((Element.usesAll es).map Prod.fst) = none := hresolves.names.1
    rw [huses] at hnone
    exact ⟨hshaped, firstError?_eq_none_iff.1 hnone⟩
  · rintro ⟨hshaped, horderly⟩
    obtain ⟨es, t, hes⟩ := (follows_decodeAll_of_shaped hshaped).gives .empty
      (firstError?_eq_none_iff.2 horderly)
    exact ⟨_, ofEntries_eq_ok_iff.2 ⟨es, t, hes, rfl⟩⟩

/-- **Names stand for the one earlier definition.**  Entries are decoded exactly when each of them
can be but for the names in it and the uses of names in them are in order.  The uses in the elements
are then those in the entries, and a reference stands for the elements of the definition of its name
that has ended before.  Entries that can be decoded but for the names in them fail with the first
use out of order. -/
theorem ofEntries_resolves_names (budget : UInt64) (entries : List Entry) :
    ((∃ r : Recipe Empty, ofEntries (.builtin budget) entries = .ok r) ↔
      (∀ c ∈ entries, c.Shaped) ∧ Orderly (Entry.usesAll entries)) ∧
    (∀ r : Recipe Empty, ofEntries (.builtin budget) entries = .ok r →
      (Element.usesAll r.topElements).map Prod.fst = Entry.usesAll entries ∧
      ∀ before name es after,
        Element.usesAll r.topElements = before ++ (.refers name, es) :: after →
          (.defines name, es) ∈ before) ∧
    ((∀ c ∈ entries, c.Shaped) → ∀ err,
      ofEntries (.builtin budget : Catalogue Empty) entries = .error err ↔
      ∃ before use after, Entry.usesAll entries = before ++ use :: after ∧ Orderly before ∧
        ¬ Orderly (before ++ [use]) ∧ err = use.error) := by
  refine ⟨exists_ofEntries_iff, ?_, ?_⟩
  · intro r h
    obtain ⟨es, t, hes, rfl⟩ := ofEntries_eq_ok_iff.1 h
    obtain ⟨-, huses, hresolves⟩ := resolves_of_gives_decodeAll entries hes
    rw [topElements_ofElements]
    refine ⟨huses, fun before name fs after heq => ?_⟩
    exact (hresolves.target before name fs after heq).resolve_left nofun
  · intro hshaped err
    have hfollows : Follows (decodeAll (.builtin budget) entries) (Entry.usesAll entries) :=
      follows_decodeAll_of_shaped hshaped
    rw [ofEntries_eq_error_iff, ← firstError?_eq_some_iff]
    refine ⟨fun herr => ?_, hfollows.fails .empty err⟩
    cases hfirst : firstError? [] (Entry.usesAll entries) with
    | none =>
        obtain ⟨es, t, hes⟩ := hfollows.gives .empty hfirst
        exact absurd herr hes.not_fails
    | some first =>
        have hfails := hfollows.fails .empty first hfirst
        exact congrArg some (Except.error.inj (hfails.symm.trans herr))

end Recipe

end PhotoPipeline
