/-
**Registering kinds of elements.**

A catalogue is built by calls that add one kind or several.  A name is given away once: a call meets a
name that is in use, adds what came before it, and stops.  So the kinds of a catalogue are the log of all
that was ever added, in order, with every name once; the kind of a name is the first in the log, and
stays it.

To find a kind by its name without going through the log, a catalogue may keep two things: a table of the
kinds by name, and the row of the names.  Both are filled by the same calls.  They stay in step: the row
has every name of the table once and no other, and reading the table along the row gives the log again.

Main definitions:

* `PhotoPipeline.Registration` — the calls, with `PhotoPipeline.Registration.inTurn`;
* `PhotoPipeline.Registration.Adds`, `PhotoPipeline.Registration.Logs` — what a call adds, and what calls
  in turn come to;
* `PhotoPipeline.KindIndex` — a table by name and the row of the names;
* `PhotoPipeline.KindIndex.InStep` — the table and the row agree.

Main results:

* `PhotoPipeline.Catalogue.adds_perform` — what a call does to a catalogue;
* `PhotoPipeline.KindIndex.Indexes.perform` — a call does the same to the table and the row;
* `PhotoPipeline.Catalogue.registrations_logged` — **catalogues are logs**.
-/
import Mathlib.Data.List.Nodup
import PhotoPipeline.Kind.Basic

set_option relaxedAutoImplicit false
set_option autoImplicit false

namespace PhotoPipeline

variable {ε : Type}

/-! ### Calls -/

/-- A call that adds to a catalogue. -/
inductive Registration (ε : Type) where
  /-- Adds one kind. -/
  | one (k : ElementKind ε)
  /-- Adds kinds up to the first one whose name is in use. -/
  | all (ks : List (ElementKind ε))

namespace Registration

/-- Calls in turn, whatever comes of them: the results, and what is there in the end. -/
def inTurn {σ : Type} (perform : σ → Registration ε → Except Error Unit × σ) (s : σ) :
    List (Registration ε) → List (Except Error Unit) × σ
  | [] => ([], s)
  | call :: calls =>
    let first := perform s call
    let others := inTurn perform first.2 calls
    (first.1 :: others.1, others.2)

theorem inTurn_append {σ : Type} (perform : σ → Registration ε → Except Error Unit × σ) (s : σ)
    (calls later : List (Registration ε)) :
    (inTurn perform s (calls ++ later)).2 =
      (inTurn perform (inTurn perform s calls).2 later).2 := by
  induction calls generalizing s with
  | nil => rfl
  | cons call calls ih => exact ih _

/-- What a call adds to the kinds that are there, and its result.  A name is in use if one of those kinds
has it or one that the call has added before. -/
inductive Adds (held : List (ElementKind ε)) :
    Registration ε → Except Error Unit → List (ElementKind ε) → Prop where
  | one {k : ElementKind ε} (hk : k.name ∉ held.map ElementKind.name) :
      Adds held (.one k) (.ok ()) [k]
  | oneTaken {k : ElementKind ε} (hk : k.name ∈ held.map ElementKind.name) :
      Adds held (.one k) (.error (.duplicateElement k.name)) []
  | all {ks : List (ElementKind ε)} (hks : ((held ++ ks).map ElementKind.name).Nodup) :
      Adds held (.all ks) (.ok ()) ks
  | allTaken {ks rest : List (ElementKind ε)} {k : ElementKind ε}
      (hks : ((held ++ ks).map ElementKind.name).Nodup)
      (hk : k.name ∈ (held ++ ks).map ElementKind.name) :
      Adds held (.all (ks ++ k :: rest)) (.error (.duplicateElement k.name)) ks

/-- What calls in turn make of the kinds that are there: each of them adds its own at the end. -/
inductive Logs : List (ElementKind ε) → List (Registration ε) → List (Except Error Unit) →
    List (ElementKind ε) → Prop where
  | nil {held : List (ElementKind ε)} : Logs held [] [] held
  | cons {held added final : List (ElementKind ε)} {call : Registration ε}
      {calls : List (Registration ε)} {result : Except Error Unit} {results : List (Except Error Unit)}
      (hcall : Adds held call result added) (hcalls : Logs (held ++ added) calls results final) :
      Logs held (call :: calls) (result :: results) final

/-- A call gives no name away twice. -/
theorem Adds.nodup {held added : List (ElementKind ε)} {call : Registration ε}
    {result : Except Error Unit} (h : Adds held call result added)
    (hheld : (held.map ElementKind.name).Nodup) : ((held ++ added).map ElementKind.name).Nodup := by
  cases h with
  | one hk =>
      rw [List.map_append, List.map_cons, List.map_nil, ← List.concat_eq_append]
      exact hheld.concat hk
  | oneTaken => rwa [List.append_nil]
  | all hks => exact hks
  | allTaken hks => exact hks

/-- Several kinds are added as one kind and then the others. -/
theorem Adds.all_cons {held added ks : List (ElementKind ε)} {k : ElementKind ε}
    {result : Except Error Unit} (h : Adds (held ++ [k]) (.all ks) result added) :
    Adds held (.all (k :: ks)) result (k :: added) := by
  cases h with
  | all hks =>
      rw [List.append_assoc, List.singleton_append] at hks
      exact .all hks
  | allTaken hks hk =>
      rw [List.append_assoc, List.singleton_append] at hks hk
      exact .allTaken hks hk

/-- Calls log what was there first. -/
theorem Logs.exists_append {held final : List (ElementKind ε)} {calls : List (Registration ε)}
    {results : List (Except Error Unit)} (h : Logs held calls results final) :
    ∃ added, held ++ added = final := by
  induction h with
  | nil => exact ⟨[], List.append_nil _⟩
  | @cons held added final call calls result results hcall hcalls ih =>
      obtain ⟨others, hothers⟩ := ih
      exact ⟨added ++ others, by rw [← hothers, List.append_assoc]⟩

end Registration

/-! ### Catalogues -/

namespace Catalogue

open Registration

/-- A call on a catalogue, which stays as it is if a kind cannot be added. -/
def perform (c : Catalogue ε) : Registration ε → Except Error Unit × Catalogue ε
  | .one k =>
    match c.register k with
    | .ok d => (.ok (), d)
    | .error e => (.error e, c)
  | .all ks => c.registerAll ks

theorem contains_iff {c : Catalogue ε} {name : Text} : c.contains name = true ↔ name ∈ c.names := by
  simp [contains, find?, names, List.find?_isSome]

theorem register_of_mem {c : Catalogue ε} {k : ElementKind ε} (h : k.name ∈ c.names) :
    c.register k = .error (.duplicateElement k.name) :=
  if_pos (contains_iff.2 h)

theorem register_of_notMem {c : Catalogue ε} {k : ElementKind ε} (h : k.name ∉ c.names) :
    c.register k = .ok { c with kinds := c.kinds ++ [k] } :=
  if_neg (mt contains_iff.1 h)

/-- Where names are unique, the kind of a name is the one that has it. -/
theorem find?_eq_some_iff {c : Catalogue ε} (hc : c.names.Nodup) {name : Text} {k : ElementKind ε} :
    c.find? name = some k ↔ k ∈ c.kinds ∧ k.name = name := by
  have hfound : ∀ {name : Text} {k : ElementKind ε}, c.find? name = some k →
      k ∈ c.kinds ∧ k.name = name := fun h =>
    ⟨List.mem_of_find?_eq_some h, by simpa using List.find?_some h⟩
  refine ⟨hfound, ?_⟩
  rintro ⟨hk, rfl⟩
  obtain ⟨j, hj⟩ := Option.isSome_iff_exists.1 (contains_iff.2 (List.mem_map_of_mem hk))
  obtain ⟨hmem, hname⟩ := hfound hj
  obtain rfl := List.inj_on_of_nodup_map hc hmem hk hname
  exact hj

/-- Kinds are added in turn, up to a name in use. -/
theorem adds_registerAll {c : Catalogue ε} (hc : c.names.Nodup) (ks : List (ElementKind ε)) :
    ∃ added, Adds c.kinds (.all ks) (c.registerAll ks).1 added ∧
      (c.registerAll ks).2 = { c with kinds := c.kinds ++ added } := by
  -- a kind in the list meets those in front of it as kinds of the catalogue, so the catalogue varies
  induction ks generalizing c with
  | nil =>
      have hnodup : ((c.kinds ++ []).map ElementKind.name).Nodup := by rwa [List.append_nil]
      exact ⟨[], .all hnodup, by rw [registerAll, List.append_nil]⟩
  | cons k ks ih =>
      by_cases hk : k.name ∈ c.names
      · have hnodup : ((c.kinds ++ []).map ElementKind.name).Nodup := by rwa [List.append_nil]
        have hmem : k.name ∈ (c.kinds ++ []).map ElementKind.name := by rwa [List.append_nil]
        rw [registerAll, register_of_mem hk]
        exact ⟨[], .allTaken hnodup hmem, by rw [List.append_nil]⟩
      · have hone : (({ c with kinds := c.kinds ++ [k] } : Catalogue ε).names).Nodup :=
          (Adds.one hk).nodup hc
        obtain ⟨added, hadds, hkinds⟩ := ih hone
        rw [registerAll, register_of_notMem hk]
        refine ⟨k :: added, hadds.all_cons, hkinds.trans ?_⟩
        rw [List.append_assoc, List.singleton_append]

/-- **What a call does to a catalogue.** -/
theorem adds_perform {c : Catalogue ε} (hc : c.names.Nodup) (call : Registration ε) :
    ∃ added, Adds c.kinds call (c.perform call).1 added ∧
      (c.perform call).2 = { c with kinds := c.kinds ++ added } := by
  cases call with
  | one k =>
      by_cases hk : k.name ∈ c.names
      · rw [perform, register_of_mem hk]
        exact ⟨[], .oneTaken hk, by rw [List.append_nil]⟩
      · rw [perform, register_of_notMem hk]
        exact ⟨[k], .one hk, rfl⟩
  | all ks => exact adds_registerAll hc ks

theorem nodup_names_perform {c : Catalogue ε} (hc : c.names.Nodup) (call : Registration ε) :
    (c.perform call).2.names.Nodup := by
  obtain ⟨added, hadds, hkinds⟩ := adds_perform hc call
  rw [hkinds]
  exact hadds.nodup hc

/-- Calls in turn log what they add. -/
theorem logs_inTurn {c : Catalogue ε} (hc : c.names.Nodup) (calls : List (Registration ε)) :
    Logs c.kinds calls (inTurn perform c calls).1 (inTurn perform c calls).2.kinds ∧
      (inTurn perform c calls).2.names.Nodup := by
  induction calls generalizing c with
  | nil => exact ⟨.nil, hc⟩
  | cons call calls ih =>
      obtain ⟨added, hadds, hkinds⟩ := adds_perform hc call
      obtain ⟨hlogs, hnodup⟩ := ih (nodup_names_perform hc call)
      have hfirst : (c.perform call).2.kinds = c.kinds ++ added := by rw [hkinds]
      rw [hfirst] at hlogs
      exact ⟨.cons hadds hlogs, hnodup⟩

/-- What is found stays found, whatever is called later. -/
theorem find?_inTurn {c : Catalogue ε} (hc : c.names.Nodup) {name : Text} {k : ElementKind ε}
    (h : c.find? name = some k) (calls : List (Registration ε)) :
    (inTurn perform c calls).2.find? name = some k := by
  obtain ⟨added, hadded⟩ := (logs_inTurn hc calls).1.exists_append
  rw [find?, ← hadded, List.find?_append, ← find?, h, Option.some_or]

end Catalogue

/-! ### A table and a row -/

/-- Names are hashed as strings. -/
instance : Hashable Text := ⟨fun t => hash (String.ofList t)⟩

/-- Kinds kept by name in a table, and their names in a row. -/
structure KindIndex (ε : Type) where
  /-- The kinds by name. -/
  table : Std.HashMap Text (ElementKind ε)
  /-- The names in the order in which they were added. -/
  order : List Text

namespace KindIndex

open Registration

/-- No kinds. -/
def empty : KindIndex ε := ⟨∅, []⟩

/-- The kind of a name. -/
def find? (x : KindIndex ε) (name : Text) : Option (ElementKind ε) := x.table[name]?

/-- The kinds along the row of the names. -/
def kinds (x : KindIndex ε) : List (ElementKind ε) := x.order.filterMap x.find?

/-- Adds a kind to the table and its name to the row, unless the name is in the table. -/
def register (x : KindIndex ε) (k : ElementKind ε) : Except Error Unit × KindIndex ε :=
  if x.table.contains k.name then (.error (.duplicateElement k.name), x)
  else (.ok (), ⟨x.table.insert k.name k, x.order ++ [k.name]⟩)

/-- Adds kinds up to the first one whose name is in the table. -/
def registerAll (x : KindIndex ε) : List (ElementKind ε) → Except Error Unit × KindIndex ε
  | [] => (.ok (), x)
  | k :: ks =>
    match x.register k with
    | (.ok (), y) => y.registerAll ks
    | (.error e, y) => (.error e, y)

/-- A call. -/
def perform (x : KindIndex ε) : Registration ε → Except Error Unit × KindIndex ε
  | .one k => x.register k
  | .all ks => x.registerAll ks

/-- The table and the row agree. -/
structure InStep (x : KindIndex ε) : Prop where
  /-- No name is in the row twice. -/
  nodup : x.order.Nodup
  /-- The row has the names of the table. -/
  mem_order_iff : ∀ name, name ∈ x.order ↔ (x.find? name).isSome = true
  /-- Along the row there is one kind for each name, which has the name. -/
  names_kinds : x.kinds.map ElementKind.name = x.order

/-- The table and the row hold the kinds of a catalogue. -/
structure Indexes (x : KindIndex ε) (c : Catalogue ε) : Prop where
  order : x.order = c.names
  find? : ∀ name, x.find? name = c.find? name

variable {x : KindIndex ε} {c : Catalogue ε}

theorem indexes_empty : (empty : KindIndex ε).Indexes .empty :=
  ⟨rfl, fun _ => Std.HashMap.getElem?_empty⟩

theorem contains_table (h : x.Indexes c) (name : Text) :
    x.table.contains name = true ↔ name ∈ c.names := by
  rw [Std.HashMap.contains_eq_isSome_getElem?, ← Catalogue.contains_iff, Catalogue.contains, ← h.find?]
  rfl

/-- Where the name of a kind is in use, nothing changes. -/
theorem register_of_mem (h : x.Indexes c) {k : ElementKind ε} (hk : k.name ∈ c.names) :
    x.register k = (.error (.duplicateElement k.name), x) :=
  if_pos ((contains_table h _).2 hk)

theorem register_of_notMem (h : x.Indexes c) {k : ElementKind ε} (hk : k.name ∉ c.names) :
    x.register k = (.ok (), ⟨x.table.insert k.name k, x.order ++ [k.name]⟩) :=
  if_neg (mt (contains_table h _).1 hk)

/-- A new kind goes to the end of the row, and the table finds it. -/
theorem Indexes.insert (h : x.Indexes c) {k : ElementKind ε} (hk : k.name ∉ c.names) :
    (⟨x.table.insert k.name k, x.order ++ [k.name]⟩ : KindIndex ε).Indexes
      { c with kinds := c.kinds ++ [k] } := by
  have hregister := Catalogue.register_of_notMem hk
  constructor
  · show x.order ++ [k.name] = (c.kinds ++ [k]).map ElementKind.name
    rw [h.order, List.map_append]
    rfl
  · intro name
    show (x.table.insert k.name k)[name]? = _
    rw [Std.HashMap.getElem?_insert]
    by_cases hname : k.name = name
    · subst hname
      rw [Catalogue.find?_register_self hregister, if_pos (beq_self_eq_true _)]
    · rw [Catalogue.find?_register_of_ne hregister hname, ← h.find?, if_neg (by simpa using hname)]
      rfl

theorem Indexes.registerAll (h : x.Indexes c) (ks : List (ElementKind ε)) :
    (x.registerAll ks).1 = (c.registerAll ks).1 ∧
      (x.registerAll ks).2.Indexes (c.registerAll ks).2 := by
  induction ks generalizing x c with
  | nil => exact ⟨rfl, h⟩
  | cons k ks ih =>
      by_cases hk : k.name ∈ c.names
      · rw [KindIndex.registerAll, register_of_mem h hk, Catalogue.registerAll,
          Catalogue.register_of_mem hk]
        exact ⟨rfl, h⟩
      · rw [KindIndex.registerAll, register_of_notMem h hk, Catalogue.registerAll,
          Catalogue.register_of_notMem hk]
        exact ih (h.insert hk)

/-- **A call does the same** to the table and the row as to the catalogue. -/
theorem Indexes.perform (h : x.Indexes c) (call : Registration ε) :
    (x.perform call).1 = (c.perform call).1 ∧ (x.perform call).2.Indexes (c.perform call).2 := by
  cases call with
  | one k =>
      by_cases hk : k.name ∈ c.names
      · rw [KindIndex.perform, register_of_mem h hk, Catalogue.perform, Catalogue.register_of_mem hk]
        exact ⟨rfl, h⟩
      · rw [KindIndex.perform, register_of_notMem h hk, Catalogue.perform,
          Catalogue.register_of_notMem hk]
        exact ⟨rfl, h.insert hk⟩
  | all ks => exact h.registerAll ks

theorem Indexes.inTurn (h : x.Indexes c) (calls : List (Registration ε)) :
    (inTurn KindIndex.perform x calls).1 = (inTurn Catalogue.perform c calls).1 ∧
      (inTurn KindIndex.perform x calls).2.Indexes (inTurn Catalogue.perform c calls).2 := by
  induction calls generalizing x c with
  | nil => exact ⟨rfl, h⟩
  | cons call calls ih =>
      obtain ⟨hresult, hstate⟩ := h.perform call
      obtain ⟨hresults, hfinal⟩ := ih hstate
      exact ⟨congrArg₂ List.cons hresult hresults, hfinal⟩

/-- Along the row the table gives the kinds in order. -/
theorem Indexes.kinds (h : x.Indexes c) (hc : c.names.Nodup) : x.kinds = c.kinds := by
  have hself : ∀ k ∈ c.kinds, x.find? k.name = some k := fun k hk => by
    rw [h.find?, Catalogue.find?_eq_some_iff hc]
    exact ⟨hk, rfl⟩
  rw [KindIndex.kinds, h.order, Catalogue.names, List.filterMap_map]
  calc c.kinds.filterMap (x.find? ∘ ElementKind.name)
      = c.kinds.filterMap some := List.filterMap_congr hself
    _ = c.kinds := List.filterMap_some

theorem Indexes.inStep (h : x.Indexes c) (hc : c.names.Nodup) : x.InStep where
  nodup := h.order ▸ hc
  mem_order_iff name := by
    rw [h.order, h.find?, ← Catalogue.contains_iff]
    rfl
  names_kinds := by
    rw [h.kinds hc, h.order]
    rfl

end KindIndex

namespace Catalogue

open Registration

/-- **Catalogues are logs.**  Whatever is called on an empty catalogue, it logs the kinds that the calls
add, each of them those in front of the first one whose name is in use.  The names of the log are
distinct, and they are the names under which a kind is found; a kind is found under its own name, it is
the first one of the log that has the name, and it is found after any further calls.

A table and a row of names, filled by the same calls with the same results, are in step: the row is that
of the names, the table finds what the catalogue finds, and along the row it gives the log.  When a kind
cannot be added, both are left as they were. -/
theorem registrations_logged (calls : List (Registration ε)) :
    let logged := inTurn perform (.empty : Catalogue ε) calls
    let kept := inTurn KindIndex.perform (.empty : KindIndex ε) calls
    Logs [] calls logged.1 logged.2.kinds ∧
    logged.2.names.Nodup ∧
    (∀ name, name ∈ logged.2.names ↔ (logged.2.find? name).isSome = true) ∧
    (∀ name k, logged.2.find? name = some k →
      k.name = name ∧ (∃ earlier later, logged.2.kinds = earlier ++ k :: later ∧
        ∀ j ∈ earlier, j.name ≠ name) ∧
      ∀ more, (inTurn perform (.empty : Catalogue ε) (calls ++ more)).2.find? name = some k) ∧
    kept.1 = logged.1 ∧
    (kept.2.InStep ∧ kept.2.order = logged.2.names ∧ kept.2.kinds = logged.2.kinds ∧
      ∀ name, kept.2.find? name = logged.2.find? name) ∧
    ∀ k e, (logged.2.perform (.one k)).1 = .error e →
      (logged.2.perform (.one k)).2 = logged.2 ∧ kept.2.register k = (.error e, kept.2) := by
  intro logged kept
  have hempty : (empty : Catalogue ε).names.Nodup := List.nodup_nil
  obtain ⟨hlogs, hnodup⟩ := logs_inTurn hempty calls
  obtain ⟨hresults, hindexes⟩ := KindIndex.indexes_empty.inTurn calls
  refine ⟨hlogs, hnodup, fun name => ?_, fun name k hfind => ⟨?_, ?_, fun more => ?_⟩, hresults,
    ⟨hindexes.inStep hnodup, hindexes.order, hindexes.kinds hnodup, hindexes.find?⟩,
    fun k e herror => ?_⟩
  · rw [← contains_iff]
    rfl
  · exact ((find?_eq_some_iff hnodup).1 hfind).2
  · obtain ⟨-, earlier, later, hkinds, hearlier⟩ := List.find?_eq_some_iff_append.1 hfind
    exact ⟨earlier, later, hkinds, fun j hj => by simpa using hearlier j hj⟩
  · rw [inTurn_append]
    exact find?_inTurn hnodup hfind more
  · by_cases hk : k.name ∈ logged.2.names
    · rw [perform, register_of_mem hk] at herror ⊢
      cases herror
      exact ⟨rfl, KindIndex.register_of_mem hindexes hk⟩
    · rw [perform, register_of_notMem hk] at herror
      cases herror

/-- A kind that stands for the element inside of it, told apart by its help. -/
def helpedKind (name usage : String) : ElementKind Empty :=
  ⟨name.toList, [⟨usage.toList, []⟩], Reader.element⟩

/-- Calls that meet names in use, one of them in the middle of a list. -/
def crowdedCalls : List (Registration Empty) :=
  [.one (helpedKind "a" "first"),
    .all [helpedKind "b" "first", helpedKind "a" "second", helpedKind "c" "first"],
    .one (helpedKind "b" "second"), .all [helpedKind "c" "second"]]

/-- The kind behind the name in use has not been added, so its name is still free for the last call. -/
theorem registrations_logged_crowdedCalls :
    (inTurn KindIndex.perform .empty crowdedCalls).1 =
        [.ok (), .error (.duplicateElement "a".toList), .error (.duplicateElement "b".toList), .ok ()] ∧
      (inTurn KindIndex.perform .empty crowdedCalls).2.kinds =
        [helpedKind "a" "first", helpedKind "b" "first", helpedKind "c" "second"] ∧
      (inTurn KindIndex.perform .empty crowdedCalls).2.find? "c".toList =
        some (helpedKind "c" "second") ∧
      (inTurn KindIndex.perform .empty crowdedCalls).2.register (helpedKind "b" "third") =
        (.error (.duplicateElement "b".toList), (inTurn KindIndex.perform .empty crowdedCalls).2) := by
  obtain ⟨-, -, -, -, hresults, ⟨-, -, hkinds, hfind⟩, hfails⟩ := registrations_logged crowdedCalls
  exact ⟨hresults, hkinds, hfind _, (hfails (helpedKind "b" "third") _ rfl).2⟩

end Catalogue

end PhotoPipeline
