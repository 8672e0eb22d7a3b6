/-
**Where errors about arguments point.**

Each built-in kind reads its arguments one after the other and blames nothing but them.  So an error
about an argument that decoding a script ends with is an error of one entry in it: that entry has the
name that the error says, and an argument at the position that the error says has the problem, or is
missing there behind the last.

Main results:

* `PhotoPipeline.accountable_builtinKinds` — the built-in kinds blame their arguments only;
* `PhotoPipeline.blamed_decodeHead` — one entry, given its arguments;
* `PhotoPipeline.exists_isAt_of_fails_decodeEntry` — an entry with all that is in it;
* `PhotoPipeline.Recipe.argument_errors_in_place` — **errors about arguments point at them**.
-/
import PhotoPipeline.Proofs.Argument.Cursor
import PhotoPipeline.Proofs.Recipe.Names

set_option relaxedAutoImplicit false
set_option autoImplicit false

namespace PhotoPipeline

variable {ε α : Type}

/-! ### The built-in kinds -/

namespace Reader

/-- Making an element of what has been read. -/
theorem Accountable.make {r : Reader ε α} (hr : Accountable r) (f : α → Element ε) :
    Accountable (r >>= fun a => pure (f a)) := hr.bind fun a => accountable_pure (f a)

theorem Accountable.adjusting {r : Reader ε Adjustment} (hr : Accountable r) :
    Accountable (Kind.adjusting r) := hr.make fun a => .step (.adjust a)

theorem accountable_value : Accountable (value : Reader ε Value) := readsOne_value.accountable

theorem accountable_string : Accountable (string : Reader ε Text) := readsOne_string.accountable

end Reader

open Reader

/-- **The built-in kinds** blame their arguments only. -/
theorem accountable_builtinKinds : ∀ kind ∈ (builtinKinds : List (ElementKind ε)),
    Accountable kind.read := by
  have hvalue : ∀ f : Value → Adjustment,
      Accountable (Kind.adjusting (value >>= fun v => pure (f v)) : Reader ε (Element ε)) :=
    fun f => (accountable_value.bind fun v => accountable_pure (f v)).adjusting
  have hstring : ∀ f : Text → Operation,
      Accountable (string >>= fun t => pure (.step (f t)) : Reader ε (Element ε)) :=
    fun f => accountable_string.make fun t => .step (f t)
  have hgroup : ∀ g : Group, Accountable (Kind.grouping g : Reader ε (Element ε)) :=
    fun g => accountable_elements.make (.group g)
  have hnone : ∀ a : Adjustment, Accountable (Kind.adjusting (pure a) : Reader ε (Element ε)) :=
    fun a => (accountable_pure a).adjusting
  have hcanvas : Accountable (Kind.canvas : ElementKind ε).read :=
    (accountable_value.bind fun _ => accountable_value.bind fun _ =>
      (readsOne_colour.accountable.withDefault _).bind fun _ => accountable_pure _).adjusting
  have hrotate : Accountable (Kind.rotate : ElementKind ε).read :=
    (readsOne_int.accountable.bind fun _ => accountable_pure _).adjusting
  have hresize : Accountable (Kind.resize : ElementKind ε).read :=
    (accountable_value.bind fun _ => accountable_value.bind fun _ => accountable_pure _).adjusting
  have hcrop : Accountable (Kind.crop : ElementKind ε).read :=
    (accountable_value.bind fun _ => accountable_value.bind fun _ => accountable_value.bind fun _ =>
      accountable_value.bind fun _ => accountable_pure _).adjusting
  have htint : Accountable (Kind.tint : ElementKind ε).read :=
    (readsOne_colour.accountable.bind fun _ =>
      (accountable_value.withDefault _).bind fun _ => accountable_pure _).adjusting
  have honly : Accountable (Kind.only : ElementKind ε).read :=
    readsOne_mode.accountable.bind fun _ => accountable_elements.bind fun _ => accountable_pure _
  simp only [builtinKinds, List.forall_mem_cons]
  exact ⟨hgroup _, hstring _, hstring _, hcanvas, hvalue _, hvalue _, hrotate, hresize, hcrop,
    hvalue _, hnone _, hnone _, hvalue _, htint, honly, hstring _, hstring _, hgroup _, hgroup _,
    fun _ h => by cases h⟩

/-! ### One entry -/

section

variable {c : Catalogue ε} {head name : Text} {args : List (Argument ε)} {s : Scope ε}
  {index : Nat} {problem : ArgumentProblem}

/-- Decoding an entry blames its arguments for what is wrong with an argument. -/
theorem blamed_decodeHead (hc : ∀ kind ∈ c.kinds, Accountable kind.read)
    (h : Fails (decodeHead c head args) s (.argument name index problem)) :
    Blamed head args (.argument name index problem) := by
  rw [decodeHead] at h
  split at h
  · split at h
    · -- a reference has no arguments
      rw [resolve, fails_get_bind] at h
      split at h <;> cases h
    · rw [define, bind_pure_comp, fails_map] at h
      rcases fails_bind.1 h with h | ⟨es, t, -, h⟩
      · exact accountable_elements.blamed_runAll h
      · rw [fails_get_bind] at h
        split at h <;> cases h
  · rw [construct] at h
    split at h
    · next kind hkind =>
        rw [Catalogue.find?] at hkind
        have hname := List.find?_some hkind
        obtain rfl : kind.name = head := eq_of_beq hname
        exact (hc kind (List.mem_of_find?_eq_some hkind)).blamed_runAll h
    · cases h

theorem map_entry_argumentsOf (c : Catalogue ε) (entries : List Entry) :
    (argumentsOf c entries).map Argument.entry = entries := by
  rw [argumentsOf_eq_map, List.map_map]
  exact List.map_id entries

mutual

/-- **An entry with all that is in it.**  An error about an argument is one of an entry in it. -/
theorem exists_isAt_of_fails_decodeEntry (hc : ∀ kind ∈ c.kinds, Accountable kind.read) :
    ∀ (depth : Nat) (entry : Entry) {s : Scope ε},
    Fails (decodeEntry c entry) s (.argument name index problem) →
      ∃ p ∈ entry.preorder depth, p.2.value = name ∧ problem.IsAt p.2.children index
  | depth, ⟨head, children, l⟩, s, h => by
      rw [decodeEntry] at h
      cases blamed_decodeHead hc h with
      | decoding hx h =>
          rw [argumentsOf_eq_map] at hx
          obtain ⟨child, hchild, rfl⟩ := List.mem_map.1 hx
          obtain ⟨p, hp, hblame⟩ :=
            exists_isAt_of_mem_of_fails hc (depth + 1) children hchild h
          exact ⟨p, List.mem_cons_of_mem _ hp, hblame⟩
      | argument h =>
          rw [map_entry_argumentsOf] at h
          exact ⟨_, List.mem_cons_self, rfl, h⟩

/-- An error about an argument that one of several entries fails with. -/
theorem exists_isAt_of_mem_of_fails (hc : ∀ kind ∈ c.kinds, Accountable kind.read) :
    ∀ (depth : Nat) (entries : List Entry) {entry : Entry} {s : Scope ε}, entry ∈ entries →
    Fails (decodeEntry c entry) s (.argument name index problem) →
      ∃ p ∈ Entry.preorderAll depth entries, p.2.value = name ∧ problem.IsAt p.2.children index
  | _, [], _, _, hmem, _ => by cases hmem
  | depth, first :: entries, entry, s, hmem, h => by
      rw [Entry.preorderAll]
      rcases List.mem_cons.1 hmem with hfirst | hmem
      · obtain ⟨p, hp, hblame⟩ := exists_isAt_of_fails_decodeEntry hc depth first (hfirst ▸ h)
        exact ⟨p, List.mem_append_left _ hp, hblame⟩
      · obtain ⟨p, hp, hblame⟩ := exists_isAt_of_mem_of_fails hc depth entries hmem h
        exact ⟨p, List.mem_append_right _ hp, hblame⟩

end

/-- Entries that cannot be decoded have one that cannot. -/
theorem exists_mem_of_fails_decodeAll {entries : List Entry} {err : Error}
    (h : Fails (decodeAll c entries) s err) :
    ∃ entry ∈ entries, ∃ t, Fails (decodeEntry c entry) t err := by
  induction entries generalizing s with
  | nil => cases h
  | cons entry entries ih =>
      rw [← decodeArguments_argumentsOf, argumentsOf, fails_decodeArguments_cons] at h
      rcases h with h | ⟨e, t, -, h⟩
      · exact ⟨entry, List.mem_cons_self, s, h⟩
      · rw [decodeArguments_argumentsOf] at h
        obtain ⟨other, hother, u, h⟩ := ih h
        exact ⟨other, List.mem_cons_of_mem _ hother, u, h⟩

end

/-! ### Scripts -/

namespace Recipe

/-- **Errors about arguments point at them.**  Whatever a decoder asks of the arguments of an element,
in whatever order, and whether it goes on after failures or not, the cursor is lawful: it has read so
many arguments and has the others left, an accessor of one argument takes exactly the next one or none
if there is none, and what it complains of is the argument it has taken, or the one behind the last.
The built-in kinds leave the cursor among their arguments, however they end.  And where a script
cannot be decoded with them because of an argument, there is an entry in the script that has the name
in the error, with the problem at the position in the error, which is one of its arguments or the next
one. -/
theorem argument_errors_in_place (ε : Type) (budget : UInt64) :
    (∀ (name : Text) (args : List (Argument ε)) (c : Cursor ε), Visited name args c →
      c.Lawful name args) ∧
    (∀ kind ∈ (builtinKinds : List (ElementKind ε)), ∀ name args scope,
      (kind.read ⟨name, 0, args, scope⟩).2.Among name args) ∧
    ∀ (entries : List Entry) (name : Text) (index : Nat) (problem : ArgumentProblem),
      ofEntries (.builtin budget : Catalogue ε) entries = .error (.argument name index problem) →
        ∃ depth entry, (depth, entry) ∈ Entry.preorderAll 0 entries ∧ entry.value = name ∧
          1 ≤ index ∧ index ≤ entry.children.length + 1 ∧
          problem.IsAt entry.children index := by
  refine ⟨fun name args c h => h.lawful, fun kind hkind name args scope => ?_,
    fun entries name index problem h => ?_⟩
  · exact (accountable_builtinKinds kind hkind).among (.start name args scope)
  · obtain ⟨entry, hentry, s, h⟩ := exists_mem_of_fails_decodeAll (ofEntries_eq_error_iff.1 h)
    obtain ⟨⟨depth, found⟩, hfound, hname, hat⟩ :=
      exists_isAt_of_mem_of_fails accountable_builtinKinds 0 entries hentry h
    exact ⟨depth, found, hfound, hname, hat.bounds.1, hat.bounds.2, hat⟩

/-- A number that is none, in an element inside of another one; and an argument that is missing. -/
theorem argument_errors_in_place_rotate :
    let rotate : Entry := ⟨"rotate".toList, [.leaf "4x".toList .start], .start⟩
    let entries : List Entry := [⟨"once".toList, [.leaf "invert".toList .start, rotate], .start⟩]
    let start : Cursor Empty := ⟨"rotate".toList, 0, [], .empty⟩
    (ofEntries (.builtin 0 : Catalogue Empty) entries =
      .error (.argument "rotate".toList 1 (.notInteger "4x".toList)) ∧
      ∃ depth entry, (depth, entry) ∈ Entry.preorderAll 0 entries ∧
        entry.value = "rotate".toList ∧
        (ArgumentProblem.notInteger "4x".toList).IsAt entry.children 1) ∧
      (Call.int.reader start).2.Lawful "rotate".toList [] := by
  intro rotate entries start
  obtain ⟨hlawful, -, hplace⟩ := argument_errors_in_place Empty 0
  have herror : ofEntries (.builtin 0 : Catalogue Empty) entries =
      .error (.argument "rotate".toList 1 (.notInteger "4x".toList)) := rfl
  obtain ⟨depth, entry, hentry, hname, -, -, hat⟩ := hplace _ _ _ _ herror
  exact ⟨⟨herror, depth, entry, hentry, hname, hat⟩, hlawful _ _ _ (.call .int (.start .empty))⟩

end Recipe

end PhotoPipeline
