/-
**The arguments of an element, one after the other.**

Whatever a decoder asks of its arguments, in whatever order, and whether it goes on after a failure or
not, the cursor stands among them: so many have been read, and the rest are those behind.  An accessor
of one argument takes the next one, even where it fails, and says of which argument it complains; where
none is left it takes none.

What a reading as a whole may blame is put together from that: one of the arguments is not what it
should be, and the error says which, or one of them cannot be decoded as an element.

Main definitions:

* `PhotoPipeline.Cursor.Among` — the cursor stands among the arguments of an element;
* `PhotoPipeline.Call`, `PhotoPipeline.Visited` — what a decoder may ask, and the cursors it comes to;
* `PhotoPipeline.ArgumentProblem.Concerns`, `PhotoPipeline.ArgumentProblem.IsAt` — a problem that an
  argument has, and the position of the argument, counted from one;
* `PhotoPipeline.Cursor.Lawful` — what a cursor does at every call;
* `PhotoPipeline.Reader.ReadsOne`, `PhotoPipeline.Reader.Accountable` — readings of one argument, and
  readings that blame the arguments only.

Main results:

* `PhotoPipeline.Call.exists_readsOne` — the accessors of one argument;
* `PhotoPipeline.Visited.among`, `PhotoPipeline.Visited.lawful` — **after any calls**;
* `PhotoPipeline.Reader.Accountable.bind`, `PhotoPipeline.Reader.Accountable.blamed_runAll` — readings
  in turn, and all the arguments of an element.
-/
import PhotoPipeline.Proofs.Argument.Reader

set_option relaxedAutoImplicit false
set_option autoImplicit false

namespace PhotoPipeline

variable {ε α β : Type}

/-! ### Among the arguments -/

/-- The cursor stands among the arguments of an element. -/
structure Cursor.Among (name : Text) (args : List (Argument ε)) (c : Cursor ε) : Prop where
  element : c.element = name
  taken_le : c.taken ≤ args.length
  rest : c.rest = args.drop c.taken

namespace Cursor.Among

variable {name : Text} {args : List (Argument ε)} {c : Cursor ε} {x : Argument ε}

theorem start (name : Text) (args : List (Argument ε)) (scope : Scope ε) :
    Among name args ⟨name, 0, args, scope⟩ := ⟨rfl, Nat.zero_le _, rfl⟩

theorem remaining (h : c.Among name args) : c.remaining = args.length - c.taken := by
  rw [Cursor.remaining, h.rest, List.length_drop]

/-- An argument that is left is the first of the rest. -/
theorem rest_eq_cons (h : c.Among name args) (hx : args[c.taken]? = some x) :
    c.rest = x :: args.drop (c.taken + 1) := by
  obtain ⟨hlt, rfl⟩ := List.getElem?_eq_some_iff.1 hx
  rw [h.rest, List.drop_eq_getElem_cons hlt]

theorem rest_eq_nil (h : c.Among name args) (hend : c.taken = args.length) : c.rest = [] := by
  rw [h.rest, hend, List.drop_length]

/-- Either an argument is left, or all have been read. -/
theorem left_or_end (h : c.Among name args) :
    (∃ x, args[c.taken]? = some x) ∨ c.taken = args.length := by
  rcases Nat.lt_or_eq_of_le h.taken_le with hlt | hend
  · exact .inl ⟨_, List.getElem?_eq_getElem hlt⟩
  · exact .inr hend

/-- One argument more. -/
theorem advance (h : c.Among name args) (hx : args[c.taken]? = some x) (scope : Scope ε) :
    (c.advance 1 (args.drop (c.taken + 1)) scope).Among name args :=
  ⟨h.element, (List.getElem?_eq_some_iff.1 hx).1, rfl⟩

end Cursor.Among

/-! ### Problems with arguments -/

/-- The problem is one that the entry has as an argument. -/
def ArgumentProblem.Concerns (e : Entry) : ArgumentProblem → Prop
  | missing _ | rejected _ => False
  | notScalar _ head => e.isLeaf = false ∧ e.value = head
  | notInteger found => e.isLeaf = true ∧ e.value = found ∧ int64? found = none
  | notNumber found => e.isLeaf = true ∧ e.value = found ∧ float? found = none
  | badExpression err => e.isLeaf = true ∧ Value.parse e.value = .error err
  | badColour err => e.isLeaf = true ∧ Colour.ofHex e.value = .error err
  | badMode err => e.isLeaf = true ∧ Mode.ofText e.value = .error err
  | unexpected head => e.value = head

/-- The problem is with the argument at a position, counted from one: there is one and the problem is
one that it has, or it is missing behind the last. -/
inductive ArgumentProblem.IsAt (entries : List Entry) : Nat → ArgumentProblem → Prop
  | present {i : Nat} {e : Entry} {problem : ArgumentProblem} (he : entries[i]? = some e)
      (hproblem : problem.Concerns e) : IsAt entries (i + 1) problem
  | missing (kind : ArgumentKind) : IsAt entries (entries.length + 1) (.missing kind)

theorem ArgumentProblem.IsAt.bounds {entries : List Entry} {index : Nat} {problem : ArgumentProblem}
    (h : problem.IsAt entries index) : 1 ≤ index ∧ index ≤ entries.length + 1 := by
  cases h with
  | present he =>
      obtain ⟨hlt, -⟩ := List.getElem?_eq_some_iff.1 he
      omega
  | missing => exact ⟨Nat.le_add_left 1 _, Nat.le_refl _⟩

/-- What arguments can be blamed for: one of them cannot be decoded as an element, or one of them is
not what it should be. -/
inductive Blamed (name : Text) (args : List (Argument ε)) : Error → Prop
  | decoding {x : Argument ε} {scope : Scope ε} {err : Error} (hx : x ∈ args)
      (h : Fails x.decode scope err) : Blamed name args err
  | argument {index : Nat} {problem : ArgumentProblem}
      (h : problem.IsAt (args.map Argument.entry) index) :
      Blamed name args (.argument name index problem)

namespace Cursor.Among

variable {name : Text} {args : List (Argument ε)} {c : Cursor ε} {x : Argument ε}

/-- A problem of the argument that is next. -/
theorem blamed_present (h : c.Among name args) (hx : args[c.taken]? = some x)
    {problem : ArgumentProblem} (hproblem : problem.Concerns x.entry) :
    Blamed name args (c.errorAt (c.taken + 1) problem) := by
  have hentry : (args.map Argument.entry)[c.taken]? = some x.entry := by
    rw [List.getElem?_map, hx]
    rfl
  rw [Cursor.errorAt, h.element]
  exact .argument (.present hentry hproblem)

/-- An argument that is missing behind the last. -/
theorem blamed_missing (h : c.Among name args) (hend : c.taken = args.length)
    (kind : ArgumentKind) : Blamed name args (c.errorAt (c.taken + 1) (.missing kind)) := by
  have hlength : c.taken = (args.map Argument.entry).length := by
    rw [List.length_map, hend]
  rw [Cursor.errorAt, h.element, hlength]
  exact .argument (.missing kind)

end Cursor.Among

namespace Reader

variable {name : Text} {args : List (Argument ε)} {c : Cursor ε} {x : Argument ε}

/-! ### Readings of one argument -/

/-- The reading takes one argument, if there is one, and complains of nothing else. -/
structure ReadsOne (kind : ArgumentKind) (r : Reader ε α) : Prop where
  nil : ∀ c, c.rest = [] → r c = (.error (c.errorAt (c.taken + 1) (.missing kind)), c)
  cons : ∀ c x rest, c.rest = x :: rest → ∃ scope, (r c).2 = c.advance 1 rest scope
  wrong : kind ≠ .element → ∀ c x rest err, c.rest = x :: rest → Fails r c err →
    ∃ problem : ArgumentProblem, err = c.errorAt (c.taken + 1) problem ∧ problem.Concerns x.entry
  decoding : kind = .element → ∀ c x rest err, c.rest = x :: rest → Fails r c err →
    Fails x.decode c.scope err

/-- The argument just taken is refused. -/
theorem reject_advance (problem : ArgumentProblem) (rest : List (Argument ε)) :
    (reject problem : Reader ε α) (c.advance 1 rest c.scope) =
      (.error (c.errorAt (c.taken + 1) problem), c.advance 1 rest c.scope) := by
  have hmax : max (c.taken + 1) 1 = c.taken + 1 := Nat.max_eq_left (Nat.le_add_left 1 _)
  exact congrArg (fun index => (Except.error (c.errorAt index problem), c.advance 1 rest c.scope))
    hmax

theorem scalar_cons_of_not_isLeaf (kind : ArgumentKind) {rest : List (Argument ε)}
    (h : c.rest = x :: rest) (hleaf : ¬ x.entry.isLeaf = true) :
    (scalar kind : Reader ε Text) c =
      (.error (c.errorAt (c.taken + 1) (.notScalar kind x.entry.value)),
        c.advance 1 rest c.scope) := by
  rw [scalar, Gives.run_bind (next_cons kind c x rest h), if_neg hleaf]
  exact reject_advance _ rest

/-- A reading that takes a word, and then makes something of it or refuses it for a problem that it
has. -/
theorem readsOne_scalar_bind {kind : ArgumentKind} (hkind : kind ≠ .element) {f : Text → Reader ε α}
    (hf : ∀ e : Entry, e.isLeaf = true → (∃ a, f e.value = pure a) ∨
      ∃ problem : ArgumentProblem, f e.value = reject problem ∧ problem.Concerns e) :
    ReadsOne kind (scalar kind >>= f) := by
  have hword : ∀ (c : Cursor ε) x rest, c.rest = x :: rest → x.entry.isLeaf = true →
      (scalar kind >>= f) c = f x.entry.value (c.advance 1 rest c.scope) := fun c x rest h hleaf =>
    ((takes_scalar kind c _ _).2 ⟨x, rest, _, h, ⟨hleaf, rfl⟩, rfl, rfl⟩).run_bind
  have hother : ∀ (c : Cursor ε) x rest, c.rest = x :: rest → ¬ x.entry.isLeaf = true →
      (scalar kind >>= f) c =
        (.error (c.errorAt (c.taken + 1) (.notScalar kind x.entry.value)),
          c.advance 1 rest c.scope) := fun c x rest h hleaf =>
    run_bind_of_error (scalar_cons_of_not_isLeaf kind h hleaf)
  refine ⟨fun c h => run_bind_of_error (run_bind_of_error (next_nil kind c h)),
    fun c x rest h => ⟨c.scope, ?_⟩, fun _ c x rest err h herr => ?_, fun h => absurd h hkind⟩
  · by_cases hleaf : x.entry.isLeaf = true
    · rw [hword c x rest h hleaf]
      rcases hf x.entry hleaf with ⟨a, ha⟩ | ⟨problem, hproblem, -⟩
      · rw [ha]
        rfl
      · rw [hproblem, reject_advance]
    · rw [hother c x rest h hleaf]
  · by_cases hleaf : x.entry.isLeaf = true
    · rw [Fails, hword c x rest h hleaf] at herr
      rcases hf x.entry hleaf with ⟨a, ha⟩ | ⟨problem, hproblem, hconcerns⟩
      · rw [ha] at herr
        cases herr
      · rw [hproblem, reject_advance] at herr
        exact ⟨problem, (Except.error.inj herr).symm, hconcerns⟩
    · rw [Fails, hother c x rest h hleaf] at herr
      exact ⟨_, (Except.error.inj herr).symm, eq_false_of_ne_true hleaf, rfl⟩

theorem readsOne_string : ReadsOne .string (string : Reader ε Text) := by
  have h : (string : Reader ε Text) = scalar .string >>= pure := (bind_pure (scalar .string)).symm
  rw [h]
  exact readsOne_scalar_bind (by decide) fun e _ => .inl ⟨e.value, rfl⟩

theorem readsOne_int : ReadsOne .integer (int : Reader ε Int64) := by
  refine readsOne_scalar_bind (by decide) fun e hleaf => ?_
  cases h : int64? e.value with
  | none => exact .inr ⟨_, rfl, hleaf, rfl, h⟩
  | some n => exact .inl ⟨n, rfl⟩

theorem readsOne_float : ReadsOne .number (float : Reader ε Float) := by
  refine readsOne_scalar_bind (by decide) fun e hleaf => ?_
  cases h : float? e.value with
  | none => exact .inr ⟨_, rfl, hleaf, rfl, h⟩
  | some x => exact .inl ⟨x, rfl⟩

theorem readsOne_value : ReadsOne .value (value : Reader ε Value) := by
  refine readsOne_scalar_bind (by decide) fun e hleaf => ?_
  cases h : Value.parse e.value with
  | error err => exact .inr ⟨_, rfl, hleaf, h⟩
  | ok v => exact .inl ⟨v, rfl⟩

theorem readsOne_colour : ReadsOne .colour (colour : Reader ε Colour) := by
  refine readsOne_scalar_bind (by decide) fun e hleaf => ?_
  cases h : Colour.ofHex e.value with
  | error err => exact .inr ⟨_, rfl, hleaf, h⟩
  | ok k => exact .inl ⟨k, rfl⟩

theorem readsOne_mode : ReadsOne .string (mode : Reader ε Mode) := by
  refine readsOne_scalar_bind (by decide) fun e hleaf => ?_
  cases h : Mode.ofText e.value with
  | error err => exact .inr ⟨_, rfl, hleaf, h⟩
  | ok m => exact .inl ⟨m, rfl⟩

/-- What an element argument cannot be decoded for is what the reading fails with. -/
theorem readsOne_element : ReadsOne .element (element : Reader ε (Element ε)) := by
  have hrun : ∀ (c : Cursor ε) x rest, c.rest = x :: rest →
      (element : Reader ε (Element ε)) c = inScope x.decode (c.advance 1 rest c.scope) :=
    fun c x rest h => Gives.run_bind (next_cons .element c x rest h)
  refine ⟨fun c h => run_bind_of_error (next_nil .element c h), fun c x rest h => ?_,
    fun h => absurd rfl h, fun _ c x rest err h herr => ?_⟩
  · rw [hrun c x rest h]
    exact ⟨(x.decode c.scope).2, rfl⟩
  · rw [Fails, hrun c x rest h] at herr
    exact herr

theorem ReadsOne.map {kind : ArgumentKind} {r : Reader ε α} (h : ReadsOne kind r) (f : α → β) :
    ReadsOne kind (f <$> r) where
  nil c hc := by rw [run_map, h.nil c hc]; rfl
  cons c x rest hc := by rw [run_map]; exact h.cons c x rest hc
  wrong hkind c x rest err hc herr := h.wrong hkind c x rest err hc (fails_map.1 herr)
  decoding hkind c x rest err hc herr := h.decoding hkind c x rest err hc (fails_map.1 herr)

/-! ### Readings that blame the arguments only -/

/-- The reading leaves the cursor among the arguments, and blames nothing but them. -/
structure Accountable (r : Reader ε α) : Prop where
  among : ∀ {name : Text} {args : List (Argument ε)} {c : Cursor ε}, c.Among name args →
    (r c).2.Among name args
  blamed : ∀ {name : Text} {args : List (Argument ε)} {c : Cursor ε} {err : Error},
    c.Among name args → Fails r c err → Blamed name args err

theorem accountable_pure (a : α) : Accountable (pure a : Reader ε α) :=
  ⟨fun h => h, fun _ h => by cases h⟩

theorem ReadsOne.accountable {kind : ArgumentKind} {r : Reader ε α} (h : ReadsOne kind r) :
    Accountable r where
  among {name args c} hc := by
    rcases hc.left_or_end with ⟨x, hx⟩ | hend
    · obtain ⟨scope, hstate⟩ := h.cons c x _ (hc.rest_eq_cons hx)
      rw [hstate]
      exact hc.advance hx scope
    · rw [h.nil c (hc.rest_eq_nil hend)]
      exact hc
  blamed {name args c err} hc herr := by
    rcases hc.left_or_end with ⟨x, hx⟩ | hend
    · have hrest := hc.rest_eq_cons hx
      by_cases hkind : kind = .element
      · exact .decoding (List.mem_of_getElem? hx) (h.decoding hkind c x _ err hrest herr)
      · obtain ⟨problem, rfl, hconcerns⟩ := h.wrong hkind c x _ err hrest herr
        exact hc.blamed_present hx hconcerns
    · rw [Fails, h.nil c (hc.rest_eq_nil hend)] at herr
      obtain rfl := Except.error.inj herr
      exact hc.blamed_missing hend kind

/-- Two readings in turn. -/
theorem Accountable.bind {r : Reader ε α} {f : α → Reader ε β} (hr : Accountable r)
    (hf : ∀ a, Accountable (f a)) : Accountable (r >>= f) where
  among {name args c} hc := by
    have hstate := hr.among hc
    rcases gives_or_error r c with ⟨a, d, ha⟩ | ⟨err, d, herr⟩
    · have hd : (r c).2 = d := congrArg Prod.snd ha
      rw [ha.run_bind]
      exact (hf a).among (hd ▸ hstate)
    · have hd : (r c).2 = d := congrArg Prod.snd herr
      rw [run_bind_of_error herr]
      exact hd ▸ hstate
  blamed {name args c err} hc herr := by
    rcases fails_bind.1 herr with herr | ⟨a, d, ha, herr⟩
    · exact hr.blamed hc herr
    · have hstate := hr.among hc
      have hd : (r c).2 = d := congrArg Prod.snd ha
      exact (hf a).blamed (hd ▸ hstate) herr

theorem Accountable.withDefault {r : Reader ε α} (hr : Accountable r) (default : α) :
    Accountable (withDefault default r) where
  among {name args c} hc := by
    by_cases h : c.rest = []
    · rw [withDefault_of_nil default r c h]
      exact hc
    · rw [withDefault_of_ne_nil default r c h]
      exact hr.among hc
  blamed {name args c err} hc herr := by
    by_cases h : c.rest = []
    · rw [Fails, withDefault_of_nil default r c h] at herr
      cases herr
    · rw [Fails, withDefault_of_ne_nil default r c h] at herr
      exact hr.blamed hc herr

theorem accountable_elementsFor (xs : List (Argument ε)) : Accountable (elementsFor xs) := by
  induction xs with
  | nil => exact accountable_pure []
  | cons x xs ih =>
      exact readsOne_element.accountable.bind fun e => ih.bind fun es => accountable_pure (e :: es)

theorem accountable_elements : Accountable (elements : Reader ε (List (Element ε))) :=
  ⟨fun {_ _ c} => (accountable_elementsFor c.rest).among,
    fun {_ _ c _} => (accountable_elementsFor c.rest).blamed⟩

theorem finish_cons {rest : List (Argument ε)} (h : c.rest = x :: rest) :
    (finish : Reader ε Unit) c =
      (.error (c.errorAt (c.taken + 1) (.unexpected x.entry.value)), c) := by
  obtain ⟨element, taken, rest', scope⟩ := c
  obtain rfl : rest' = x :: rest := h
  rfl

/-- Nothing may be left: the first argument that is not read is the one to blame. -/
theorem accountable_finish : Accountable (finish : Reader ε Unit) where
  among {name args c} hc := by
    rcases hc.left_or_end with ⟨x, hx⟩ | hend
    · rw [finish_cons (hc.rest_eq_cons hx)]
      exact hc
    · rw [(finish_eq_ok_iff c).2 (hc.rest_eq_nil hend)]
      exact hc
  blamed {name args c err} hc herr := by
    rcases hc.left_or_end with ⟨x, hx⟩ | hend
    · rw [Fails, finish_cons (hc.rest_eq_cons hx)] at herr
      obtain rfl := Except.error.inj herr
      exact hc.blamed_present hx rfl
    · rw [Fails, (finish_eq_ok_iff c).2 (hc.rest_eq_nil hend)] at herr
      cases herr

/-- **All the arguments of an element.** -/
theorem Accountable.blamed_runAll {r : Reader ε α} (hr : Accountable r) {scope : Scope ε}
    {err : Error} (h : Fails (runAll name args r) scope err) : Blamed name args err := by
  have hall : Accountable (do let a ← r; finish; return a : Reader ε α) :=
    hr.bind fun a => accountable_finish.bind fun _ => accountable_pure a
  exact hall.blamed (.start name args scope) h

end Reader

/-! ### Calls -/

/-- What a decoder may ask of its arguments. -/
inductive Call (ε : Type) : Type → Type
  | string : Call ε Text
  | stringD (default : Text) : Call ε Text
  | int : Call ε Int64
  | intD (default : Int64) : Call ε Int64
  | float : Call ε Float
  | floatD (default : Float) : Call ε Float
  | value : Call ε Value
  | valueD (default : Value) : Call ε Value
  | colour : Call ε Colour
  | colourD (default : Colour) : Call ε Colour
  | element : Call ε (Element ε)
  | element? : Call ε (Option (Element ε))
  | elements : Call ε (List (Element ε))
  | finish : Call ε Unit
  | reject (problem : ArgumentProblem) : Call ε Unit

namespace Call

/-- What is done on a call. -/
def reader : Call ε α → Reader ε α
  | string => Reader.string
  | stringD default => Reader.stringD default
  | int => Reader.int
  | intD default => Reader.intD default
  | float => Reader.float
  | floatD default => Reader.floatD default
  | value => Reader.value
  | valueD default => Reader.valueD default
  | colour => Reader.colour
  | colourD default => Reader.colourD default
  | element => Reader.element
  | element? => Reader.element?
  | elements => Reader.elements
  | finish => Reader.finish
  | reject problem => Reader.reject problem

/-- What kind of argument an accessor of one argument asks for, and the default that it has. -/
def single? : Call ε α → Option (ArgumentKind × Option α)
  | string => some (.string, none)
  | stringD default => some (.string, some default)
  | int => some (.integer, none)
  | intD default => some (.integer, some default)
  | float => some (.number, none)
  | floatD default => some (.number, some default)
  | value => some (.value, none)
  | valueD default => some (.value, some default)
  | colour => some (.colour, none)
  | colourD default => some (.colour, some default)
  | element => some (.element, none)
  | element? => some (.element, some none)
  | elements | finish | reject _ => none

/-- A reading with a default, if there is one. -/
def orDefault (default? : Option α) (r : Reader ε α) : Reader ε α :=
  default?.elim r fun default => Reader.withDefault default r

/-- The default does not matter while an argument is left. -/
theorem orDefault_cons (default? : Option α) (r : Reader ε α) {c : Cursor ε} {x : Argument ε}
    {rest : List (Argument ε)} (h : c.rest = x :: rest) : orDefault default? r c = r c := by
  cases default? with
  | none => rfl
  | some default =>
      exact Reader.withDefault_of_ne_nil default r c (by rw [h]; exact List.cons_ne_nil x rest)

/-- **The accessors of one argument** read one argument, or give their default when none is left. -/
theorem exists_readsOne {k : Call ε α} {kind : ArgumentKind} {default? : Option α}
    (h : k.single? = some (kind, default?)) :
    ∃ r : Reader ε α, Reader.ReadsOne kind r ∧ k.reader = orDefault default? r := by
  cases k <;> cases h
  case string | stringD => exact ⟨_, Reader.readsOne_string, rfl⟩
  case int | intD => exact ⟨_, Reader.readsOne_int, rfl⟩
  case float | floatD => exact ⟨_, Reader.readsOne_float, rfl⟩
  case value | valueD => exact ⟨_, Reader.readsOne_value, rfl⟩
  case colour | colourD => exact ⟨_, Reader.readsOne_colour, rfl⟩
  case element => exact ⟨_, Reader.readsOne_element, rfl⟩
  case element? => exact ⟨_, Reader.readsOne_element.map some, rfl⟩

end Call

/-- The cursors that a decoder may come to: the one it begins with, and from there those behind any
call, whether the call succeeds or not. -/
inductive Visited (name : Text) (args : List (Argument ε)) : Cursor ε → Prop
  | start (scope : Scope ε) : Visited name args ⟨name, 0, args, scope⟩
  | call {α : Type} {c : Cursor ε} (k : Call ε α) (h : Visited name args c) :
      Visited name args (k.reader c).2

section

variable {name : Text} {args : List (Argument ε)} {c : Cursor ε}

/-- One call. -/
theorem Cursor.Among.call (h : c.Among name args) (k : Call ε α) :
    (k.reader c).2.Among name args := by
  cases hk : k.single? with
  | some p =>
      obtain ⟨kind, default?⟩ := p
      obtain ⟨r, hr, hreader⟩ := Call.exists_readsOne hk
      rw [hreader]
      cases default? with
      | none => exact hr.accountable.among h
      | some default => exact (hr.accountable.withDefault default).among h
  | none =>
      cases k
      case elements => exact Reader.accountable_elements.among h
      case finish => exact Reader.accountable_finish.among h
      case reject problem => exact h
      all_goals cases hk

/-- **After any calls** the cursor stands among the arguments. -/
theorem Visited.among (h : Visited name args c) : c.Among name args := by
  induction h with
  | start scope => exact .start name args scope
  | call k _ ih => exact ih.call k

end

/-- What a cursor does at every call. -/
structure Cursor.Lawful (name : Text) (args : List (Argument ε)) (c : Cursor ε) : Prop where
  /-- No more arguments have been read than there are. -/
  taken_le : c.taken ≤ args.length
  /-- Those that have not been read are the others. -/
  remaining : c.remaining = args.length - c.taken
  /-- An accessor of one argument takes one if there is one, even where it fails. -/
  takes_one : ∀ {α : Type} {k : Call ε α} {kind : ArgumentKind} {default? : Option α},
    k.single? = some (kind, default?) → c.taken < args.length →
      (k.reader c).2.taken = c.taken + 1
  /-- When none is left, it gives its default and takes none. -/
  default : ∀ {α : Type} {k : Call ε α} {kind : ArgumentKind} {default : α},
    k.single? = some (kind, some default) → c.taken = args.length → k.reader c = (.ok default, c)
  /-- Without a default it takes none either, and misses the one behind the last. -/
  missing : ∀ {α : Type} {k : Call ε α} {kind : ArgumentKind},
    k.single? = some (kind, none) → c.taken = args.length →
      k.reader c = (.error (.argument name (args.length + 1) (.missing kind)), c)
  /-- What is no element is blamed on the argument just taken, for a problem that this one has. -/
  wrong : ∀ {α : Type} {k : Call ε α} {kind : ArgumentKind} {default? : Option α}
    {x : Argument ε} {err : Error}, k.single? = some (kind, default?) → kind ≠ .element →
      args[c.taken]? = some x → Fails k.reader c err →
      ∃ problem : ArgumentProblem,
        err = .argument name (k.reader c).2.taken problem ∧ problem.Concerns x.entry
  /-- An element is refused for what its own decoding fails with. -/
  decoding : ∀ {α : Type} {k : Call ε α} {default? : Option α} {x : Argument ε} {err : Error},
    k.single? = some (.element, default?) → args[c.taken]? = some x → Fails k.reader c err →
      Fails x.decode c.scope err
  /-- A decoder that refuses an argument itself refuses the one that was taken last. -/
  reject : ∀ problem : ArgumentProblem, (Call.reject problem).reader c =
    (.error (.argument name (max c.taken 1) problem), c)
  /-- Reading may end when nothing is left. -/
  finish_end : c.taken = args.length → Call.finish.reader c = (.ok (), c)
  /-- Else the first argument that has not been read is the one to blame. -/
  finish_left : ∀ {x : Argument ε}, args[c.taken]? = some x →
    Call.finish.reader c =
      (.error (.argument name (c.taken + 1) (.unexpected x.entry.value)), c)

section

variable {name : Text} {args : List (Argument ε)} {c : Cursor ε}

theorem Cursor.Among.lawful (h : c.Among name args) : c.Lawful name args where
  taken_le := h.taken_le
  remaining := h.remaining
  takes_one hk hlt := by
    obtain ⟨r, hr, hreader⟩ := Call.exists_readsOne hk
    have hrest := h.rest_eq_cons (List.getElem?_eq_getElem hlt)
    obtain ⟨scope, hstate⟩ := hr.cons c _ _ hrest
    rw [hreader, Call.orDefault_cons _ r hrest, hstate]
    rfl
  default hk hend := by
    obtain ⟨r, -, hreader⟩ := Call.exists_readsOne hk
    rw [hreader]
    exact Reader.withDefault_of_nil _ r c (h.rest_eq_nil hend)
  missing hk hend := by
    obtain ⟨r, hr, hreader⟩ := Call.exists_readsOne hk
    rw [hreader, Call.orDefault, Option.elim_none, hr.nil c (h.rest_eq_nil hend), Cursor.errorAt,
      h.element, hend]
  wrong hk hkind hx herr := by
    obtain ⟨r, hr, hreader⟩ := Call.exists_readsOne hk
    have hrest := h.rest_eq_cons hx
    obtain ⟨scope, hstate⟩ := hr.cons c _ _ hrest
    rw [hreader, Fails, Call.orDefault_cons _ r hrest] at herr
    obtain ⟨problem, rfl, hconcerns⟩ := hr.wrong hkind c _ _ _ hrest herr
    rw [hreader, Call.orDefault_cons _ r hrest, hstate, Cursor.errorAt, h.element]
    exact ⟨problem, rfl, hconcerns⟩
  decoding hk hx herr := by
    obtain ⟨r, hr, hreader⟩ := Call.exists_readsOne hk
    have hrest := h.rest_eq_cons hx
    rw [hreader, Fails, Call.orDefault_cons _ r hrest] at herr
    exact hr.decoding rfl c _ _ _ hrest herr
  reject problem := h.element ▸ rfl
  finish_end hend := (Reader.finish_eq_ok_iff c).2 (h.rest_eq_nil hend)
  finish_left hx := by
    have hfinish := Reader.finish_cons (h.rest_eq_cons hx)
    rw [Cursor.errorAt, h.element] at hfinish
    exact hfinish

theorem Visited.lawful (h : Visited name args c) : c.Lawful name args := h.among.lawful

end

end PhotoPipeline
