/-
**What readings give.**

A reading that succeeds takes arguments from the front of a list and leaves the rest.  This module
says exactly when each reading succeeds, with what, and how readings in turn do.

The readings of scalars are put on one footing: each takes one argument, which must be a word, and
makes something of that word.  The reader of an operation is a chain of those, so that what it
gives is said by a predicate on words.

Main definitions:

* `PhotoPipeline.Gives`, `PhotoPipeline.Fails` — a computation over a state succeeds with a result
  and a new state, or fails with an error;
* `PhotoPipeline.Argument.IsWord` — an argument is a word;
* `PhotoPipeline.Reader.Takes`, `PhotoPipeline.Reader.Exhausts` — what a reading makes of one
  word, and what it makes of all the words that are left;
* `PhotoPipeline.decodeArguments` — arguments decoded as elements in turn.

Main results:

* `PhotoPipeline.Reader.gives_runAll_iff` — when reading all the arguments of an element succeeds;
* `PhotoPipeline.Reader.Exhausts.runAll` — the same for arguments that are words;
* `PhotoPipeline.Reader.gives_elements_iff` — when reading elements succeeds.
-/
import Mathlib.Data.List.Forall2
import PhotoPipeline.Argument.Reader

set_option relaxedAutoImplicit false
set_option autoImplicit false

namespace PhotoPipeline

/-! ### Computations over a state -/

/-- The computation succeeds at the state `s` with the result `a` and leaves the state `t`. -/
def Gives {σ α : Type} (x : ExceptT Error (StateM σ) α) (s : σ) (a : α) (t : σ) : Prop :=
  @Eq (Except Error α × σ) (x s) (.ok a, t)

section

variable {σ α β : Type} {s t : σ}

theorem gives_pure {a b : α} :
    Gives (pure a : ExceptT Error (StateM σ) α) s b t ↔ a = b ∧ s = t := by
  show (Except.ok a, s) = (Except.ok b, t) ↔ _
  simp

theorem gives_throw {e : Error} {a : α} :
    ¬ Gives (throw e : ExceptT Error (StateM σ) α) s a t := fun h => nomatch congrArg Prod.fst h

/-- Behind a computation that succeeds the next one runs. -/
theorem Gives.run_bind {x : ExceptT Error (StateM σ) α} {f : α → ExceptT Error (StateM σ) β} {a : α}
    (h : Gives x s a t) : (x >>= f) s = f a t := by
  have hrun : (x >>= f) s = (fun r : Except Error α × σ => ExceptT.bindCont f r.1 r.2) (x s) := rfl
  rw [hrun, show (x s : Except Error α × σ) = (.ok a, t) from h]
  rfl

/-- Behind a computation that fails nothing runs. -/
theorem run_bind_of_error {x : ExceptT Error (StateM σ) α} {f : α → ExceptT Error (StateM σ) β}
    {err : Error} (h : x s = (.error err, t)) : (x >>= f) s = (.error err, t) := by
  have hrun : (x >>= f) s = (fun r : Except Error α × σ => ExceptT.bindCont f r.1 r.2) (x s) := rfl
  rw [hrun, h]
  rfl

/-- A computation succeeds, or it fails. -/
theorem gives_or_error (x : ExceptT Error (StateM σ) α) (s : σ) :
    (∃ a t, Gives x s a t) ∨ ∃ err t, x s = (.error err, t) := by
  cases h : (x s : Except Error α × σ) with
  | mk result t =>
      cases result with
      | ok a => exact .inl ⟨a, t, h⟩
      | error err => exact .inr ⟨err, t, rfl⟩

/-- **Two computations in turn** succeed when the first does, and the second from there. -/
theorem gives_bind {x : ExceptT Error (StateM σ) α} {f : α → ExceptT Error (StateM σ) β} {b : β} :
    Gives (x >>= f) s b t ↔ ∃ a u, Gives x s a u ∧ Gives (f a) u b t := by
  constructor
  · intro h
    rcases gives_or_error x s with ⟨a, u, ha⟩ | ⟨err, u, herr⟩
    · rw [Gives, ha.run_bind] at h
      exact ⟨a, u, ha, h⟩
    · rw [Gives, run_bind_of_error herr] at h
      cases congrArg Prod.fst h
  · rintro ⟨a, u, ha, h⟩
    rw [Gives, ha.run_bind]
    exact h

/-- The computation fails at the state `s` with the error `err`. -/
def Fails {σ α : Type} (x : ExceptT Error (StateM σ) α) (s : σ) (err : Error) : Prop :=
  @Eq (Except Error α) (x s : Except Error α × σ).1 (.error err)

theorem fails_throw {e err : Error} :
    Fails (throw e : ExceptT Error (StateM σ) α) s err ↔ e = err := by
  show (Except.error e : Except Error α) = Except.error err ↔ _
  simp

/-- Two computations in turn fail when the first does, or the second from there. -/
theorem fails_bind {x : ExceptT Error (StateM σ) α} {f : α → ExceptT Error (StateM σ) β}
    {err : Error} :
    Fails (x >>= f) s err ↔ Fails x s err ∨ ∃ a u, Gives x s a u ∧ Fails (f a) u err := by
  rcases gives_or_error x s with ⟨a, u, ha⟩ | ⟨err', u, herr⟩
  · rw [Fails, ha.run_bind]
    constructor
    · intro h
      exact .inr ⟨a, u, ha, h⟩
    · rintro (h | ⟨b, v, hb, h⟩)
      · cases (congrArg Prod.fst ha).symm.trans h
      · obtain ⟨hab, huv⟩ := Prod.mk.inj (ha.symm.trans hb)
        rw [Except.ok.inj hab, huv]
        exact h
  · rw [Fails, run_bind_of_error herr]
    constructor
    · intro h
      obtain rfl := Except.error.inj h
      exact .inl (congrArg Prod.fst herr)
    · rintro (h | ⟨b, v, hb, -⟩)
      · obtain rfl := Except.error.inj ((congrArg Prod.fst herr).symm.trans h)
        rfl
      · cases congrArg Prod.fst (herr.symm.trans hb)

/-- Making something of the result. -/
theorem run_map (f : α → β) (x : ExceptT Error (StateM σ) α) (s : σ) :
    (f <$> x) s = ((x s).1.map f, (x s).2) := by
  rw [map_eq_pure_bind]
  rcases gives_or_error x s with ⟨a, t, ha⟩ | ⟨err, t, herr⟩
  · rw [ha.run_bind, show x s = (.ok a, t) from ha]
    rfl
  · rw [run_bind_of_error herr, herr]
    rfl

theorem fails_map {f : α → β} {x : ExceptT Error (StateM σ) α} {err : Error} :
    Fails (f <$> x) s err ↔ Fails x s err := by
  rw [Fails, run_map, Fails]
  cases (x s).1 with
  | ok a => exact ⟨fun h => (by cases h), fun h => (by cases h)⟩
  | error err' => exact ⟨fun h => congrArg _ (Except.error.inj h),
      fun h => congrArg _ (Except.error.inj h)⟩

/-- A computation that succeeds does not fail. -/
theorem Gives.not_fails {x : ExceptT Error (StateM σ) α} {a : α} {err : Error} (h : Gives x s a t) :
    ¬ Fails x s err := by
  intro herr
  exact nomatch (congrArg Prod.fst h).symm.trans herr

theorem fails_get_bind {f : σ → ExceptT Error (StateM σ) β} {err : Error} :
    Fails (get >>= f) s err ↔ Fails (f s) s err := Iff.rfl

theorem gives_get_bind {f : σ → ExceptT Error (StateM σ) β} {b : β} :
    Gives (get >>= f) s b t ↔ Gives (f s) s b t := Iff.rfl

theorem gives_modify {f : σ → σ} {u : Unit} :
    Gives (modify f : ExceptT Error (StateM σ) Unit) s u t ↔ f s = t := by
  show (Except.ok (), f s) = (Except.ok u, t) ↔ _
  simp

/-- A computation has one result. -/
theorem Gives.unique {x : ExceptT Error (StateM σ) α} {a b : α} {u : σ} (h : Gives x s a t)
    (h' : Gives x s b u) : a = b ∧ t = u := by
  obtain ⟨hab, htu⟩ := Prod.mk.inj (h.symm.trans h')
  exact ⟨Except.ok.inj hab, htu⟩

end

/-! ### Arguments -/

variable {ε α β : Type}

/-- The argument is the word `w`. -/
def Argument.IsWord (w : Text) (a : Argument ε) : Prop :=
  a.entry.isLeaf = true ∧ a.entry.value = w

/-- The cursor with another rest, when `n` more arguments have been read. -/
def Cursor.advance (c : Cursor ε) (n : Nat) (rest : List (Argument ε)) (scope : Scope ε) :
    Cursor ε :=
  { c with taken := c.taken + n, rest := rest, scope := scope }

theorem Cursor.advance_zero (c : Cursor ε) (h : c.rest = []) : c.advance 0 [] c.scope = c := by
  rw [← h]
  rfl

namespace Reader

theorem gives_reject {problem : ArgumentProblem} {c d : Cursor ε} {a : α} :
    ¬ Gives (reject problem : Reader ε α) c a d := fun h => nomatch congrArg Prod.fst h

theorem gives_next {kind : ArgumentKind} {c d : Cursor ε} {a : Argument ε} :
    Gives (next kind) c a d ↔ ∃ rest, c.rest = a :: rest ∧ d = c.advance 1 rest c.scope := by
  cases hrest : c.rest with
  | nil => simp [Gives, next_nil kind c hrest]
  | cons b rest =>
      rw [Gives, next_cons kind c b rest hrest]
      constructor
      · intro h
        obtain ⟨hab, rfl⟩ := Prod.mk.inj h
        obtain rfl := Except.ok.inj hab
        exact ⟨rest, rfl, rfl⟩
      · rintro ⟨rest', heq, rfl⟩
        obtain ⟨rfl, rfl⟩ := List.cons.inj heq
        rfl

/-! ### Words -/

/-- The reading takes one argument, which must be a word, and makes of the word what `p` says. -/
def Takes (r : Reader ε α) (p : Text → α → Prop) : Prop :=
  ∀ (c d : Cursor ε) (a : α), Gives r c a d ↔
    ∃ x rest w, c.rest = x :: rest ∧ x.IsWord w ∧ p w a ∧ d = c.advance 1 rest c.scope

theorem takes_scalar (kind : ArgumentKind) :
    Takes (scalar kind : Reader ε Text) fun w t => w = t := by
  intro c d t
  rw [scalar, gives_bind]
  constructor
  · rintro ⟨x, u, hx, h⟩
    obtain ⟨rest, hrest, rfl⟩ := gives_next.1 hx
    split at h
    · next hleaf =>
        obtain ⟨rfl, rfl⟩ := gives_pure.1 h
        exact ⟨x, rest, _, hrest, ⟨hleaf, rfl⟩, rfl, rfl⟩
    · exact absurd h gives_reject
  · rintro ⟨x, rest, w, hrest, ⟨hleaf, hw⟩, rfl, rfl⟩
    refine ⟨x, _, gives_next.2 ⟨rest, hrest, rfl⟩, ?_⟩
    rw [if_pos hleaf, hw]
    exact gives_pure.2 ⟨rfl, rfl⟩

/-- A reading that makes something of the word that another one takes. -/
theorem Takes.bind {r : Reader ε Text} {f : Text → Reader ε α} {p : Text → α → Prop}
    (hr : Takes r fun w t => w = t)
    (hf : ∀ (w : Text) (c d : Cursor ε) (a : α), Gives (f w) c a d ↔ p w a ∧ d = c) :
    Takes (r >>= f) p := by
  intro c d a
  rw [gives_bind]
  constructor
  · rintro ⟨t, u, ht, h⟩
    obtain ⟨x, rest, w, hrest, hx, rfl, rfl⟩ := (hr c u t).1 ht
    obtain ⟨hp, rfl⟩ := (hf w _ d a).1 h
    exact ⟨x, rest, w, hrest, hx, hp, rfl⟩
  · rintro ⟨x, rest, w, hrest, hx, hp, rfl⟩
    exact ⟨w, _, (hr c _ w).2 ⟨x, rest, w, hrest, hx, rfl, rfl⟩, (hf w _ _ a).2 ⟨hp, rfl⟩⟩

theorem takes_string : Takes (string : Reader ε Text) fun w t => w = t := takes_scalar .string

theorem takes_int : Takes (int : Reader ε Int64) fun w n => int64? w = some n := by
  refine (takes_scalar .integer).bind fun w c d n => ?_
  cases int64? w with
  | none => simp [gives_reject]
  | some m => simp [gives_pure, eq_comm]

theorem takes_value : Takes (value : Reader ε Value) fun w v => Value.parse w = .ok v := by
  refine (takes_scalar .value).bind fun w c d v => ?_
  cases Value.parse w with
  | error e => simp [gives_reject]
  | ok u => simp [gives_pure, eq_comm]

theorem takes_colour : Takes (colour : Reader ε Colour) fun w k => Colour.ofHex w = .ok k := by
  refine (takes_scalar .colour).bind fun w c d k => ?_
  cases Colour.ofHex w with
  | error e => simp [gives_reject]
  | ok u => simp [gives_pure, eq_comm]

theorem takes_mode : Takes (mode : Reader ε Mode) fun w m => w = m.name := by
  refine takes_string.bind fun w c d m => ?_
  rw [← Mode.ofText_eq_ok_iff]
  cases Mode.ofText w with
  | error e => simp [gives_reject]
  | ok u => simp [gives_pure, eq_comm]

/-! ### All the words -/

/-- The reading makes of the arguments that are left, if they are words, what `p` says, and of
others nothing. -/
def Exhausts (r : Reader ε α) (p : List Text → α → Prop) : Prop :=
  ∀ (c d : Cursor ε) (a : α), Gives r c a d ∧ d.rest = [] ↔
    ∃ words, List.Forall₂ Argument.IsWord words c.rest ∧ p words a ∧
      d = c.advance words.length [] c.scope

theorem exhausts_pure (a : α) :
    Exhausts (pure a : Reader ε α) fun words b => words = [] ∧ a = b := by
  intro c d b
  rw [gives_pure]
  constructor
  · rintro ⟨⟨rfl, rfl⟩, hnil⟩
    exact ⟨[], by rw [hnil]; exact .nil, ⟨rfl, rfl⟩, (c.advance_zero hnil).symm⟩
  · rintro ⟨words, hwords, ⟨rfl, rfl⟩, rfl⟩
    have hnil : c.rest = [] := by
      cases hrest : c.rest with
      | nil => rfl
      | cons => rw [hrest] at hwords; exact nomatch hwords
    exact ⟨⟨rfl, (c.advance_zero hnil).symm⟩, rfl⟩

/-- One word and then all the others. -/
theorem Takes.exhausts {r : Reader ε α} {f : α → Reader ε β} {p : Text → α → Prop}
    {q : α → List Text → β → Prop} (hr : Takes r p) (hf : ∀ a, Exhausts (f a) (q a)) :
    Exhausts (r >>= f) fun words b => ∃ w words' a, words = w :: words' ∧ p w a ∧ q a words' b := by
  intro c d b
  rw [gives_bind]
  constructor
  · rintro ⟨⟨a, u, ha, hb⟩, hnil⟩
    obtain ⟨x, rest, w, hrest, hx, hp, rfl⟩ := (hr c u a).1 ha
    obtain ⟨words, hwords, hq, rfl⟩ := (hf a _ d b).1 ⟨hb, hnil⟩
    refine ⟨w :: words, ?_, ⟨w, words, a, rfl, hp, hq⟩, ?_⟩
    · rw [hrest]
      exact .cons hx hwords
    · simp only [Cursor.advance, List.length_cons]
      congr 1
      omega
  · rintro ⟨_, hwords, ⟨w, words, a, rfl, hp, hq⟩, rfl⟩
    cases hrest : c.rest with
    | nil => rw [hrest] at hwords; exact nomatch hwords
    | cons x rest =>
        rw [hrest] at hwords
        cases hwords with
        | cons hx hwords =>
            have hb := (hf a (c.advance 1 rest c.scope) _ b).2 ⟨words, hwords, hq, rfl⟩
            have hd : (c.advance 1 rest c.scope).advance words.length [] c.scope =
                c.advance (w :: words).length [] c.scope := by
              simp only [Cursor.advance, List.length_cons]
              congr 1
              omega
            exact ⟨⟨a, _, (hr c _ a).2 ⟨x, rest, w, hrest, hx, hp, rfl⟩, hd ▸ hb.1⟩, rfl⟩

/-- A last word that may be missing. -/
theorem Takes.exhausts_withDefault {r : Reader ε α} {p : Text → α → Prop} (hr : Takes r p)
    (default : α) (f : α → β) :
    Exhausts (withDefault default r >>= fun a => pure (f a)) fun words b =>
      words = [] ∧ f default = b ∨ ∃ w a, words = [w] ∧ p w a ∧ f a = b := by
  intro c d b
  by_cases hnil : c.rest = []
  · have hrun : ∀ b, Gives (withDefault default r >>= fun a => pure (f a)) c b d ↔
        Gives (pure (f default) : Reader ε β) c b d := by
      intro b
      rw [gives_bind]
      simp [Gives, withDefault_of_nil default r c hnil, pure, ExceptT.pure, ExceptT.mk]
    rw [hrun, exhausts_pure (f default) c d b]
    simp only [hnil]
    constructor
    · rintro ⟨words, hwords, h, hd⟩
      exact ⟨words, hwords, .inl h, hd⟩
    · rintro ⟨words, hwords, h, hd⟩
      cases hwords
      simp only [true_and, List.nil_eq, reduceCtorEq, false_and, exists_false, or_false] at h
      exact ⟨[], .nil, ⟨rfl, h⟩, hd⟩
  · have hrun : ∀ b, Gives (withDefault default r >>= fun a => pure (f a)) c b d ↔
        Gives (r >>= fun a => pure (f a)) c b d := by
      intro b
      rw [gives_bind, gives_bind]
      simp only [Gives, withDefault_of_ne_nil default r c hnil]
    rw [hrun, hr.exhausts (fun a => exhausts_pure (f a)) c d b]
    constructor
    · rintro ⟨words, hwords, ⟨w, _, a, rfl, hp, rfl, hb⟩, hd⟩
      exact ⟨[w], hwords, .inr ⟨w, a, rfl, hp, hb⟩, hd⟩
    · rintro ⟨words, hwords, ⟨rfl, -⟩ | ⟨w, a, rfl, hp, hb⟩, hd⟩
      · exact absurd (by cases hrest : c.rest with
          | nil => rfl
          | cons => rw [hrest] at hwords; exact nomatch hwords) hnil
      · exact ⟨[w], hwords, ⟨w, [], a, rfl, hp, rfl, hb⟩, hd⟩

/-! ### Elements -/

theorem gives_inScope {x : Decoding ε α} {c d : Cursor ε} {a : α} :
    Gives (inScope x) c a d ↔ ∃ s, Gives x c.scope a s ∧ d = c.advance 0 c.rest s := by
  constructor
  · intro h
    obtain ⟨ha, rfl⟩ := Prod.mk.inj h
    exact ⟨(x c.scope).2, Prod.ext ha rfl, rfl⟩
  · rintro ⟨s, hs, rfl⟩
    exact congrArg (fun r : Except Error α × Scope ε => (r.1, c.advance 0 c.rest r.2)) hs

theorem gives_element {c d : Cursor ε} {e : Element ε} :
    Gives element c e d ↔
      ∃ x rest s, c.rest = x :: rest ∧ Gives x.decode c.scope e s ∧ d = c.advance 1 rest s := by
  rw [element, gives_bind]
  constructor
  · rintro ⟨x, u, hx, h⟩
    obtain ⟨rest, hrest, rfl⟩ := gives_next.1 hx
    obtain ⟨s, hs, rfl⟩ := gives_inScope.1 h
    exact ⟨x, rest, s, hrest, hs, rfl⟩
  · rintro ⟨x, rest, s, hrest, hs, rfl⟩
    exact ⟨x, _, gives_next.2 ⟨rest, hrest, rfl⟩, gives_inScope.2 ⟨s, hs, rfl⟩⟩

end Reader

/-- Arguments decoded as elements in turn. -/
def decodeArguments : List (Argument ε) → Decoding ε (List (Element ε))
  | [] => return []
  | x :: xs => do
    let first ← x.decode
    let others ← decodeArguments xs
    return first :: others

theorem gives_decodeArguments_nil {s t : Scope ε} {es : List (Element ε)} :
    Gives (decodeArguments []) s es t ↔ es = [] ∧ s = t := by
  rw [decodeArguments, gives_pure, eq_comm]

theorem gives_decodeArguments_cons {x : Argument ε} {xs : List (Argument ε)} {s t : Scope ε}
    {es : List (Element ε)} :
    Gives (decodeArguments (x :: xs)) s es t ↔
      ∃ e u others, Gives x.decode s e u ∧ Gives (decodeArguments xs) u others t ∧
        es = e :: others := by
  simp only [decodeArguments, gives_bind, gives_pure]
  constructor
  · rintro ⟨e, u, he, others, v, hothers, rfl, rfl⟩
    exact ⟨e, u, others, he, hothers, rfl⟩
  · rintro ⟨e, u, others, he, hothers, rfl⟩
    exact ⟨e, u, he, others, t, hothers, rfl, rfl⟩

/-- Arguments cannot be decoded when one of them cannot, after those in front of it. -/
theorem fails_decodeArguments_cons {x : Argument ε} {xs : List (Argument ε)} {s : Scope ε}
    {err : Error} :
    Fails (decodeArguments (x :: xs)) s err ↔
      Fails x.decode s err ∨ ∃ e u, Gives x.decode s e u ∧ Fails (decodeArguments xs) u err := by
  have hrest : ∀ (e : Element ε) (u : Scope ε), Fails (do
      let others ← decodeArguments xs
      return e :: others) u err ↔ Fails (decodeArguments xs) u err := by
    intro e u
    rw [fails_bind]
    constructor
    · rintro (h | ⟨others, v, -, h⟩)
      · exact h
      · exact nomatch h
    · exact .inl
  rw [decodeArguments, fails_bind]
  simp only [hrest]

namespace Reader

/-- **Reading elements** is decoding the arguments that are left. -/
theorem gives_elements_iff {c d : Cursor ε} {es : List (Element ε)} :
    Gives elements c es d ↔
      ∃ s, Gives (decodeArguments c.rest) c.scope es s ∧ d = c.advance c.rest.length [] s := by
  have hfor : ∀ (xs : List (Argument ε)) (c : Cursor ε) (es : List (Element ε)), c.rest = xs →
      (Gives (elementsFor xs) c es d ↔
        ∃ s, Gives (decodeArguments xs) c.scope es s ∧ d = c.advance xs.length [] s) := by
    intro xs
    induction xs with
    | nil =>
        intro c es hc
        rw [elementsFor, gives_pure]
        constructor
        · rintro ⟨rfl, rfl⟩
          exact ⟨c.scope, gives_decodeArguments_nil.2 ⟨rfl, rfl⟩, (c.advance_zero hc).symm⟩
        · rintro ⟨s, hs, rfl⟩
          obtain ⟨rfl, rfl⟩ := gives_decodeArguments_nil.1 hs
          exact ⟨rfl, (c.advance_zero hc).symm⟩
    | cons x xs ih =>
        intro c es hc
        simp only [elementsFor, gives_bind, gives_pure, gives_element, hc]
        constructor
        · rintro ⟨e, u, ⟨_, _, s, heq, he, rfl⟩, others, v, hothers, rfl, rfl⟩
          obtain ⟨rfl, rfl⟩ := List.cons.inj heq
          obtain ⟨t, ht, rfl⟩ := (ih (c.advance 1 xs s) others rfl).1 hothers
          refine ⟨t, gives_decodeArguments_cons.2 ⟨e, s, others, he, ht, rfl⟩, ?_⟩
          simp only [Cursor.advance, List.length_cons]
          congr 1
          omega
        · rintro ⟨t, ht, rfl⟩
          obtain ⟨e, s, others, he, hothers, rfl⟩ := gives_decodeArguments_cons.1 ht
          refine ⟨e, _, ⟨x, xs, s, rfl, he, rfl⟩, others, _,
            (ih (c.advance 1 xs s) others rfl).2 ⟨t, hothers, ?_⟩, rfl, rfl⟩
          simp only [Cursor.advance, List.length_cons]
          congr 1
          omega
  exact hfor c.rest c es rfl

/-- Reading elements fails as decoding the arguments that are left does. -/
theorem fails_elements {c : Cursor ε} {err : Error}
    (h : Fails (decodeArguments c.rest) c.scope err) : Fails elements c err := by
  have hfor : ∀ (xs : List (Argument ε)) (c : Cursor ε), c.rest = xs →
      Fails (decodeArguments xs) c.scope err → Fails (elementsFor xs) c err := by
    intro xs
    induction xs with
    | nil =>
        intro c _ h
        exact nomatch h
    | cons x xs ih =>
        intro c hc h
        rw [elementsFor, fails_bind]
        rcases fails_decodeArguments_cons.1 h with h | ⟨e, s, he, h⟩
        · left
          rw [element, fails_bind]
          exact .inr ⟨x, _, gives_next.2 ⟨xs, hc, rfl⟩, h⟩
        · right
          refine ⟨e, c.advance 1 xs s, gives_element.2 ⟨x, xs, s, hc, he, rfl⟩, ?_⟩
          rw [fails_bind]
          exact .inl (ih _ rfl h)
  exact hfor c.rest c rfl h

/-! ### Reading to the end -/

/-- **Reading all the arguments of an element** succeeds when the reading does and leaves none. -/
theorem gives_runAll_iff {name : Text} {xs : List (Argument ε)} {r : Reader ε α} {s t : Scope ε}
    {a : α} :
    Gives (runAll name xs r) s a t ↔
      ∃ d, (Gives r ⟨name, 0, xs, s⟩ a d ∧ d.rest = []) ∧ d.scope = t := by
  have hrun : Gives (runAll name xs r) s a t ↔
      ∃ d, Gives (do let a ← r; finish; return a : Reader ε α) ⟨name, 0, xs, s⟩ a d ∧
        d.scope = t := by
    constructor
    · intro h
      obtain ⟨ha, ht⟩ := Prod.mk.inj h
      exact ⟨_, Prod.ext ha rfl, ht⟩
    · rintro ⟨d, hd, rfl⟩
      exact congrArg (fun r : Except Error α × Cursor ε => (r.1, r.2.scope)) hd
  have hfinish : ∀ (c d : Cursor ε) (u : Unit), Gives finish c u d ↔ c.rest = [] ∧ c = d := by
    intro c d u
    rw [finish, gives_get_bind]
    split
    · next hnil => rw [gives_pure]; simp [hnil]
    · next hcons => rw [hcons]; simp [gives_throw]
  rw [hrun]
  simp only [gives_bind, gives_pure, hfinish]
  constructor
  · rintro ⟨d, ⟨b, u, hb, -, v, ⟨hnil, rfl⟩, rfl, rfl⟩, ht⟩
    exact ⟨u, ⟨hb, hnil⟩, ht⟩
  · rintro ⟨d, ⟨ha, hnil⟩, ht⟩
    exact ⟨d, ⟨a, d, ha, (), d, ⟨hnil, rfl⟩, rfl, rfl⟩, ht⟩

/-- Reading all the arguments of an element fails where the reading does. -/
theorem fails_runAll {name : Text} {xs : List (Argument ε)} {r : Reader ε α} {s : Scope ε}
    {err : Error} (h : Fails r ⟨name, 0, xs, s⟩ err) : Fails (runAll name xs r) s err := by
  have hread : Fails (do let a ← r; finish; return a : Reader ε α) ⟨name, 0, xs, s⟩ err :=
    fails_bind.2 (.inl h)
  exact hread

/-- Words that are all read leave what is defined as it is. -/
theorem Exhausts.runAll {r : Reader ε α} {p : List Text → α → Prop} (hr : Exhausts r p)
    {name : Text} {xs : List (Argument ε)} {s t : Scope ε} {a : α} :
    Gives (runAll name xs r) s a t ↔
      ∃ words, List.Forall₂ Argument.IsWord words xs ∧ p words a ∧ s = t := by
  simp only [gives_runAll_iff, hr _ _ _]
  constructor
  · rintro ⟨d, ⟨words, hwords, hp, rfl⟩, ht⟩
    exact ⟨words, hwords, hp, ht⟩
  · rintro ⟨words, hwords, hp, ht⟩
    exact ⟨_, ⟨words, hwords, hp, rfl⟩, ht⟩

/-- Arguments that are all elements are decoded in turn. -/
theorem gives_runAll_elements {name : Text} {xs : List (Argument ε)} {s t : Scope ε}
    {es : List (Element ε)} :
    Gives (runAll name xs elements) s es t ↔ Gives (decodeArguments xs) s es t := by
  simp only [gives_runAll_iff, gives_elements_iff]
  constructor
  · rintro ⟨d, ⟨⟨u, hes, rfl⟩, -⟩, rfl⟩
    exact hes
  · intro hes
    exact ⟨_, ⟨⟨t, hes, rfl⟩, rfl⟩, rfl⟩

/-- Making something of what has been read. -/
theorem gives_runAll_map {name : Text} {xs : List (Argument ε)} {r : Reader ε α} {f : α → β}
    {s t : Scope ε} {b : β} :
    Gives (runAll name xs (r >>= fun a => pure (f a))) s b t ↔
      ∃ a, Gives (runAll name xs r) s a t ∧ f a = b := by
  simp only [gives_runAll_iff, gives_bind, gives_pure]
  constructor
  · rintro ⟨d, ⟨⟨a, u, ha, rfl, rfl⟩, hnil⟩, ht⟩
    exact ⟨a, ⟨u, ⟨ha, hnil⟩, ht⟩, rfl⟩
  · rintro ⟨a, ⟨d, ⟨ha, hnil⟩, ht⟩, rfl⟩
    exact ⟨d, ⟨⟨a, d, ha, rfl, rfl⟩, hnil⟩, ht⟩

end Reader

end PhotoPipeline
