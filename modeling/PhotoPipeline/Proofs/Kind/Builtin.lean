/-
**What the built-in kinds read.**

An operation is read from words, each of which is read as one of its scalars; a last scalar that
has a default may be left out.  A group is read from the elements inside it.  This module says so
of every built-in kind, in both directions.

Main definitions:

* `PhotoPipeline.Scalar.Accepts` — a word is read as a scalar;
* `PhotoPipeline.Operation.Accepts` — words are read as an operation.

Main results:

* `PhotoPipeline.Scalar.accepts_word` — a written scalar is read as itself;
* `PhotoPipeline.gives_construct_step`, `PhotoPipeline.gives_construct_group` — what is decoded to
  an operation and to a group;
* `PhotoPipeline.of_gives_construct` — **what an entry of a built-in kind is decoded to**.
-/
import PhotoPipeline.Kind.Builtin
import PhotoPipeline.Proofs.Argument.Reader
import PhotoPipeline.Proofs.Element.Written
import PhotoPipeline.Recipe.Decode

set_option relaxedAutoImplicit false
set_option autoImplicit false

namespace PhotoPipeline

/-! ### Scalars -/

namespace Value

theorem source_eq_of_parse {w : Text} {v : Value} (h : parse w = .ok v) : v.source = w := by
  rw [parse] at h
  split at h
  · split at h
    · obtain rfl := Except.ok.inj h
      rfl
    · cases h
  · obtain rfl := Except.ok.inj h
    rfl

theorem parse_literal {w : Text} (h : body? w = none) : parse w = .ok (literal w) := by
  rw [parse, h]

theorem body?_eq_none {w : Text} (h : '\x60' ∉ w) : body? w = none := by
  rw [body?.eq_def]
  split
  · exact absurd List.mem_cons_self h
  · rfl

end Value

theorem not_isBlank_of_isBare {c : Char} (h : isBare c = true) : isBlank c = false :=
  (isBare_iff.1 h).1

/-- A text without blanks has none to trim. -/
theorem trim_eq_self {t : Text} (h : t.all isBare = true) : t.trim = t := by
  have hdrop : ∀ u : Text, u.all isBare = true → u.dropWhile isBlank = u := by
    intro u hu
    cases u with
    | nil => rfl
    | cons c u =>
        have hc := not_isBlank_of_isBare (Bool.and_eq_true_iff.1 hu).1
        rw [List.dropWhile_cons, hc, if_neg Bool.false_ne_true]
  rw [Text.trim, Text.trimStart, hdrop t h, Text.trimEnd, hdrop _ (by rw [List.all_reverse]; exact h),
    List.reverse_reverse]

namespace Colour

/-- A written colour is read back. -/
theorem ofHex_text (c : Colour) : ofHex c.text = .ok c := by
  have h := ofDigits_text c
  simp only [ofHex, trim_eq_self (all_isBare_text c)]
  cases hv : hexValues? (dropHash c.text) with
  | none =>
      rw [hv] at h
      exact nomatch h
  | some vs =>
      rw [hv] at h
      have hd : ofDigits vs = some c := h
      simp only [hd]

end Colour

/-- A written integer is read back. -/
theorem int64?_signedDecimal (n : Int64) : int64? (signedDecimal n.toInt) = some n := by
  have hbounds : Int64.minValue.toInt ≤ n.toInt ∧ n.toInt ≤ Int64.maxValue.toInt :=
    ⟨Int64.minValue_le_toInt n, Int64.toInt_le n⟩
  simp only [int64?, integer?_signedDecimal, if_pos hbounds, Int64.ofInt_toInt]

/-- The text of a number has no backtick. -/
theorem notMem_floatText (x : Float) : '\x60' ∉ floatText x := by
  have hd : ∀ n, '\x60' ∉ decimal n := fun n h => absurd (isDigit_of_mem_decimal h) (by decide)
  have hz : ∀ n, '\x60' ∉ List.replicate n '0' := by
    intro n h
    exact absurd (List.eq_of_mem_replicate h) (by decide)
  have hp : ∀ d : Decimal, '\x60' ∉ d.positional := by
    intro d h
    simp only [Decimal.positional] at h
    split at h
    · exact (List.mem_append.1 h).elim (hd _) (hz _)
    split at h
    · rcases List.mem_append.1 h with h | h
      · exact hd _ (List.mem_of_mem_take h)
      · exact hd _ (List.mem_of_mem_drop ((List.mem_cons.1 h).resolve_left (by decide)))
    · have h := (List.mem_cons.1 ((List.mem_cons.1 h).resolve_left (by decide))).resolve_left
        (by decide)
      exact (List.mem_append.1 h).elim (hz _) (hd _)
  have hs : ∀ b : Bool, '\x60' ∉ (if b then ['-'] else [] : Text) := by decide
  intro h
  simp only [floatText] at h
  split at h
  · exact absurd h (by decide)
  split at h
  · exact (List.mem_append.1 h).elim (hs _) (by decide)
  split at h
  · exact (List.mem_append.1 h).elim (hs _) (by decide)
  · exact (List.mem_append.1 h).elim (hs _) (hp _)

namespace Scalar

/-- The word is read as the scalar. -/
def Accepts : Scalar → Text → Prop
  | string t, w => w = t
  | int n, w => int64? w = some n
  | float _, _ => False
  | value v, w => Value.parse w = .ok v
  | colour c, w => Colour.ofHex w = .ok c

theorem Accepts.sane {s : Scalar} {w : Text} (h : s.Accepts w) : s.Sane := by
  cases s with
  | value v =>
      have hv : Value.parse w = .ok v := h
      rw [← Value.source_eq_of_parse hv] at hv
      exact hv
  | float x => exact h
  | _ => exact trivial

/-- **A written scalar is read as itself.** -/
theorem accepts_word {s : Scalar} (h : s.Sane) : s.Accepts s.word := by
  cases s with
  | string t => rfl
  | int n => exact int64?_signedDecimal n
  | float x => exact h
  | value v => exact h
  | colour c => exact Colour.ofHex_text c

theorem sane_number (x : Float) : (value (.number x)).Sane :=
  Value.parse_literal (Value.body?_eq_none (notMem_floatText x))

end Scalar

namespace Operation

/-- What the arguments at the end stand for that may be left out. -/
def defaults : Operation → List Scalar
  | adjust (.canvas ..) => [.colour .transparent]
  | adjust (.tint ..) => [.value (.number 0.5)]
  | _ => []

/-- The words are read as the scalars of the operation, all of them or all but the defaults. -/
def Accepts (op : Operation) (words : List Text) : Prop :=
  ∃ given, (op.scalars = given ∨ op.scalars = given ++ op.defaults) ∧
    List.Forall₂ Scalar.Accepts given words

theorem Accepts.forall₂ {op : Operation} {words : List Text} (h : op.Accepts words)
    (hd : op.defaults = []) : List.Forall₂ Scalar.Accepts op.scalars words := by
  obtain ⟨given, hgiven, hwords⟩ := h
  rw [hd, List.append_nil, or_self] at hgiven
  rw [hgiven]
  exact hwords

theorem sane_defaults (op : Operation) : ∀ s ∈ op.defaults, s.Sane := by
  cases op with
  | adjust a =>
      cases a with
      | canvas w h c => exact List.forall_mem_singleton.2 trivial
      | tint c v => exact List.forall_mem_singleton.2 (Scalar.sane_number 0.5)
      | _ => exact fun s hs => nomatch hs
  | _ => exact fun s hs => nomatch hs

theorem Accepts.sane {op : Operation} {words : List Text} (h : op.Accepts words) :
    ∀ s ∈ op.scalars, s.Sane := by
  obtain ⟨given, hgiven, hwords⟩ := h
  have hsane : ∀ s ∈ given, s.Sane := by
    clear hgiven
    induction hwords with
    | nil => exact fun s hs => nomatch hs
    | cons hs _ ih => exact List.forall_mem_cons.2 ⟨hs.sane, ih⟩
  rcases hgiven with hgiven | hgiven
  · rw [hgiven]
    exact hsane
  · rw [hgiven]
    exact List.forall_mem_append.2 ⟨hsane, op.sane_defaults⟩

/-- **A written operation is read as itself.** -/
theorem accepts_words {op : Operation} (h : ∀ s ∈ op.scalars, s.Sane) :
    op.Accepts (op.scalars.map Scalar.word) := by
  refine ⟨op.scalars, .inl rfl, ?_⟩
  rw [List.forall₂_map_right_iff, List.forall₂_same]
  exact fun s hs => Scalar.accepts_word (h s hs)

end Operation

/-! ### Readings -/

open Reader

variable {ε α : Type}

/-- The reading makes of words the operations `ops` that they are read as. -/
def ReadsSteps (r : Reader ε (Element ε)) (ops : Operation → Prop) : Prop :=
  Exhausts r fun words e => ∃ op, ops op ∧ op.Accepts words ∧ e = .step op

theorem Reader.Exhausts.readsSteps {r : Reader ε (Element ε)} {p : List Text → Element ε → Prop}
    {ops : Operation → Prop} (hr : Exhausts r p)
    (hp : ∀ words e, p words e ↔ ∃ op, ops op ∧ op.Accepts words ∧ e = .step op) :
    ReadsSteps r ops := by
  intro c d e
  simp only [hr c d e, hp]

/-- Reading nothing. -/
theorem readsSteps_pure (op : Operation) (hs : op.scalars = []) (hd : op.defaults = []) :
    ReadsSteps (pure (.step op) : Reader ε (Element ε)) (· = op) := by
  refine (exhausts_pure _).readsSteps fun words e => ?_
  constructor
  · rintro ⟨rfl, rfl⟩
    exact ⟨op, rfl, ⟨[], .inl hs, .nil⟩, rfl⟩
  · rintro ⟨_, rfl, h, rfl⟩
    have hwords := h.forall₂ hd
    rw [hs] at hwords
    cases hwords
    exact ⟨rfl, rfl⟩

/-- Reading one scalar. -/
theorem readsSteps_one {r : Reader ε α} {p : Text → α → Prop} {make : α → Operation}
    {scalar : α → Scalar} (hr : Takes r p) (hs : ∀ a, (make a).scalars = [scalar a])
    (hd : ∀ a, (make a).defaults = []) (hp : ∀ w a, p w a ↔ (scalar a).Accepts w) :
    ReadsSteps (r >>= fun a => pure (.step (make a))) fun op => ∃ a, op = make a := by
  refine (hr.exhausts fun a => exhausts_pure _).readsSteps fun words e => ?_
  constructor
  · rintro ⟨w, _, a, rfl, ha, rfl, rfl⟩
    exact ⟨make a, ⟨a, rfl⟩, ⟨_, .inl (hs a), .cons ((hp w a).1 ha) .nil⟩, rfl⟩
  · rintro ⟨_, ⟨a, rfl⟩, h, rfl⟩
    have hwords := h.forall₂ (hd a)
    rw [hs] at hwords
    rcases hwords with _ | ⟨ha, _ | _⟩
    exact ⟨_, [], a, rfl, (hp _ a).2 ha, rfl, rfl⟩

namespace Kind

theorem adjusting_bind (r : Reader ε α) (f : α → Reader ε Adjustment) :
    adjusting (r >>= f) = r >>= fun a => adjusting (f a) := by
  simp [adjusting]

/-- The kinds of adjustments with one scalar. -/
theorem readsSteps_adjusting {r : Reader ε α} {p : Text → α → Prop} {make : α → Adjustment}
    (scalar : α → Scalar) (hr : Takes r p) (hs : ∀ a, (make a).scalars = [scalar a])
    (hd : ∀ a, (Operation.adjust (make a)).defaults = [])
    (hp : ∀ w a, p w a ↔ (scalar a).Accepts w) :
    ReadsSteps (adjusting (r >>= fun a => pure (make a))) fun op => ∃ a, op = .adjust (make a) := by
  rw [adjusting_bind]
  exact readsSteps_one hr hs hd hp

theorem readsSteps_value (make : Value → Adjustment) (hs : ∀ v, (make v).scalars = [.value v])
    (hd : ∀ v, (Operation.adjust (make v)).defaults = []) :
    ReadsSteps (adjusting (value >>= fun v => pure (make v)) : Reader ε (Element ε))
      fun op => ∃ v, op = .adjust (make v) :=
  readsSteps_adjusting .value takes_value hs hd fun _ _ => Iff.rfl

theorem readsSteps_string (make : Text → Operation) (hs : ∀ t, (make t).scalars = [.string t])
    (hd : ∀ t, (make t).defaults = []) :
    ReadsSteps (Reader.string >>= fun t => pure (.step (make t)) : Reader ε (Element ε))
      fun op => ∃ t, op = make t :=
  readsSteps_one takes_string hs hd fun _ _ => Iff.rfl

theorem readsSteps_rotate :
    ReadsSteps (rotate.read : Reader ε (Element ε)) fun op => ∃ n, op = .adjust (.rotate n) :=
  readsSteps_adjusting .int takes_int (fun _ => rfl) (fun _ => rfl) fun _ _ => Iff.rfl

theorem readsSteps_resize :
    ReadsSteps (resize.read : Reader ε (Element ε)) fun op => ∃ w h, op = .adjust (.resize w h) := by
  have hread : (resize.read : Reader ε (Element ε)) =
      (do let w ← value; let h ← value; return .step (.adjust (.resize w h))) := by
    simp [resize, documented, adjusting]
  rw [hread]
  refine (takes_value.exhausts fun w => takes_value.exhausts fun h =>
    exhausts_pure _).readsSteps fun words e => ?_
  constructor
  · rintro ⟨_, _, w, rfl, hw, _, _, h, rfl, hh, rfl, rfl⟩
    exact ⟨_, ⟨w, h, rfl⟩, ⟨_, .inl rfl, .cons hw (.cons hh .nil)⟩, rfl⟩
  · rintro ⟨_, ⟨w, h, rfl⟩, haccepts, rfl⟩
    rcases haccepts.forall₂ rfl with _ | ⟨hw, _ | ⟨hh, _ | _⟩⟩
    exact ⟨_, _, w, rfl, hw, _, _, h, rfl, hh, rfl, rfl⟩

theorem readsSteps_crop : ReadsSteps (crop.read : Reader ε (Element ε))
    fun op => ∃ x y w h, op = .adjust (.crop x y w h) := by
  have hread : (crop.read : Reader ε (Element ε)) =
      (do
        let x ← value; let y ← value; let w ← value; let h ← value
        return .step (.adjust (.crop x y w h))) := by
    simp [crop, documented, adjusting]
  rw [hread]
  refine (takes_value.exhausts fun x => takes_value.exhausts fun y => takes_value.exhausts fun w =>
    takes_value.exhausts fun h => exhausts_pure _).readsSteps fun words e => ?_
  constructor
  · rintro ⟨_, _, x, rfl, hx, _, _, y, rfl, hy, _, _, w, rfl, hw, _, _, h, rfl, hh, rfl, rfl⟩
    exact ⟨_, ⟨x, y, w, h, rfl⟩,
      ⟨_, .inl rfl, .cons hx (.cons hy (.cons hw (.cons hh .nil)))⟩, rfl⟩
  · rintro ⟨_, ⟨x, y, w, h, rfl⟩, haccepts, rfl⟩
    rcases haccepts.forall₂ rfl with _ | ⟨hx, _ | ⟨hy, _ | ⟨hw, _ | ⟨hh, _ | _⟩⟩⟩⟩
    exact ⟨_, _, x, rfl, hx, _, _, y, rfl, hy, _, _, w, rfl, hw, _, _, h, rfl, hh, rfl, rfl⟩

theorem readsSteps_canvas : ReadsSteps (canvas.read : Reader ε (Element ε))
    fun op => ∃ w h c, op = .adjust (.canvas w h c) := by
  have hread : (canvas.read : Reader ε (Element ε)) =
      (do
        let w ← value; let h ← value; let c ← colourD .transparent
        return .step (.adjust (.canvas w h c))) := by
    simp [canvas, documented, adjusting]
  rw [hread]
  refine (takes_value.exhausts fun w => takes_value.exhausts fun h =>
    takes_colour.exhausts_withDefault .transparent fun c =>
      (.step (.adjust (.canvas w h c)) : Element ε)).readsSteps fun words e => ?_
  constructor
  · rintro ⟨_, _, w, rfl, hw, _, _, h, rfl, hh, ⟨rfl, rfl⟩ | ⟨_, c, rfl, hc, rfl⟩⟩
    · exact ⟨_, ⟨w, h, _, rfl⟩, ⟨[.value w, .value h], .inr rfl, .cons hw (.cons hh .nil)⟩, rfl⟩
    · exact ⟨_, ⟨w, h, c, rfl⟩, ⟨_, .inl rfl, .cons hw (.cons hh (.cons hc .nil))⟩, rfl⟩
  · rintro ⟨_, ⟨w, h, c, rfl⟩, ⟨given, rfl | hgiven, hwords⟩, rfl⟩
    · rcases hwords with _ | ⟨hw, _ | ⟨hh, _ | ⟨hc, _ | _⟩⟩⟩
      exact ⟨_, _, w, rfl, hw, _, _, h, rfl, hh, .inr ⟨_, c, rfl, hc, rfl⟩⟩
    · have hcut : [Scalar.value w, .value h] ++ [.colour c] = given ++ [.colour .transparent] :=
        hgiven
      obtain ⟨rfl, hc⟩ := List.append_inj' hcut rfl
      obtain rfl : c = .transparent := by simpa using hc
      rcases hwords with _ | ⟨hw, _ | ⟨hh, _ | _⟩⟩
      exact ⟨_, _, w, rfl, hw, _, _, h, rfl, hh, .inl ⟨rfl, rfl⟩⟩

theorem readsSteps_tint : ReadsSteps (tint.read : Reader ε (Element ε))
    fun op => ∃ c v, op = .adjust (.tint c v) := by
  have hread : (tint.read : Reader ε (Element ε)) =
      (do
        let c ← colour; let v ← valueD (.number 0.5)
        return .step (.adjust (.tint c v))) := by
    simp [tint, documented, adjusting]
  rw [hread]
  refine (takes_colour.exhausts fun c => takes_value.exhausts_withDefault (.number 0.5) fun v =>
    (.step (.adjust (.tint c v)) : Element ε)).readsSteps fun words e => ?_
  constructor
  · rintro ⟨_, _, c, rfl, hc, ⟨rfl, rfl⟩ | ⟨_, v, rfl, hv, rfl⟩⟩
    · exact ⟨_, ⟨c, _, rfl⟩, ⟨[.colour c], .inr rfl, .cons hc .nil⟩, rfl⟩
    · exact ⟨_, ⟨c, v, rfl⟩, ⟨_, .inl rfl, .cons hc (.cons hv .nil)⟩, rfl⟩
  · rintro ⟨_, ⟨c, v, rfl⟩, ⟨given, rfl | hgiven, hwords⟩, rfl⟩
    · rcases hwords with _ | ⟨hc, _ | ⟨hv, _ | _⟩⟩
      exact ⟨_, _, c, rfl, hc, .inr ⟨_, v, rfl, hv, rfl⟩⟩
    · have hcut : [Scalar.colour c] ++ [.value v] = given ++ [.value (.number 0.5)] := hgiven
      obtain ⟨rfl, hv⟩ := List.append_inj' hcut rfl
      obtain rfl : v = .number 0.5 := by simpa using hv
      rcases hwords with _ | ⟨hc, _ | _⟩
      exact ⟨_, _, c, rfl, hc, .inl ⟨rfl, rfl⟩⟩

end Kind

/-! ### Entries of built-in kinds -/

/-- The kind that an operation is of. -/
def Operation.kind : Operation → ElementKind ε
  | adjust (.canvas ..) => Kind.canvas
  | adjust (.contrast _) => Kind.contrast
  | adjust (.brightness _) => Kind.brightness
  | adjust (.rotate _) => Kind.rotate
  | adjust (.resize ..) => Kind.resize
  | adjust (.crop ..) => Kind.crop
  | adjust (.blur _) => Kind.blur
  | adjust .grayscale => Kind.grayscale
  | adjust .invert => Kind.invert
  | adjust (.saturate _) => Kind.saturate
  | adjust (.tint ..) => Kind.tint
  | load _ => Kind.load
  | save _ => Kind.save
  | stash _ => Kind.stash
  | retrieve _ => Kind.retrieve

theorem Operation.name_kind (op : Operation) : (op.kind : ElementKind ε).name = op.name := by
  cases op with
  | adjust a => cases a <;> rfl
  | _ => rfl

theorem Operation.kind_mem (op : Operation) : (op.kind : ElementKind ε) ∈ builtinKinds := by
  cases op with
  | adjust a => cases a <;> simp [kind, builtinKinds]
  | _ => simp [kind, builtinKinds]

/-- The kind of an operation reads operations of its name, and this one among them. -/
theorem Operation.readsSteps_kind (op : Operation) : ∃ ops : Operation → Prop,
    ReadsSteps (op.kind : ElementKind ε).read ops ∧ ops op ∧ ∀ op', ops op' → op'.name = op.name := by
  have hvalue : ∀ (make : Value → Adjustment) (v : Value), (∀ v, (make v).scalars = [.value v]) →
      (∀ v, (Operation.adjust (make v)).defaults = []) → (∀ u, (make u).name = (make v).name) →
      ∃ ops : Operation → Prop,
        ReadsSteps (Kind.adjusting (value >>= fun v => pure (make v)) : Reader ε (Element ε)) ops ∧
          ops (.adjust (make v)) ∧ ∀ op', ops op' → op'.name = (Operation.adjust (make v)).name := by
    intro make v hs hd hname
    refine ⟨_, Kind.readsSteps_value make hs hd, ⟨v, rfl⟩, ?_⟩
    rintro _ ⟨u, rfl⟩
    exact hname u
  have hstring : ∀ (make : Text → Operation) (t : Text), (∀ t, (make t).scalars = [.string t]) →
      (∀ t, (make t).defaults = []) → (∀ u, (make u).name = (make t).name) →
      ∃ ops : Operation → Prop,
        ReadsSteps (Reader.string >>= fun t => pure (.step (make t)) : Reader ε (Element ε)) ops ∧
          ops (make t) ∧ ∀ op', ops op' → op'.name = (make t).name := by
    intro make t hs hd hname
    refine ⟨_, Kind.readsSteps_string make hs hd, ⟨t, rfl⟩, ?_⟩
    rintro _ ⟨u, rfl⟩
    exact hname u
  cases op with
  | adjust a =>
      cases a with
      | canvas w h c =>
          exact ⟨_, Kind.readsSteps_canvas, ⟨w, h, c, rfl⟩, by rintro _ ⟨_, _, _, rfl⟩; rfl⟩
      | contrast v => exact hvalue .contrast v (fun _ => rfl) (fun _ => rfl) fun _ => rfl
      | brightness v => exact hvalue .brightness v (fun _ => rfl) (fun _ => rfl) fun _ => rfl
      | rotate n => exact ⟨_, Kind.readsSteps_rotate, ⟨n, rfl⟩, by rintro _ ⟨_, rfl⟩; rfl⟩
      | resize w h => exact ⟨_, Kind.readsSteps_resize, ⟨w, h, rfl⟩, by rintro _ ⟨_, _, rfl⟩; rfl⟩
      | crop x y w h =>
          exact ⟨_, Kind.readsSteps_crop, ⟨x, y, w, h, rfl⟩, by rintro _ ⟨_, _, _, _, rfl⟩; rfl⟩
      | blur v => exact hvalue .blur v (fun _ => rfl) (fun _ => rfl) fun _ => rfl
      | grayscale => 
          exact ⟨_, readsSteps_pure (.adjust .grayscale) rfl rfl, rfl, by rintro _ rfl; rfl⟩
      | invert => exact ⟨_, readsSteps_pure (.adjust .invert) rfl rfl, rfl, by rintro _ rfl; rfl⟩
      | saturate v => exact hvalue .saturate v (fun _ => rfl) (fun _ => rfl) fun _ => rfl
      | tint c v => exact ⟨_, Kind.readsSteps_tint, ⟨c, v, rfl⟩, by rintro _ ⟨_, _, rfl⟩; rfl⟩
  | load path => exact hstring .load path (fun _ => rfl) (fun _ => rfl) fun _ => rfl
  | save path => exact hstring .save path (fun _ => rfl) (fun _ => rfl) fun _ => rfl
  | stash slot => exact hstring .stash slot (fun _ => rfl) (fun _ => rfl) fun _ => rfl
  | retrieve slot => exact hstring .retrieve slot (fun _ => rfl) (fun _ => rfl) fun _ => rfl

/-- A built-in kind is that of an operation, or one of the four kinds of groups. -/
theorem mem_builtinKinds {kind : ElementKind ε} (h : kind ∈ builtinKinds) :
    (∃ op : Operation, kind = op.kind) ∨ kind ∈ [Kind.pipeline, Kind.only, Kind.cache, Kind.once] := by
  simp only [builtinKinds, List.mem_cons, List.not_mem_nil, or_false] at h
  rcases h with rfl | rfl | rfl | rfl | rfl | rfl | rfl | rfl | rfl | rfl | rfl | rfl | rfl | rfl |
    rfl | rfl | rfl | rfl | rfl
  case inl => exact .inr (by simp)
  · exact .inl ⟨.load [], rfl⟩
  · exact .inl ⟨.save [], rfl⟩
  · exact .inl ⟨.adjust (.canvas (.literal []) (.literal []) default), rfl⟩
  · exact .inl ⟨.adjust (.contrast (.literal [])), rfl⟩
  · exact .inl ⟨.adjust (.brightness (.literal [])), rfl⟩
  · exact .inl ⟨.adjust (.rotate 0), rfl⟩
  · exact .inl ⟨.adjust (.resize (.literal []) (.literal [])), rfl⟩
  · exact .inl ⟨.adjust (.crop (.literal []) (.literal []) (.literal []) (.literal [])), rfl⟩
  · exact .inl ⟨.adjust (.blur (.literal [])), rfl⟩
  · exact .inl ⟨.adjust .grayscale, rfl⟩
  · exact .inl ⟨.adjust .invert, rfl⟩
  · exact .inl ⟨.adjust (.saturate (.literal [])), rfl⟩
  · exact .inl ⟨.adjust (.tint default (.literal [])), rfl⟩
  · exact .inr (by simp)
  · exact .inl ⟨.stash [], rfl⟩
  · exact .inl ⟨.retrieve [], rfl⟩
  all_goals exact .inr (by simp)

variable {budget : UInt64} {s t : Scope ε} {xs ys : List (Argument ε)} {name : Text}
  {e : Element ε}

/-- An entry of a built-in kind is read by that kind. -/
theorem construct_kind {kind : ElementKind ε} (h : kind ∈ builtinKinds) :
    construct (.builtin budget) kind.name xs = runAll kind.name xs kind.read := by
  have hkinds : ∀ kind ∈ (builtinKinds : List (ElementKind ε)),
      builtinKinds.find? (fun k => k.name == kind.name) = some kind := by
    intro kind hkind
    simp only [builtinKinds, List.mem_cons, List.not_mem_nil, or_false] at hkind
    rcases hkind with rfl | rfl | rfl | rfl | rfl | rfl | rfl | rfl | rfl | rfl | rfl | rfl | rfl |
      rfl | rfl | rfl | rfl | rfl | rfl <;> rfl
  have hfind : (Catalogue.builtin budget : Catalogue ε).find? kind.name =
      builtinKinds.find? fun k => k.name == kind.name := rfl
  rw [construct, hfind, hkinds kind h]

/-- An entry of a kind in the catalogue is read by that kind, and no other entry is decoded. -/
theorem gives_construct_iff_kind :
    Gives (construct (.builtin budget) name xs) s e t ↔
      ∃ kind ∈ builtinKinds, kind.name = name ∧ Gives (runAll name xs kind.read) s e t := by
  constructor
  · intro h
    have hfind : (Catalogue.builtin budget : Catalogue ε).find? name =
        builtinKinds.find? fun k => k.name == name := rfl
    rw [construct, hfind] at h
    split at h
    · next kind hkind =>
        have hname := List.find?_some hkind
        obtain rfl : kind.name = name := eq_of_beq hname
        exact ⟨kind, List.mem_of_find?_eq_some hkind, rfl, h⟩
    · exact absurd h gives_throw
  · rintro ⟨kind, hmem, rfl, h⟩
    rw [construct_kind hmem]
    exact h

/-- Words that an operation accepts are decoded to it. -/
theorem gives_construct_step {op : Operation} {words : List Text} (h : op.Accepts words)
    (hwords : List.Forall₂ Argument.IsWord words xs) :
    Gives (construct (.builtin budget) op.name xs) s (.step op) s := by
  obtain ⟨ops, hread, hop, -⟩ := op.readsSteps_kind (ε := ε)
  have hrun : Gives (runAll op.name xs op.kind.read) s (.step op) s :=
    Exhausts.runAll hread |>.2 ⟨words, hwords, ⟨op, hop, h, rfl⟩, rfl⟩
  exact gives_construct_iff_kind.2 ⟨op.kind, op.kind_mem, op.name_kind, hrun⟩

theorem gives_runAll_grouping {kind : Group} :
    Gives (runAll name xs (Kind.grouping kind)) s e t ↔
      ∃ es, Gives (decodeArguments xs) s es t ∧ .group kind es = e := by
  simp only [Kind.grouping, gives_runAll_map, gives_runAll_elements]

theorem gives_runAll_only :
    Gives (runAll name xs Kind.only.read) s e t ↔
      ∃ mode x rest es, xs = x :: rest ∧ x.IsWord mode.name ∧
        Gives (decodeArguments rest) s es t ∧ .group (.only mode) es = e := by
  have hread : (Kind.only.read : Reader ε (Element ε)) =
      (do let m ← mode; let es ← elements; return .group (.only m) es) := rfl
  simp only [hread, gives_runAll_iff, gives_bind, gives_pure, gives_elements_iff, takes_mode _ _ _]
  constructor
  · rintro ⟨_, ⟨⟨m, _, ⟨x, rest, _, rfl, hx, rfl, rfl⟩, es, _, ⟨u, hes, rfl⟩, rfl, rfl⟩, -⟩, rfl⟩
    exact ⟨m, x, rest, es, rfl, hx, hes, rfl⟩
  · rintro ⟨m, x, rest, es, rfl, hx, hes, rfl⟩
    exact ⟨_, ⟨⟨m, _, ⟨x, rest, _, rfl, hx, rfl, rfl⟩, es, _, ⟨t, hes, rfl⟩, rfl, rfl⟩, rfl⟩, rfl⟩

/-- The words in front of a group's elements, and the elements, are decoded to it. -/
theorem gives_construct_group {kind : Group} {es : List (Element ε)}
    (hkind : kind.announced? = none) (hxs : List.Forall₂ Argument.IsWord kind.words xs)
    (hys : Gives (decodeArguments ys) s es t) :
    Gives (construct (.builtin budget) kind.name (xs ++ ys)) s (.group kind es) t := by
  rw [gives_construct_iff_kind]
  cases kind with
  | anonymous =>
      cases hxs
      exact ⟨Kind.pipeline, by simp [builtinKinds], rfl, gives_runAll_grouping.2 ⟨es, hys, rfl⟩⟩
  | definition => exact nomatch hkind
  | reference => exact nomatch hkind
  | only m =>
      rcases hxs with _ | ⟨hx, _ | _⟩
      exact ⟨Kind.only, by simp [builtinKinds], rfl,
        gives_runAll_only.2 ⟨m, _, ys, es, rfl, hx, hys, rfl⟩⟩
  | cache =>
      cases hxs
      exact ⟨Kind.cache, by simp [builtinKinds], rfl, gives_runAll_grouping.2 ⟨es, hys, rfl⟩⟩
  | once =>
      cases hxs
      exact ⟨Kind.once, by simp [builtinKinds], rfl, gives_runAll_grouping.2 ⟨es, hys, rfl⟩⟩

/-- A group fails as decoding its elements does. -/
theorem fails_construct_group {kind : Group} {err : Error} (hkind : kind.announced? = none)
    (hxs : List.Forall₂ Argument.IsWord kind.words xs) (hys : Fails (decodeArguments ys) s err) :
    Fails (construct (.builtin budget) kind.name (xs ++ ys)) s err := by
  have hgroup : ∀ {kind : Group} {k : ElementKind ε}, k ∈ builtinKinds → k.name = kind.name →
      k.read = Kind.grouping kind → Fails (construct (.builtin budget) kind.name ys) s err := by
    intro kind k hk hname hread
    rw [← hname, construct_kind hk, hread]
    exact fails_runAll (fails_bind.2 (.inl (fails_elements hys)))
  cases kind with
  | anonymous =>
      cases hxs
      exact hgroup (k := Kind.pipeline) (by simp [builtinKinds]) rfl rfl
  | definition => exact nomatch hkind
  | reference => exact nomatch hkind
  | only m =>
      rcases hxs with _ | @⟨_, x, _, _, hx, _ | _⟩
      have honly : (Kind.only : ElementKind ε) ∈ builtinKinds := by simp [builtinKinds]
      have hmode : Gives mode ⟨(Kind.only (ε := ε)).name, 0, x :: ys, s⟩ m
          ⟨(Kind.only (ε := ε)).name, 1, ys, s⟩ :=
        (takes_mode _ _ m).2 ⟨x, ys, _, rfl, hx, rfl, rfl⟩
      have hrun : Fails (runAll (Kind.only (ε := ε)).name (x :: ys) Kind.only.read) s err :=
        fails_runAll (fails_bind.2 (.inr ⟨m, _, hmode, fails_bind.2 (.inl (fails_elements hys))⟩))
      rw [← construct_kind honly] at hrun
      exact hrun
  | cache =>
      cases hxs
      exact hgroup (k := Kind.cache) (by simp [builtinKinds]) rfl rfl
  | once =>
      cases hxs
      exact hgroup (k := Kind.once) (by simp [builtinKinds]) rfl rfl

/-- **What an entry of a built-in kind is decoded to**: an operation that accepts its words, or a
group of the elements behind the words of the group. -/
theorem of_gives_construct (h : Gives (construct (.builtin budget) name xs) s e t) :
    (∃ op words, op.name = name ∧ op.Accepts words ∧ List.Forall₂ Argument.IsWord words xs ∧
      e = .step op ∧ s = t) ∨
    (∃ kind es ys zs, kind.name = name ∧ kind.announced? = none ∧ xs = ys ++ zs ∧
      List.Forall₂ Argument.IsWord kind.words ys ∧ Gives (decodeArguments zs) s es t ∧
      e = .group kind es) := by
  obtain ⟨kind, hmem, hname, hrun⟩ := gives_construct_iff_kind.1 h
  rcases mem_builtinKinds hmem with ⟨op, rfl⟩ | hmem
  · obtain ⟨ops, hread, -, hnames⟩ := op.readsSteps_kind (ε := ε)
    obtain ⟨words, hwords, ⟨op', hop, haccepts, rfl⟩, rfl⟩ := (Exhausts.runAll hread).1 hrun
    rw [op.name_kind] at hname
    exact .inl ⟨op', words, (hnames op' hop).trans hname, haccepts, hwords, rfl, rfl⟩
  · right
    simp only [List.mem_cons, List.not_mem_nil, or_false] at hmem
    rcases hmem with rfl | rfl | rfl | rfl
    · obtain ⟨es, hes, rfl⟩ := gives_runAll_grouping.1 hrun
      exact ⟨.anonymous, es, [], xs, hname, rfl, rfl, .nil, hes, rfl⟩
    · obtain ⟨m, x, rest, es, rfl, hx, hes, rfl⟩ := gives_runAll_only.1 hrun
      exact ⟨.only m, es, [x], rest, hname, rfl, rfl, .cons hx .nil, hes, rfl⟩
    · obtain ⟨es, hes, rfl⟩ := gives_runAll_grouping.1 hrun
      exact ⟨.cache, es, [], xs, hname, rfl, rfl, .nil, hes, rfl⟩
    · obtain ⟨es, hes, rfl⟩ := gives_runAll_grouping.1 hrun
      exact ⟨.once, es, [], xs, hname, rfl, rfl, .nil, hes, rfl⟩

end PhotoPipeline
