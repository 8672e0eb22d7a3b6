/-
**Derivation trees of expressions.**

The grammar of expressions has three layers, and trees for each of them:

    sum     := sum (+ | -) product | product
    product := product (* | / | %) atom | atom
    atom    := number | width | w | height | h | - atom | ( sum )

Sums and products are built alike, from operands of the layer below and operators that belong to the
layer, so one pair of constructors serves both.

The grammar is unambiguous.  It recurses on the left, so of two sums that are read off the same tokens
neither need be the other: one of them may stop earlier.  But then the shorter one stands at the left end
of the longer one.  Where the tokens do not go on with an operator, neither can be longer.

Main definitions:

* `PhotoPipeline.Expr.Derivation` — derivation trees;
* `PhotoPipeline.Expr.Derivation.tokens` — the tokens that a tree derives;
* `PhotoPipeline.Expr.Derivation.expr` — the expression that a tree stands for;
* `PhotoPipeline.Expr.Derivation.Begins` — a tree stands at the left end of another one.

Main results:

* `PhotoPipeline.Expr.Derivation.begins_or_begins` — two trees read off the same tokens;
* `PhotoPipeline.Expr.Derivation.tokens_injective` — **the grammar is unambiguous**.
-/
import PhotoPipeline.Expr.Token

set_option relaxedAutoImplicit false
set_option autoImplicit false

namespace PhotoPipeline

/-! ### Layers -/

/-- The layers of the grammar. -/
inductive Expr.Layer where
  | sum
  | product
  | atom

/-- The layer to which an operator belongs. -/
def BinaryOp.layer : BinaryOp → Expr.Layer
  | add | sub => .sum
  | mul | div | rem => .product

/-- The names of a dimension. -/
def Dimension.names : Dimension → List Text
  | width => ["width".toList, "w".toList]
  | height => ["height".toList, "h".toList]

theorem Dimension.eq_of_mem_names {d d' : Dimension} {letters : Text} (h : letters ∈ d.names)
    (h' : letters ∈ d'.names) : d = d' := by
  have hne : ∀ letters ∈ names .width, letters ∉ names .height := by decide
  cases d with
  | width =>
      cases d' with
      | width => rfl
      | height => exact absurd h' (hne letters h)
  | height =>
      cases d' with
      | width => exact absurd h (hne letters h')
      | height => rfl

namespace Expr

/-- The layer of the operands of a layer. -/
def Layer.operand : Layer → Layer
  | sum => product
  | product | atom => atom

/-- How tightly the operators of a layer bind. -/
def Layer.rank : Layer → Nat
  | sum => 0
  | product => 1
  | atom => 2

theorem Layer.rank_operand {l : Layer} (h : l ≠ .atom) : l.operand.rank = l.rank + 1 := by
  cases l with
  | sum | product => rfl
  | atom => exact absurd rfl h

theorem Layer.rank_le_two (l : Layer) : l.rank ≤ 2 := by
  cases l <;> decide

theorem Layer.rank_le_operand (l : Layer) : l.rank ≤ l.operand.rank := by
  cases l <;> decide

theorem Layer.rank_operand_le_succ (l : Layer) : l.operand.rank ≤ l.rank + 1 := by
  cases l <;> decide

theorem layer_ne_atom (op : BinaryOp) : op.layer ≠ .atom := by
  cases op <;> exact Layer.noConfusion

theorem rank_layer_lt_operand (op : BinaryOp) : op.layer.rank < op.layer.operand.rank := by
  rw [Layer.rank_operand (layer_ne_atom op)]
  exact Nat.lt_succ_self _

theorem rank_layer_lt_atom (op : BinaryOp) : op.layer.rank < Layer.atom.rank := by
  cases op <;> decide

/-- The tokens do not go on with a part of the given layer: no operator comes next that binds as
tightly. -/
def Stops (l : Layer) : List ExprToken → Prop
  | .op op :: _ => op.layer.rank < l.rank
  | _ => True

theorem Stops.operand {l : Layer} {ts : List ExprToken} (h : Stops l ts) : Stops l.operand ts := by
  cases ts with
  | nil => trivial
  | cons t ts =>
      cases t with
      | op op => exact Nat.lt_of_lt_of_le h l.rank_le_operand
      | _ => trivial

theorem stops_atom (ts : List ExprToken) : Stops .atom ts := by
  cases ts with
  | nil => trivial
  | cons t ts =>
      cases t with
      | op op => exact rank_layer_lt_atom op
      | _ => trivial

theorem stops_op (op : BinaryOp) (ts : List ExprToken) : Stops op.layer.operand (.op op :: ts) :=
  rank_layer_lt_operand op

/-! ### Trees -/

/-- The derivation trees of the layers of the grammar. -/
inductive Derivation : Layer → Type where
  | number (value : Float) : Derivation .atom
  | dimension (d : Dimension) (letters : Text) (h : letters ∈ d.names) : Derivation .atom
  | neg (d : Derivation .atom) : Derivation .atom
  | bracket (d : Derivation .sum) : Derivation .atom
  | single {l : Layer} (h : l ≠ .atom) (d : Derivation l.operand) : Derivation l
  | join {l : Layer} (lhs : Derivation l) (op : BinaryOp) (h : op.layer = l)
      (rhs : Derivation l.operand) : Derivation l

namespace Derivation

/-- The tokens that a tree derives. -/
def tokens : {l : Layer} → Derivation l → List ExprToken
  | _, number value => [.number value]
  | _, dimension _ letters _ => [.name letters]
  | _, neg d => .op .sub :: d.tokens
  | _, bracket d => .openBracket :: (d.tokens ++ [.closeBracket])
  | _, single _ d => d.tokens
  | _, join lhs op _ rhs => lhs.tokens ++ .op op :: rhs.tokens

/-- The expression that a tree stands for; brackets leave no trace. -/
def expr : {l : Layer} → Derivation l → Expr
  | _, number value => .number value
  | _, dimension d _ _ => .dimension d
  | _, neg d => .neg d.expr
  | _, bracket d => d.expr
  | _, single _ d => d.expr
  | _, join lhs op _ rhs => .binary op lhs.expr rhs.expr

/-! ### Trees at the left end -/

variable {l : Layer} {d e : Derivation l} {rest rest' : List ExprToken}

/-- The first tree stands at the left end of the second one, which joins operands to it. -/
inductive Begins (d : Derivation l) : Derivation l → Prop where
  | refl : Begins d d
  | join {e : Derivation l} (op : BinaryOp) (h : op.layer = l) (rhs : Derivation l.operand)
      (he : Begins d e) : Begins d (e.join op h rhs)

/-- The left end is the whole tree, or an operand is joined to it. -/
theorem Begins.eq_or_join (h : Begins d e) :
    e = d ∨ ∃ (op : BinaryOp) (hop : op.layer = l) (rhs : Derivation l.operand),
      Begins (d.join op hop rhs) e := by
  induction h with
  | refl => exact .inl rfl
  | join op hop rhs _ ih =>
      obtain rfl | ⟨op', hop', rhs', h⟩ := ih
      · exact .inr ⟨op, hop, rhs, .refl⟩
      · exact .inr ⟨op', hop', rhs', h.join op hop rhs⟩

/-- The left end is the whole tree, or an operator of the layer comes after its tokens. -/
theorem Begins.eq_or_tokens (h : Begins d e) :
    e = d ∨ ∃ (op : BinaryOp) (ts : List ExprToken),
      op.layer = l ∧ e.tokens = d.tokens ++ .op op :: ts := by
  induction h with
  | refl => exact .inl rfl
  | join op hop rhs _ ih =>
      obtain rfl | ⟨op', ts, hop', h⟩ := ih
      · exact .inr ⟨op, rhs.tokens, hop, rfl⟩
      · refine .inr ⟨op', ts ++ .op op :: rhs.tokens, hop', ?_⟩
        rw [tokens, h, List.append_assoc, List.cons_append]

/-- What comes after the tokens of the left end does not go on with an operand. -/
theorem Begins.exists_more (h : Begins d e) (hrest : Stops l.operand rest) :
    ∃ more, e.tokens ++ rest = d.tokens ++ more ∧ Stops l.operand more := by
  obtain rfl | ⟨op, ts, rfl, htokens⟩ := h.eq_or_tokens
  · exact ⟨rest, rfl, hrest⟩
  · refine ⟨.op op :: (ts ++ rest), ?_, stops_op op _⟩
    rw [htokens, List.append_assoc, List.cons_append]

theorem Begins.eq_of_stops (h : Begins d e) (htokens : d.tokens ++ rest = e.tokens ++ rest')
    (hrest : Stops l rest) : d = e := by
  obtain rfl | ⟨op, ts, rfl, he⟩ := h.eq_or_tokens
  · rfl
  · rw [he, List.append_assoc, List.append_cancel_left_eq] at htokens
    rw [htokens] at hrest
    exact absurd hrest (Nat.lt_irrefl _)

/-- Of two trees one of which stands at the left end of the other, neither is longer where the tokens
stop. -/
theorem eq_of_stops (h : Begins d e ∨ Begins e d) (htokens : d.tokens ++ rest = e.tokens ++ rest')
    (hrest : Stops l rest) (hrest' : Stops l rest') : d = e := by
  obtain h | h := h
  · exact h.eq_of_stops htokens hrest
  · exact (h.eq_of_stops htokens.symm hrest').symm

theorem exists_single_begins (h : l ≠ .atom) (e : Derivation l) :
    ∃ d, Begins (single h d) e := by
  induction e with
  | number | dimension | neg | bracket => exact absurd rfl h
  | single _ d => exact ⟨d, .refl⟩
  | join lhs op hop rhs ihl =>
      obtain ⟨d, hd⟩ := ihl h
      exact ⟨d, hd.join op hop rhs⟩

/-! ### Unambiguity -/

/-- **Two trees read off the same tokens**: one of them stands at the left end of the other. -/
theorem begins_or_begins (d e : Derivation l) (htokens : d.tokens ++ rest = e.tokens ++ rest')
    (hrest : Stops l.operand rest) (hrest' : Stops l.operand rest') :
    Begins d e ∨ Begins e d := by
  induction d generalizing rest rest' with
  | number value =>
      cases e with
      | number =>
          cases htokens
          exact .inl .refl
      | single h => exact absurd rfl h
      | join _ op h => exact absurd h (layer_ne_atom op)
      | _ => cases htokens
  | dimension d letters h =>
      cases e with
      | dimension d' letters' h' =>
          cases htokens
          obtain rfl := Dimension.eq_of_mem_names h h'
          exact .inl .refl
      | single h => exact absurd rfl h
      | join _ op h => exact absurd h (layer_ne_atom op)
      | _ => cases htokens
  | neg d ih =>
      cases e with
      | neg e =>
          have hsub : d.tokens ++ rest = e.tokens ++ rest' := List.tail_eq_of_cons_eq htokens
          obtain rfl := eq_of_stops (ih e hsub hrest hrest') hsub hrest hrest'
          exact .inl .refl
      | single h => exact absurd rfl h
      | join _ op h => exact absurd h (layer_ne_atom op)
      | _ => cases htokens
  | bracket d ih =>
      cases e with
      | bracket e =>
          have hsub : d.tokens ++ .closeBracket :: rest = e.tokens ++ .closeBracket :: rest' := by
            simpa [tokens] using htokens
          obtain rfl := eq_of_stops (ih e hsub trivial trivial) hsub trivial trivial
          exact .inl .refl
      | single h => exact absurd rfl h
      | join _ op h => exact absurd h (layer_ne_atom op)
      | _ => cases htokens
  | @single l h d ih =>
      -- every tree of the layer begins with an operand
      obtain ⟨e₀, he⟩ := exists_single_begins h e
      obtain ⟨more, hmore, hstops⟩ := he.exists_more hrest'
      rw [hmore] at htokens
      obtain rfl := eq_of_stops (ih e₀ htokens hrest.operand hstops.operand) htokens hrest hstops
      exact .inl he
  | join lhs op hop rhs ihl ihr =>
      -- `e` ends with `lhs` at the latest, or goes on with an operand, which can only be `rhs`
      rw [tokens, List.append_assoc, List.cons_append] at htokens
      have hop' : Stops _ (.op op :: (rhs.tokens ++ rest)) := stops_op op _
      rw [hop] at hop'
      obtain h | h := ihl e htokens hop' hrest'
      · obtain rfl | ⟨op', hop', rhs', h⟩ := h.eq_or_join
        · exact .inr (.join op hop rhs .refl)
        · obtain ⟨more, hmore, hstops⟩ := h.exists_more hrest'
          rw [hmore, tokens, List.append_assoc, List.cons_append, List.append_cancel_left_eq,
            List.cons.injEq, ExprToken.op.injEq] at htokens
          obtain ⟨rfl, hsub⟩ := htokens
          obtain rfl := eq_of_stops (ihr rhs' hsub hrest.operand hstops.operand) hsub hrest hstops
          exact .inl h
      · exact .inr (h.join op hop rhs)

/-- **The grammar is unambiguous**: no two trees derive the same tokens. -/
theorem tokens_injective : Function.Injective (tokens : Derivation l → List ExprToken) := by
  intro d e h
  have htokens : d.tokens ++ [] = e.tokens ++ [] := by rw [h]
  exact eq_of_stops (begins_or_begins d e htokens trivial trivial) htokens trivial trivial

end Derivation

end Expr

end PhotoPipeline
