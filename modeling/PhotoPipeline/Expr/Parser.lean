/-
**Reading expressions.**

Expressions are read by precedence climbing.  A cursor stands at a place among the tokens.  The reader
takes an atom, and goes on with operators as long as they bind more tightly than a given bound; the
operand behind an operator is read the same way, with the precedence of the operator as the bound.  So an
operator that binds as tightly as the one before it ends the operand, and all operators associate to the
left.

Each reader moves the cursor on, and what it has read carries the proof of that.  Hence no reader meets
the same token twice at one bound, and reading ends.

Main definitions:

* `PhotoPipeline.Expr.Reading` — an expression and the place behind its tokens;
* `PhotoPipeline.Expr.readAtom`, `PhotoPipeline.Expr.climb`, `PhotoPipeline.Expr.climbOn` — the readers;
* `PhotoPipeline.Expr.ofTokens` — the expression of a list of tokens;
* `PhotoPipeline.Expr.parse` — the expression of a text.
-/
import PhotoPipeline.Expr.Token

set_option relaxedAutoImplicit false
set_option autoImplicit false

namespace PhotoPipeline

namespace Expr

/-- What a name stands for. -/
def ofName (name : Text) : Except ExprError Expr :=
  if name = "width".toList ∨ name = "w".toList then .ok (dimension .width)
  else if name = "height".toList ∨ name = "h".toList then .ok (dimension .height)
  else .error (.unknownName name)

/-! ### Places among tokens -/

/-- An expression that begins at a place among tokens, and the place behind it. -/
structure Reading (tokens : List ExprToken) (start : Nat) where
  expr : Expr
  stop : Nat
  start_lt_stop : start < stop
  stop_le_length : stop ≤ tokens.length

/-- The operator at a place, if there is one. -/
def peekOp? (tokens : List ExprToken) (place : Nat) : Option BinaryOp :=
  match tokens[place]? with
  | some (.op op) => some op
  | _ => none

/-- Whether a closing bracket stands at a place. -/
def closesAt (tokens : List ExprToken) (place : Nat) : Bool :=
  match tokens[place]? with
  | some .closeBracket => true
  | _ => false

theorem peekOp?_eq_some_iff {tokens : List ExprToken} {place : Nat} {op : BinaryOp} :
    peekOp? tokens place = some op ↔ tokens[place]? = some (.op op) := by
  rw [peekOp?]
  split
  · next found h => rw [h, Option.some.injEq, Option.some.injEq, ExprToken.op.injEq]
  · next hne => exact iff_of_false nofun (hne op)

theorem closesAt_iff {tokens : List ExprToken} {place : Nat} :
    closesAt tokens place = true ↔ tokens[place]? = some .closeBracket := by
  rw [closesAt]
  split
  · next h => exact iff_of_true rfl h
  · next hne => exact iff_of_false Bool.false_ne_true hne

theorem lt_length_of_peekOp? {tokens : List ExprToken} {place : Nat} {op : BinaryOp}
    (h : peekOp? tokens place = some op) : place < tokens.length :=
  (List.getElem?_eq_some_iff.1 (peekOp?_eq_some_iff.1 h)).1

theorem lt_length_of_closesAt {tokens : List ExprToken} {place : Nat}
    (h : closesAt tokens place = true) : place < tokens.length :=
  (List.getElem?_eq_some_iff.1 (closesAt_iff.1 h)).1

namespace Reading

variable {tokens : List ExprToken} {place : Nat}

/-- One token is an expression. -/
def single (h : place < tokens.length) (e : Expr) : Reading tokens place :=
  ⟨e, place + 1, Nat.lt_succ_self place, h⟩

/-- A minus sign in front of an expression. -/
def neg (r : Reading tokens (place + 1)) : Reading tokens place :=
  ⟨.neg r.expr, r.stop, Nat.lt_of_succ_lt r.start_lt_stop, r.stop_le_length⟩

/-- An expression in brackets. -/
def bracket (r : Reading tokens (place + 1)) (h : closesAt tokens r.stop = true) :
    Reading tokens place :=
  ⟨r.expr, r.stop + 1, Nat.lt_succ_of_lt (Nat.lt_of_succ_lt r.start_lt_stop),
    lt_length_of_closesAt h⟩

/-- Two expressions with an operator between them. -/
def join (lhs : Reading tokens place) (op : BinaryOp) (rhs : Reading tokens (lhs.stop + 1)) :
    Reading tokens place :=
  ⟨.binary op lhs.expr rhs.expr, rhs.stop,
    Nat.lt_trans lhs.start_lt_stop (Nat.lt_of_succ_lt rhs.start_lt_stop), rhs.stop_le_length⟩

/-- Fewer tokens are left behind a reading. -/
theorem left_lt (r : Reading tokens place) : tokens.length - r.stop < tokens.length - place := by
  have hlt := r.start_lt_stop
  have hle := r.stop_le_length
  omega

end Reading

/-! ### Readers -/

/-- Fewer tokens are left behind a token. -/
theorem left_succ_lt {tokens : List ExprToken} {place : Nat} (h : place < tokens.length) :
    tokens.length - (place + 1) < tokens.length - place :=
  Nat.sub_succ_lt_self _ _ h

mutual

/-- Reads an atom. -/
def readAtom (tokens : List ExprToken) (place : Nat) : Except ExprError (Reading tokens place) :=
  if h : place < tokens.length then
    match tokens[place] with
    | .number value => .ok (.single h (number value))
    | .name letters => (ofName letters).map (.single h)
    | .op op =>
      if op = .sub then (readAtom tokens (place + 1)).map .neg
      else .error (.unexpectedToken (ExprToken.op op).text)
    | .openBracket =>
      match climb tokens (place + 1) 0 with
      | .error e => .error e
      | .ok inner =>
        if hclose : closesAt tokens inner.stop then .ok (inner.bracket hclose)
        else .error .missingClose
    | .closeBracket => .error (.unexpectedToken ExprToken.closeBracket.text)
  else .error .endsEarly
termination_by (tokens.length - place, 0)
decreasing_by
  all_goals exact Prod.Lex.left _ _ (left_succ_lt h)

/-- Reads an atom and the operators behind it that bind more tightly than the bound. -/
def climb (tokens : List ExprToken) (place bound : Nat) :
    Except ExprError (Reading tokens place) :=
  match readAtom tokens place with
  | .error e => .error e
  | .ok lhs => climbOn lhs bound
termination_by (tokens.length - place, 1)
decreasing_by
  · exact Prod.Lex.right _ Nat.zero_lt_one
  · exact Prod.Lex.left _ _ lhs.left_lt

/-- Goes on behind an expression with operators that bind more tightly than the bound. -/
def climbOn {tokens : List ExprToken} {place : Nat} (lhs : Reading tokens place) (bound : Nat) :
    Except ExprError (Reading tokens place) :=
  match _hop : peekOp? tokens lhs.stop with
  | none => .ok lhs
  | some op =>
    if op.precedence ≤ bound then .ok lhs
    else
      match climb tokens (lhs.stop + 1) op.precedence with
      | .error e => .error e
      | .ok rhs => climbOn (lhs.join op rhs) bound
termination_by (tokens.length - lhs.stop, 2)
decreasing_by
  · exact Prod.Lex.left _ _ (left_succ_lt (lt_length_of_peekOp? _hop))
  · exact Prod.Lex.left _ _ (Nat.lt_trans rhs.left_lt (left_succ_lt (lt_length_of_peekOp? _hop)))

end

/-- The expression of a list of tokens, all of which must be used. -/
def ofTokens (ts : List ExprToken) : Except ExprError Expr :=
  match climb ts 0 0 with
  | .error e => .error e
  | .ok r =>
    match ts[r.stop]? with
    | none => .ok r.expr
    | some t => .error (.unexpectedToken t.text)

/-- The expression of a text. -/
def parse (t : Text) : Except ExprError Expr :=
  match ExprToken.ofText t with
  | .error e => .error e
  | .ok ts =>
    if ts.length = 0 then .error .noTokens
    else if maxTokens < ts.length then .error .tooManyTokens
    else ofTokens ts

end Expr

end PhotoPipeline
