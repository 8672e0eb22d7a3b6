/-
**Expressions follow their grammar.**

A text is an expression exactly when it is cut into tokens, at least one and not too many, that a sum
derives, and then it is the expression of the derivation.

The grammar has layers and the reader has a bound, but the bound is the layer: climbing with the rank of a
layer as the bound reads a part of that layer.  On the way, what has been read is a part of a layer at
least as tight, and the operator that comes next binds no more tightly than that layer.  So the operator
ends the reading, or joins an operand to what has been read, which is a part of its own layer then.  The
other way round, a reader that meets the tokens of a derivation goes on behind them with the expression of
the derivation.

Main definitions:

* `PhotoPipeline.Expr.Derives` — what has been read is derived by a layer.

Main results:

* `PhotoPipeline.Expr.derives_of_climb` — **what is read is derived**;
* `PhotoPipeline.Expr.climb_tokens` — **what is derived is read**;
* `PhotoPipeline.Expr.parse_by_grammar` — **the language of expressions**.
-/
import PhotoPipeline.Expr.Parser
import PhotoPipeline.Proofs.Expr.Derivation
import PhotoPipeline.Proofs.Expr.Token

set_option relaxedAutoImplicit false
set_option autoImplicit false

namespace PhotoPipeline

/-- An operator binds one more tightly than its layer. -/
theorem BinaryOp.precedence_eq (op : BinaryOp) : op.precedence = op.layer.operand.rank := by
  cases op <;> rfl

theorem BinaryOp.precedence_le_iff {op : BinaryOp} {n : Nat} :
    op.precedence ≤ n ↔ op.layer.rank < n := by
  rw [op.precedence_eq, Expr.Layer.rank_operand (Expr.layer_ne_atom op)]
  exact Iff.rfl

namespace Expr

theorem ofName_eq_ok_iff {letters : Text} {e : Expr} :
    ofName letters = .ok e ↔ ∃ d : Dimension, letters ∈ d.names ∧ .dimension d = e := by
  have hwidth : letters ∈ Dimension.width.names ↔ letters = "width".toList ∨ letters = "w".toList :=
    by simp [Dimension.names]
  have hheight :
      letters ∈ Dimension.height.names ↔ letters = "height".toList ∨ letters = "h".toList := by
    simp [Dimension.names]
  simp only [ofName, ← hwidth, ← hheight]
  constructor
  · intro h
    split at h
    · next hd => exact ⟨.width, hd, Except.ok.inj h⟩
    · split at h
      · next hd => exact ⟨.height, hd, Except.ok.inj h⟩
      · cases h
  · rintro ⟨d, hd, rfl⟩
    split
    · next hd' => rw [Dimension.eq_of_mem_names hd hd']
    · cases d with
      | width => contradiction
      | height => rw [if_pos hd]

variable {l k : Layer} {tokens rest : List ExprToken} {place bound : Nat} {e : Expr} {op : BinaryOp}

/-! ### Places and what stands behind them -/

theorem drop_eq_cons {t : ExprToken} (h : tokens[place]? = some t) :
    tokens.drop place = t :: tokens.drop (place + 1) := by
  obtain ⟨hlt, rfl⟩ := List.getElem?_eq_some_iff.1 h
  exact List.drop_eq_getElem_cons hlt

theorem drop_succ_of_drop {t : ExprToken} (h : tokens.drop place = t :: rest) :
    tokens[place]? = some t ∧ tokens.drop (place + 1) = rest := by
  constructor
  · rw [← List.head?_drop, h, List.head?_cons]
  · rw [← List.tail_drop, h, List.tail_cons]

/-- A reader stops where no operator comes next, or one that does not bind more tightly. -/
theorem stops_drop_iff :
    Stops l (tokens.drop place) ↔ ∀ op, peekOp? tokens place = some op → op.precedence ≤ l.rank := by
  simp only [peekOp?_eq_some_iff, BinaryOp.precedence_le_iff]
  constructor
  · intro h op hop
    rw [drop_eq_cons hop] at h
    exact h
  · intro h
    cases hdrop : tokens.drop place with
    | nil => trivial
    | cons t ts =>
        cases t with
        | op op => exact h op (drop_succ_of_drop hdrop).1
        | _ => trivial

/-- A reader stops, or an operator comes next that binds more tightly. -/
theorem stops_or_op (l : Layer) (tokens : List ExprToken) (place : Nat) :
    Stops l (tokens.drop place) ∨
      ∃ op, peekOp? tokens place = some op ∧ ¬op.precedence ≤ l.rank := by
  by_cases h : ∃ op, peekOp? tokens place = some op ∧ ¬op.precedence ≤ l.rank
  · exact .inr h
  · exact .inl (stops_drop_iff.2 fun op hop => Decidable.byContradiction fun hle => h ⟨op, hop, hle⟩)

theorem climbOn_of_stops {lhs : Reading tokens place} (h : Stops l (tokens.drop lhs.stop)) :
    climbOn lhs l.rank = .ok lhs := by
  rw [climbOn]
  split
  · rfl
  · next op hop => rw [if_pos (stops_drop_iff.1 h op hop)]

/-- With an operator that binds more tightly than the bound, a reader goes on with another operand. -/
theorem climbOn_op {lhs : Reading tokens place} (hop : peekOp? tokens lhs.stop = some op)
    (hbound : ¬op.precedence ≤ bound) : climbOn lhs bound =
      (climb tokens (lhs.stop + 1) op.precedence).bind fun rhs => climbOn (lhs.join op rhs) bound := by
  rw [climbOn]
  split
  · next hnone => rw [hnone] at hop; cases hop
  · next found hfound =>
      obtain rfl : found = op := Option.some.inj (hfound.symm.trans hop)
      rw [if_neg hbound]
      cases climb tokens (lhs.stop + 1) found.precedence <;> rfl

theorem climb_eq_bind :
    climb tokens place bound = (readAtom tokens place).bind fun lhs => climbOn lhs bound := by
  rw [climb]
  cases readAtom tokens place <;> rfl

/-- Nothing binds more tightly than the operators of products. -/
theorem climb_atom : climb tokens place Layer.atom.rank = readAtom tokens place := by
  rw [climb_eq_bind]
  cases readAtom tokens place with
  | error => rfl
  | ok lhs => exact climbOn_of_stops (stops_atom _)

/-! ### What is read is derived -/

/-- A part of the given layer derives the expression that has been read, from its tokens. -/
def Derives (l : Layer) (r : Reading tokens place) : Prop :=
  ∃ d : Derivation l, d.expr = r.expr ∧ d.tokens ++ tokens.drop r.stop = tokens.drop place

/-- A part of a layer is one of any layer that binds less tightly. -/
theorem Derives.mono {r : Reading tokens place} (h : Derives k r) (hle : l.rank ≤ k.rank) :
    Derives l r := by
  obtain ⟨d, hexpr, htokens⟩ := h
  cases l with
  | sum =>
      cases k with
      | sum => exact ⟨d, hexpr, htokens⟩
      | product => exact ⟨.single Layer.noConfusion d, hexpr, htokens⟩
      | atom =>
          exact ⟨.single Layer.noConfusion (.single (l := .product) Layer.noConfusion d), hexpr,
            htokens⟩
  | product =>
      cases k with
      | sum => cases hle
      | product => exact ⟨d, hexpr, htokens⟩
      | atom => exact ⟨.single Layer.noConfusion d, hexpr, htokens⟩
  | atom =>
      cases k with
      | atom => exact ⟨d, hexpr, htokens⟩
      | sum | product => exact absurd hle (by decide)

theorem Derives.join {lhs : Reading tokens place} {rhs : Reading tokens (lhs.stop + 1)}
    (hlhs : Derives op.layer lhs) (hop : peekOp? tokens lhs.stop = some op)
    (hrhs : Derives op.layer.operand rhs) : Derives op.layer (lhs.join op rhs) := by
  obtain ⟨d, hd, hdtokens⟩ := hlhs
  obtain ⟨e, he, hetokens⟩ := hrhs
  refine ⟨d.join op rfl e, ?_, ?_⟩
  · show Expr.binary op d.expr e.expr = .binary op lhs.expr rhs.expr
    rw [hd, he]
  · show d.tokens ++ .op op :: e.tokens ++ tokens.drop rhs.stop = tokens.drop place
    rw [List.append_assoc, List.cons_append, hetokens, ← drop_eq_cons (peekOp?_eq_some_iff.1 hop),
      hdtokens]

theorem eq_ok_of_bind {α β : Type} {f : α → Except ExprError β} {x : Except ExprError α} {b : β}
    (h : x.bind f = .ok b) : ∃ a, x = .ok a ∧ f a = .ok b := by
  cases x with
  | error => cases h
  | ok a => exact ⟨a, rfl, h⟩

theorem eq_ok_of_map {α β : Type} {f : α → β} {x : Except ExprError α} {b : β}
    (h : x.map f = .ok b) : ∃ a, x = .ok a ∧ f a = b := by
  cases x with
  | error => cases h
  | ok a => exact ⟨a, rfl, Except.ok.inj h⟩

-- the recursion is that of the readers; what is read so far is a part of some layer `k`, within which
-- an operator may come next that binds as tightly as those of the layer
mutual

/-- What is read as an atom is derived. -/
theorem derives_of_readAtom {place : Nat} {r : Reading tokens place}
    (h : readAtom tokens place = .ok r) : Derives .atom r := by
  rw [readAtom] at h
  split at h
  · next hlt =>
      have hcons := List.drop_eq_getElem_cons hlt
      split at h
      · next value htoken =>
          cases h
          rw [htoken] at hcons
          exact ⟨.number value, rfl, hcons.symm⟩
      · next letters htoken =>
          obtain ⟨e, hname, rfl⟩ := eq_ok_of_map h
          obtain ⟨d, hd, rfl⟩ := ofName_eq_ok_iff.1 hname
          rw [htoken] at hcons
          exact ⟨.dimension d letters hd, rfl, hcons.symm⟩
      · next op htoken =>
          split at h
          · next hop =>
              subst hop
              obtain ⟨inner, hinner, rfl⟩ := eq_ok_of_map h
              obtain ⟨d, hexpr, htokens⟩ := derives_of_readAtom hinner
              rw [htoken, ← htokens] at hcons
              exact ⟨.neg d, congrArg Expr.neg hexpr, hcons.symm⟩
          · cases h
      · next htoken =>
          split at h
          · cases h
          · next inner hinner =>
              split at h
              · next hclose =>
                  cases h
                  obtain ⟨⟨d, hexpr, htokens⟩, -⟩ := derives_of_climb (l := .sum) hinner
                  rw [drop_eq_cons (closesAt_iff.1 hclose)] at htokens
                  rw [htoken, ← htokens] at hcons
                  refine ⟨.bracket d, hexpr, ?_⟩
                  rw [hcons, Derivation.tokens, List.cons_append, List.append_assoc]
                  rfl
              · cases h
      · cases h
  · cases h
termination_by (tokens.length - place, 0)
decreasing_by
  all_goals exact Prod.Lex.left _ _ (left_succ_lt (by assumption))

/-- **What is read is derived**, and behind it no operator comes that binds as tightly. -/
theorem derives_of_climb {place : Nat} {l : Layer} {r : Reading tokens place}
    (h : climb tokens place l.rank = .ok r) : Derives l r ∧ Stops l (tokens.drop r.stop) := by
  rw [climb_eq_bind] at h
  obtain ⟨lhs, hatom, hgo⟩ := eq_ok_of_bind h
  exact derives_of_climbOn (derives_of_readAtom hatom) l.rank_le_two (stops_atom _) hgo
termination_by (tokens.length - place, 1)
decreasing_by
  · exact Prod.Lex.right _ Nat.zero_lt_one
  · exact Prod.Lex.left _ _ lhs.left_lt

/-- Going on, a reader carries the derivation of what it has read so far. -/
theorem derives_of_climbOn {place : Nat} {l k : Layer} {lhs r : Reading tokens place}
    (hlhs : Derives k lhs) (hle : l.rank ≤ k.rank) (hnext : Stops k.operand (tokens.drop lhs.stop))
    (h : climbOn lhs l.rank = .ok r) : Derives l r ∧ Stops l (tokens.drop r.stop) := by
  obtain hstops | ⟨op, hop, hbound⟩ := stops_or_op l tokens lhs.stop
  · rw [climbOn_of_stops hstops] at h
    cases h
    exact ⟨hlhs.mono hle, hstops⟩
  · rw [climbOn_op hop hbound] at h
    obtain ⟨rhs, hrhs, hgo⟩ := eq_ok_of_bind h
    rw [op.precedence_eq] at hrhs
    obtain ⟨hderives, hrest⟩ := derives_of_climb hrhs
    have hlayer : op.layer.rank ≤ k.rank := by
      have hlt := BinaryOp.precedence_le_iff.1 (stops_drop_iff.1 hnext op hop)
      exact Nat.le_of_lt_succ (Nat.lt_of_lt_of_le hlt k.rank_operand_le_succ)
    have hl : l.rank ≤ op.layer.rank := Nat.le_of_not_lt fun hlt =>
      hbound (BinaryOp.precedence_le_iff.2 hlt)
    exact derives_of_climbOn ((hlhs.mono hlayer).join hop hderives) hl hrest hgo
termination_by (tokens.length - lhs.stop, 2)
decreasing_by
  · exact Prod.Lex.left _ _ (left_succ_lt (lt_length_of_peekOp? hop))
  · exact Prod.Lex.left _ _ (Nat.lt_trans rhs.left_lt (left_succ_lt (lt_length_of_peekOp? hop)))

end

/-! ### What is derived is read -/

/-- The tokens at the place are read as the expression, and the rest comes behind them. -/
def Reads (tokens : List ExprToken) (place bound : Nat) (e : Expr) (rest : List ExprToken) : Prop :=
  ∃ r : Reading tokens place, climb tokens place bound = climbOn r bound ∧ r.expr = e ∧
    tokens.drop r.stop = rest

theorem Reads.of_readAtom {r : Reading tokens place} (h : readAtom tokens place = .ok r) :
    Reads tokens place bound r.expr (tokens.drop r.stop) := by
  refine ⟨r, ?_, rfl, rfl⟩
  rw [climb_eq_bind, h]
  rfl

/-- Where no operator comes next that binds as tightly, the reader is done. -/
theorem Reads.exists_climb (h : Reads tokens place l.rank e rest) (hrest : Stops l rest) :
    ∃ r, climb tokens place l.rank = .ok r ∧ r.expr = e ∧ tokens.drop r.stop = rest := by
  obtain ⟨r, hread, rfl, rfl⟩ := h
  exact ⟨r, hread.trans (climbOn_of_stops hrest), rfl, rfl⟩

/-- **What is derived is read**: a reader whose bound is no tighter comes to the end of the tokens of a
derivation, and goes on behind them. -/
theorem climb_tokens (d : Derivation k) (htokens : d.tokens ++ rest = tokens.drop place)
    (hle : l.rank ≤ k.rank) (hrest : Stops k.operand rest) :
    Reads tokens place l.rank d.expr rest := by
  induction d generalizing place rest l with
  | number value =>
      obtain ⟨htoken, rfl⟩ := drop_succ_of_drop htokens.symm
      obtain ⟨hlt, htoken⟩ := List.getElem?_eq_some_iff.1 htoken
      have hread : readAtom tokens place = .ok (.single hlt (.number value)) := by
        rw [readAtom, dif_pos hlt, htoken]
      exact .of_readAtom hread
  | dimension d letters h =>
      obtain ⟨htoken, rfl⟩ := drop_succ_of_drop htokens.symm
      obtain ⟨hlt, htoken⟩ := List.getElem?_eq_some_iff.1 htoken
      have hread : readAtom tokens place = .ok (.single hlt (.dimension d)) := by
        rw [readAtom, dif_pos hlt, htoken]
        show (ofName letters).map _ = _
        rw [ofName_eq_ok_iff.2 ⟨d, h, rfl⟩]
        rfl
      exact .of_readAtom hread
  | neg d ih =>
      obtain ⟨htoken, hdrop⟩ := drop_succ_of_drop htokens.symm
      obtain ⟨hlt, htoken⟩ := List.getElem?_eq_some_iff.1 htoken
      obtain ⟨inner, hinner, hexpr, rfl⟩ :=
        (ih hdrop.symm (Nat.le_refl _) hrest).exists_climb (stops_atom rest)
      have hread : readAtom tokens place = .ok inner.neg := by
        rw [readAtom, dif_pos hlt, htoken]
        show (if BinaryOp.sub = .sub then _ else _) = _
        rw [if_pos rfl, ← climb_atom, hinner]
        rfl
      rw [Derivation.expr, ← hexpr]
      exact .of_readAtom hread
  | bracket d ih =>
      rw [Derivation.tokens, List.cons_append, List.append_assoc] at htokens
      obtain ⟨htoken, hdrop⟩ := drop_succ_of_drop htokens.symm
      obtain ⟨hlt, htoken⟩ := List.getElem?_eq_some_iff.1 htoken
      have hclose : Stops .sum (.closeBracket :: rest) := trivial
      obtain ⟨inner, hinner, hexpr, hbehind⟩ :=
        (ih (l := .sum) hdrop.symm (Nat.le_refl _) hclose.operand).exists_climb hclose
      obtain ⟨hcloses, rfl⟩ := drop_succ_of_drop hbehind
      have hcloses := closesAt_iff.2 hcloses
      have hinner : climb tokens (place + 1) 0 = .ok inner := hinner
      have hread : readAtom tokens place = .ok (inner.bracket hcloses) := by
        rw [readAtom, dif_pos hlt, htoken]
        dsimp only
        rw [hinner]
        exact dif_pos hcloses
      rw [Derivation.expr, ← hexpr]
      exact .of_readAtom hread
  | @single k _ d ih => exact ih htokens (Nat.le_trans hle k.rank_le_operand) hrest.operand
  | join lhs op hop rhs ihl ihr =>
      subst hop
      rw [Derivation.tokens, List.append_assoc, List.cons_append] at htokens
      obtain ⟨r, hread, hexpr, hbehind⟩ := ihl htokens hle (stops_op op _)
      obtain ⟨hnext, hdrop⟩ := drop_succ_of_drop hbehind
      obtain ⟨s, hs, hsexpr, rfl⟩ :=
        (ihr hdrop.symm (Nat.le_refl _) hrest.operand).exists_climb hrest
      have hbound : ¬op.precedence ≤ l.rank := fun h =>
        absurd (BinaryOp.precedence_le_iff.1 h) (Nat.not_lt.2 hle)
      refine ⟨r.join op s, ?_, ?_, rfl⟩
      · rw [hread, climbOn_op (peekOp?_eq_some_iff.2 hnext) hbound, op.precedence_eq, hs]
        rfl
      · rw [Derivation.expr, ← hexpr, ← hsexpr]
        rfl

/-! ### Expressions -/

theorem ofTokens_eq_ok_iff {ts : List ExprToken} :
    ofTokens ts = .ok e ↔ ∃ d : Derivation .sum, d.tokens = ts ∧ d.expr = e := by
  constructor
  · intro h
    rw [ofTokens] at h
    split at h
    · cases h
    · next r hread =>
        split at h
        · next hend =>
            cases h
            obtain ⟨⟨d, hexpr, htokens⟩, -⟩ := derives_of_climb (l := .sum) hread
            rw [List.drop_eq_nil_of_le (List.getElem?_eq_none_iff.1 hend), List.append_nil,
              List.drop_zero] at htokens
            exact ⟨d, htokens, hexpr⟩
        · cases h
  · rintro ⟨d, rfl, rfl⟩
    have hnil : Stops .sum [] := trivial
    have hreads : Reads d.tokens 0 Layer.sum.rank d.expr [] :=
      climb_tokens d (List.append_nil _) (Nat.le_refl _) hnil.operand
    obtain ⟨r, hread, hexpr, hbehind⟩ := hreads.exists_climb hnil
    have hread : climb d.tokens 0 0 = .ok r := hread
    have hend : d.tokens[r.stop]? = none := by
      rw [← List.head?_drop, hbehind, List.head?_nil]
    rw [ofTokens, hread]
    dsimp only
    rw [hend, hexpr]

/-- A text is parsed to what its tokens derive, if there are some and not too many. -/
theorem parse_eq_ok_iff {t : Text} : parse t = .ok e ↔
    ∃ ts, ExprToken.Cut t ts ∧ 1 ≤ ts.length ∧ ts.length ≤ 256 ∧
      ∃ d : Derivation .sum, d.tokens = ts ∧ d.expr = e := by
  rw [parse]
  constructor
  · intro h
    split at h
    · cases h
    · next ts htokens =>
        split at h
        · cases h
        · next hempty =>
            split at h
            · cases h
            · next hmany =>
                exact ⟨ts, ExprToken.cut_iff.2 htokens, Nat.one_le_iff_ne_zero.2 hempty,
                  Nat.le_of_not_lt hmany, ofTokens_eq_ok_iff.1 h⟩
  · rintro ⟨ts, hcut, hempty, hmany, hd⟩
    rw [ExprToken.cut_iff.1 hcut]
    show (if ts.length = 0 then _ else if maxTokens < ts.length then _ else ofTokens ts) = _
    have hmax : ¬maxTokens < ts.length := Nat.not_lt.2 hmany
    rw [if_neg (Nat.one_le_iff_ne_zero.1 hempty), if_neg hmax]
    exact ofTokens_eq_ok_iff.2 hd

/-- **The language of expressions.**  A text is parsed to an expression exactly when it is cut into at
least one and at most 256 tokens that a sum derives, and the derivation stands for the expression; and no
tokens have two derivations.  So the operators associate to the left, `*`, `/` and `%` bind tighter than
`+` and `-`, and a minus sign in front of an atom binds tightest. -/
theorem parse_by_grammar :
    (∀ (t : Text) (e : Expr), parse t = .ok e ↔
      ∃ ts, ExprToken.Cut t ts ∧ 1 ≤ ts.length ∧ ts.length ≤ 256 ∧
        ∃ d : Derivation .sum, d.tokens = ts ∧ d.expr = e) ∧
      Function.Injective (Derivation.tokens : Derivation .sum → List ExprToken) :=
  ⟨fun _ _ => parse_eq_ok_iff, Derivation.tokens_injective⟩

end Expr

end PhotoPipeline
