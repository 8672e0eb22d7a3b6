/-
**Brackets and the forest between them.**

Once its words are known, a script is a row of tokens: words, and brackets, of which an opening one
has a head.  The row is a forest written out if its brackets match; how many may be open at once is
limited.  This module has the forest that tokens build up, one token after the other, and says when
there is one and how it is written out: as the same tokens, except that a head with nothing between
its brackets is a word.

Main definitions:

* `PhotoPipeline.Token` — words and brackets;
* `PhotoPipeline.Token.ofEntry`, `PhotoPipeline.Token.ofEntries` — entries written out;
* `PhotoPipeline.contract` — tokens with every empty list made a word;
* `PhotoPipeline.Balanced` — **brackets match**, and not too many are open at once;
* `PhotoPipeline.Nest` — the forest under construction.

Main results:

* `PhotoPipeline.Nest.exists_build_iff` — tokens build a forest exactly when their brackets match;
* `PhotoPipeline.Nest.ofEntries_of_build` — **the forest is written out as the tokens**.
-/
import PhotoPipeline.Script.Entry

set_option relaxedAutoImplicit false
set_option autoImplicit false

namespace PhotoPipeline

/-! ### Tokens -/

/-- A word or a bracket. -/
inductive Token where
  | word (text : Text)
  /-- An opening bracket with the head of its list. -/
  | opening (head : Text)
  | closing
  deriving DecidableEq, Repr

namespace Token

/-- The number of opening brackets. -/
def openings : List Token → Nat
  | [] => 0
  | .opening _ :: ts => openings ts + 1
  | _ :: ts => openings ts

/-- The number of closing brackets. -/
def closings : List Token → Nat
  | [] => 0
  | .closing :: ts => closings ts + 1
  | _ :: ts => closings ts

mutual

/-- An entry written out: a word, or a head with what is below it between brackets. -/
def ofEntry : Entry → List Token
  | ⟨head, [], _⟩ => [.word head]
  | ⟨head, e :: es, _⟩ => .opening head :: (ofEntries (e :: es) ++ [.closing])

/-- Entries written out in turn. -/
def ofEntries : List Entry → List Token
  | [] => []
  | e :: es => ofEntry e ++ ofEntries es

end

end Token

/-- The tokens with every empty list made a word. -/
def contract : List Token → List Token
  | [] => []
  | .opening head :: .closing :: ts => .word head :: contract ts
  | t :: ts => t :: contract ts

/-- **The brackets match**, when `held` lists are open before, and at most `limit` lists are open
at once. -/
structure Balanced (limit held : Nat) (ts : List Token) : Prop where
  closings_le : ∀ p, p <+: ts → Token.closings p ≤ held + Token.openings p
  openings_le : ∀ p, p <+: ts → held + Token.openings p ≤ Token.closings p + limit
  total : held + Token.openings ts = Token.closings ts

namespace Token

open Entry

theorem ofEntries_append (as bs : List Entry) :
    ofEntries (as ++ bs) = ofEntries as ++ ofEntries bs := by
  induction as with
  | nil => rfl
  | cons a as ih => rw [List.cons_append, ofEntries, ofEntries, ih, List.append_assoc]

mutual

theorem ofEntry_bare : ∀ e : Entry, ofEntry e.bare = ofEntry e
  | ⟨_, [], _⟩ => rfl
  | ⟨head, e :: es, _⟩ => by
      have h := ofEntries_bareAll (e :: es)
      rw [bareAll] at h
      rw [bare, bareAll, ofEntry, ofEntry, h]

theorem ofEntries_bareAll : ∀ es : List Entry, ofEntries (bareAll es) = ofEntries es
  | [] => rfl
  | e :: es => by rw [bareAll, ofEntries, ofEntries, ofEntry_bare e, ofEntries_bareAll es]

end

end Token

/-! ### Empty lists -/

/-- Only a head with its closing bracket directly behind it is changed. -/
theorem contract_cons {t : Token} {ts : List Token}
    (h : ∀ head, t = .opening head → ts.head? ≠ some .closing) :
    contract (t :: ts) = t :: contract ts := by
  rw [contract.eq_def]
  split
  · next heq => exact nomatch heq
  · next heq =>
      obtain ⟨rfl, rfl⟩ := List.cons.inj heq
      exact absurd rfl (h _ rfl)
  · next heq =>
      obtain ⟨rfl, rfl⟩ := List.cons.inj heq
      rfl

/-- An empty list is made a word, wherever it stands. -/
theorem contract_append_empty (as ts : List Token) (head : Text) :
    contract (as ++ .opening head :: .closing :: ts) = contract (as ++ .word head :: ts) := by
  fun_induction contract as with
  | case1 => rfl
  | case2 head' as ih => exact congrArg (.word head' :: ·) ih
  | case3 t as hne ih =>
      -- what follows `t` is the same up to its first token
      have hhead : ∀ us : List Token, us.head? ≠ some .closing → ∀ head, t = .opening head →
          (as ++ us).head? ≠ some .closing := by
        intro us hus head ht
        cases as with
        | nil => exact hus
        | cons u as =>
            rintro hu
            exact hne head as ht (by rw [Option.some.inj hu])
      rw [List.cons_append, List.cons_append, contract_cons (hhead _ (by simp)),
        contract_cons (hhead _ (by simp)), ih]

namespace Token

theorem head?_ofEntries_append (es : List Entry) (h : es ≠ []) (ts : List Token) :
    (ofEntries es ++ ts).head? ≠ some .closing := by
  rcases es with _ | ⟨⟨_, _ | _, _⟩, es⟩
  · exact absurd rfl h
  · simp [ofEntries, ofEntry]
  · simp [ofEntries, ofEntry]

mutual

theorem contract_ofEntry : ∀ (e : Entry) (ts : List Token),
    contract (ofEntry e ++ ts) = ofEntry e ++ contract ts
  | ⟨_, [], _⟩, _ => rfl
  | ⟨head, e :: es, _⟩, ts => by
      have hhead := head?_ofEntries_append (e :: es) (List.cons_ne_nil _ _) ([.closing] ++ ts)
      rw [ofEntry, List.cons_append, List.append_assoc, contract_cons fun _ _ => hhead,
        contract_ofEntries (e :: es)]
      simp [contract]

/-- A forest that is written out has no empty lists. -/
theorem contract_ofEntries : ∀ (es : List Entry) (ts : List Token),
    contract (ofEntries es ++ ts) = ofEntries es ++ contract ts
  | [], _ => rfl
  | e :: es, ts => by
      rw [ofEntries, List.append_assoc, contract_ofEntry e, contract_ofEntries es,
        List.append_assoc]

end

end Token

/-! ### Building a forest -/

/-- A forest under construction. -/
structure Nest where
  /-- The entries of the innermost open list, the last one first. -/
  entries : List Entry
  /-- The open lists, the innermost first: each has its head and the entries before it, the last
  one first. -/
  opened : List (Text × List Entry)

namespace Nest

/-- One more token. -/
def add (limit : Nat) (n : Nest) : Token → Option Nest
  | .word w => some { n with entries := .leaf w .start :: n.entries }
  | .opening head =>
    if n.opened.length < limit then some ⟨[], (head, n.entries) :: n.opened⟩ else none
  | .closing =>
    match n.opened with
    | [] => none
    | (head, before) :: rest => some ⟨⟨head, n.entries.reverse, .start⟩ :: before, rest⟩

/-- The forest, if no list is open. -/
def complete (n : Nest) : Option (List Entry) :=
  match n.opened with
  | [] => some n.entries.reverse
  | _ :: _ => none

/-- The forest that tokens lead to. -/
def build (limit : Nat) (n : Nest) : List Token → Option (List Entry)
  | [] => n.complete
  | t :: ts => n.add limit t >>= fun n => build limit n ts

/-- What has been built so far, written out. -/
def tokens (entries : List Entry) : List (Text × List Entry) → List Token
  | [] => Token.ofEntries entries.reverse
  | (head, before) :: opened =>
    tokens before opened ++ .opening head :: Token.ofEntries entries.reverse

variable {limit : Nat} {n : Nest} {ts : List Token} {es : List Entry}

theorem tokens_cons (e : Entry) (entries : List Entry) (opened : List (Text × List Entry)) :
    tokens (e :: entries) opened = tokens entries opened ++ Token.ofEntry e := by
  have h : Token.ofEntries (e :: entries).reverse =
      Token.ofEntries entries.reverse ++ Token.ofEntry e := by
    rw [List.reverse_cons, Token.ofEntries_append, Token.ofEntries, Token.ofEntries,
      List.append_nil]
  cases opened with
  | nil => exact h
  | cons o opened =>
      rw [tokens, tokens, h, List.append_assoc, List.cons_append]

/-- **The forest is written out as the tokens**, behind those of what was built before. -/
theorem ofEntries_of_build (h : n.build limit ts = some es) :
    Token.ofEntries es = contract (tokens n.entries n.opened ++ ts) := by
  induction ts generalizing n with
  | nil =>
      obtain ⟨entries, _ | ⟨o, opened⟩⟩ := n
      · obtain rfl := Option.some.inj h
        rw [tokens, Token.contract_ofEntries]
        exact (List.append_nil _).symm
      · exact nomatch h
  | cons t ts ih =>
      obtain ⟨m, hm, h⟩ := Option.bind_eq_some_iff.1 h
      rw [ih h]
      cases t with
      | word w =>
          obtain rfl := Option.some.inj hm
          rw [tokens_cons, List.append_assoc]
          rfl
      | opening head =>
          rw [add] at hm
          split at hm
          · obtain rfl := Option.some.inj hm
            rw [tokens, List.append_assoc]
            rfl
          · cases hm
      | closing =>
          obtain ⟨entries, _ | ⟨⟨head, before⟩, opened⟩⟩ := n
          · cases hm
          · obtain rfl := Option.some.inj hm
            rw [tokens_cons, tokens, List.append_assoc, List.append_assoc]
            -- an empty list is written out as a word, and contracted to one among the tokens
            cases hrev : entries.reverse with
            | nil => exact (contract_append_empty _ ts head).symm
            | cons e es =>
                rw [Token.ofEntry, List.cons_append, List.append_assoc]
                rfl

end Nest

/-! ### Matching brackets -/

theorem forall_prefix_cons {t : Token} {ts : List Token} {p : List Token → Prop} :
    (∀ us, us <+: t :: ts → p us) ↔ p [] ∧ ∀ us, us <+: ts → p (t :: us) := by
  constructor
  · intro h
    exact ⟨h [] List.nil_prefix, fun us hus => h _ (List.cons_prefix_cons.2 ⟨rfl, hus⟩)⟩
  · rintro ⟨hnil, hcons⟩ us hus
    rcases List.prefix_cons_iff.1 hus with rfl | ⟨us, rfl, hprefix⟩
    · exact hnil
    · exact hcons us hprefix

theorem balanced_iff {limit held : Nat} {ts : List Token} : Balanced limit held ts ↔
    (∀ p, p <+: ts → Token.closings p ≤ held + Token.openings p) ∧
      (∀ p, p <+: ts → held + Token.openings p ≤ Token.closings p + limit) ∧
      held + Token.openings ts = Token.closings ts :=
  ⟨fun ⟨h₁, h₂, h₃⟩ => ⟨h₁, h₂, h₃⟩, fun ⟨h₁, h₂, h₃⟩ => ⟨h₁, h₂, h₃⟩⟩

section

variable {limit held : Nat} {ts : List Token}

theorem Balanced.held_le (h : Balanced limit held ts) : held ≤ limit := by
  simpa [Token.openings, Token.closings] using h.openings_le [] List.nil_prefix

theorem balanced_nil (h : held ≤ limit) : Balanced limit held [] ↔ held = 0 := by
  simp [balanced_iff, Token.openings, Token.closings, h]

theorem balanced_word {w : Text} :
    Balanced limit held (.word w :: ts) ↔ Balanced limit held ts := by
  simp only [balanced_iff, forall_prefix_cons, Token.openings, Token.closings]
  constructor
  · rintro ⟨⟨-, h₁⟩, ⟨-, h₂⟩, h₃⟩
    exact ⟨h₁, h₂, h₃⟩
  · rintro ⟨h₁, h₂, h₃⟩
    exact ⟨⟨Nat.zero_le _, h₁⟩, ⟨h₂ [] List.nil_prefix, h₂⟩, h₃⟩

theorem balanced_opening {head : Text} :
    Balanced limit held (.opening head :: ts) ↔ Balanced limit (held + 1) ts := by
  have hmove : ∀ p, held + (Token.openings p + 1) = held + 1 + Token.openings p := fun p => by omega
  simp only [balanced_iff, forall_prefix_cons, Token.openings, Token.closings, hmove]
  constructor
  · rintro ⟨⟨-, h₁⟩, ⟨-, h₂⟩, h₃⟩
    exact ⟨h₁, h₂, h₃⟩
  · rintro ⟨h₁, h₂, h₃⟩
    have hheld : held + 1 ≤ 0 + limit := h₂ [] List.nil_prefix
    exact ⟨⟨Nat.zero_le _, h₁⟩, ⟨by omega, h₂⟩, h₃⟩

theorem balanced_closing (h : held < limit) :
    Balanced limit (held + 1) (.closing :: ts) ↔ Balanced limit held ts := by
  have hmove : ∀ p, held + 1 + Token.openings p = held + Token.openings p + 1 := fun p => by omega
  have hmove' : ∀ p, Token.closings p + 1 + limit = Token.closings p + limit + 1 :=
    fun p => by omega
  simp only [balanced_iff, forall_prefix_cons, Token.openings, Token.closings, hmove, hmove',
    Nat.add_le_add_iff_right, Nat.add_right_cancel_iff]
  constructor
  · rintro ⟨⟨-, h₁⟩, ⟨-, h₂⟩, h₃⟩
    exact ⟨h₁, h₂, h₃⟩
  · rintro ⟨h₁, h₂, h₃⟩
    exact ⟨⟨Nat.zero_le _, h₁⟩, ⟨by omega, h₂⟩, h₃⟩

theorem not_balanced_closing : ¬ Balanced limit 0 (.closing :: ts) := by
  intro h
  have := h.closings_le [.closing] (by simp)
  simp [Token.openings, Token.closings] at this

end

/-- **Tokens build a forest exactly when their brackets match.** -/
theorem Nest.exists_build_iff {limit : Nat} {n : Nest} {ts : List Token}
    (h : n.opened.length ≤ limit) :
    (∃ es, n.build limit ts = some es) ↔ Balanced limit n.opened.length ts := by
  -- what has been built matters by the number of open lists only
  induction ts generalizing n with
  | nil =>
      rw [balanced_nil h, List.length_eq_zero_iff, build, complete]
      cases n.opened <;> simp
  | cons t ts ih =>
      cases t with
      | word w =>
          let m : Nest := { n with entries := .leaf w .start :: n.entries }
          exact (ih (n := m) h).trans balanced_word.symm
      | opening head =>
          rw [balanced_opening]
          by_cases hlt : n.opened.length < limit
          · have hadd : n.add limit (.opening head) = some ⟨[], (head, n.entries) :: n.opened⟩ :=
              if_pos hlt
            rw [build, hadd]
            exact ih hlt
          · have hadd : n.add limit (.opening head) = none := if_neg hlt
            rw [build, hadd]
            constructor
            · rintro ⟨es, hes⟩
              exact nomatch hes
            · intro hb
              exact absurd hb.held_le hlt
      | closing =>
          obtain ⟨entries, _ | ⟨⟨head, before⟩, opened⟩⟩ := n
          · constructor
            · rintro ⟨es, hes⟩
              exact nomatch hes
            · intro hb
              exact absurd hb not_balanced_closing
          · have hlt : opened.length < limit := h
            exact (ih (Nat.le_of_lt hlt)).trans (balanced_closing hlt).symm

end PhotoPipeline
