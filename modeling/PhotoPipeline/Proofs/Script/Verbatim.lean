/-
**Words that are written as they stand.**

A word may be written as it stands when it consists of characters that stand for themselves and of
expressions in which nothing is substituted.  The scanner takes such a word as it is.  No other
name of a pipeline is read back when it is written as it stands: every other mark costs a
character that does not go into a word, and a head with an empty list behind it has none to spare.

Main definitions:

* `PhotoPipeline.Verbatim` — the words that may be written as they stand;
* `PhotoPipeline.Mark.letters`, `PhotoPipeline.Mark.surplus` — the characters of a mark that go into
  a word, and those that do not.

Main results:

* `PhotoPipeline.Spells.name` — a name that may be written as it stands is read as itself;
* `PhotoPipeline.letters_add_surplus_le` — what marks cost;
* `PhotoPipeline.EndsInList.of_lays` — where an empty list at the end of a text goes;
* `PhotoPipeline.parse_name_iff` — **a name is read back exactly when it may be written as it
  stands**.
-/
import Mathlib.Algebra.GroupWithZero.Nat
import Mathlib.Algebra.Order.BigOperators.Group.List
import Mathlib.Algebra.Order.Group.Nat
import PhotoPipeline.Proofs.Script.Grammar

set_option relaxedAutoImplicit false
set_option autoImplicit false

namespace PhotoPipeline

/-- The mark puts into a word the characters that it is written with. -/
def Mark.isVerbatim : Mark → Bool
  | bare _ => true
  | expression parts => (expression parts).names.isEmpty
  | _ => false

/-- The text consists of characters that stand for themselves and of expressions in which nothing
is substituted. -/
def Verbatim (t : Text) : Prop := ∃ ms, Lays true t ms ∧ ∀ m ∈ ms, m.isVerbatim = true

/-! ### Reading a verbatim word -/

namespace Scanner

variable {vars : Vars} {s : Scanner} {b : Bool} {t : Text} {ms : List Mark}

/-- A verbatim text in the middle of a line goes into the word as it stands. -/
theorem feedAll_verbatim (vars : Vars) (h : Lays b t ms) (hms : ∀ m ∈ ms, m.isVerbatim = true)
    (hm : s.mode = .plain) (hl : s.lineStart = false) :
    ∃ r, s.Took t .plain r ∧ ∀ c u, isDelimiter c = true →
      s.feedAll vars (t ++ c :: u) = r.feedAll vars (c :: u) := by
  induction h generalizing s with
  | done => exact ⟨s, hm ▸ Took.nil hl, fun _ _ _ => rfl⟩
  | @bare b c t ms hc _ _ ih =>
      have htook := took_take s (s.here.advance c) c s.here .plain
      obtain ⟨r, hrt, hr⟩ := ih (fun m hmem => hms m (List.mem_cons_of_mem _ hmem)) htook.mode
        htook.lineStart
      refine ⟨r, htook.trans hrt, fun d u hd => ?_⟩
      rw [← hr d u hd, List.cons_append]
      rcases hc with hc | ⟨rfl, hbrace⟩
      · exact feedAll_cons_of_ok (feed_bare hm hc (fun _ => hl) vars) _
      · cases t with
        | nil => exact feedAll_dollar hm (ne_of_isDelimiter hd (by decide)) u
        | cons e t =>
            have he : e ≠ '{' := fun he => hbrace (by rw [he]; rfl)
            exact feedAll_dollar hm he _
  | @expression b body t parts ms hbody _ ih =>
      obtain ⟨hparts, hms⟩ := List.forall_mem_cons.1 hms
      obtain ⟨p, hpt, hp⟩ := feedAll_expression vars hbody (List.isEmpty_iff.1 hparts) hm
      obtain ⟨r, hrt, hr⟩ := ih hms hpt.mode hpt.lineStart
      have htaken := hpt.trans hrt
      rw [List.cons_append, List.append_assoc] at htaken
      refine ⟨r, htaken, fun d u hd => ?_⟩
      rw [← hr d u hd, List.cons_append, List.append_assoc]
      exact hp _
  | _ => exact absurd (hms _ List.mem_cons_self) Bool.false_ne_true

end Scanner

open Scanner

/-- A text that starts like a name starts with a character that stands for itself. -/
theorem Lays.of_sigil {b : Bool} {t : Text} {ms : List Mark} (h : Lays b (sigil :: t) ms)
    (hms : .unfinished ∉ ms) : ∃ ms', ms = .bare sigil :: ms' ∧ Lays false t ms' := by
  cases h with
  | bare _ _ h => exact ⟨_, rfl, h⟩
  | blank hc => exact absurd hc (by decide)
  | unfinished => exact absurd List.mem_cons_self hms

theorem exists_of_isName {name : Text} (h : Entry.isName name = true) :
    ∃ t, name = sigil :: t := by
  rw [Entry.isName.eq_def] at h
  split at h
  · next c d rest => exact ⟨d :: rest, by rw [eq_of_beq h]⟩
  · exact nomatch h

/-- **A verbatim name is read as itself**, whatever the variables stand for. -/
theorem Spells.name {vars : Vars} {name : Text} (hname : Entry.isName name = true)
    (h : Verbatim name) : Spells vars name name := by
  intro s hs
  obtain ⟨t, rfl⟩ := exists_of_isName hname
  obtain ⟨ms, hlays, hms⟩ := h
  obtain ⟨rest, rfl, hrest⟩ := hlays.of_sigil fun hmem => nomatch hms _ hmem
  have hfeed := feed_bare hs.mode (c := sigil) (by decide) (fun h => nomatch h) vars
  have htook := took_take s (s.here.advance sigil) sigil s.here .plain
  obtain ⟨r, hrt, hr⟩ := feedAll_verbatim vars hrest
    (fun m hmem => hms m (List.mem_cons_of_mem _ hmem)) htook.mode htook.lineStart
  have hword : s.word.text = [] := by rw [hs.word, Word.text_empty]
  refine ⟨r, (htook.trans hrt).carrying hword (.inl (List.cons_ne_nil _ _)) rfl rfl rfl, ?_⟩
  intro d u hd
  rw [List.cons_append, feedAll_cons_of_ok hfeed]
  exact hr d u hd

/-! ### What marks cost -/

namespace Mark

/-- The number of characters that a mark puts into a word, when nothing is substituted. -/
def letters : Mark → Nat
  | bare _ => 1
  | escape _ => 1
  | string text => text.length
  | expression parts => parts.length + 2
  | _ => 0

/-- The number of characters, at least, that a mark is written with besides those. -/
def surplus : Mark → Nat
  | blank _ => 1
  | comment body => body.length + 2
  | opening => 1
  | closing => 1
  | bare _ => 0
  | escape _ => 1
  | string _ => 2
  | expression _ => 0
  | substitution _ => 0
  | unfinished => 0

/-- A mark without variables that costs nothing is verbatim. -/
theorem isVerbatim_of_surplus_eq_zero {m : Mark} (h : m.surplus = 0)
    (hm : m.isReadable [] = true) : m.isVerbatim = true := by
  cases m with
  | bare => rfl
  | expression parts =>
      rw [isVerbatim, List.isEmpty_iff, List.eq_nil_iff_forall_not_mem]
      intro name hname
      have hvalue := List.all_eq_true.1 (Bool.and_eq_true_iff.1 hm).2 name hname
      exact nomatch hvalue
  | substitution => exact nomatch hm
  | unfinished => exact nomatch hm
  | comment body => exact absurd h (Nat.succ_ne_zero _)
  | _ => exact nomatch h

end Mark

theorem IsStringBody.length_le {body text : Text} (h : IsStringBody body text) :
    text.length ≤ body.length := by
  induction h with
  | nil => exact Nat.le_refl _
  | char _ _ _ ih => exact Nat.succ_le_succ ih
  | escape _ ih => exact Nat.succ_le_succ (Nat.le_succ_of_le ih)

theorem IsExpressionBody.length_le {body : Text} {parts : List ExpressionPart}
    (h : IsExpressionBody body parts) : parts.length ≤ body.length := by
  induction h with
  | nil => exact Nat.le_refl _
  | char _ _ _ ih => exact Nat.succ_le_succ ih
  | substitution _ _ ih =>
      simp only [List.length_cons, List.length_append]
      omega

/-- **What marks cost**: a text is as long as the words in it and the rest of its marks. -/
theorem letters_add_surplus_le {b : Bool} {t : Text} {ms : List Mark} (h : Lays b t ms) :
    (ms.map Mark.letters).sum + (ms.map Mark.surplus).sum ≤ t.length := by
  induction h with
  | done => exact Nat.le_refl _
  | unfinished => exact Nat.zero_le _
  | lastComment => simp [Mark.letters, Mark.surplus]
  | string hbody _ ih | expression hbody _ ih =>
      have hle := hbody.length_le
      simp only [List.map_cons, List.sum_cons, Mark.letters, Mark.surplus, List.length_cons,
        List.length_append]
      omega
  | _ =>
      simp only [List.map_cons, List.sum_cons, Mark.letters, Mark.surplus, List.length_cons,
        List.length_append]
      omega

/-- The number of characters in a token. -/
def Token.letters : Token → Nat
  | word text => text.length
  | opening head => head.length
  | closing => 0

theorem letters_wordTokens (w : Text) (quoted : Bool) :
    ((wordTokens w quoted).map Token.letters).sum = w.length := by
  rw [wordTokens]
  split
  · next h =>
      obtain rfl := List.isEmpty_iff.1 (Bool.and_eq_true_iff.1 h).1
      rfl
  · simp [Token.letters]

theorem letters_wordTokens_append (w : Text) (quoted : Bool) (ts : List Token) :
    ((wordTokens w quoted ++ ts).map Token.letters).sum =
      w.length + (ts.map Token.letters).sum := by
  rw [List.map_append, List.sum_append, letters_wordTokens]

theorem length_expressionText {parts : List ExpressionPart}
    (h : Mark.isReadable [] (.expression parts) = true) :
    (parts.flatMap (ExpressionPart.text [])).length = parts.length := by
  rw [isReadable_expression] at h
  induction parts with
  | nil => rfl
  | cons part parts ih =>
      obtain ⟨hpart, hparts⟩ := Bool.and_eq_true_iff.1 h
      cases part with
      | char c => simp [ExpressionPart.text, ih hparts]
      | substitution name => cases hpart

/-- Without variables, and without heads that are not written, the characters in tokens are those
that marks put into words. -/
theorem letters_tokensBehind {ms : List Mark} (hall : ms.all (Mark.isReadable []) = true)
    (w : Text) (quoted : Bool) (h : .opening anonymousHead ∉ tokensBehind [] w quoted ms) :
    ((tokensBehind [] w quoted ms).map Token.letters).sum =
      w.length + (ms.map Mark.letters).sum := by
  induction ms generalizing w quoted with
  | nil => exact letters_wordTokens w quoted
  | cons m ms ih =>
      obtain ⟨hm, hms⟩ := Bool.and_eq_true_iff.1 hall
      cases m with
      | blank _ | comment _ =>
          rw [tokensBehind, letters_wordTokens_append,
            ih hms _ _ fun hmem => h (List.mem_append_right _ hmem)]
          simp [Mark.letters]
      | opening =>
          rw [tokensBehind] at h ⊢
          obtain ⟨hhead, hrest⟩ := not_or.1 (fun hmem => h (List.mem_cons.2 hmem))
          have hword : headText w quoted = w := by
            rw [headText] at hhead ⊢
            split
            · next hempty => exact absurd (by rw [if_pos hempty]) hhead
            · rfl
          rw [List.map_cons, List.sum_cons, ih hms _ _ hrest, hword]
          simp [Mark.letters, Token.letters]
      | closing =>
          rw [tokensBehind, letters_wordTokens_append, List.map_cons, List.sum_cons,
            ih hms _ _ fun hmem => h (List.mem_append_right _ (List.mem_cons_of_mem _ hmem))]
          simp [Mark.letters, Token.letters]
      | bare _ | escape _ | string _ =>
          rw [tokensBehind, ih hms _ _ h, List.length_append, List.map_cons, List.sum_cons,
            Nat.add_assoc]
          rfl
      | expression parts =>
          rw [tokensBehind] at h ⊢
          rw [ih hms _ _ h]
          simp only [List.length_append, List.length_cons, length_expressionText hm, Mark.letters,
            List.map_cons, List.sum_cons, List.length_nil]
          omega
      | substitution name => cases hm
      | unfinished => cases hm

/-! ### Brackets among marks and among tokens -/

theorem opening_mem_of_mem_tokensBehind {vars : Vars} {w : Text} {quoted : Bool} {ms : List Mark}
    {head : Text} (h : .opening head ∈ tokensBehind vars w quoted ms) : .opening ∈ ms := by
  have hword : ∀ w quoted, Token.opening head ∉ wordTokens w quoted := by
    intro w quoted hmem
    rw [wordTokens] at hmem
    split at hmem <;> simp at hmem
  induction ms generalizing w quoted with
  | nil => exact absurd h (hword _ _)
  | cons m ms ih =>
      cases m with
      | opening => exact List.mem_cons_self
      | blank | comment =>
          exact List.mem_cons_of_mem _ (ih ((List.mem_append.1 h).resolve_left (hword _ _)))
      | closing =>
          have hrest := (List.mem_append.1 h).resolve_left (hword _ _)
          exact List.mem_cons_of_mem _ (ih ((List.mem_cons.1 hrest).resolve_left fun h => by cases h))
      | _ => exact List.mem_cons_of_mem _ (ih h)

theorem closing_mem_tokensBehind {vars : Vars} {ms : List Mark} (h : .closing ∈ ms) (w : Text)
    (quoted : Bool) : .closing ∈ tokensBehind vars w quoted ms := by
  induction ms generalizing w quoted with
  | nil => exact nomatch h
  | cons m ms ih =>
      cases m with
      | closing => exact List.mem_append_right _ List.mem_cons_self
      | blank | comment =>
          exact List.mem_append_right _ (ih ((List.mem_cons.1 h).resolve_left nofun) _ _)
      | opening => exact List.mem_cons_of_mem _ (ih ((List.mem_cons.1 h).resolve_left nofun) _ _)
      | _ => exact ih ((List.mem_cons.1 h).resolve_left nofun) _ _

/-- Tokens that come to one word are that word, or a head with nothing between its brackets. -/
theorem eq_of_contract_eq_word {ts : List Token} {w : Text} (h : contract ts = [.word w]) :
    ts = [.word w] ∨ ts = [.opening w, .closing] := by
  have hnil : ∀ us, contract us = [] → us = [] := by
    intro us
    fun_cases contract us with
    | case1 => exact fun _ => rfl
    | case2 => exact nofun
    | case3 => exact nofun
  rw [contract.eq_def] at h
  split at h
  · exact nomatch h
  · obtain ⟨hw, hrest⟩ := List.cons.inj h
    rw [hnil _ hrest, Token.word.inj hw]
    exact .inr rfl
  · obtain ⟨hw, hrest⟩ := List.cons.inj h
    rw [hnil _ hrest, hw]
    exact .inl rfl

/-! ### An empty list at the end -/

/-- What becomes of two brackets behind the text `u`: they are the last two marks, or the first of
them is taken by a backslash, or the marks cost too much. -/
def EndsInList (b : Bool) (u : Text) (ms : List Mark) : Prop :=
  (∃ ms', ms = ms' ++ [.opening, .closing] ∧ Lays b u ms') ∨
    (∃ ms', ms = ms' ++ [.escape '(', .closing]) ∨ 3 ≤ (ms.map Mark.surplus).sum

namespace EndsInList

variable {b b' : Bool} {t u u' : Text} {m : Mark} {ms : List Mark}

/-- One more mark in front. -/
theorem cons (h : EndsInList b' u' ms) (hm : ∀ ms', Lays b' u' ms' → Lays b u (m :: ms')) :
    EndsInList b u (m :: ms) := by
  rcases h with ⟨ms', rfl, hlays⟩ | ⟨ms', rfl⟩ | hsurplus
  · exact .inl ⟨m :: ms', rfl, hm ms' hlays⟩
  · exact .inr (.inl ⟨m :: ms', rfl⟩)
  · refine .inr (.inr ?_)
    rw [List.map_cons, List.sum_cons]
    omega

/-- Two brackets at the end stand behind every other character. -/
theorem cut {p : Text} {c : Char} (h : p ++ c :: t = u ++ ['(', ')']) (hopen : c ≠ '(')
    (hclose : c ≠ ')') : ∃ u', u = p ++ c :: u' ∧ t = u' ++ ['(', ')'] := by
  rcases List.append_eq_append_iff.1 h with ⟨as, rfl, has⟩ | ⟨bs, rfl, hbs⟩
  · cases as with
    | nil => exact absurd (List.cons.inj has).1 hopen
    | cons a as =>
        obtain ⟨rfl, rfl⟩ := List.cons.inj has
        exact ⟨as, rfl, rfl⟩
  · rcases bs with _ | ⟨d, _ | ⟨e, bs⟩⟩
    · exact absurd (List.cons.inj hbs).1.symm hopen
    · obtain ⟨-, hrest⟩ := List.cons.inj hbs
      exact absurd (List.cons.inj hrest).1.symm hclose
    · simp at hbs

theorem of_closing (h : Lays b [')'] ms) (hms : .unfinished ∉ ms) : ms = [.closing] := by
  cases h with
  | blank hc => exact absurd hc (by decide)
  | closing h =>
      cases h with
      | done => rfl
      | unfinished => simp at hms
  | bare hc => exact absurd hc (by decide)
  | unfinished => exact absurd List.mem_cons_self hms

theorem looksLikeComment_of_append {t : Text} {c : Char}
    (h : looksLikeComment (c :: (u ++ t)) = false) : looksLikeComment (c :: u) = false := by
  rw [Bool.eq_false_iff] at h ⊢
  intro hcomment
  rw [looksLikeComment.eq_def] at hcomment
  split at hcomment
  · next heq =>
      obtain ⟨rfl, rfl⟩ := List.cons.inj heq
      exact h rfl
  · cases hcomment

/-- **Where an empty list at the end of a text goes**: unless it is the last two marks, there is an
escape or the marks cost too much. -/
theorem of_lays (h : Lays b t ms) (ht : t = u ++ ['(', ')']) (hms : .unfinished ∉ ms) :
    EndsInList b u ms := by
  have htail : ∀ {m : Mark} {ms : List Mark}, Mark.unfinished ∉ m :: ms → .unfinished ∉ ms :=
    fun hmem hrest => hmem (List.mem_cons_of_mem _ hrest)
  induction h generalizing u with
  | done => simp at ht
  | @blank b c t ms hc h ih =>
      obtain ⟨u', rfl, rfl⟩ := cut (p := []) ht (ne_of_isBlank hc (by decide))
        (ne_of_isBlank hc (by decide))
      exact (ih rfl (htail hms)).cons fun ms' => .blank hc
  | @comment body t ms hbody h ih =>
      obtain ⟨u', rfl, rfl⟩ := cut (p := '/' :: '/' :: body) ht (by decide) (by decide)
      exact (ih rfl (htail hms)).cons fun ms' => .comment hbody
  | @lastComment body hbody =>
      refine .inr (.inr ?_)
      cases body with
      | nil =>
          obtain ⟨u', rfl, hnil⟩ := cut (p := ['/']) ht (by decide) (by decide)
          simp at hnil
      | cons c body => simp [Mark.surplus]
  | @opening b t ms h ih =>
      cases u with
      | nil =>
          obtain ⟨-, rfl⟩ := List.cons.inj ht
          rw [of_closing h (htail hms)]
          exact .inl ⟨[], rfl, .done⟩
      | cons c u =>
          obtain ⟨rfl, rfl⟩ := List.cons.inj ht
          exact (ih rfl (htail hms)).cons fun ms' => .opening
  | @closing b t ms h ih =>
      cases u with
      | nil => exact absurd (List.cons.inj ht).1 (by decide)
      | cons c u =>
          obtain ⟨rfl, rfl⟩ := List.cons.inj ht
          exact (ih rfl (htail hms)).cons fun ms' => .closing
  | @bare b c t ms hc hcomment h ih =>
      have hne : c ≠ '(' ∧ c ≠ ')' := by
        rcases hc with hc | ⟨rfl, -⟩
        · exact ⟨(isBare_iff.1 hc).2.1, (isBare_iff.1 hc).2.2.1⟩
        · decide
      obtain ⟨u', rfl, rfl⟩ := cut (p := []) ht hne.1 hne.2
      refine (ih rfl (htail hms)).cons fun ms' => .bare ?_ fun hb =>
        looksLikeComment_of_append (hcomment hb)
      refine hc.imp id (And.imp_right fun hbrace hhead => hbrace ?_)
      rw [List.head?_append, hhead]
      rfl
  | @escape b c t ms h ih =>
      rcases u with _ | ⟨d, _ | ⟨e, u⟩⟩
      · exact absurd (List.cons.inj ht).1 (by decide)
      · obtain ⟨-, hrest⟩ := List.cons.inj ht
        obtain ⟨rfl, rfl⟩ := List.cons.inj hrest
        rw [of_closing h (htail hms)]
        exact .inr (.inl ⟨[], rfl⟩)
      · obtain ⟨rfl, hrest⟩ := List.cons.inj ht
        obtain ⟨rfl, rfl⟩ := List.cons.inj hrest
        exact (ih rfl (htail hms)).cons fun ms' => .escape
  | @string b body text t ms hbody h ih =>
      obtain ⟨u', rfl, rfl⟩ := cut (p := '"' :: body) ht (by decide) (by decide)
      exact (ih rfl (htail hms)).cons fun ms' => .string hbody
  | @expression b body t parts ms hbody h ih =>
      obtain ⟨u', rfl, rfl⟩ := cut (p := '\x60' :: body) ht (by decide) (by decide)
      exact (ih rfl (htail hms)).cons fun ms' => .expression hbody
  | @substitution b name t ms hname h ih =>
      obtain ⟨u', rfl, rfl⟩ := cut (p := '$' :: '{' :: name) ht (by decide) (by decide)
      exact (ih rfl (htail hms)).cons fun ms' => .substitution hname
  | unfinished => exact absurd List.mem_cons_self hms

end EndsInList

/-! ### Names -/

theorem surplus_of_mem {m : Mark} {ms : List Mark} (h : m ∈ ms) :
    m.surplus ≤ (ms.map Mark.surplus).sum :=
  List.single_le_sum (fun _ _ => Nat.zero_le _) _ (List.mem_map_of_mem h)

/-- A name that is read back when it is written as it stands is verbatim. -/
theorem verbatim_of_parse {name : Text} {l : Location} (hname : Entry.isName name = true)
    (h : parse (name ++ ['(', ')']) [] = .ok [.leaf name l]) : Verbatim name := by
  obtain ⟨ms, hlays⟩ := exists_lays true (name ++ ['(', ')'])
  obtain ⟨hreadable, -⟩ := (exists_parse_iff hlays []).1 ⟨_, h⟩
  have hfinished := (all_isReadable_iff.1 hreadable).1
  have htokens : tokensOf [] ms = [.word name] ∨ tokensOf [] ms = [.opening name, .closing] :=
    eq_of_contract_eq_word (ofEntries_of_parse hlays h).symm
  -- the name takes all characters but two, so that the marks have at most two to spare
  have hspare : (ms.map Mark.surplus).sum ≤ 2 := by
    have hhead : name ≠ anonymousHead := by
      rintro rfl
      exact absurd hname (by decide)
    have hanonymous : .opening anonymousHead ∉ tokensOf [] ms := by
      rcases htokens with htokens | htokens <;> simp [htokens, Ne.symm hhead]
    have hletters := letters_tokensBehind hreadable [] false hanonymous
    have hname : ((tokensOf [] ms).map Token.letters).sum = name.length := by
      rcases htokens with htokens | htokens <;> simp [htokens, Token.letters]
    rw [tokensOf] at hname
    have hcost := letters_add_surplus_le hlays
    rw [List.length_append, List.length_cons, List.length_cons, List.length_nil] at hcost
    rw [hname, List.length_nil] at hletters
    omega
  rcases EndsInList.of_lays hlays rfl hfinished with ⟨ms', rfl, hlays'⟩ | ⟨ms', rfl⟩ | hsurplus
  · refine ⟨ms', hlays', fun m hm => Mark.isVerbatim_of_surplus_eq_zero ?_ ?_⟩
    · have hle := surplus_of_mem hm
      rw [List.map_append, List.sum_append] at hspare
      simp only [List.map_cons, List.map_nil, List.sum_cons, List.sum_nil, Mark.surplus] at hspare
      omega
    · exact List.all_eq_true.1 hreadable m (List.mem_append_left _ hm)
  · -- an escape and a closing bracket: no token, and no opening bracket that it closes
    exfalso
    have hclosing : Token.closing ∈ tokensOf [] (ms' ++ [.escape '(', .closing]) :=
      closing_mem_tokensBehind (by simp) _ _
    rcases htokens with htokens | htokens
    · rw [htokens] at hclosing
      simp at hclosing
    · have hopens : Token.opening name ∈ tokensOf [] (ms' ++ [.escape '(', .closing]) :=
        htokens ▸ List.mem_cons_self
      have hopening : Mark.opening ∈ ms' := by
        simpa using opening_mem_of_mem_tokensBehind hopens
      have hle := surplus_of_mem hopening
      rw [List.map_append, List.sum_append] at hspare
      simp only [List.map_cons, List.map_nil, List.sum_cons, List.sum_nil, Mark.surplus] at hspare
      rw [Mark.surplus] at hle
      omega
  · omega

/-- A verbatim name is read back, whatever the variables stand for. -/
theorem exists_parse_name {name : Text} (hname : Entry.isName name = true) (h : Verbatim name)
    (vars : Vars) : ∃ l, parse (name ++ ['(', ')']) vars = .ok [.leaf name l] := by
  have hlist : Settles vars 1 (name ++ '(' :: ([] ++ [')'])) [.leaf name .start] :=
    Settles.nil.reads.list (Spells.name hname h)
  obtain ⟨es, hes, hbare⟩ := parse_of_settles hlist (by decide)
  match es, hbare with
  | [⟨value, [], l⟩], hbare =>
      obtain ⟨heq, -⟩ := List.cons.inj hbare
      obtain ⟨rfl, -, -⟩ := Entry.mk.inj heq
      exact ⟨l, hes⟩

/-- **A name is read back exactly when it is verbatim.** -/
theorem parse_name_iff {name : Text} (hname : Entry.isName name = true) :
    (∃ l, parse (name ++ ['(', ')']) [] = .ok [.leaf name l]) ↔ Verbatim name :=
  ⟨fun ⟨_, h⟩ => verbatim_of_parse hname h, fun h => exists_parse_name hname h []⟩

end PhotoPipeline
