/-
**The marks of a script.**

By its lexical rules a script is a row of marks: blanks, comments, brackets, and the parts that
words are made of.  Which marks these are depends on the script alone, neither on the values of
variables nor on how brackets match.  A comment begins where nothing but blanks stands before it on
its line, so the rules speak of the place that a text stands in too.

The rules cover every text: a literal, an escape or a substitution that the script does not end is
a mark as well, the last one.

Main definitions:

* `PhotoPipeline.Mark` — the marks;
* `PhotoPipeline.IsStringBody`, `PhotoPipeline.IsExpressionBody` — what may stand between quotes
  and between backticks;
* `PhotoPipeline.IsUnfinished` — a text that ends too early;
* `PhotoPipeline.Lays` — **the lexical rules**: a text consists of marks;
* `PhotoPipeline.tokensOf` — the words and brackets that marks stand for.

Main results:

* `PhotoPipeline.exists_lays` — every text consists of marks.
-/
import PhotoPipeline.Proofs.Script.Nesting
import PhotoPipeline.Script.Quote
import PhotoPipeline.Script.Scanner

set_option relaxedAutoImplicit false
set_option autoImplicit false

namespace PhotoPipeline

/-! ### Marks -/

/-- A part of an expression: a character, or the name of a variable that is substituted. -/
inductive ExpressionPart where
  | char (c : Char)
  | substitution (name : Text)
  deriving DecidableEq

/-- What a script consists of. -/
inductive Mark where
  | blank (c : Char)
  /-- The text behind two slashes, up to the end of the line. -/
  | comment (body : Text)
  | opening
  | closing
  /-- A character that stands for itself. -/
  | bare (c : Char)
  /-- A character behind a backslash. -/
  | escape (c : Char)
  /-- A string that stands for the text. -/
  | string (text : Text)
  | expression (parts : List ExpressionPart)
  | substitution (name : Text)
  /-- A literal, an escape or a substitution that the script does not end. -/
  | unfinished
  deriving DecidableEq

/-! ### The lexical rules -/

/-- What is written between quotes for a text. -/
inductive IsStringBody : Text → Text → Prop
  | nil : IsStringBody [] []
  | char {c : Char} {body text : Text} (hquote : c ≠ '"') (hbackslash : c ≠ '\\')
      (h : IsStringBody body text) : IsStringBody (c :: body) (c :: text)
  | escape {c : Char} {body text : Text} (h : IsStringBody body text) :
      IsStringBody ('\\' :: c :: body) (c :: text)

/-- What is written between backticks.  A dollar sign in front of a brace is no character of its
own. -/
inductive IsExpressionBody : Text → List ExpressionPart → Prop
  | nil : IsExpressionBody [] []
  | char {c : Char} {body : Text} {parts : List ExpressionPart} (hbacktick : c ≠ '\x60')
      (hdollar : c = '$' → body.head? ≠ some '{') (h : IsExpressionBody body parts) :
      IsExpressionBody (c :: body) (.char c :: parts)
  | substitution {name body : Text} {parts : List ExpressionPart} (hname : '}' ∉ name)
      (h : IsExpressionBody body parts) :
      IsExpressionBody ('$' :: '{' :: (name ++ '}' :: body)) (.substitution name :: parts)

theorem isStringBody_escaped (t : Text) : IsStringBody (escaped t) t := by
  induction t with
  | nil => exact .nil
  | cons c t ih =>
      rw [escaped]
      split
      · exact .escape ih
      · next hc =>
          obtain ⟨hquote, hbackslash⟩ := not_or.1 hc
          exact .char hquote hbackslash ih

theorem isExpressionBody_map_char {t : Text} (h : ∀ c ∈ t, c ≠ '\x60' ∧ c ≠ '$') :
    IsExpressionBody t (t.map .char) := by
  induction t with
  | nil => exact .nil
  | cons c t ih =>
      obtain ⟨⟨hbacktick, hdollar⟩, ht⟩ := List.forall_mem_cons.1 h
      exact .char hbacktick (fun hc => absurd hc hdollar) (ih ht)

/-- A literal, an escape or a substitution that the text does not end. -/
inductive IsUnfinished : Text → Prop
  | escape : IsUnfinished ['\\']
  | string {body text : Text} (h : IsStringBody body text) : IsUnfinished ('"' :: body)
  | stringEscape {body text : Text} (h : IsStringBody body text) :
      IsUnfinished ('"' :: (body ++ ['\\']))
  | expression {body : Text} {parts : List ExpressionPart} (h : IsExpressionBody body parts) :
      IsUnfinished ('\x60' :: body)
  | expressionSubstitution {body name : Text} {parts : List ExpressionPart}
      (h : IsExpressionBody body parts) (hname : '}' ∉ name) :
      IsUnfinished ('\x60' :: (body ++ '$' :: '{' :: name))
  | substitution {name : Text} (hname : '}' ∉ name) : IsUnfinished ('$' :: '{' :: name)

/-- **The lexical rules**: a text consists of marks.  The flag says whether nothing but blanks
stands before the text on its line. -/
inductive Lays : Bool → Text → List Mark → Prop
  | done {b : Bool} : Lays b [] []
  | blank {b : Bool} {c : Char} {t : Text} {ms : List Mark} (hc : isBlank c = true)
      (h : Lays (b || c == '\n') t ms) : Lays b (c :: t) (.blank c :: ms)
  | comment {body t : Text} {ms : List Mark} (hbody : '\n' ∉ body) (h : Lays true t ms) :
      Lays true ('/' :: '/' :: (body ++ '\n' :: t)) (.comment body :: ms)
  | lastComment {body : Text} (hbody : '\n' ∉ body) :
      Lays true ('/' :: '/' :: body) [.comment body]
  | opening {b : Bool} {t : Text} {ms : List Mark} (h : Lays false t ms) :
      Lays b ('(' :: t) (.opening :: ms)
  | closing {b : Bool} {t : Text} {ms : List Mark} (h : Lays false t ms) :
      Lays b (')' :: t) (.closing :: ms)
  | bare {b : Bool} {c : Char} {t : Text} {ms : List Mark}
      (hc : isBare c = true ∨ c = '$' ∧ t.head? ≠ some '{')
      (hcomment : b = true → looksLikeComment (c :: t) = false) (h : Lays false t ms) :
      Lays b (c :: t) (.bare c :: ms)
  | escape {b : Bool} {c : Char} {t : Text} {ms : List Mark} (h : Lays false t ms) :
      Lays b ('\\' :: c :: t) (.escape c :: ms)
  | string {b : Bool} {body text t : Text} {ms : List Mark} (hbody : IsStringBody body text)
      (h : Lays false t ms) : Lays b ('"' :: (body ++ '"' :: t)) (.string text :: ms)
  | expression {b : Bool} {body t : Text} {parts : List ExpressionPart} {ms : List Mark}
      (hbody : IsExpressionBody body parts) (h : Lays false t ms) :
      Lays b ('\x60' :: (body ++ '\x60' :: t)) (.expression parts :: ms)
  | substitution {b : Bool} {name t : Text} {ms : List Mark} (hname : '}' ∉ name)
      (h : Lays false t ms) : Lays b ('$' :: '{' :: (name ++ '}' :: t)) (.substitution name :: ms)
  | unfinished {b : Bool} {t : Text} (h : IsUnfinished t) : Lays b t [.unfinished]

/-! ### Every text consists of marks -/

/-- A text is cut at its first `c`, unless it has none. -/
theorem exists_cut (c : Char) (t : Text) : (∃ u rest, t = u ++ c :: rest ∧ c ∉ u) ∨ c ∉ t := by
  by_cases h : c ∈ t
  · exact .inl (List.eq_append_cons_of_mem h)
  · exact .inr h

/-- Behind an opening quote a text closes the string, or it ends inside the string. -/
theorem exists_stringBody : ∀ t : Text,
    (∃ body text rest, t = body ++ '"' :: rest ∧ IsStringBody body text) ∨
      ∃ body text, IsStringBody body text ∧ (t = body ∨ t = body ++ ['\\'])
  | [] => .inr ⟨[], [], .nil, .inl rfl⟩
  | c :: t => by
      by_cases hquote : c = '"'
      · exact .inl ⟨[], [], t, by rw [hquote]; rfl, .nil⟩
      by_cases hbackslash : c = '\\'
      · rw [hbackslash]
        cases t with
        | nil => exact .inr ⟨[], [], .nil, .inr rfl⟩
        | cons d t =>
            rcases exists_stringBody t with ⟨body, text, rest, rfl, h⟩ | ⟨body, text, h, ht⟩
            · exact .inl ⟨_, _, rest, rfl, .escape (c := d) h⟩
            · refine .inr ⟨_, _, .escape (c := d) h, ?_⟩
              exact ht.imp (fun ht => by rw [ht]) (fun ht => by rw [ht]; rfl)
      · rcases exists_stringBody t with ⟨body, text, rest, rfl, h⟩ | ⟨body, text, h, ht⟩
        · exact .inl ⟨_, _, rest, rfl, .char hquote hbackslash h⟩
        · refine .inr ⟨_, _, .char hquote hbackslash h, ?_⟩
          exact ht.imp (fun ht => by rw [ht]) (fun ht => by rw [ht]; rfl)
termination_by t => t.length

/-- Behind an opening backtick a text closes the expression, or it ends inside the expression or
inside a substitution there. -/
theorem exists_expressionBody : ∀ t : Text,
    (∃ body parts rest, t = body ++ '\x60' :: rest ∧ IsExpressionBody body parts) ∨
      ∃ body parts, IsExpressionBody body parts ∧
        (t = body ∨ ∃ name, '}' ∉ name ∧ t = body ++ '$' :: '{' :: name)
  | [] => .inr ⟨[], [], .nil, .inl rfl⟩
  | c :: t => by
      by_cases hbacktick : c = '\x60'
      · exact .inl ⟨[], [], t, by rw [hbacktick]; rfl, .nil⟩
      by_cases hbraced : c = '$' ∧ t.head? = some '{'
      · obtain ⟨rfl, hbrace⟩ := hbraced
        obtain ⟨u, hu⟩ := List.head?_eq_some_iff.1 hbrace
        rcases exists_cut '}' u with ⟨name, v, hv, hname⟩ | hname
        · have hlt : v.length < t.length := by
            rw [hu, hv, List.length_cons, List.length_append, List.length_cons]
            omega
          rw [hu, hv]
          rcases exists_expressionBody v with ⟨body, parts, rest, rfl, h⟩ | ⟨body, parts, h, ht⟩
          · exact .inl ⟨_, _, rest, by simp, .substitution hname h⟩
          · refine .inr ⟨_, _, .substitution hname h, ?_⟩
            rcases ht with rfl | ⟨other, hother, rfl⟩
            · exact .inl rfl
            · exact .inr ⟨other, hother, by simp⟩
        · exact .inr ⟨[], [], .nil, .inr ⟨u, hname, by rw [hu]; rfl⟩⟩
      · -- what matters is what the body has behind the character, which may be less than the text
        have hdollar : ∀ body rest : Text, t = body ++ rest → c = '$' → body.head? ≠ some '{' := by
          rintro body rest rfl hc hbrace
          exact hbraced ⟨hc, by rw [List.head?_append, hbrace]; rfl⟩
        rcases exists_expressionBody t with ⟨body, parts, rest, ht, h⟩ | ⟨body, parts, h, ht⟩
        · exact .inl ⟨_, _, rest, by rw [ht]; rfl, .char hbacktick (hdollar body _ ht) h⟩
        · rcases ht with ht | ⟨name, hname, ht⟩
          · have hbody := hdollar body [] (by rw [ht, List.append_nil])
            exact .inr ⟨_, _, .char hbacktick hbody h, .inl (by rw [ht])⟩
          · exact .inr ⟨_, _, .char hbacktick (hdollar body _ ht) h,
              .inr ⟨name, hname, by rw [ht]; rfl⟩⟩
termination_by t => t.length

/-- A comment ends with its line. -/
theorem exists_lays_comment {t : Text} (h : looksLikeComment t = true)
    (hrec : ∀ rest : Text, rest.length < t.length → ∃ ms, Lays true rest ms) :
    ∃ ms, Lays true t ms := by
  rw [looksLikeComment.eq_def] at h
  split at h
  · next u =>
      rcases exists_cut '\n' u with ⟨body, rest, rfl, hbody⟩ | hbody
      · obtain ⟨ms, hms⟩ := hrec rest (by simp; omega)
        exact ⟨_, .comment hbody hms⟩
      · exact ⟨_, .lastComment hbody⟩
  · cases h

/-- A special character is a bracket or begins an escape, a literal or a substitution. -/
theorem exists_lays_special {b : Bool} {c : Char} {t : Text} (hc : isSpecial c = true)
    (hdollar : c = '$' → t.head? = some '{')
    (hrec : ∀ rest : Text, rest.length ≤ t.length → ∃ ms, Lays false rest ms) :
    ∃ ms, Lays b (c :: t) ms := by
  simp only [isSpecial, Bool.or_eq_true, beq_iff_eq] at hc
  rcases hc with ((((rfl | rfl) | rfl) | rfl) | rfl) | rfl
  · obtain ⟨ms, h⟩ := hrec t (Nat.le_refl _)
    exact ⟨_, .opening h⟩
  · obtain ⟨ms, h⟩ := hrec t (Nat.le_refl _)
    exact ⟨_, .closing h⟩
  · rcases exists_stringBody t with ⟨body, text, rest, rfl, hbody⟩ | ⟨body, text, hbody, ht⟩
    · obtain ⟨ms, h⟩ := hrec rest (by simp; omega)
      exact ⟨_, .string hbody h⟩
    · rcases ht with rfl | rfl
      · exact ⟨_, .unfinished (.string hbody)⟩
      · exact ⟨_, .unfinished (.stringEscape hbody)⟩
  · cases t with
    | nil => exact ⟨_, .unfinished .escape⟩
    | cons c t =>
        obtain ⟨ms, h⟩ := hrec t (by simp)
        exact ⟨_, .escape h⟩
  · rcases exists_expressionBody t with ⟨body, parts, rest, rfl, hbody⟩ | ⟨body, parts, hbody, ht⟩
    · obtain ⟨ms, h⟩ := hrec rest (by simp; omega)
      exact ⟨_, .expression hbody h⟩
    · rcases ht with rfl | ⟨name, hname, rfl⟩
      · exact ⟨_, .unfinished (.expression hbody)⟩
      · exact ⟨_, .unfinished (.expressionSubstitution hbody hname)⟩
  · obtain ⟨u, rfl⟩ := List.head?_eq_some_iff.1 (hdollar rfl)
    rcases exists_cut '}' u with ⟨name, rest, rfl, hname⟩ | hname
    · obtain ⟨ms, h⟩ := hrec rest (by simp; omega)
      exact ⟨_, .substitution hname h⟩
    · exact ⟨_, .unfinished (.substitution hname)⟩

/-- **Every text consists of marks.** -/
theorem exists_lays (b : Bool) (t : Text) : ∃ ms, Lays b t ms := by
  induction hn : t.length using Nat.strongRecOn generalizing b t with
  | ind n ih =>
    subst hn
    have hrec : ∀ (b : Bool) (rest : Text), rest.length < t.length → ∃ ms, Lays b rest ms :=
      fun b rest hlt => ih rest.length hlt b rest rfl
    cases t with
    | nil => exact ⟨[], .done⟩
    | cons c t =>
      have hnext := fun b => hrec b t (by simp)
      by_cases hblank : isBlank c = true
      · obtain ⟨ms, h⟩ := hnext (b || c == '\n')
        exact ⟨_, .blank hblank h⟩
      by_cases hcomment : b = true ∧ looksLikeComment (c :: t) = true
      · rw [hcomment.1]
        exact exists_lays_comment hcomment.2 (hrec true)
      by_cases hbare : isBare c = true ∨ c = '$' ∧ t.head? ≠ some '{'
      · obtain ⟨ms, h⟩ := hnext false
        exact ⟨_, .bare hbare (fun hb => by simpa [hb] using hcomment) h⟩
      · obtain ⟨hspecial, hdollar⟩ := not_or.1 hbare
        refine exists_lays_special ?_ (fun hc => ?_) fun rest hrest => hrec false rest ?_
        · simpa [isBare, hblank] using hspecial
        · simpa [hc] using hdollar
        · simpa using Nat.lt_succ_of_le hrest

/-! ### From marks to tokens -/

namespace ExpressionPart

/-- What a part of an expression adds to the word that the expression is in. -/
def text (vars : Vars) : ExpressionPart → Text
  | char c => [c]
  | substitution name => (vars.lookup name).getD []

/-- The names of the variables in a part of an expression. -/
def names : ExpressionPart → List Text
  | char _ => []
  | substitution name => [name]

end ExpressionPart

/-- The names of the variables in a mark. -/
def Mark.names : Mark → List Text
  | expression parts => parts.flatMap ExpressionPart.names
  | substitution name => [name]
  | _ => []

/-- The token of a word.  A word without text is dropped, unless a part of it is a string. -/
def wordTokens (w : Text) (quoted : Bool) : List Token :=
  if w.isEmpty && !quoted then [] else [.word w]

/-- The head of a list behind a word: the word, unless it is dropped. -/
def headText (w : Text) (quoted : Bool) : Text :=
  if w.isEmpty && !quoted then anonymousHead else w

/-- The tokens that marks stand for, when the word `w` stands before them; `quoted` says whether a
part of it is a string.  Marks that are parts of a word go into it; every other mark ends it. -/
def tokensBehind (vars : Vars) (w : Text) (quoted : Bool) : List Mark → List Token
  | [] => wordTokens w quoted
  | .blank _ :: ms => wordTokens w quoted ++ tokensBehind vars [] false ms
  | .comment _ :: ms => wordTokens w quoted ++ tokensBehind vars [] false ms
  | .opening :: ms => .opening (headText w quoted) :: tokensBehind vars [] false ms
  | .closing :: ms => wordTokens w quoted ++ .closing :: tokensBehind vars [] false ms
  | .bare c :: ms => tokensBehind vars (w ++ [c]) quoted ms
  | .escape c :: ms => tokensBehind vars (w ++ [c]) quoted ms
  | .string t :: ms => tokensBehind vars (w ++ t) true ms
  | .expression parts :: ms =>
    tokensBehind vars (w ++ '\x60' :: (parts.flatMap (ExpressionPart.text vars) ++ ['\x60'])) quoted
      ms
  | .substitution name :: ms => tokensBehind vars (w ++ (vars.lookup name).getD []) quoted ms
  | .unfinished :: ms => tokensBehind vars w quoted ms

/-- The tokens that the marks of a script stand for. -/
def tokensOf (vars : Vars) (ms : List Mark) : List Token := tokensBehind vars [] false ms

/-! ### Marks that can be read -/

/-- The part of an expression has a value. -/
def ExpressionPart.isReadable (vars : Vars) (part : ExpressionPart) : Bool :=
  part.names.all fun name => (vars.lookup name).isSome

/-- The mark is finished, and all variables in it have values. -/
def Mark.isReadable (vars : Vars) (m : Mark) : Bool :=
  m != .unfinished && m.names.all fun name => (vars.lookup name).isSome

theorem all_isReadable_iff {vars : Vars} {ms : List Mark} : ms.all (Mark.isReadable vars) = true ↔
    .unfinished ∉ ms ∧ ∀ name ∈ ms.flatMap Mark.names, (vars.lookup name).isSome = true := by
  simp only [List.all_eq_true, Mark.isReadable, Bool.and_eq_true, bne_iff_ne, List.mem_flatMap]
  constructor
  · intro h
    refine ⟨fun hm => (h _ hm).1 rfl, ?_⟩
    rintro name ⟨m, hm, hname⟩
    exact (h m hm).2 name hname
  · rintro ⟨hfinished, hnames⟩ m hm
    refine ⟨?_, fun name hname => hnames name ⟨m, hm, hname⟩⟩
    rintro rfl
    exact hfinished hm

end PhotoPipeline
