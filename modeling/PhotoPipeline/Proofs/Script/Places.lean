/-
**Places are exact.**

The heads of a forest, in the order of the script, are the words that are kept and the brackets
without a word.  A word stands where its first part does, whatever text that part adds to it: a
string at its quote, an expression at its backtick, an escape at its backslash, a substitution at
its dollar sign.  A list without a head stands at its bracket.  Values of variables have no places
of their own and move nothing.

So the places in a forest are places of marks, in the order of the marks, and each is computed from
the text before it.

Main definitions:

* `PhotoPipeline.Entry.heads` — the heads of a forest in the order of the script, with their places;
* `PhotoPipeline.headsBehind` — the heads that marks lead to, with their places;
* `PhotoPipeline.BeginsHead` — the mark that a head begins with;
* `PhotoPipeline.Scanner.Ready` — the scanner is between two marks.

Main results:

* `PhotoPipeline.exists_beginsHead` — a head begins at a bracket or at the first part of a word;
* `PhotoPipeline.sublist_headsBehind` — heads stand where marks do, in their order;
* `PhotoPipeline.Scanner.Ready.step` — **one mark**: what the scanner has and what is to come stay
  the same together;
* `PhotoPipeline.Scanner.heads_of_readOn` — the marks of a whole script;
* `PhotoPipeline.parse_places` — **places are exact**.
-/
import PhotoPipeline.Proofs.Script.Blame
import PhotoPipeline.Proofs.Script.Grammar

set_option relaxedAutoImplicit false
set_option autoImplicit false

namespace PhotoPipeline

/-! ### The heads of a forest -/

namespace Entry

mutual

theorem map_snd_preorder (depth depth' : Nat) :
    ∀ e : Entry, (preorder depth e).map Prod.snd = (preorder depth' e).map Prod.snd
  | ⟨v, cs, l⟩ => by
    rw [preorder, preorder, List.map_cons, List.map_cons,
      map_snd_preorderAll (depth + 1) (depth' + 1) cs]

theorem map_snd_preorderAll (depth depth' : Nat) :
    ∀ es : List Entry, (preorderAll depth es).map Prod.snd = (preorderAll depth' es).map Prod.snd
  | [] => rfl
  | e :: es => by
    rw [preorderAll, preorderAll, List.map_append, List.map_append,
      map_snd_preorder depth depth' e, map_snd_preorderAll depth depth' es]

end

/-- The heads of a forest in the order of the script, each with its place. -/
def heads (es : List Entry) : List (Text × Location) :=
  ((preorderAll 0 es).map Prod.snd).map fun e => (e.value, e.location)

@[simp] theorem heads_nil : heads [] = [] := rfl

theorem heads_append (as bs : List Entry) : heads (as ++ bs) = heads as ++ heads bs := by
  rw [heads, preorderAll_append, List.map_append, List.map_append]
  rfl

theorem heads_singleton (v : Text) (cs : List Entry) (l : Location) :
    heads [⟨v, cs, l⟩] = (v, l) :: heads cs := by
  rw [heads, preorderAll, preorder, preorderAll, List.append_nil, List.map_cons, List.map_cons,
    map_snd_preorderAll (0 + 1) 0 cs]
  rfl

end Entry

/-! ### The heads that marks lead to -/

/-- What the mark adds to the word that it is a part of; a mark that is no part ends the word. -/
def Mark.part? (vars : Vars) : Mark → Option Text
  | bare c | escape c => some [c]
  | string text => some text
  | expression parts => some ('\x60' :: (parts.flatMap (ExpressionPart.text vars) ++ ['\x60']))
  | substitution name => some ((vars.lookup name).getD [])
  | _ => none

/-- The mark is a string, which keeps its word. -/
def Mark.isString : Mark → Bool
  | string _ => true
  | _ => false

/-- The head that a word stands for by itself.  A word without text is dropped, unless a part of it
is a string. -/
def wordHeads (w : Text) (quoted : Bool) (place : Option Location) : List (Text × Location) :=
  if w.isEmpty && !quoted then [] else place.toList.map (w, ·)

/-- The head of a list behind a word: the word, or the bracket if the word is dropped. -/
def listHead (w : Text) (quoted : Bool) (place : Option Location) (bracket : Location) :
    Text × Location :=
  if w.isEmpty && !quoted then (anonymousHead, bracket) else (w, place.getD bracket)

/-- **The heads that marks lead to**, each with its place, when the word `w` stands before them.
The word stands at the place of its first part, once it has one. -/
def headsBehind (vars : Vars) (w : Text) (quoted : Bool) (place : Option Location) :
    List (Mark × Location) → List (Text × Location)
  | [] => wordHeads w quoted place
  | (m, l) :: ps =>
    match m.part? vars with
    | some text =>
      headsBehind vars (w ++ text) (quoted || m.isString) (some (place.getD l)) ps
    | none =>
      (if m = .opening then [listHead w quoted place l] else wordHeads w quoted place) ++
        headsBehind vars [] false none ps

/-- The mark begins the head: it is the bracket of a list without a head, or the first part of a
word.  The flag says whether what stands right before the marks is a part of a word. -/
inductive BeginsHead (vars : Vars) :
    Bool → List (Mark × Location) → Text × Location → Mark → Prop
  | bracket {b : Bool} {l : Location} {ps : List (Mark × Location)} :
      BeginsHead vars b ((.opening, l) :: ps) (anonymousHead, l) .opening
  | part {m : Mark} {l : Location} {ps : List (Mark × Location)} {w text : Text}
      (hpart : m.part? vars = some text) : BeginsHead vars false ((m, l) :: ps) (w, l) m
  | behind {b : Bool} {p : Mark × Location} {ps : List (Mark × Location)} {head : Text × Location}
      {m : Mark} (h : BeginsHead vars (p.1.part? vars).isSome ps head m) :
      BeginsHead vars b (p :: ps) head m

section

variable {vars : Vars} {w text : Text} {quoted : Bool} {place : Option Location} {m : Mark}
  {l : Location} {ps : List (Mark × Location)}

theorem headsBehind_part (h : m.part? vars = some text) :
    headsBehind vars w quoted place ((m, l) :: ps) =
      headsBehind vars (w ++ text) (quoted || m.isString) (some (place.getD l)) ps := by
  rw [headsBehind, h]

theorem headsBehind_opening :
    headsBehind vars w quoted place ((.opening, l) :: ps) =
      listHead w quoted place l :: headsBehind vars [] false none ps := rfl

theorem headsBehind_end (h : m.part? vars = none) (ho : m ≠ .opening) :
    headsBehind vars w quoted place ((m, l) :: ps) =
      wordHeads w quoted place ++ headsBehind vars [] false none ps := by
  rw [headsBehind, h]
  exact congrArg (· ++ _) (if_neg ho)

theorem Mark.lineStart_of_part? (h : m.part? vars = some text) (b : Bool) :
    m.lineStart b = false := by
  cases m <;> first | rfl | cases h

theorem Mark.exists_initial_of_part? (h : m.part? vars = some text) :
    ∃ c, m.initial? = some c := by
  cases m <;> first | exact ⟨_, rfl⟩ | cases h

theorem BeginsHead.mem {b : Bool} {head : Text × Location} (h : BeginsHead vars b ps head m) :
    (m, head.2) ∈ ps := by
  induction h with
  | bracket | part => exact List.mem_cons_self
  | behind _ ih => exact List.mem_cons_of_mem _ ih

theorem BeginsHead.exists_initial {b : Bool} {head : Text × Location}
    (h : BeginsHead vars b ps head m) : ∃ c, m.initial? = some c := by
  induction h with
  | bracket => exact ⟨_, rfl⟩
  | part hpart => exact Mark.exists_initial_of_part? hpart
  | behind _ ih => exact ih

/-! ### Where heads begin -/

theorem eq_of_mem_wordHeads {head : Text × Location} (h : head ∈ wordHeads w quoted place) :
    place = some head.2 := by
  rw [wordHeads] at h
  split at h
  · cases h
  · obtain ⟨l, hl, rfl⟩ := List.mem_map.1 h
    exact Option.mem_toList.1 hl

/-- **A head begins at a bracket or at the first part of a word**, unless it is the word that stands
before the marks. -/
theorem exists_beginsHead {head : Text × Location}
    (hplace : place = none → w.isEmpty && !quoted) (h : head ∈ headsBehind vars w quoted place ps) :
    place = some head.2 ∨ ∃ m, BeginsHead vars place.isSome ps head m := by
  induction ps generalizing w quoted place with
  | nil => exact .inl (eq_of_mem_wordHeads h)
  | cons p ps ih =>
      obtain ⟨m, l⟩ := p
      -- behind a mark that is no part there is no word that a head could be
      have hbehind : m.part? vars = none → head ∈ headsBehind vars [] false none ps →
          ∃ m', BeginsHead vars place.isSome ((m, l) :: ps) head m' := by
        intro hpart hmem
        rcases ih (fun _ => rfl) hmem with hnone | ⟨m', hm'⟩
        · cases hnone
        · exact ⟨m', .behind (by rw [hpart]; exact hm')⟩
      cases hpart : m.part? vars with
      | some text =>
          rw [headsBehind_part hpart] at h
          rcases ih (fun h => by cases h) h with hfirst | ⟨m', hm'⟩
          · cases place with
            | none =>
                obtain ⟨v, l'⟩ := head
                cases hfirst
                exact .inr ⟨m, .part hpart⟩
            | some l' => exact .inl hfirst
          · exact .inr ⟨m', .behind (by rw [hpart]; exact hm')⟩
      | none =>
          by_cases ho : m = .opening
          · subst ho
            rw [headsBehind_opening, List.mem_cons] at h
            rcases h with rfl | h
            · rw [listHead]
              split
              · exact .inr ⟨_, .bracket⟩
              · next hkept =>
                  cases place with
                  | none => exact absurd (hplace rfl) hkept
                  | some l' => exact .inl rfl
            · exact .inr (hbehind hpart h)
          · rw [headsBehind_end hpart ho, List.mem_append] at h
            exact h.imp eq_of_mem_wordHeads (hbehind hpart)

/-! ### The order of heads -/

theorem sublist_wordHeads : ((wordHeads w quoted place).map Prod.snd).Sublist place.toList := by
  rw [wordHeads]
  split
  · exact List.nil_sublist _
  · cases place <;> exact List.Sublist.refl _

/-- A place is taken instead of one that comes later. -/
theorem getD_cons_sublist (place : Option Location) (l : Location) (ls : List Location) :
    (place.getD l :: ls).Sublist (place.toList ++ l :: ls) := by
  cases place with
  | none => exact List.Sublist.refl _
  | some l' => exact (List.sublist_cons_self l ls).cons_cons l'

theorem sublist_listHead (ls : List Location) :
    ((listHead w quoted place l).2 :: ls).Sublist (place.toList ++ l :: ls) := by
  rw [listHead]
  split
  · exact List.sublist_append_right ..
  · exact getD_cons_sublist place l ls

/-- **Heads stand where marks do**, in the order of the marks. -/
theorem sublist_headsBehind : ((headsBehind vars w quoted place ps).map Prod.snd).Sublist
    (place.toList ++ ps.map Prod.snd) := by
  induction ps generalizing w quoted place with
  | nil => exact sublist_wordHeads.trans (List.sublist_append_left ..)
  | cons p ps ih =>
      obtain ⟨m, l⟩ := p
      rw [List.map_cons]
      cases hpart : m.part? vars with
      | some text =>
          rw [headsBehind_part hpart]
          exact ih.trans (getD_cons_sublist place l _)
      | none =>
          by_cases ho : m = .opening
          · subst ho
            rw [headsBehind_opening, List.map_cons]
            exact (List.Sublist.cons_cons _ ih).trans (sublist_listHead _)
          · rw [headsBehind_end hpart ho, List.map_append]
            exact sublist_wordHeads.append (ih.trans (List.sublist_cons_self l _))

end

namespace Scanner

variable {vars : Vars} {s r : Scanner} {l : Location} {b : Bool} {m : Mark} {written t : Text}

/-! ### The heads that a scanner has -/

/-- The heads that the scanner has read, each with its place. -/
def heads (s : Scanner) : List (Text × Location) :=
  s.opened.reverse.flatMap (fun o => Entry.heads o.before.reverse ++ [(o.head, o.location)]) ++
    Entry.heads s.entries.reverse

/-- The heads that the scanner has read, and those that marks lead to. -/
def headsWith (vars : Vars) (s : Scanner) (ps : List (Mark × Location)) : List (Text × Location) :=
  s.heads ++ headsBehind vars s.word.text s.word.quoted s.word.start ps

/-- The scanner is between two marks, at the place; a word that is kept has started. -/
structure Ready (s : Scanner) (l : Location) (b : Bool) : Prop where
  mode : s.mode = .plain
  here : s.here = l
  lineStart : s.lineStart = b
  word : b = true → s.word = .empty
  started : s.word.isEmpty = false → s.word.start.isSome = true

theorem heads_flush (h : s.word.isEmpty = false → s.word.start.isSome = true) :
    s.flush.heads = s.heads ++ wordHeads s.word.text s.word.quoted s.word.start := by
  rw [flush, wordHeads, ← isEmpty_eq]
  cases he : s.word.isEmpty with
  | true => rw [if_pos rfl, if_pos rfl, List.append_nil]; rfl
  | false =>
      obtain ⟨l, hl⟩ := Option.isSome_iff_exists.1 (h he)
      rw [if_neg Bool.false_ne_true, if_neg Bool.false_ne_true, hl, heads, heads, List.append_assoc,
        List.reverse_cons, Entry.heads_append]
      rfl

theorem heads_openList (h : s.openList l = .ok r) :
    r.heads = s.heads ++ [listHead s.word.text s.word.quoted s.word.start l] := by
  rw [openList] at h
  split at h
  · cases h
  · cases h
    rw [heads, heads, listHead, ← isEmpty_eq, List.reverse_cons, List.flatMap_append,
      List.append_assoc]
    cases s.word.isEmpty <;> simp

theorem heads_closeList (h : s.closeList l = .ok r) : r.heads = s.flush.heads := by
  simp only [closeList] at h
  cases ho : s.flush.opened with
  | nil => rw [ho] at h; cases h
  | cons o rest =>
      rw [ho] at h
      cases h
      rw [heads, heads, ho, List.reverse_cons, List.reverse_cons, Entry.heads_append,
        Entry.heads_singleton, List.flatMap_append]
      simp

/-! ### One mark -/

/-- A part of a word goes into the word, which starts at the part if it had not started. -/
theorem readOn_part {text : Text} (hs : s.Ready l b) (hm : Writes b m written t)
    (hr : m.isReadable vars = true) (hpart : m.part? vars = some text) :
    s.readOn vars (written ++ t) =
      ((if m.isString then s.openQuote else s).gain written text l .plain).readOn vars t := by
  obtain rfl := hs.here
  cases hm with
  | bare hc hcomment =>
      cases hpart
      exact readOn_bare hs.mode hc fun h => hcomment (hs.lineStart ▸ h)
  | escape =>
      cases hpart
      exact readOn_escape vars hs.mode _ t
  | string hbody =>
      cases hpart
      rw [List.cons_append, List.append_assoc]
      exact readOn_string vars hs.mode hbody t
  | expression hbody =>
      cases hpart
      rw [isReadable_expression] at hr
      rw [List.cons_append, List.append_assoc]
      exact readOn_expression hs.mode hbody hr t
  | @substitution _ name _ hname =>
      cases hpart
      rw [isReadable_substitution] at hr
      obtain ⟨value, hvalue⟩ := Option.isSome_iff_exists.1 hr
      rw [List.cons_append, List.cons_append, List.append_assoc, hvalue]
      exact readOn_substitution hs.mode hname hvalue t
  | _ => cases hpart

theorem headsWith_part {text : Text} (hs : s.here = l) (hpart : m.part? vars = some text)
    (ps : List (Mark × Location)) :
    ((if m.isString then s.openQuote else s).gain written text l .plain).headsWith vars ps =
      s.headsWith vars ((m, l) :: ps) := by
  subst hs
  rw [headsWith, headsWith, headsBehind_part hpart, ← Word.text_append s.word text s.here]
  cases m.isString with
  | false => rw [Bool.or_false]; rfl
  | true => rw [Bool.or_true]; rfl

/-- The scanner is between two marks, with no word in the making. -/
theorem ready_of_empty (hm : s.mode = .plain) (hh : s.here = l) (hl : s.lineStart = b)
    (hw : s.word = .empty) : s.Ready l b := by
  refine ⟨hm, hh, hl, fun _ => hw, fun h => ?_⟩
  rw [hw] at h
  cases h

theorem ready_start : start.Ready .start true := ready_of_empty rfl rfl rfl rfl

/-- A mark that ends the word makes a head of it. -/
theorem headsWith_end (hpart : m.part? vars = none) (ho : m ≠ .opening) (hw : r.word = .empty)
    (hh : r.heads = s.heads ++ wordHeads s.word.text s.word.quoted s.word.start)
    (ps : List (Mark × Location)) : r.headsWith vars ps = s.headsWith vars ((m, l) :: ps) := by
  rw [headsWith, headsWith, headsBehind_end hpart ho, hw, hh, List.append_assoc]
  rfl

/-- The scanner `r` is between two marks and has what `s` has, with the heads of the mark. -/
structure Passed (vars : Vars) (s : Scanner) (m : Mark) (written : Text) (r : Scanner) : Prop where
  ready : r.Ready (s.here.after written) (m.lineStart s.lineStart)
  heads : ∀ ps, r.headsWith vars ps = s.headsWith vars ((m, s.here) :: ps)

theorem passed_part {text : Text} (hpart : m.part? vars = some text) :
    s.Passed vars m written
      ((if m.isString then s.openQuote else s).gain written text s.here .plain) where
  ready := by
    rw [Mark.lineStart_of_part? hpart]
    refine ⟨rfl, ?_, rfl, Bool.noConfusion, fun _ => rfl⟩
    cases m.isString <;> rfl
  heads := headsWith_part rfl hpart

theorem Ready.passed_blank (hs : s.Ready l b) {c : Char} (hc : isBlank c = true) (t : Text) :
    ∃ r, s.Passed vars (.blank c) [c] r ∧ s.readOn vars (c :: t) = r.readOn vars t := by
  let p : Scanner := { s with here := s.here.advance c, mode := .plain }
  let r : Scanner := { p.flush with lineStart := p.flush.lineStart || c == '\n' }
  have hline : r.lineStart = (s.lineStart || c == '\n') :=
    congrArg (· || c == '\n') (flush_lineStart p)
  have hheads : r.heads = p.heads ++ wordHeads p.word.text p.word.quoted p.word.start :=
    heads_flush hs.started
  refine ⟨r, ⟨ready_of_empty (flush_mode p) (here_flush p) hline (flush_word p), ?_⟩,
    readOn_blank vars hs.mode hc t⟩
  exact headsWith_end rfl Mark.noConfusion (flush_word p) hheads

/-- Where a comment may begin there is no word to end. -/
theorem Ready.passed_comment (hs : s.Ready l true) (body written : Text) :
    s.Passed vars (.comment body) written { s with here := s.here.after written } where
  ready := ready_of_empty hs.mode rfl hs.lineStart (hs.word rfl)
  heads := by
    refine headsWith_end rfl Mark.noConfusion (hs.word rfl) ?_
    rw [hs.word rfl]
    exact (List.append_nil _).symm

theorem passed_opening (hm : s.mode = .plain) {t : Text} {es : List Entry}
    (h : s.readOn vars ('(' :: t) = .ok es) :
    ∃ r, s.Passed vars .opening ['('] r ∧ r.readOn vars t = .ok es := by
  obtain ⟨r, hr, ht⟩ := exists_feed_of_readOn h
  rw [feed_of_plain hm, feedPlain_open] at hr
  have hended := ended_openList hr
  refine ⟨r, ⟨ready_of_empty hended.mode hended.here hended.lineStart hended.word, ?_⟩, ht⟩
  intro ps
  rw [headsWith, headsWith, headsBehind_opening, heads_openList hr, hended.word, List.append_assoc]
  rfl

theorem Ready.passed_closing (hs : s.Ready l b) {t : Text} {es : List Entry}
    (h : s.readOn vars (')' :: t) = .ok es) :
    ∃ r, s.Passed vars .closing [')'] r ∧ r.readOn vars t = .ok es := by
  obtain ⟨r, hr, ht⟩ := exists_feed_of_readOn h
  rw [feed_of_plain hs.mode, feedPlain_close] at hr
  have hended := ended_closeList hr
  refine ⟨r, ⟨ready_of_empty hended.mode hended.here hended.lineStart hended.word, ?_⟩, ht⟩
  exact headsWith_end rfl Mark.noConfusion hended.word
    ((heads_closeList hr).trans (heads_flush hs.started))

/-- **One mark.**  If the script can be read, the scanner comes to be between the next two marks,
and what it has and what is to come are the same together. -/
theorem Ready.step {es : List Entry} (hs : s.Ready l b) (hm : Writes b m written t)
    (hr : m.isReadable vars = true) (h : s.readOn vars (written ++ t) = .ok es) :
    ∃ r, s.Passed vars m written r ∧ r.readOn vars t = .ok es := by
  cases hpart : m.part? vars with
  | some text =>
      rw [readOn_part hs hm hr hpart] at h
      obtain rfl := hs.here
      exact ⟨_, passed_part hpart, h⟩
  | none =>
      cases hm with
      | blank hc =>
          obtain ⟨r, hpassed, hrun⟩ := hs.passed_blank hc t
          exact ⟨r, hpassed, hrun.symm.trans h⟩
      | comment hbody =>
          refine ⟨_, hs.passed_comment .., ?_⟩
          rw [← readOn_commentLine vars hs.mode hs.lineStart hbody, ← h, List.cons_append,
            List.cons_append, List.append_assoc]
          rfl
      | @lastComment body hbody =>
          rw [List.append_nil, readOn_lastComment vars hs.mode hs.lineStart hbody] at h
          exact ⟨_, hs.passed_comment .., h⟩
      | opening => exact passed_opening hs.mode h
      | closing => exact hs.passed_closing h
      | unfinished => cases hr
      | _ => cases hpart

/-- At the end of a script the heads that the scanner has are those of the forest. -/
theorem Ready.heads_of_nil {es : List Entry} (hs : s.Ready l b)
    (hes : s.readOn vars [] = .ok es) : Entry.heads es = s.headsWith vars [] := by
  have hcomplete : s.complete = .ok es := by
    rw [← hes]
    show _ = s.finish
    rw [finish, hs.mode]
  rw [headsWith, headsBehind, ← heads_flush hs.started, heads]
  simp only [complete] at hcomplete
  cases ho : s.flush.opened with
  | nil =>
      rw [ho] at hcomplete
      obtain rfl := Except.ok.inj hcomplete
      rfl
  | cons o rest =>
      rw [ho] at hcomplete
      cases hcomplete

/-- **The marks of a whole script** lead to its heads. -/
theorem heads_of_readOn {ps : List (Mark × Location)} {es : List Entry} (h : LaysFrom l b t ps)
    (hs : s.Ready l b) (hr : ps.all (fun p => p.1.isReadable vars) = true)
    (hes : s.readOn vars t = .ok es) : Entry.heads es = s.headsWith vars ps := by
  induction h generalizing s with
  | done => exact hs.heads_of_nil hes
  | @cons l b m written t ps hm _ ih =>
      rw [List.all_cons, Bool.and_eq_true] at hr
      obtain ⟨r, hpassed, hrun⟩ := hs.step hm hr.1 hes
      have hready := hpassed.ready
      rw [hs.here, hs.lineStart] at hready
      rw [ih hready hr.2 hrun, hpassed.heads, hs.here]

end Scanner

/-! ### Scripts -/

/-- The heads of a forest are those that the marks of the script lead to. -/
theorem heads_of_parse {source : Text} {vars : Vars} {ps : List (Mark × Location)}
    (h : LaysFrom .start true source ps) {es : List Entry} (hes : parse source vars = .ok es) :
    Entry.heads es = headsBehind vars [] false none ps := by
  obtain ⟨hreadable, -⟩ := (exists_parse_iff h.lays vars).1 ⟨es, hes⟩
  rw [List.all_map] at hreadable
  exact Scanner.heads_of_readOn h Scanner.ready_start hreadable hes

/-- The places of heads are in the order of the script. -/
theorem pairwise_offset_headsBehind {source : Text} {vars : Vars} {ps : List (Mark × Location)}
    (h : LaysFrom .start true source ps) :
    (headsBehind vars [] false none ps).Pairwise fun p q => p.2.offset < q.2.offset := by
  have hplaces : (ps.map Prod.snd).Pairwise fun l l' => l.offset < l'.offset :=
    List.pairwise_map.2 h.pairwise_offset
  have hsub : ((headsBehind vars [] false none ps).map Prod.snd).Sublist (ps.map Prod.snd) :=
    sublist_headsBehind
  have hheads := hplaces.sublist hsub
  rwa [List.pairwise_map] at hheads

/-- A head stands at the first character of the mark that begins it. -/
theorem standsAt_of_mem_headsBehind {source : Text} {vars : Vars} {ps : List (Mark × Location)}
    (h : LaysFrom .start true source ps) {head : Text × Location}
    (hhead : head ∈ headsBehind vars [] false none ps) :
    ∃ m c, BeginsHead vars false ps head m ∧ m.initial? = some c ∧ StandsAt source c head.2 := by
  rcases exists_beginsHead (fun _ => rfl) hhead with hnone | ⟨m, hm⟩
  · cases hnone
  · obtain ⟨c, hc, hinitial⟩ := h.standsAt [] rfl _ hm.mem
    obtain ⟨d, hd⟩ := hm.exists_initial
    obtain rfl := hinitial d hd
    exact ⟨m, d, hm, hd, hc⟩

/-- **Places are exact.**  Every script consists of marks that stand one behind the other.  If it is
parsed to a forest, the heads of the forest in order are those that the marks lead to; their offsets
increase; and each has the offset, line and column of the first character of the mark that begins
it, which is the first part of a word, or the bracket of a list without a head.  If the script is
refused, the error has the offset, line and column of a character of the script.  No line and no
column is greater than the number of characters of the script. -/
theorem parse_places (source : Text) (vars : Vars) :
    (∃ ps, LaysFrom .start true source ps) ∧ ∀ ps, LaysFrom .start true source ps →
      (∀ es, parse source vars = .ok es →
        Entry.heads es = headsBehind vars [] false none ps ∧
          ((Entry.heads es).Pairwise fun p q => p.2.offset < q.2.offset) ∧
          ∀ head ∈ Entry.heads es, ∃ m c, BeginsHead vars false ps head m ∧
            m.initial? = some c ∧ StandsAt source c head.2) ∧
      (∀ e, parse source vars = .error e → ∃ c, StandsAt source c e.location) ∧
      ∀ c l, StandsAt source c l → l.line ≤ source.length ∧ l.column ≤ source.length := by
  refine ⟨exists_laysFrom .start true source, fun ps hps => ⟨fun es hes => ?_,
    fun e he => standsAt_of_parse_error he, fun c l h => h.le_length⟩⟩
  have hheads := heads_of_parse hps hes
  refine ⟨hheads, ?_, fun head hhead => ?_⟩
  · rw [hheads]
    exact pairwise_offset_headsBehind hps
  · rw [hheads] at hhead
    exact standsAt_of_mem_headsBehind hps hhead

/-- A substitution without text leaves a list without a head, and an escape begins a word. -/
example : parse "$\x7bx\x7d(\n\\a\"b\")".toList [("x".toList, [])] =
    .ok [⟨"pipeline".toList, [.leaf "ab".toList ⟨6, 2, 1⟩], ⟨4, 1, 5⟩⟩] := rfl

end PhotoPipeline
