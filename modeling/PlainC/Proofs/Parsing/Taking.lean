/-
**What a parser takes.**

Whether a reading succeeds, and what it gives, depends on the lexemes of the tokens alone; their
places and the names met before are only carried along.  So a success is told in terms of lexemes:
wherever certain lexemes are left, the parser reads a value with a certain property and leaves
certain others.  The rules of this module put such readings together in the way in which the parsers
are put together.

Main definitions:

* `PlainC.Progress.lexemes`, `PlainC.Setting.front` — the lexemes that are left, and the first one;
* `PlainC.Parser.Takes` — a parser reads its value off the front of some lexemes.

Main results:

* `PlainC.Parser.Takes.bind` — a reading in front of another one;
* `PlainC.Parser.Takes.budgeted`, `PlainC.Parser.Takes.loop_yield` — a rule with a budget, and one
  turn of a loop;
* `PlainC.Parser.loop_spells` — what a loop has read is what its turns have read;
* `PlainC.Parser.takes_commaSeparated` — a row of items with commas between them.
-/

import PlainC.Proofs.Parsing.Success

set_option relaxedAutoImplicit false
set_option autoImplicit false

namespace PlainC

/-! ### The lexemes that are left -/

/-- The lexemes of the tokens that are left. -/
def Progress.lexemes (p : Progress) : List Lexeme := p.rest.map Token.lexeme

/-- The first of the lexemes that are left, or the end. -/
def Setting.front (s : Setting) (ls : List Lexeme) : Lexeme := ls.headD s.ending.lexeme

@[simp] theorem Setting.front_cons (s : Setting) (l : Lexeme) (ls : List Lexeme) :
    s.front (l :: ls) = l := rfl

@[simp] theorem Setting.front_nil (s : Setting) : s.front [] = s.ending.lexeme := rfl

@[simp] theorem Progress.lexemes_noting (p : Progress) (name : String) :
    (p.noting name).lexemes = p.lexemes := rfl

theorem Progress.lexemes_behind (p : Progress) : p.behind.lexemes = p.lexemes.tail := by
  simp [lexemes, List.map_tail]

theorem Progress.front_eq (s : Setting) (p : Progress) : p.front s = s.front p.lexemes := by
  obtain ⟨_ | ⟨t, ts⟩, names⟩ := p <;> rfl

theorem Progress.front_of_lexemes {s : Setting} {p : Progress} {l : Lexeme} {ls : List Lexeme}
    (h : p.lexemes = l :: ls) : p.front s = l := by rw [front_eq, h, Setting.front_cons]

theorem Progress.behind_of_lexemes {p : Progress} {l : Lexeme} {ls : List Lexeme}
    (h : p.lexemes = l :: ls) : p.behind.lexemes = ls := by rw [lexemes_behind, h, List.tail_cons]

theorem Progress.lexemes_eq_cons {s : Setting} (hs : s.Closed) {p : Progress} {l : Lexeme}
    (h : p.front s = l) (other : l ≠ .ending) : p.lexemes = l :: p.behind.lexemes := by
  subst h
  obtain ⟨t, cons, same⟩ := p.exists_cons_of_front hs other
  rw [lexemes, cons, List.map_cons, same]
  rfl

theorem Progress.length_lexemes (p : Progress) : p.lexemes.length = p.rest.length := by
  simp [lexemes]

namespace Parser

variable {α β : Type} {s : Setting} {ls ls' ls'' : List Lexeme}

/-- Wherever the lexemes `ls` are left, the parser reads a value with the property `P` and leaves
the lexemes `ls'`. -/
def Takes (s : Setting) (x : Parser α) (ls : List Lexeme) (P : α → Prop) (ls' : List Lexeme) :
    Prop :=
  ∀ p : Progress, p.lexemes = ls → ∃ a q, x s p = .ok a q ∧ P a ∧ q.lexemes = ls'

/-! ### Sequence -/

section

variable {x : Parser α} {f : α → Parser β} {P P' : α → Prop} {Q : β → Prop} {a : α}

theorem Takes.pure (h : P a) : Takes s (pure a) ls P ls :=
  fun p hp => ⟨a, p, rfl, h, hp⟩

/-- A reading in front of another one. -/
theorem Takes.bind (hx : Takes s x ls P ls') (hf : ∀ a, P a → Takes s (f a) ls' Q ls'') :
    Takes s (x >>= f) ls Q ls'' := by
  intro p hp
  obtain ⟨a, r, first, ha, hr⟩ := hx p hp
  obtain ⟨b, q, second, hb, hq⟩ := hf a ha r hr
  exact ⟨b, q, bind_eq_ok_iff.2 ⟨a, r, first, second⟩, hb, hq⟩

theorem Takes.mono (hx : Takes s x ls P ls') (h : ∀ a, P a → P' a) : Takes s x ls P' ls' := by
  intro p hp
  obtain ⟨a, q, read, ha, hq⟩ := hx p hp
  exact ⟨a, q, read, h a ha, hq⟩

theorem Takes.locatedAt (hx : Takes s x ls P ls') (t : Token) :
    Takes s (locatedAt t x) ls P ls' := by
  intro p hp
  obtain ⟨a, q, read, ha, hq⟩ := hx p hp
  exact ⟨a, q, locatedAt_eq_ok_iff.2 read, ha, hq⟩

/-- A rule with a budget, which outlasts the lexemes. -/
theorem Takes.budgeted {rule : Nat → Parser α}
    (h : ∀ n, ls.length < n → Takes s (rule n) ls P ls') : Takes s (budgeted rule) ls P ls' := by
  intro p hp
  refine h _ ?_ p hp
  rw [← hp, Progress.length_lexemes]
  exact Nat.lt_succ_self _

end

/-! ### Looking ahead -/

theorem takes_current : Takes s current ls (fun t => t.lexeme = s.front ls) ls := by
  intro p hp
  refine ⟨p.rest.headD s.ending, p, current_eq_ok_iff.2 ⟨rfl, rfl⟩, ?_, hp⟩
  exact (lexeme_headD s p).trans (by rw [Progress.front_eq, hp])

theorem takes_ahead (n : Nat) :
    Takes s (ahead n) ls (fun t => t.lexeme = ls.getD n s.ending.lexeme) ls := by
  intro p hp
  refine ⟨p.rest.getD n s.ending, p, ahead_eq_ok_iff.2 ⟨rfl, rfl⟩, ?_, hp⟩
  subst hp
  simp only [Progress.lexemes, List.getD_eq_getElem?_getD, List.getElem?_map]
  cases p.rest[n]? <;> rfl

theorem takes_nextIs (m : Punctuator) :
    Takes s (nextIs m) ls (· = decide (s.front ls = .punctuator m)) ls := by
  intro p hp
  exact ⟨_, p, nextIs_eq_ok_iff.2 ⟨rfl, rfl⟩, by rw [Progress.front_eq, hp], hp⟩

theorem takes_atEnd : Takes s atEnd ls (· = ls.isEmpty) ls := by
  intro p hp
  refine ⟨_, p, atEnd_eq_ok_iff.2 ⟨rfl, rfl⟩, ?_, hp⟩
  rw [← hp, Progress.lexemes, List.isEmpty_map]

/-! ### Reading a token -/

theorem takes_advance {l : Lexeme} : Takes s advance (l :: ls) (fun _ => True) ls :=
  fun p hp => ⟨(), p.behind, rfl, trivial, Progress.behind_of_lexemes hp⟩

theorem takes_note (name : String) : Takes s (note name) ls (fun _ => True) ls :=
  fun p hp => ⟨(), p.noting name, rfl, trivial, hp⟩

theorem takes_acceptLexeme {l : Lexeme} : Takes s (acceptLexeme l) (l :: ls) (· = true) ls := by
  intro p hp
  have same := Progress.front_of_lexemes (s := s) hp
  exact ⟨true, p.behind, acceptLexeme_eq_ok_iff.2 (.inl ⟨same, rfl, rfl⟩), rfl,
    Progress.behind_of_lexemes hp⟩

theorem takes_acceptLexeme_other {l : Lexeme} (h : s.front ls ≠ l) :
    Takes s (acceptLexeme l) ls (· = false) ls := by
  intro p hp
  refine ⟨false, p, acceptLexeme_eq_ok_iff.2 (.inr ⟨?_, rfl, rfl⟩), rfl, hp⟩
  rwa [Progress.front_eq, hp]

theorem takes_accept {m : Punctuator} : Takes s (accept m) (.punctuator m :: ls) (· = true) ls :=
  takes_acceptLexeme

theorem takes_accept_other {m : Punctuator} (h : s.front ls ≠ .punctuator m) :
    Takes s (accept m) ls (· = false) ls :=
  takes_acceptLexeme_other h

theorem takes_expectAs {m : Punctuator} (expected : String) :
    Takes s (expectAs m expected) (.punctuator m :: ls) (fun _ => True) ls := by
  intro p hp
  exact ⟨(), p.behind, expectAs_eq_ok_iff.2 ⟨Progress.front_of_lexemes hp, rfl⟩, trivial,
    Progress.behind_of_lexemes hp⟩

theorem takes_expect {m : Punctuator} :
    Takes s (expect m) (.punctuator m :: ls) (fun _ => True) ls :=
  takes_expectAs _

theorem takes_identifier (expected name : String) :
    Takes s (identifier expected) (.identifier name :: ls) (· = name) ls := by
  intro p hp
  exact ⟨name, p.behind, identifier_eq_ok_iff.2 ⟨Progress.front_of_lexemes hp, rfl⟩, rfl,
    Progress.behind_of_lexemes hp⟩

theorem takes_ofExcept {result : Except Fault α} {a : α} (h : result = .ok a) :
    Takes s (ofExcept result) ls (· = a) ls :=
  fun p hp => ⟨a, p, ofExcept_eq_ok_iff.2 ⟨h, rfl⟩, rfl, hp⟩

theorem takes_read : Takes s read ls (· = s) ls :=
  fun p hp => ⟨s, p, rfl, rfl, hp⟩

/-! ### Repetition -/

section

variable {step : β → Parser (ForInStep β)} {b : β} {P : β → Prop}

theorem Takes.loop_done (turn : Takes s (step b) ls (fun t => ∃ c, t = .done c ∧ P c) ls') :
    Takes s (loop step b) ls P ls' := by
  intro p hp
  obtain ⟨_, q, read, ⟨c, rfl, hc⟩, hq⟩ := turn p hp
  exact ⟨c, q, Parser.loop_done read, hc, hq⟩

/-- One turn of a loop in front of the others. -/
theorem Takes.loop_yield {Q : β → Prop}
    (turn : Takes s (step b) ls (fun t => ∃ c, t = .yield c ∧ Q c) ls')
    (shorter : ls'.length < ls.length) (rest : ∀ c, Q c → Takes s (loop step c) ls' P ls'') :
    Takes s (loop step b) ls P ls'' := by
  intro p hp
  obtain ⟨_, r, read, ⟨c, rfl, hc⟩, hr⟩ := turn p hp
  obtain ⟨d, q, more, hd, hq⟩ := rest c hc r hr
  have shorter' : r.rest.length < p.rest.length := by
    rwa [← r.length_lexemes, ← p.length_lexemes, hr, hp]
  exact ⟨d, q, Parser.loop_yield read shorter' more, hd, hq⟩

/-- A last turn that gives a known value. -/
theorem Takes.loop_last {c : β} (turn : Takes s (step b) ls (· = .done c) ls') (h : P c) :
    Takes s (loop step b) ls P ls' := by
  refine Takes.loop_done (turn.mono ?_)
  rintro _ rfl
  exact ⟨c, rfl, h⟩

/-- A turn that gives a known value, in front of the others. -/
theorem Takes.loop_next {c : β} (ls' : List Lexeme)
    (turn : Takes s (step b) ls (· = .yield c) ls')
    (shorter : ls'.length < ls.length) (rest : Takes s (loop step c) ls' P ls'') :
    Takes s (loop step b) ls P ls'' := by
  refine Takes.loop_yield (Q := (· = c)) (turn.mono ?_) shorter ?_
  · rintro _ rfl
    exact ⟨c, rfl, rfl⟩
  · rintro _ rfl
    exact rest

end

/-- A loop has read the spellings of some items if every turn but the last reads one of them and
adds it to the value. -/
theorem loop_spells {ι : Type} {step : β → Parser (ForInStep β)} {add : β → ι → β}
    {spell : ι → List Lexeme} {good : ι → Prop}
    (turns : ∀ b p turn q, step b s p = .ok turn q → (turn = .done b ∧ p = q) ∨
      ∃ i, good i ∧ turn = .yield (add b i) ∧ p.lexemes = spell i ++ q.lexemes)
    {b c : β} {p q : Progress} (h : loop step b s p = .ok c q) :
    ∃ items : List ι, (∀ i ∈ items, good i) ∧ items.foldl add b = c ∧
      p.lexemes = items.flatMap spell ++ q.lexemes := by
  unfold loop budgeted at h
  generalize p.rest.length + 1 = n at h
  induction n generalizing b p with
  | zero => exact absurd h exhausted_ne_ok
  | succ n ih =>
      rcases iterate_succ_eq_ok_iff.1 h with last | ⟨d, r, turn, rest⟩
      · rcases turns b p _ q last with ⟨same, rfl⟩ | ⟨_, _, other, -⟩
        · cases same
          exact ⟨[], List.forall_mem_nil _, rfl, rfl⟩
        · cases other
      · rcases turns b p _ r turn with ⟨other, -⟩ | ⟨i, hi, same, here⟩
        · cases other
        · cases same
          obtain ⟨items, sound, whole, left⟩ := ih rest
          refine ⟨i :: items, List.forall_mem_cons.2 ⟨hi, sound⟩, whole, ?_⟩
          rw [here, left, List.flatMap_cons, List.append_assoc]

/-- A row of items ends where no comma stands. -/
theorem takes_moreAfterCommas_nil {item : Parser α} (stop : s.front ls ≠ .punctuator .comma)
    (found : List α) : Takes s (moreAfterCommas item found) ls (· = found) ls := by
  refine Takes.loop_last (c := found) ((takes_accept_other (by simpa using stop)).bind ?_) rfl
  rintro _ rfl
  exact .pure rfl

/-- A row of items with a comma in front of each of them. -/
theorem takes_moreAfterCommas {item : Parser α} {spell : α → List Lexeme}
    (stop : s.front ls ≠ .punctuator .comma) (found : List α) (more : List α)
    (h : ∀ a ∈ more, ∀ ls', s.front ls' = .punctuator .comma ∨ ls' = ls →
      Takes s item (spell a ++ ls') (· = a) ls') :
    Takes s (moreAfterCommas item found)
      (more.flatMap (fun a => .punctuator .comma :: spell a) ++ ls) (· = found ++ more) ls := by
  induction more generalizing found with
  | nil =>
      rw [List.append_nil]
      exact takes_moreAfterCommas_nil stop found
  | cons a more ih =>
      simp only [List.flatMap_cons, List.cons_append, List.append_assoc]
      refine Takes.loop_next (c := found ++ [a])
        (more.flatMap (fun b => .punctuator .comma :: spell b) ++ ls) (takes_accept.bind ?_) ?_ ?_
      · rintro _ rfl
        refine (h a (by simp) _ ?_).bind ?_
        · cases more with
          | nil => exact .inr rfl
          | cons b more => exact .inl rfl
        · rintro _ rfl
          exact .pure rfl
      · simp only [List.length_cons, List.length_append]
        omega
      · have rest := ih (found ++ [a]) fun b hb => h b (by simp [hb])
        rwa [List.append_assoc] at rest

/-- A row of items with a comma between two of them. -/
theorem takes_commaSeparated {item : Parser α} {spell : α → List Lexeme}
    (stop : s.front ls ≠ .punctuator .comma) (a : α) (more : List α)
    (h : ∀ b ∈ a :: more, ∀ ls', s.front ls' = .punctuator .comma ∨ ls' = ls →
      Takes s item (spell b ++ ls') (· = b) ls') :
    Takes s (commaSeparated item)
      (spell a ++ (more.flatMap (fun b => .punctuator .comma :: spell b) ++ ls)) (· = a :: more)
      ls := by
  refine (h a (List.mem_cons_self ..) _ ?_).bind ?_
  · cases more with
    | nil => exact .inr rfl
    | cons b more => exact .inl rfl
  · rintro _ rfl
    exact takes_moreAfterCommas stop _ more fun b hb => h b (List.mem_cons_of_mem _ hb)

end Parser

end PlainC
