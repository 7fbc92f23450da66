/-
**Statements in front of other tokens.**

A statement ends like a unit, with a semicolon or a closing brace.  But behind a conditional it does
matter what follows, since an `else` would go on with it.  So a statement that is read up to some
place is read in the same way in front of any tokens that do not begin with `else`.

A conditional can end wherever a statement in it ends, so that no place on the way need be guarded
by a token of the statement.  The rules are therefore compared at the place where they begin, and
what is known of the token there can be used.

Main results:

* `PlainC.Parser.Settles.orElse` — what an `else` may go on with;
* `PlainC.Parser.statement_settles` — **a statement is read in the same way in front of any tokens
  that do not begin with `else`**.
-/

import PlainC.Proofs.Comparison.Extension

set_option relaxedAutoImplicit false
set_option autoImplicit false

namespace PlainC.Parser

variable {α β : Type} {s : Setting} {ending : Token} {tail : List Token} {p : Progress}

namespace Settles

variable {x y : Parser α} {k k' : α → Parser β}

/-- A rule that settles reads at least one token. -/
theorem exists_cons {a : α} {q : Progress} (h : Settles s ending tail p x y)
    (read : x s p = .ok a q) : ∃ t more, p.rest = t :: more := by
  obtain ⟨_ | ⟨t, front⟩, u, here, -⟩ := h.last read
  · exact ⟨u, q.rest, here⟩
  · exact ⟨t, front ++ u :: q.rest, here⟩

/-- The token at the front is known to stand there, and it is the same in the second run. -/
theorem current {k k' : Token → Parser α}
    (h : Settles s ending tail p (k (p.rest.headD s.ending)) (k' (p.rest.headD s.ending))) :
    Settles s ending tail p (current >>= k) (current >>= k') where
  last read := h.last (by rwa [current_bind] at read)
  followed read := by
    rw [current_bind] at read ⊢
    obtain ⟨t, more, here⟩ := h.exists_cons read
    have same : (p.rest ++ tail).headD ending = p.rest.headD s.ending := by
      rw [here]
      rfl
    have there := h.followed read
    rwa [← same] at there

theorem locatedAt (t : Token) (h : Settles s ending tail p x y) :
    Settles s ending tail p (locatedAt t x) (locatedAt t y) where
  last read := h.last (locatedAt_eq_ok_iff.1 read)
  followed read := locatedAt_eq_ok_iff.2 (h.followed (locatedAt_eq_ok_iff.1 read))

/-- Going past a token that ends a unit. -/
theorem advance (closed : s.Closed) (ends : (p.rest.headD s.ending).lexeme.endsUnit) :
    Settles s ending tail p advance advance := by
  obtain ⟨_ | ⟨t, more⟩, names⟩ := p
  · change s.ending.lexeme.endsUnit at ends
    rw [closed] at ends
    cases ends
  · refine ⟨fun read => ?_, fun read => ?_⟩
    · obtain rfl := advance_eq_ok_iff.1 read
      exact ⟨[], t, rfl, ends⟩
    · obtain rfl := advance_eq_ok_iff.1 read
      rfl

/-- A choice by whether `l` stands behind a rule that settles; the tokens behind do not begin with
`l`. -/
theorem orElse (closed : s.Closed) {l : Lexeme} (some : l ≠ .ending)
    (other : (tail.headD ending).lexeme ≠ l) {k'' : α → Parser β}
    (hx : Settles s ending tail p x y) (hk : ∀ a q, Settles s ending tail q (k a) (k' a))
    (hk'' : ∀ a, Still (k'' a)) :
    Settles s ending tail p (x >>= fun a => acceptLexeme l >>= fun b => if b then k a else k'' a)
      (y >>= fun a => acceptLexeme l >>= fun b => if b then k' a else k'' a) where
  last read := by
    obtain ⟨a, r, first, more⟩ := bind_eq_ok_iff.1 read
    obtain ⟨front, t, here, ends⟩ := hx.last first
    obtain ⟨b, r', accepted, rest⟩ := bind_eq_ok_iff.1 more
    rcases acceptLexeme_eq_ok_iff.1 accepted with ⟨-, rfl, rfl⟩ | ⟨-, rfl, rfl⟩
    · obtain ⟨front', t', here', ends'⟩ := (hk a _).last rest
      obtain ⟨before, whole⟩ := List.tail_suffix r.rest
      refine ⟨front ++ t :: before ++ front', t', ?_, ends'⟩
      rw [here, ← whole, ← Progress.rest_behind, here']
      simp
    · rw [(hk'' a).rest rest]
      exact ⟨front, t, here, ends⟩
  followed read := by
    obtain ⟨a, r, first, more⟩ := bind_eq_ok_iff.1 read
    refine bind_eq_ok_iff.2 ⟨a, _, hx.followed first, ?_⟩
    obtain ⟨b, r', accepted, rest⟩ := bind_eq_ok_iff.1 more
    obtain ⟨_ | ⟨u, us⟩, names⟩ := r
    · -- nothing is left, and the tokens behind do not begin with `l`
      rcases acceptLexeme_eq_ok_iff.1 accepted with ⟨same, -, -⟩ | ⟨-, rfl, rfl⟩
      · exact absurd (same.symm.trans closed) some
      · exact bind_eq_ok_iff.2 ⟨false, _, acceptLexeme_eq_ok_iff.2 (.inr ⟨other, rfl, rfl⟩),
          (hk'' a).followed rest ending tail⟩
    · rcases acceptLexeme_eq_ok_iff.1 accepted with ⟨same, rfl, rfl⟩ | ⟨not, rfl, rfl⟩
      · exact bind_eq_ok_iff.2 ⟨true, _, acceptLexeme_eq_ok_iff.2 (.inl ⟨same, rfl, rfl⟩),
          (hk a _).followed rest⟩
      · exact bind_eq_ok_iff.2 ⟨false, _, acceptLexeme_eq_ok_iff.2 (.inr ⟨not, rfl, rfl⟩),
          (hk'' a).followed rest ending tail⟩

end Settles

/-! ### Statements -/

section

variable {nested nested' : Parser (Stmt String)}

theorem bodyWith_settles (hn : Settles s ending tail p nested nested') :
    Settles s ending tail p (bodyWith nested) (bodyWith nested') :=
  hn.andThen fun _ => .bind .options fun _ => .pure _

variable (closed : s.Closed) (noElse : (tail.headD ending).lexeme ≠ .keyword .elseWord)
  (hn : ∀ q, Settles s ending tail q nested nested')

include closed noElse hn in
theorem conditionalWith_settles :
    Settles s ending tail p (conditionalWith nested) (conditionalWith nested') := by
  refine .bind condition_alike fun test q => ?_
  exact .orElse closed Lexeme.noConfusion noElse (bodyWith_settles (hn q))
    (fun _ r => (bodyWith_settles (hn r)).andThen fun _ => .pure _) fun _ => .pure _

include hn in
theorem forLoopWith_settles :
    Settles s ending tail p (forLoopWith nested) (forLoopWith nested') := by
  refine .bind (.expect _) fun _ _ => .bind loopVariable_alike fun _ _ => ?_
  refine .bind (.expect _) fun _ _ => .bind (expressionBefore_alike _) fun _ _ => ?_
  refine .bind (.expect _) fun _ _ => .bind (expressionBefore_alike _) fun _ _ => ?_
  exact .bind (.expect _) fun _ q => (bodyWith_settles (hn q)).andThen fun _ => .pure _

include closed noElse hn in
theorem statementWith_settles (alike : Alike id True id nested nested') :
    Settles s ending tail p (statementWith nested) (statementWith nested') := by
  refine .current (.locatedAt _ ?_)
  split
  · exact .bind .advance fun _ _ => conditionalWith_settles closed noElse hn
  · refine .bind .advance fun _ _ => .bind condition_alike fun _ q => ?_
    exact (bodyWith_settles (hn q)).andThen fun _ => .pure _
  · exact .bind .advance fun _ _ => forLoopWith_settles hn
  · refine .bind .advance fun _ _ => .bind (expressionBefore_alike _) fun _ _ => ?_
    exact (Closes.expectThen rfl _ _).settles closed
  · exact .bind .advance fun _ _ => (Closes.expectThen rfl _ _).settles closed
  · exact .bind .advance fun _ _ => (Closes.expectThen rfl _ _).settles closed
  · exact (blockWith_settles closed alike).andThen fun _ => .pure _
  · rename_i semicolon
    exact (Settles.advance closed (by rw [semicolon]; rfl)).andThen fun _ => .pure _
  · refine (Closes.checked (.unexpected _) (.bind expression_alike fun _ => ?_)).settles closed
    exact .expectThen rfl _ _

end

/-- Within a budget that is no smaller a statement is read in the same way in front of other
tokens. -/
theorem statementWithin_settles (closed : s.Closed)
    (noElse : (tail.headD ending).lexeme ≠ .keyword .elseWord) {m n : Nat} (hmn : m ≤ n) :
    Settles s ending tail p (statementWithin m) (statementWithin n) := by
  induction m generalizing n p with
  | zero => exact ⟨fun read => absurd read exhausted_ne_ok, fun read => absurd read exhausted_ne_ok⟩
  | succ m ih =>
      obtain ⟨n, rfl⟩ : ∃ k, n = k + 1 := ⟨n - 1, by omega⟩
      have hmn' : m ≤ n := Nat.le_of_succ_le_succ hmn
      exact statementWith_settles closed noElse (fun _ => ih hmn')
        (statementWithin_alike .same hmn' (.inl trivial))

/-- **A statement is read in the same way in front of any tokens that do not begin with `else`.** -/
theorem statement_settles (closed : s.Closed)
    (noElse : (tail.headD ending).lexeme ≠ .keyword .elseWord) :
    Settles s ending tail p statement statement := by
  have more : p.rest.length + 1 ≤ (p.followed tail).rest.length + 1 := by
    simp [Progress.followed]
  exact ⟨(statementWithin_settles closed noElse more).last,
    (statementWithin_settles closed noElse more).followed⟩

end PlainC.Parser
