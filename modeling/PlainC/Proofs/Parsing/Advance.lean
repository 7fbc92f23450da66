/-
**Parsers never go back.**

A parser looks ahead, but what it has read it does not read again: whether it succeeds or stops with
a fault, the tokens that are left are a last part of those that it was given.  This holds of the
building blocks and is kept by sequence and repetition, so it holds of whatever is put together of
them.

Main definitions:

* `PlainC.Parser.reached` — how far a reading has come, also when it stops with a fault;
* `PlainC.Parser.Advances` — the parsers that never go back.

Main results:

* `PlainC.Parser.Alike.advances`, `PlainC.Parser.Alike.advances_right` — **what is put together of
  the building blocks never goes back**;
* `PlainC.Parser.Takes.leaves` — what is left is made up of the tokens at the end;
* `PlainC.Parser.specifier_advances`, `PlainC.Parser.declarator_advances`,
  `PlainC.Parser.expressionWithin_advances` — the rules for specifiers, declarators and expressions.
-/

import PlainC.Proofs.Parsing.Alike
import PlainC.Proofs.Parsing.Taking

set_option relaxedAutoImplicit false
set_option autoImplicit false

namespace PlainC.Parser

variable {α β : Type} {s : Setting} {p q : Progress}

/-- How far a reading has come, also when it stops with a fault. -/
def reached : EStateM.Result Stop Progress α → Progress
  | .ok _ p | .error _ p => p

/-- A parser that only ever goes on: what it leaves is a last part of what it was given. -/
def Advances (x : Parser α) : Prop := ∀ s p, (reached (x s p)).rest <:+ p.rest

namespace Advances

theorem of_ok {x : Parser α} (hx : Advances x) {a : α} (h : x s p = .ok a q) :
    q.rest <:+ p.rest := by
  simpa [h, reached] using hx s p

theorem length_le {x : Parser α} (hx : Advances x) {a : α} (h : x s p = .ok a q) :
    q.rest.length ≤ p.rest.length :=
  (hx.of_ok h).length_le

/-- A parser that leaves everything where it is. -/
theorem of_stays {x : Parser α} (h : ∀ s p, reached (x s p) = p) : Advances x := by
  intro s p
  have same : (reached (x s p)).rest = p.rest := congrArg Progress.rest (h s p)
  exact ⟨[], same⟩

theorem bind {x : Parser α} {k : α → Parser β} (hx : Advances x) (hk : ∀ a, Advances (k a)) :
    Advances (x >>= k) := by
  intro s p
  change (reached (EStateM.bind (x s) (fun a => k a s) p)).rest <:+ p.rest
  have first := hx s p
  unfold EStateM.bind
  cases found : x s p with
  | ok a r =>
      rw [found] at first
      exact (hk a s r).trans first
  | error stop r =>
      rw [found] at first
      exact first

theorem locatedAt (t : Token) {x : Parser α} (hx : Advances x) : Advances (locatedAt t x) := by
  intro s p
  have inner := hx s p
  unfold Parser.locatedAt
  cases found : x s p with
  | ok a r => simpa [found, reached] using inner
  | error stop r => cases stop <;> simpa [found, reached] using inner

end Advances

/-- **What is put together of the building blocks never goes back.** -/
theorem Alike.advances {adjust : Options → Options} {longer : Prop} {f : α → β} {x : Parser α}
    {y : Parser β} (h : Alike adjust longer f x y) : Advances x := by
  induction h with
  | bindMap _ _ first second => exact first.bind second
  | beyond _ _ ih =>
      exact .bind (.of_stays fun _ _ => rfl) fun t => .bind (.of_stays fun _ _ => rfl) (ih t)
  | advance => exact fun _ p => List.tail_suffix p.rest
  | note => exact fun _ _ => List.suffix_refl _
  | locatedAt t _ ih => exact ih.locatedAt t
  | budgeted _ ih => exact fun s p => ih _ _ (Nat.le_refl _) (.inr rfl) s p
  | _ => exact .of_stays fun _ _ => rfl

/-- What the second run comes to is what the first one could have come to. -/
theorem Alike.exists_eq {longer : Prop} {f : α → β} {x : Parser α} {y : Parser β}
    (h : Alike id longer f x y) {b : β} (read : y s p = .ok b q) : ∃ a, f a = b := by
  induction h generalizing p q with
  | pure same => exact ⟨_, same.trans (pure_eq_ok_iff.1 read).1⟩
  | bindMap _ _ first second =>
      obtain ⟨_, r, found, rest⟩ := bind_eq_ok_iff.1 read
      obtain ⟨a, rfl⟩ := first found
      exact second a rest
  | beyond _ _ ih => exact ih _ _ read
  | outlasted _ _ ih => exact ih read
  | locatedAt t _ ih => exact ih (locatedAt_eq_ok_iff.1 read)
  | budgeted _ ih => exact ih _ _ (Nat.le_refl _) (.inr rfl) read
  | refuse | fail | exhausted => cases read
  | _ => exact ⟨b, rfl⟩

/-- Neither does the second run. -/
theorem Alike.advances_right {longer : Prop} {f : α → β} {x : Parser α} {y : Parser β}
    (h : Alike id longer f x y) : Advances y := by
  induction h with
  | @bindMap _ _ _ _ _ _ _ y _ k' alike _ first second =>
      intro s p
      have start := first s p
      cases found : y s p with
      | ok b r =>
          obtain ⟨a, rfl⟩ := alike.exists_eq found
          rw [found] at start
          rw [bind_of_ok found]
          exact (second a s r).trans start
      | error stop r =>
          rw [found] at start
          change (reached (EStateM.bind (y s) (fun b => k' b s) p)).rest <:+ p.rest
          rw [EStateM.bind, found]
          exact start
  | beyond _ _ ih =>
      exact .bind (.of_stays fun _ _ => rfl) fun t => .bind (.of_stays fun _ _ => rfl) (ih t)
  | outlasted _ _ ih => exact ih
  | advance => exact fun _ p => List.tail_suffix p.rest
  | note => exact fun _ _ => List.suffix_refl _
  | locatedAt t _ ih => exact ih.locatedAt t
  | budgeted _ ih => exact fun s p => ih _ _ (Nat.le_refl _) (.inr rfl) s p
  | _ => exact .of_stays fun _ _ => rfl

/-- A parser that takes the lexemes of some tokens leaves exactly the tokens behind them. -/
theorem Takes.leaves {x : Parser α} {P : α → Prop} {front rest : List Token}
    (h : Takes s x ((front ++ rest).map Token.lexeme) P (rest.map Token.lexeme))
    (advances : Advances x) (names : List String) :
    ∃ a names', x s ⟨front ++ rest, names⟩ = .ok a ⟨rest, names'⟩ ∧ P a := by
  obtain ⟨a, ⟨left, names'⟩, read, ha, lexemes⟩ := h ⟨front ++ rest, names⟩ rfl
  have same : left.length = rest.length := by
    simpa [Progress.lexemes] using congrArg List.length lexemes
  have suffix := List.suffix_of_suffix_length_le (advances.of_ok read)
    (List.suffix_append front rest) (Nat.le_of_eq same)
  obtain rfl : left = rest := suffix.eq_of_length same
  exact ⟨a, names', read, ha⟩

theorem specifier_advances : Advances specifier :=
  (specifier_alike : Alike id False id specifier specifier).advances

theorem declarator_advances (nameless : Bool) : Advances (declarator nameless) :=
  (declarator_alike nameless :
    Alike id False id (declarator nameless) (declarator nameless)).advances

theorem topDeclarator_advances : Advances topDeclarator :=
  (topDeclarator_alike : Alike id False id topDeclarator topDeclarator).advances

theorem sizeofType_advances : Advances sizeofType :=
  (sizeofType_alike : Alike id False id sizeofType sizeofType).advances

theorem expressionWithin_advances (n level : Nat) : Advances (expressionWithin n level) :=
  (expressionWithin_alike (Nat.le_refl n) (.inr rfl) level :
    Alike id False id (expressionWithin n level) (expressionWithin n level)).advances

end PlainC.Parser
