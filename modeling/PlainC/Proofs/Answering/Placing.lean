/-
**Every fault has a place.**

Where trees are put together from parts, a fault is raised without a place.  The rules that put them
together on the way to an expression or a unit are given the place of a token, so that no fault gets
out of an expression, or out of a unit, without one.

Main definitions:

* `PlainC.Parser.Places` — a rule that gives every fault a place.

Main results:

* `PlainC.Parser.expression_places` — **every fault in an expression has a place**;
* `PlainC.unitsWithin_places` — **every fault in a unit has a place**.
-/

import PlainC.Tree.Parser.Program

set_option relaxedAutoImplicit false
set_option autoImplicit false

namespace PlainC

namespace Parser

variable {α β : Type}

/-! ### Rules that place their faults -/

/-- A rule that stops with a fault has given it a place. -/
def Places (x : Parser β) : Prop :=
  ∀ s p d q, x s p = .error (.fault d) q → d.location.isSome

namespace Places

/-- A rule that does not stop. -/
theorem of_ok {x : Parser β} (h : ∀ s p, ∃ b q, x s p = .ok b q) : Places x := by
  intro s p d q stopped
  obtain ⟨b, r, ends⟩ := h s p
  rw [ends] at stopped
  cases stopped

theorem pure (b : β) : Places (pure b) := of_ok fun _ p => ⟨b, p, rfl⟩

theorem bind {x : Parser α} {k : α → Parser β} (hx : Places x) (hk : ∀ a, Places (k a)) :
    Places (x >>= k) := by
  intro s p d q stopped
  change EStateM.bind (x s) (fun a => k a s) p = _ at stopped
  unfold EStateM.bind at stopped
  cases first : x s p with
  | ok a r =>
      rw [first] at stopped
      exact hk a s r d q stopped
  | error stop r =>
      rw [first] at stopped
      cases stopped
      exact hx s p d q first

/-- A rule that ends with a value made of that of another one. -/
theorem andPure {x : Parser α} (hx : Places x) (f : α → β) :
    Places (x >>= fun a => Pure.pure (f a)) :=
  hx.bind fun a => pure (f a)

theorem ite {c : Prop} [Decidable c] {x y : Parser β} (hx : Places x) (hy : Places y) :
    Places (if c then x else y) := by
  split
  · exact hx
  · exact hy

theorem ahead (distance : Nat) : Places (ahead distance) := of_ok fun _ p => ⟨_, p, rfl⟩

theorem current : Places current := ahead 0

theorem nextIs (m : Punctuator) : Places (nextIs m) := current.andPure _

theorem atEnd : Places atEnd := of_ok fun _ p => ⟨_, p, rfl⟩

theorem advance : Places advance := of_ok fun _ _ => ⟨(), _, rfl⟩

theorem note (name : String) : Places (note name) := of_ok fun _ _ => ⟨(), _, rfl⟩

theorem fail (fault : Fault) (t : Token) : Places (fail fault t : Parser β) := by
  rintro s p d q ⟨⟩
  rfl

theorem missing (expected : String) : Places (missing expected : Parser β) :=
  current.bind fun _ => fail _ _

theorem unexpected (expected : String) : Places (unexpected expected : Parser β) :=
  current.bind fun _ => fail _ _

theorem exhausted : Places (exhausted : Parser β) := by
  rintro s p d q ⟨⟩

/-- Whatever a rule leaves without a place is given one. -/
theorem locatedAt (t : Token) (x : Parser β) : Places (locatedAt t x) := by
  intro s p d q stopped
  unfold Parser.locatedAt at stopped
  split at stopped
  · cases stopped
    unfold Diagnostic.locate
    split
    · rfl
    · rename_i placed
      exact Option.ne_none_iff_isSome.1 fun none => placed (by rw [none]; rfl)
  · rename_i noFault
    exact absurd stopped (noFault d q)

/-- A rule behind a check that may stop the reading. -/
theorem checked {c : Prop} [Decidable c] {check : Parser Unit} {x : Parser β}
    (hc : Places check) (hx : Places x) : Places (if c then check >>= fun _ => x else x) :=
  ite (hc.bind fun _ => hx) hx

theorem acceptLexeme (l : Lexeme) : Places (acceptLexeme l) :=
  current.bind fun _ => .ite (advance.andPure fun _ => true) (pure false)

theorem accept (m : Punctuator) : Places (accept m) := acceptLexeme _

theorem expectAs (m : Punctuator) (expected : String) : Places (expectAs m expected) :=
  (accept m).bind fun _ => .ite (pure _) (missing _)

theorem expect (m : Punctuator) : Places (expect m) := expectAs m _

theorem identifier (expected : String) : Places (identifier expected) := by
  refine current.bind fun token => ?_
  split
  · exact advance.andPure _
  · exact missing _

theorem finish : Places finish := atEnd.bind fun _ => .ite (pure _) (unexpected _)

theorem budgeted {x : Nat → Parser β} (hx : ∀ n, Places (x n)) : Places (budgeted x) :=
  fun s p => hx (p.rest.length + 1) s p

theorem loop {step : β → Parser (ForInStep β)} (h : ∀ b, Places (step b)) (b : β) :
    Places (loop step b) := by
  refine budgeted fun n => ?_
  induction n generalizing b with
  | zero => exact exhausted
  | succ n ih =>
      refine (h b).bind fun turn => ?_
      cases turn with
      | done b' => exact pure b'
      | yield b' => exact ih b'

theorem moreAfterCommas {item : Parser β} (h : Places item) (found : List β) :
    Places (moreAfterCommas item found) := by
  refine loop (fun found => (accept .comma).bind fun more => ite ?_ (pure _)) found
  exact h.andPure _

theorem commaSeparated {item : Parser β} (h : Places item) : Places (commaSeparated item) :=
  h.bind fun _ => h.moreAfterCommas _

end Places

/-! ### Specifiers -/

theorem specifierWord_places (sp : Specifier String) : Places (specifierWord sp) := by
  refine Places.current.bind fun token => ?_
  split
  · exact Places.advance.andPure _
  · exact Places.advance.andPure _
  · refine Places.advance.bind fun _ => (Places.identifier _).bind fun name => ?_
    refine (Places.nextIs _).bind fun brace => ?_
    exact .checked (.fail _ _) ((Places.note name).andPure _)
  · split
    · exact Places.advance.andPure _
    · exact .pure _

theorem specifier_places : Places specifier := by
  refine Places.current.bind fun start => (Places.loop specifierWord_places _).bind fun sp => ?_
  exact .checked (.missing _) ((Places.locatedAt _ _).andPure _)

/-! ### Expressions -/

theorem memberName_places : Places memberName :=
  (Places.identifier _).bind fun name => (Places.note name).andPure _

theorem atParenthesizedType_places : Places atParenthesizedType := by
  refine (Places.nextIs _).bind fun paren => ?_
  cases paren with
  | false => exact .pure _
  | true => exact (Places.ahead 1).andPure _

section

variable {nested : Nat → Parser (Expr String)} (hn : ∀ level, Places (nested level))
include hn

theorem primaryWith_places : Places (primaryWith nested) := by
  refine Places.current.bind fun token => ?_
  split
  · exact Places.advance.andPure _
  split
  · exact Places.advance.bind fun _ => (Places.note _).andPure _
  refine (Places.accept _).bind fun paren => .ite ?_ (.unexpected _)
  exact (hn _).bind fun inner => (Places.expect _).andPure _

theorem argumentsWith_places : Places (argumentsWith nested) :=
  (Places.accept _).bind fun _ => .ite (.pure _)
    ((hn _).commaSeparated.bind fun _ => (Places.expect _).andPure _)

theorem suffixWith_places (e : Expr String) : Places (suffixWith nested e) := by
  refine Places.current.bind fun token => (Places.accept _).bind fun call => .ite ?_ ?_
  · split
    · exact (argumentsWith_places hn).andPure _
    · exact .fail _ _
  refine (Places.accept _).bind fun subscript => .ite ?_ ?_
  · exact (hn _).bind fun _ => (Places.expect _).andPure _
  refine (Places.accept _).bind fun dot => .ite (memberName_places.andPure _) ?_
  refine (Places.accept _).bind fun arrow => .ite (memberName_places.andPure _) ?_
  split
  · exact Places.advance.andPure _
  · exact .pure _

theorem suffixedWith_places : Places (suffixedWith nested) :=
  (primaryWith_places hn).bind fun e => .loop (suffixWith_places hn) e

theorem castWith_places : Places (castWith nested) := by
  refine Places.current.bind fun start => Places.advance.bind fun _ => ?_
  refine specifier_places.bind fun sp => ?_
  split
  · refine Places.current.bind fun token => .checked (.fail _ _) ?_
    exact (Places.expect _).bind fun _ => (hn _).andPure _
  · exact .fail _ _

/-- A size is put together under the place of its word. -/
theorem operandWith_places : Places (operandWith nested) := by
  refine Places.current.bind fun token => ?_
  split
  · exact Places.advance.bind fun _ => (hn _).andPure _
  refine .ite (Places.advance.bind fun _ => .locatedAt _ _) ?_
  refine atParenthesizedType_places.bind fun type => ?_
  exact .ite (castWith_places hn) (suffixedWith_places hn)

theorem operationWith_places (level : Nat) (left : Expr String) :
    Places (operationWith nested level left) := by
  refine Places.current.bind fun token => ?_
  split
  · exact .pure _
  · exact .ite (.pure _) (Places.advance.bind fun _ => (hn _).andPure _)

theorem expressionWith_places (level : Nat) : Places (expressionWith nested level) :=
  (operandWith_places hn).bind fun e => .loop (operationWith_places hn level) e

end

theorem expressionWithin_places (n level : Nat) : Places (expressionWithin n level) := by
  induction n generalizing level with
  | zero => exact .exhausted
  | succ n ih => exact expressionWith_places ih level

/-- **Every fault in an expression has a place.** -/
theorem expression_places : Places expression := .budgeted fun n => expressionWithin_places n _

theorem wholeExpression_places : Places wholeExpression :=
  expression_places.bind fun _ => Places.finish.andPure _

/-! ### Programs -/

end Parser

/-- **Every fault in a unit has a place**: a unit is read under the place of its first token. -/
theorem unitsWithin_places {s : Setting} {n : Nat} {p : Progress} {d : Diagnostic}
    (stopped : (unitsWithin s n p).stop = some (.fault d)) : d.location.isSome := by
  induction n generalizing p with
  | zero => cases stopped
  | succ n ih =>
      unfold unitsWithin at stopped
      split at stopped
      · cases stopped
      split at stopped
      · rename_i read
        cases stopped
        exact Parser.Places.locatedAt _ _ _ _ _ _ read
      · exact ih stopped

theorem Parser.program_places : Places program := by
  intro s p d q stopped
  unfold program at stopped
  dsimp only at stopped
  split at stopped
  · cases stopped
  · rename_i why
    cases stopped
    exact unitsWithin_places why

end PlainC
