/-
**Every call ends, also behind a fault.**

A reader may be asked for a program, a statement or an expression again and again, wherever it
stands, and whether or not the call before ended with a fault.  Each call ends with a tree or with a
fault: the rules read tokens and never go back, so that the budgets, which are no greater than the
number of tokens left and one, are never used up.

Main definitions:

* `PlainC.Parser.Consumes`, `PlainC.Parser.Turns` — a rule, and the step of a loop, that read a
  token;
* `PlainC.Parser.RulesConsume`, `PlainC.Parser.LoopsConsume`, `PlainC.Parser.BudgetsLast` — what is
  known of the rules, of the loops and of the budgets;
* `PlainC.Reader.resume` — a reader after some calls.

Main results:

* `PlainC.Parser.rulesConsume`, `PlainC.Parser.loopsConsume`, `PlainC.Parser.budgetsLast` — the
  rules and the turns of the loops read tokens, and the budgets last;
* `PlainC.Reader.call_ends` — **every call ends, and goes on from where the calls before have
  come**.
-/

import PlainC.Proofs.Comparison.Recasting
import PlainC.Proofs.Parsing.Advance
import PlainC.Proofs.Parsing.Outlasting
import PlainC.Source

set_option relaxedAutoImplicit false
set_option autoImplicit false

namespace PlainC

namespace Parser

variable {α β : Type} {s : Setting}

/-! ### What is read -/

/-- A rule that never goes back, and reads a token at least when it succeeds. -/
def Consumes (s : Setting) (x : Parser α) : Prop :=
  Advances x ∧ ∀ p a q, x s p = .ok a q → q.rest.length < p.rest.length

/-- The step of a loop that never goes back, and reads a token at least in every turn behind which
the loop goes on. -/
def Turns (s : Setting) (step : β → Parser (ForInStep β)) : Prop :=
  (∀ b, Advances (step b)) ∧
    ∀ b p c q, step b s p = .ok (.yield c) q → q.rest.length < p.rest.length

/-- A rule that stops with nothing but a fault while fewer than `n` tokens are left: it does not use
up a budget. -/
def Lasts (s : Setting) (n : Nat) (x : Parser α) : Prop :=
  ∀ p stop q, p.rest.length < n → x s p = .error stop q → stop.IsFault

/-- Every rule that must read something reads a token, whatever its budget. -/
structure RulesConsume (s : Setting) : Prop where
  specifier : Consumes s specifier
  declarator : ∀ n, Consumes s (declaratorWithin false n)
  topDeclarator : Consumes s topDeclarator
  operand : ∀ n, Consumes s (operandWith (expressionWithin n))
  expression : ∀ n level, Consumes s (expressionWithin n level)
  statement : ∀ n, Consumes s (statementWithin n)
  block : ∀ n, Consumes s (blockWith (statementWithin n))
  unit : Consumes s unit

/-- Every loop reads a token in each turn behind which it goes on.  The turns of the outermost loop
are the units. -/
structure LoopsConsume (s : Setting) : Prop where
  words : Turns s specifierWord
  pointers : Turns s pointerMark
  suffixes : ∀ list inParentheses, (∀ x ∈ list, x = parameterList) →
    Turns s (declaratorSuffix list inParentheses)
  commas : ∀ {α : Type} (item : Parser α), Advances item → Turns s (itemAfterComma item)
  operandSuffixes : ∀ n, Turns s (suffixWith (expressionWithin n))
  operations : ∀ n level, Turns s (operationWith (expressionWithin n) level)
  items : ∀ n, Turns s (blockItem (statementWithin n))
  members : ∀ struct, Turns s (structMembers struct)
  units : ∀ t, Consumes s (locatedAt t unit)

/-- A budget that is greater than the number of tokens left is not used up. -/
structure BudgetsLast (s : Setting) : Prop where
  declarator : ∀ nameless n, Lasts s n (declaratorWithin nameless n)
  expression : ∀ n level, Lasts s n (expressionWithin n level)
  statement : ∀ n, Lasts s n (statementWithin n)
  units : ∀ n p stop, p.rest.length < n → (unitsWithin s n p).stop = some stop → stop.IsFault

/-! ### Rules and loops -/

theorem Ends.consumes (hs : s.Closed) {n : Nat} {x : Parser α} (hx : Ends anyToken n x fun _ => 1)
    (goesOn : Advances x) : Consumes s x := by
  refine ⟨goesOn, fun p a q read => ?_⟩
  have here := hx s p hs trivial
  rw [read] at here
  exact here

theorem Ends.turns (hs : s.Closed) {n : Nat} {step : β → Parser (ForInStep β)}
    (h : ∀ b, Ends anyToken n (step b) turnCost) (goesOn : ∀ b, Advances (step b)) :
    Turns s step := by
  refine ⟨goesOn, fun b p c q read => ?_⟩
  have here := h b s p hs trivial
  rw [read] at here
  exact here

theorem Ends.lasts (hs : s.Closed) {n : Nat} {x : Parser α} {cost : α → Nat}
    (hx : Ends anyToken n x cost) : Lasts s n x := by
  intro p stop q short stopped
  have here := hx s p hs trivial
  rw [stopped] at here
  exact here short

theorem declaratorWithin_alike (nameless : Bool) (n : Nat) :
    Alike id False id (declaratorWithin nameless n) (declaratorWithin nameless n) := by
  induction n with
  | zero => exact .exhausted
  | succ n ih => exact declaratorWith_alike ih (by simp) nameless

theorem expressionWithin_alike_self (n level : Nat) :
    Alike id False id (expressionWithin n level) (expressionWithin n level) :=
  expressionWithin_alike (Nat.le_refl n) (.inr rfl) level

theorem statementWithin_alike_self (n : Nat) :
    Alike id False id (statementWithin n) (statementWithin n) :=
  statementWithin_alike .same (Nat.le_refl n) (.inr rfl)

theorem unit_advances : Advances unit :=
  (unit_alike .same not_false : Alike id False _ unit unit).advances

/-- **Every rule that must read something reads a token.** -/
theorem rulesConsume (hs : s.Closed) : RulesConsume s where
  specifier := specifier_ends.consumes (n := 0) hs specifier_advances
  declarator n := (declaratorWithin_ends false n).consumes hs
    (declaratorWithin_alike false n).advances
  topDeclarator := topDeclarator_ends.consumes (n := 0) hs
    (topDeclarator_alike : Alike id False _ topDeclarator topDeclarator).advances
  operand n := (operandWith_ends (expressionWithin_ends n)).consumes hs
    (operandWith_alike (expressionWithin_alike_self n)).advances
  expression n level :=
    (expressionWithin_ends n level).consumes hs (expressionWithin_advances n level)
  statement n := (statementWithin_ends n).consumes hs (statementWithin_alike_self n).advances
  block n := (blockWith_ends (statementWithin_ends n)).consumes hs
    (blockWith_alike .same (statementWithin_alike_self n)).advances
  unit := unit_ends.consumes (n := 0) hs unit_advances

/-- **Every loop reads a token in each turn behind which it goes on.** -/
theorem loopsConsume (hs : s.Closed) : LoopsConsume s where
  words := by
    refine ⟨fun sp => (specifierWord_alike sp : Alike id False id _ _).advances, ?_⟩
    intro sp p sp' q read
    have here := specifierWord_ends (n := 0) sp s p hs trivial
    rw [read] at here
    simp only [gaugedCost] at here
    omega
  pointers := Ends.turns (n := 0) hs pointerMark_ends fun layers =>
    (pointerMark_alike layers : Alike id False id _ _).advances
  suffixes list inParentheses isList := by
    have ends : ∀ x ∈ list, Ends anyToken 0 x fun _ => 1 :=
      fun x hx => isList x hx ▸ parameterList_ends
    have alike : ∀ x ∈ list, Alike id False id x x :=
      fun x hx => isList x hx ▸ parameterList_alike
    exact Ends.turns hs (declaratorSuffix_ends ends inParentheses) fun d =>
      (declaratorSuffix_alike alike inParentheses d).advances
  commas item goesOn := by
    have comma : Advances (accept .comma) := (Alike.accept .comma : Alike id False id _ _).advances
    have stays {γ : Type} (a : γ) : Advances (pure a) := .of_stays fun _ _ => rfl
    refine ⟨fun items => .bind comma fun more => ?_, fun items p items' q read => ?_⟩
    · cases more with
      | true => exact goesOn.bind fun _ => stays _
      | false => exact stays _
    unfold itemAfterComma at read
    rw [accept_bind] at read
    split at read
    · rename_i comma
      obtain ⟨a, r, one, rest⟩ := bind_eq_ok_iff.1 read
      obtain ⟨-, rfl⟩ := pure_eq_ok_iff.1 rest
      have less : p.behind.rest.length < p.rest.length :=
        Progress.length_behind_lt hs (by rw [comma]; exact Lexeme.noConfusion)
      exact Nat.lt_of_le_of_lt (goesOn.length_le one) less
    · obtain ⟨same, -⟩ := pure_eq_ok_iff.1 read
      cases same
  operandSuffixes n := Ends.turns hs (suffixWith_ends (expressionWithin_ends n)) fun e =>
    (suffixWith_alike (expressionWithin_alike_self n) e).advances
  operations n level := Ends.turns hs (operationWith_ends (expressionWithin_ends n) level) fun e =>
    (operationWith_alike (expressionWithin_alike_self n) level e).advances
  items n := Ends.turns hs (blockItem_ends (statementWithin_ends n)) fun statements =>
    (blockItem_alike .same (statementWithin_alike_self n) statements).advances
  members struct := Ends.turns (n := 0) hs (structMembers_ends struct) fun members =>
    (structMembers_alike struct members : Alike id False id _ _).advances
  units t := (unit_ends.locatedAt t).consumes (n := 0) hs (unit_advances.locatedAt t)

/-- The reading of units never goes back. -/
theorem unitsWithin_suffix (n : Nat) (p : Progress) :
    (unitsWithin s n p).progress.rest <:+ p.rest := by
  induction n generalizing p with
  | zero => exact List.suffix_refl _
  | succ n ih =>
      unfold unitsWithin
      split
      · exact List.suffix_refl _
      have goesOn := unit_advances.locatedAt (p.rest.headD s.ending) s p
      cases read : Parser.locatedAt (p.rest.headD s.ending) unit s p with
      | error stop q => rwa [read] at goesOn
      | ok us q =>
          rw [read] at goesOn
          exact (ih q).trans goesOn

/-- The reading of units ends: behind each of them fewer tokens are left. -/
theorem unitsWithin_lasts (hs : s.Closed) {n : Nat} {p : Progress} (short : p.rest.length < n) :
    ∀ stop, (unitsWithin s n p).stop = some stop → stop.IsFault := by
  induction n generalizing p with
  | zero => exact absurd short (Nat.not_lt_zero _)
  | succ n ih =>
      unfold unitsWithin
      by_cases none : p.rest.isEmpty
      · rw [if_pos none]
        rintro _ ⟨⟩
      rw [if_neg none]
      have ends : Ends anyToken (n + 1) (locatedAt (p.rest.headD s.ending) unit) fun _ => 1 :=
        unit_ends.locatedAt _
      cases read : Parser.locatedAt (p.rest.headD s.ending) unit s p with
      | error stop q =>
          rintro _ ⟨⟩
          exact ends.lasts hs p stop q short read
      | ok us q =>
          have less := (ends.consumes hs (unit_advances.locatedAt _)).2 p us q read
          exact ih (by omega)

/-- **A budget that is greater than the number of tokens left is not used up.** -/
theorem budgetsLast (hs : s.Closed) : BudgetsLast s where
  declarator nameless n := (declaratorWithin_ends nameless n).lasts hs
  expression n level := (expressionWithin_ends n level).lasts hs
  statement n := (statementWithin_ends n).lasts hs
  units _ _ stop short := unitsWithin_lasts hs short stop

theorem finish_alike : Alike id False id finish finish :=
  .bind .atEnd fun _ => .ite (.pure rfl) (.unexpected _)

theorem wholeStatement_alike : Alike id False id wholeStatement wholeStatement := by
  have done (st : Stmt String) : Alike id False id (finish >>= fun _ => pure st)
      (finish >>= fun _ => pure st) :=
    .bind finish_alike fun _ => .pure rfl
  refine .bind .current fun token => .ite (.bind (.locatedAt _ ?_) done)
    (.bind (statement_alike .same) done)
  refine .bind localVariables_alike fun vs => ?_
  split
  · exact .pure rfl
  · exact .fail _ _

theorem program_advances : Advances program := by
  intro s p
  have goesOn := unitsWithin_suffix (s := s) (p.rest.length + 1) p
  unfold program units
  dsimp only
  split <;> exact goesOn

theorem program_ends {n : Nat} : Ends anyToken n program fun _ => 0 := by
  intro s p hs _
  have goesOn := unitsWithin_suffix (s := s) (p.rest.length + 1) p
  have lasts := unitsWithin_lasts hs (Nat.lt_succ_self p.rest.length)
  unfold program units
  cases found : (unitsWithin s (p.rest.length + 1) p).stop with
  | none =>
      simp only [found]
      exact goesOn.length_le
  | some stop =>
      simp only [found]
      exact fun _ => lasts stop found

/-- Whatever is asked for, a call never goes back. -/
theorem whole_advances (goal : Goal) : Advances (whole goal) := by
  have node {γ : Type} (f : γ → Node String) (a : γ) : Advances (pure (f a)) :=
    .of_stays fun _ _ => rfl
  cases goal with
  | program => exact program_advances.bind (node _)
  | statement => exact wholeStatement_alike.advances.bind (node _)
  | expression =>
      have alike : Alike id False id wholeExpression wholeExpression :=
        .bind expression_alike fun _ => .bind finish_alike fun _ => .pure rfl
      exact alike.advances.bind (node _)

/-- Whatever is asked for, a call ends. -/
theorem whole_ends (goal : Goal) {n : Nat} : Ends anyToken n (whole goal) fun _ => 0 := by
  cases goal with
  | program => exact .bind program_ends fun _ => .pure rfl
  | statement => exact .bind wholeStatement_ends fun _ => .pure rfl
  | expression => exact .bind wholeExpression_ends fun _ => .pure rfl

end Parser

/-! ### Calls in a row -/

/-- The reader after some calls, of which any may have ended with a fault. -/
def Reader.resume (r : Reader) (goals : List Goal) : Reader :=
  goals.foldl (fun r goal => (r.call (Parser.whole goal)).2) r

theorem Reader.call_goesOn (r : Reader) (goal : Goal) :
    (r.call (Parser.whole goal)).2.setting = r.setting ∧
      (r.call (Parser.whole goal)).2.progress.rest <:+ r.progress.rest := by
  have suffix := Parser.whole_advances goal r.setting r.progress
  unfold call
  split <;>
    · rename_i read
      rw [read] at suffix
      exact ⟨rfl, suffix⟩

/-- Calls in a row go on, each from where the one before it has come. -/
theorem Reader.resume_goesOn (r : Reader) (goals : List Goal) :
    (r.resume goals).setting = r.setting ∧ (r.resume goals).progress.rest <:+ r.progress.rest := by
  induction goals generalizing r with
  | nil => exact ⟨rfl, List.suffix_refl _⟩
  | cons goal goals ih =>
      obtain ⟨setting, suffix⟩ := r.call_goesOn goal
      obtain ⟨settings, more⟩ := ih (r.call (Parser.whole goal)).2
      exact ⟨settings.trans setting, more.trans suffix⟩

/-- A call comes to a tree or to a fault. -/
theorem Reader.call_ok_or_fault {r : Reader} (hr : r.setting.Closed) (goal : Goal) :
    (∃ tree, (r.call (Parser.whole goal)).1 = .ok tree) ∨
      ∃ d, (r.call (Parser.whole goal)).1 = .error (.fault d) := by
  have lasts := (Parser.whole_ends goal).lasts (n := r.progress.rest.length + 1) hr r.progress
  unfold call
  cases read : Parser.whole goal r.setting r.progress with
  | ok tree q => exact .inl ⟨tree, rfl⟩
  | error stop q =>
      obtain ⟨d, rfl⟩ := lasts stop q (Nat.lt_succ_self _) read
      exact .inr ⟨d, rfl⟩

/-- **Every call ends, and goes on from where the calls before have come**: wherever the reading
begins, and whatever was asked for before, a call comes to a tree or a fault and never goes back.
The rules that must read something read a token, as do the turns of the loops, and no budget is
used up. -/
theorem Reader.call_ends {ending : Token} (last : ending.lexeme = .ending) (tokens : List Token)
    (file : String) (lines : List String) (options : Options) (cursor : Nat) (names : List String)
    (earlier : List Goal) (goal : Goal) :
    ∃ r, ofTokens file lines options (tokens ++ [ending]) = some r ∧
      let start : Reader := ⟨r.setting, ⟨r.progress.rest.drop cursor, names⟩⟩
      let here := start.resume earlier
      let outcome := here.call (Parser.whole goal)
      here.progress.rest <:+ start.progress.rest ∧
        outcome.2.progress.rest <:+ here.progress.rest ∧
        ((∃ tree, outcome.1 = .ok tree) ∨ ∃ d, outcome.1 = .error (.fault d)) ∧
        Parser.RulesConsume r.setting ∧ Parser.LoopsConsume r.setting ∧
        Parser.BudgetsLast r.setting := by
  obtain ⟨first, found⟩ : ∃ first, (tokens ++ [ending]).find? isEnding = some first := by
    rw [← Option.isSome_iff_exists, List.find?_isSome]
    exact ⟨ending, by simp, decide_eq_true last⟩
  refine ⟨⟨⟨file, lines, options, first⟩, ⟨(tokens ++ [ending]).takeWhile (!isEnding ·), []⟩⟩,
    by rw [ofTokens, found]; rfl, ?_⟩
  have isFirst : first.lexeme = .ending := by simpa [isEnding] using List.find?_some found
  have closed : Setting.Closed ⟨file, lines, options, first⟩ := isFirst
  intro start here outcome
  obtain ⟨setting, suffix⟩ := resume_goesOn start earlier
  have closed' : here.setting.Closed := by
    unfold here
    rw [setting]
    exact closed
  exact ⟨suffix, (call_goesOn here goal).2, call_ok_or_fault closed' goal,
    Parser.rulesConsume closed, Parser.loopsConsume closed, Parser.budgetsLast closed⟩

/-- From the second token of `int { ( f` on: a statement and an expression, in both of which
something is missing at the end, and then a program. -/
theorem Reader.call_ends_broken_block :
    let tokens : List Token := [⟨.keyword .int, 1, 1⟩, ⟨.punctuator .braceOpen, 1, 5⟩,
      ⟨.punctuator .parenOpen, 1, 6⟩, ⟨.identifier "f", 1, 7⟩]
    let ending : Token := ⟨.ending, 1, 8⟩
    ending.lexeme = .ending ∧ ∃ r, ofTokens "a.c" [] {} (tokens ++ [ending]) = some r ∧
      let start : Reader := ⟨r.setting, ⟨r.progress.rest.drop 1, []⟩⟩
      let here := start.resume [.statement, .expression]
      let outcome := here.call (Parser.whole .program)
      here.progress.rest <:+ start.progress.rest ∧
        outcome.2.progress.rest <:+ here.progress.rest ∧
        ((∃ tree, outcome.1 = .ok tree) ∨ ∃ d, outcome.1 = .error (.fault d)) ∧
        Parser.RulesConsume r.setting ∧ Parser.LoopsConsume r.setting ∧
        Parser.BudgetsLast r.setting := by
  intro tokens ending
  exact ⟨rfl, Reader.call_ends rfl tokens "a.c" [] {} 1 [] [.statement, .expression] .program⟩

end PlainC
