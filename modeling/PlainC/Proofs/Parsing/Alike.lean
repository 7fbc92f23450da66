/-
**Parsers that are put together alike.**

Two runs of the same rule can differ in what they are given: in the options, in the names met
before, in what stands behind the tokens of a unit, and with it in the budgets.  What can be said
of the two runs depends only on how the rule is put together.  This module describes that once, as a
relation between two parsers, and goes through the rules once; later modules go through the few
ways of putting parsers together instead.

A rule that looks past the token at the front does so only if this is an opening parenthesis or
`void`.  So a reading that is to end with any other token does not see what stands behind it.

Main definitions:

* `PlainC.Lexeme.looksPast` — the lexemes behind which a second token may be looked at;
* `PlainC.Lexeme.endsUnit` — the lexemes behind which a unit can be over;
* `PlainC.Parser.Alike` — the two parsers are put together in the same way.

Main results:

* `PlainC.Parser.Alike.loop`, `PlainC.Parser.Alike.commaSeparated` — repetition;
* `PlainC.Parser.specifier_alike`, `PlainC.Parser.declarator_alike`,
  `PlainC.Parser.expression_alike` — the rules for specifiers, declarators and expressions.
-/

import PlainC.Tree.Parser.Statement

set_option relaxedAutoImplicit false
set_option autoImplicit false

namespace PlainC

/-- The lexemes that can stand last in a unit: the semicolon and the closing brace. -/
def Lexeme.endsUnit (l : Lexeme) : Bool :=
  l = .punctuator .semicolon || l = .punctuator .braceClose

theorem Lexeme.endsUnit_iff {l : Lexeme} :
    l.endsUnit = true ↔ l = .punctuator .semicolon ∨ l = .punctuator .braceClose := by
  simp [endsUnit]

/-- The lexemes behind which a second token may be looked at: the opening parenthesis, and the
`void` that may stand for no parameters. -/
def Lexeme.looksPast (l : Lexeme) : Bool :=
  l = .punctuator .parenOpen || l = .keyword .void

theorem Lexeme.looksPast_eq_false_iff {l : Lexeme} :
    l.looksPast = false ↔ l ≠ .punctuator .parenOpen ∧ l ≠ .keyword .void := by
  simp [looksPast]

theorem Lexeme.looksPast_of_endsUnit {l : Lexeme} (h : l.endsUnit = true) :
    l.looksPast = false := by
  rcases endsUnit_iff.1 h with rfl | rfl <;> rfl

/-- The turn of a loop with its result replaced. -/
def mapTurn {α β : Type} (f : α → β) : ForInStep α → ForInStep β
  | .done a => .done (f a)
  | .yield a => .yield (f a)

@[simp] theorem mapTurn_id {α : Type} : mapTurn (id : α → α) = id := by
  funext turn
  cases turn <;> rfl

namespace Parser

/-! ### The relation -/

/-- The two parsers are put together in the same way, where the options of the second run are
`adjust` of those of the first, and its result is `f` of that of the first.  If `longer` holds, the
second run may see more tokens than the first, and have greater budgets. -/
inductive Alike (adjust : Options → Options) (longer : Prop) :
    {α β : Type} → (α → β) → Parser α → Parser β → Prop
  | pure {α β : Type} {f : α → β} {a : α} {b : β} :
      f a = b → Alike adjust longer f (pure a) (pure b)
  | bindMap {α β γ δ : Type} {f : α → β} {g : γ → δ} {x : Parser α} {y : Parser β}
      {k : α → Parser γ} {k' : β → Parser δ} :
      Alike adjust longer f x y → (∀ a, Alike adjust longer g (k a) (k' (f a))) →
      Alike adjust longer g (x >>= k) (y >>= k')
  | current : Alike adjust longer id current current
  /-- The second token is looked at only behind some lexemes. -/
  | beyond {α β : Type} {f : α → β} {k : Token → Token → Parser α}
      {k' : Token → Token → Parser β} :
      (∀ t u, Alike adjust longer f (k t u) (k' t u)) →
      (∀ t u u', t.lexeme.looksPast = false → k' t u = k' t u') →
      Alike adjust longer f (current >>= fun t => ahead 1 >>= k t)
        (current >>= fun t => ahead 1 >>= k' t)
  | ahead {n : Nat} : ¬ longer → Alike adjust longer id (ahead n) (ahead n)
  | atEnd : Alike adjust longer id atEnd atEnd
  | refuse {α β : Type} {f : α → β} (fault : Fault) :
      Alike adjust longer f (refuse fault) (refuse fault)
  | fail {α β : Type} {f : α → β} (fault : Fault) (t : Token) :
      Alike adjust longer f (fail fault t) (fail fault t)
  | exhausted {α β : Type} {f : α → β} : Alike adjust longer f exhausted exhausted
  /-- The second run goes on with a rule that is put together like another one. -/
  | outlasted {α β : Type} {f : α → β} {x : Parser α} {y : Parser β} :
      longer → Alike adjust longer f x y → Alike adjust longer f exhausted y
  | advance : Alike adjust longer id advance advance
  | note (name : String) : Alike adjust longer id (note name) (note name)
  | options : Alike adjust longer adjust options options
  | locatedAt {α β : Type} {f : α → β} {x : Parser α} {y : Parser β} (t : Token) :
      Alike adjust longer f x y → Alike adjust longer f (locatedAt t x) (locatedAt t y)
  | budgeted {α β : Type} {f : α → β} {x : Nat → Parser α} {y : Nat → Parser β} :
      (∀ m n, m ≤ n → longer ∨ m = n → Alike adjust longer f (x m) (y n)) →
      Alike adjust longer f (budgeted x) (budgeted y)

variable {adjust : Options → Options} {longer : Prop}

namespace Alike

variable {α β γ δ : Type} {f : α → β} {g : γ → δ}

/-! ### Sequence and choice -/

theorem bind {x y : Parser α} {k : α → Parser γ} {k' : α → Parser δ}
    (h : Alike adjust longer id x y) (hk : ∀ a, Alike adjust longer g (k a) (k' a)) :
    Alike adjust longer g (x >>= k) (y >>= k') :=
  bindMap h hk

theorem ite {c : Prop} [Decidable c] {x x' : Parser α} {y y' : Parser β}
    (hx : Alike adjust longer f x y) (hy : Alike adjust longer f x' y') :
    Alike adjust longer f (if c then x else x') (if c then y else y') := by
  split
  · exact hx
  · exact hy

/-- A parser behind a check that may stop the reading. -/
theorem checked {c : Prop} [Decidable c] {check check' : Parser Unit} {x : Parser α} {y : Parser β}
    (hc : Alike adjust longer id check check') (hx : Alike adjust longer f x y) :
    Alike adjust longer f (if c then check >>= fun _ => x else x)
      (if c then check' >>= fun _ => y else y) :=
  ite (bind hc fun _ => hx) hx

/-- A parser in front of which something must hold, or the reading may stop. -/
theorem required {c : Prop} [Decidable c] {check check' : Parser Unit} {x : Parser α} {y : Parser β}
    (hx : Alike adjust longer f x y) (hc : Alike adjust longer id check check') :
    Alike adjust longer f (if c then x else check >>= fun _ => x)
      (if c then y else check' >>= fun _ => y) :=
  ite hx (bind hc fun _ => hx)

theorem ofExcept (result : Except Fault α) :
    Alike adjust longer id (ofExcept result) (ofExcept result) := by
  cases result with
  | ok a => exact pure rfl
  | error fault => exact refuse fault

/-! ### Reading a token -/

theorem nextIs (m : Punctuator) : Alike adjust longer id (nextIs m) (nextIs m) :=
  bind current fun _ => pure rfl

theorem missing (expected : String) : Alike adjust longer f (missing expected) (missing expected) :=
  bind current fun _ => fail _ _

theorem unexpected (expected : String) :
    Alike adjust longer f (unexpected expected) (unexpected expected) :=
  bind current fun _ => fail _ _

theorem acceptLexeme (l : Lexeme) : Alike adjust longer id (acceptLexeme l) (acceptLexeme l) :=
  bind current fun _ => ite (bind advance fun _ => pure rfl) (pure rfl)

theorem accept (m : Punctuator) : Alike adjust longer id (accept m) (accept m) := acceptLexeme _

theorem expectAs (m : Punctuator) (expected : String) :
    Alike adjust longer id (expectAs m expected) (expectAs m expected) :=
  bind (accept m) fun _ => ite (pure rfl) (missing expected)

theorem expect (m : Punctuator) : Alike adjust longer id (expect m) (expect m) := expectAs m _

theorem identifier (expected : String) :
    Alike adjust longer id (identifier expected) (identifier expected) := by
  refine bind current fun t => ?_
  split
  · exact bind advance fun _ => pure rfl
  · exact missing expected

/-! ### Recursion and repetition -/

/-- Two rules that read themselves again within a budget.  The greater budget may last where the
other one is used up, and this is the only difference that it makes. -/
theorem within {ι : Type} (x : Nat → ι → Parser α) (y : Nat → ι → Parser β)
    (hx : ∀ i, x 0 i = Parser.exhausted) (hy : ∀ i, y 0 i = Parser.exhausted)
    (step : ∀ m n, (∀ i, Alike adjust longer f (x m i) (y n i)) →
      ∀ i, Alike adjust longer f (x (m + 1) i) (y (n + 1) i))
    {m n : Nat} (hmn : m ≤ n) (same : longer ∨ m = n) (i : ι) :
    Alike adjust longer f (x m i) (y n i) := by
  have equal (n : Nat) : ∀ i, Alike adjust longer f (x n i) (y n i) := by
    induction n with
    | zero =>
        intro i
        rw [hx, hy]
        exact exhausted
    | succ n ih => exact step n n ih
  induction m generalizing n i with
  | zero =>
      rcases same with more | rfl
      · rw [hx]
        exact outlasted more (equal n i)
      · exact equal 0 i
  | succ m ih =>
      obtain ⟨n, rfl⟩ : ∃ k, n = k + 1 := ⟨n - 1, by omega⟩
      exact step m n (ih (by omega) (same.imp_right (by omega))) i

theorem loopMap {step : α → Parser (ForInStep α)} {step' : β → Parser (ForInStep β)}
    (h : ∀ a, Alike adjust longer (mapTurn f) (step a) (step' (f a))) (a : α) :
    Alike adjust longer f (loop step a) (loop step' (f a)) := by
  refine budgeted fun _ _ hmn same => within (iterate step) (fun n a => iterate step' n (f a))
    (fun _ => rfl) (fun _ => rfl) (fun m n ih a => ?_) hmn same a
  refine bindMap (h a) fun turn => ?_
  cases turn with
  | done b => exact pure rfl
  | yield b => exact ih b

theorem loop {step step' : α → Parser (ForInStep α)}
    (h : ∀ a, Alike adjust longer id (step a) (step' a)) (a : α) :
    Alike adjust longer id (loop step a) (loop step' a) :=
  loopMap (fun a => by rw [mapTurn_id]; exact h a) a

theorem itemAfterComma {item item' : Parser α} (h : Alike adjust longer id item item')
    (items : List α) :
    Alike adjust longer id (itemAfterComma item items) (itemAfterComma item' items) :=
  bind (accept _) fun _ => ite (bind h fun _ => pure rfl) (pure rfl)

theorem moreAfterCommas {item item' : Parser α} (h : Alike adjust longer id item item')
    (first : List α) :
    Alike adjust longer id (moreAfterCommas item first) (moreAfterCommas item' first) :=
  loop (itemAfterComma h) first

theorem commaSeparated {item item' : Parser α} (h : Alike adjust longer id item item') :
    Alike adjust longer id (commaSeparated item) (commaSeparated item') :=
  bind h fun _ => moreAfterCommas h _

end Alike

/-! ### Specifiers -/

theorem specifierWord_alike (sp : Specifier String) :
    Alike adjust longer id (specifierWord sp) (specifierWord sp) := by
  refine .bind .current fun token => ?_
  split
  · exact .bind .advance fun _ => .pure rfl
  · exact .bind .advance fun _ => .pure rfl
  · refine .bind .advance fun _ => .bind (.identifier _) fun name => ?_
    refine .bind (.nextIs _) fun brace => .checked (.fail _ _) ?_
    exact .bind (.note _) fun _ => .pure rfl
  · split
    · exact .bind .advance fun _ => .pure rfl
    · exact .pure rfl

theorem specifier_alike : Alike adjust longer id specifier specifier := by
  refine .bind .current fun start => .bind (.loop specifierWord_alike _) fun sp => ?_
  refine .checked (.missing _) ?_
  exact .bind (.locatedAt _ (.ofExcept _)) fun _ => .pure rfl

/-! ### Declarators -/

theorem pointerMark_alike (layers : List (Layer Int)) :
    Alike adjust longer id (pointerMark layers) (pointerMark layers) := by
  refine .bind (.accept _) fun star => .ite (.bind .current fun token => ?_) (.pure rfl)
  exact .checked (.fail _ _) (.pure rfl)

theorem pointers_alike : Alike adjust longer id pointers pointers := .loop pointerMark_alike _

theorem arraySuffix_alike : Alike adjust longer id arraySuffix arraySuffix := by
  refine .bind (.accept _) fun closed => .ite (.pure rfl) (.bind .current fun token => ?_)
  split
  · exact .bind .advance fun _ => .bind (.expect _) fun _ => .pure rfl
  · exact .fail _ _

theorem shapeOf_alike (layers : List (Layer Int)) :
    Alike adjust longer id (shapeOf layers) (shapeOf layers) :=
  .ofExcept _

/-- The second token may be looked at in front of the choice between the cores of a declarator. -/
theorem declaratorCore_eq (nested : Parser Declarator) (nameless : Bool) :
    declaratorCore nested nameless = (do
      let token ← current
      let second ← ahead 1
      match token.lexeme with
      | .identifier _ =>
          advance
          return ({ ident := some token }, false)
      | _ =>
          if token.lexeme = .punctuator .parenOpen && opensDeclarator second.lexeme then
            advance
            let inner ← nested
            expect .parenClose
            return ({ ident := inner.ident, layers := inner.layers }, true)
          unless nameless do missing "identifier"
          return ({}, false)) := by
  refine bind_congr fun token => ?_
  cases token.lexeme <;> rfl

theorem declaratorCore_alike {nested nested' : Parser Declarator}
    (hn : Alike adjust longer id nested nested') (nameless : Bool) :
    Alike adjust longer id (declaratorCore nested nameless) (declaratorCore nested' nameless) := by
  rw [declaratorCore_eq, declaratorCore_eq]
  refine .beyond (fun token second => ?_) fun token second second' other => ?_
  · split
    · exact .bind .advance fun _ => .pure rfl
    · refine .ite ?_ (.required (.pure rfl) (.missing _))
      exact .bind .advance fun _ => .bind hn fun _ => .bind (.expect _) fun _ => .pure rfl
  · split
    · rfl
    · rw [decide_eq_false (Lexeme.looksPast_eq_false_iff.1 other).1]
      rfl

theorem declaratorSuffix_alike {list : Option (Parser (List (Declaration String)))}
    (hl : ∀ x ∈ list, Alike adjust longer id x x) (inParentheses : Bool) (d : Declarator) :
    Alike adjust longer id (declaratorSuffix list inParentheses d)
      (declaratorSuffix list inParentheses d) := by
  refine .bind .current fun token => .bind (.accept _) fun bracket => .ite ?_ ?_
  · exact .checked (.fail _ _) (.bind arraySuffix_alike fun _ => .pure rfl)
  · refine .bind (.nextIs _) fun paren => .ite (.checked (.fail _ _) ?_) (.pure rfl)
    cases list with
    | some x =>
        refine .checked (.fail _ _) (.bind .advance fun _ => ?_)
        exact .bind (hl x rfl) fun _ => .pure rfl
    | none => exact .fail _ _

theorem declaratorWith_alike {nested nested' : Parser Declarator}
    {list : Option (Parser (List (Declaration String)))}
    (hn : Alike adjust longer id nested nested')
    (hl : ∀ x ∈ list, Alike adjust longer id x x) (nameless : Bool) :
    Alike adjust longer id (declaratorWith nested list nameless)
      (declaratorWith nested' list nameless) := by
  refine .bind pointers_alike fun outer => .bind (declaratorCore_alike hn _) fun core => ?_
  exact .bind (.loop (declaratorSuffix_alike hl _) _) fun _ => .pure rfl

theorem declarator_alike (nameless : Bool) :
    Alike adjust longer id (declarator nameless) (declarator nameless) := by
  let rule (n : Nat) (nameless : Bool) := declaratorWithin nameless n
  refine .budgeted fun _ _ hmn same => .within rule rule (fun _ => rfl) (fun _ => rfl)
    (fun _ _ ih nameless => ?_) hmn same nameless
  exact declaratorWith_alike (ih nameless) (by simp) _

/-! ### Parameters -/

theorem parameter_alike : Alike adjust longer id parameter parameter := by
  refine .bind specifier_alike fun sp => .bind (declarator_alike _) fun d => ?_
  split
  · exact .bind (.note _) fun _ => .bind (shapeOf_alike _) fun _ => .pure rfl
  · exact .bind (shapeOf_alike _) fun _ => .pure rfl

theorem parameterList_alike : Alike adjust longer id parameterList parameterList := by
  refine .bind (.accept _) fun closed => .ite (.pure rfl) ?_
  refine .beyond (fun token second => .ite ?_ ?_) fun token second second' other => ?_
  · exact .bind .advance fun _ => .bind .advance fun _ => .pure rfl
  · refine .bind (.commaSeparated (.bind .current fun token => ?_)) fun _ => ?_
    · exact .checked (.fail _ _) parameter_alike
    · exact .bind (.expect _) fun _ => .pure rfl
  · rw [decide_eq_false (Lexeme.looksPast_eq_false_iff.1 other).2]
    rfl

theorem topDeclarator_alike : Alike adjust longer id topDeclarator topDeclarator :=
  declaratorWith_alike (declarator_alike _) (by simpa using parameterList_alike) _

/-! ### Expressions -/

theorem sizeofType_alike : Alike adjust longer id sizeofType sizeofType := by
  refine .bind .advance fun _ => .bind specifier_alike fun sp => ?_
  refine .bind (declarator_alike _) fun d => ?_
  split
  · refine .bind (.fail _ _) fun _ => .bind (.expect _) fun _ => ?_
    exact .bind (shapeOf_alike _) fun _ => .pure rfl
  · exact .bind (.expect _) fun _ => .bind (shapeOf_alike _) fun _ => .pure rfl

theorem atParenthesizedType_alike :
    Alike adjust longer id atParenthesizedType atParenthesizedType := by
  have whole : atParenthesizedType = (do
      let token ← current
      let second ← ahead 1
      return decide (token.lexeme = .punctuator .parenOpen) && second.lexeme.startsDeclaration) :=
    rfl
  rw [whole]
  refine .beyond (fun _ _ => .pure rfl) fun token second second' other => ?_
  rw [decide_eq_false (Lexeme.looksPast_eq_false_iff.1 other).1]
  rfl

theorem memberName_alike : Alike adjust longer id memberName memberName :=
  .bind (.identifier _) fun _ => .bind (.note _) fun _ => .pure rfl

section

variable {nested nested' : Nat → Parser (Expr String)}
  (hn : ∀ level, Alike adjust longer id (nested level) (nested' level))
include hn

theorem primaryWith_alike :
    Alike adjust longer id (primaryWith nested) (primaryWith nested') := by
  refine .bind .current fun token => ?_
  split
  · exact .bind .advance fun _ => .pure rfl
  · split
    · exact .bind .advance fun _ => .bind (.note _) fun _ => .pure rfl
    · refine .bind (.accept _) fun paren => .ite ?_ (.unexpected _)
      exact .bind (hn _) fun _ => .bind (.expect _) fun _ => .pure rfl

theorem argumentsWith_alike :
    Alike adjust longer id (argumentsWith nested) (argumentsWith nested') := by
  refine .bind (.accept _) fun closed => .ite (.pure rfl) ?_
  exact .bind (.commaSeparated (hn _)) fun _ => .bind (.expect _) fun _ => .pure rfl

theorem suffixWith_alike (e : Expr String) :
    Alike adjust longer id (suffixWith nested e) (suffixWith nested' e) := by
  refine .bind .current fun token => .bind (.accept _) fun paren => .ite ?_ ?_
  · split
    · exact .bind (argumentsWith_alike hn) fun _ => .pure rfl
    · exact .fail _ _
  refine .bind (.accept _) fun bracket => .ite ?_ ?_
  · exact .bind (hn _) fun _ => .bind (.expect _) fun _ => .pure rfl
  refine .bind (.accept _) fun dot => .ite (.bind memberName_alike fun _ => .pure rfl) ?_
  refine .bind (.accept _) fun arrow => .ite (.bind memberName_alike fun _ => .pure rfl) ?_
  split
  · exact .bind .advance fun _ => .pure rfl
  · exact .pure rfl

theorem suffixedWith_alike :
    Alike adjust longer id (suffixedWith nested) (suffixedWith nested') :=
  .bind (primaryWith_alike hn) fun _ => .loop (suffixWith_alike hn) _

theorem castWith_alike : Alike adjust longer id (castWith nested) (castWith nested') := by
  refine .bind .current fun start => .bind .advance fun _ => .bind specifier_alike fun sp => ?_
  split
  · refine .bind .current fun token => .checked (.fail _ _) ?_
    exact .bind (.expect _) fun _ => .bind (hn _) fun _ => .pure rfl
  · exact .fail _ _

theorem operandWith_alike :
    Alike adjust longer id (operandWith nested) (operandWith nested') := by
  refine .bind .current fun token => ?_
  split
  · exact .bind .advance fun _ => .bind (hn _) fun _ => .pure rfl
  refine .ite (.bind .advance fun _ => .locatedAt _ ?_) ?_
  · refine .bind atParenthesizedType_alike fun type => .ite sizeofType_alike ?_
    exact .bind (hn _) fun _ => .pure rfl
  · refine .bind atParenthesizedType_alike fun type => ?_
    exact .ite (castWith_alike hn) (suffixedWith_alike hn)

theorem operationWith_alike (level : Nat) (left : Expr String) :
    Alike adjust longer id (operationWith nested level left)
      (operationWith nested' level left) := by
  refine .bind .current fun token => ?_
  split
  · exact .pure rfl
  · refine .ite (.pure rfl) (.bind .advance fun _ => ?_)
    exact .bind (hn _) fun _ => .pure rfl

theorem expressionWith_alike (level : Nat) :
    Alike adjust longer id (expressionWith nested level) (expressionWith nested' level) :=
  .bind (operandWith_alike hn) fun _ => .loop (operationWith_alike hn level) _

end

theorem expressionWithin_alike {m n : Nat} (hmn : m ≤ n) (same : longer ∨ m = n) (level : Nat) :
    Alike adjust longer id (expressionWithin m level) (expressionWithin n level) :=
  .within expressionWithin expressionWithin (fun _ => rfl) (fun _ => rfl)
    (fun _ _ ih => expressionWith_alike ih) hmn same level

theorem expression_alike : Alike adjust longer id expression expression :=
  .budgeted fun _ _ hmn same => expressionWithin_alike hmn same _

end Parser

end PlainC
