/-
**Reading expressions.**

The operators between operands differ only in how tightly they bind and in how a row of them groups,
so all of them are read by one rule.  It reads an operand, then as many operators as bind at least
as tightly as a given level; to the right of an operator that groups to the left it reads what binds
tighter, and to the right of one that groups to the right what binds at least as tightly.  No
operator binds as tightly as the operands do, so an operand is an expression of a level of its own.

The rule is given in terms of a rule for the parts, which are read behind at least one token, and
tied to itself by a budget.

Main definitions:

* `PlainC.Parser.expressionWith` — reads an expression of a level, given a parser for the parts;
* `PlainC.Parser.expression` — reads an expression.

Main results:

* `PlainC.Operator.precedence_lt_operandLevel` — no operator binds as tightly as an operand.
-/

import PlainC.Tree.Parser.Declaration

set_option relaxedAutoImplicit false
set_option autoImplicit false

namespace PlainC

/-! ### Levels -/

/-- The level of an expression with any operators. -/
def expressionLevel : Nat := 1

/-- The level of an expression without an operator between operands. -/
def operandLevel : Nat := 12

/-- No operator binds as tightly as an operand. -/
theorem Operator.precedence_lt_operandLevel (op : Operator) : op.precedence < operandLevel := by
  rcases op with op | op | part
  · cases op <;> decide
  · cases op <;> decide
  · simp [Operator.precedence, operandLevel]

/-- The level of what stands to the right of an operator. -/
def Operator.rightLevel (op : Operator) : Nat :=
  if op.groupsRight then op.precedence else op.precedence + 1

namespace Parser

variable (nested : Nat → Parser (Expr String))

/-! ### Operands -/

/-- Reads a literal, a name, or an expression in parentheses. -/
def primaryWith : Parser (Expr String) := do
  let token ← current
  if let some value := Literal.ofLexeme? token.lexeme then
    advance
    return .literal value
  if let .identifier name := token.lexeme then
    advance
    note name
    return .var name
  if ← accept .parenOpen then
    let inner ← nested expressionLevel
    expect .parenClose
    return .parenthesized inner
  unexpected "expression"

/-- Reads the arguments behind an opening parenthesis, up to the closing one. -/
def argumentsWith : Parser (List (Expr String)) := do
  if ← accept .parenClose then return []
  let values ← commaSeparated (nested expressionLevel)
  expect .parenClose
  return values

/-- Reads the name of a member. -/
def memberName : Parser String := do
  let name ← identifier "member name"
  note name
  return name

/-- Reads one call, subscript, member or operator behind an operand. -/
def suffixWith (e : Expr String) : Parser (ForInStep (Expr String)) := do
  let token ← current
  if ← accept .parenOpen then
    match e with
    | .var callee => return .yield (.call callee (← argumentsWith nested))
    | _ => fail (.unsupported .computedCall) token
  else if ← accept .bracketOpen then
    let subscript ← nested expressionLevel
    expect .bracketClose
    return .yield (.index e subscript)
  else if ← accept .dot then return .yield (.member e (← memberName))
  else if ← accept .arrow then return .yield (.pointerMember e (← memberName))
  else
    match PostfixOp.ofLexeme? token.lexeme with
    | some op =>
        advance
        return .yield (.postfixed op e)
    | none => return .done e

/-- Reads an operand with everything behind it. -/
def suffixedWith : Parser (Expr String) := do loop (suffixWith nested) (← primaryWith nested)

/-- Whether a type in parentheses is at the front. -/
def atParenthesizedType : Parser Bool := do
  return (← nextIs .parenOpen) && (← ahead 1).lexeme.startsDeclaration

/-- Reads the type in parentheses whose size is taken. -/
def sizeofType : Parser (Expr String) := do
  advance
  let s ← specifier
  let d ← declarator true
  -- the type has no name, so an identifier stands where the parenthesis should close
  if let some ident := d.ident then
    fail (.unexpectedToken ident.lexeme.text (some "')'")) ident
  expect .parenClose
  return .sizeofType ⟨s, ← shapeOf d.layers, none⟩

/-- Reads a cast, which is to a single type word. -/
def castWith : Parser (Expr String) := do
  let start ← current
  advance
  let s ← specifier
  match s with
  | ⟨false, false, [word]⟩ =>
      let token ← current
      if token.lexeme = .punctuator .star then fail (.unsupported .pointerCast) token
      expect .parenClose
      return .cast word (← nested operandLevel)
  | _ => fail (.unsupported (.castTo s.text)) start

/-- Reads an operand with the operators in front of it and everything behind it. -/
def operandWith : Parser (Expr String) := do
  let token ← current
  -- `*`, `&`, `+` and `-` in front of an operand are never operators between operands
  if let some op := UnaryOp.ofLexeme? token.lexeme then
    advance
    return .unary op (← nested operandLevel)
  if token.lexeme = .keyword .sizeof then
    advance
    return ← locatedAt token do
      if ← atParenthesizedType then sizeofType else return .sizeofExpr (← nested operandLevel)
  -- what stands behind the parenthesis decides between a cast and an expression in parentheses
  if ← atParenthesizedType then castWith nested else suffixedWith nested

/-! ### Operators between operands -/

/-- Reads one operator that binds at least as tightly as `level`, and its right operand. -/
def operationWith (level : Nat) (left : Expr String) : Parser (ForInStep (Expr String)) := do
  match Operator.ofLexeme? (← current).lexeme with
  | none => return .done left
  | some op =>
      -- an operator that binds less tightly belongs to an expression further out
      if op.precedence < level then return .done left
      advance
      return .yield (.binary op left (← nested op.rightLevel))

/-- Reads an expression whose operators bind at least as tightly as `level`, given a parser for the
expressions in it. -/
def expressionWith (level : Nat) : Parser (Expr String) := do
  loop (operationWith nested level) (← operandWith nested)

/-- Reads an expression that is nested at most as deep as the budget. -/
def expressionWithin : Nat → Nat → Parser (Expr String)
  | 0, _ => exhausted
  | budget + 1, level => expressionWith (expressionWithin budget) level

/-- Reads an expression. -/
def expression : Parser (Expr String) :=
  budgeted fun budget => expressionWithin budget expressionLevel

end Parser

end PlainC
