/-
**Reading statements.**

A block mixes declarations and statements.  A declaration of several variables is one statement for
each of them, and a lone semicolon in a block is nothing; as the body of a conditional or a loop it
is an empty block.  An `else` belongs to the nearest `if` that can take it, since the inner
conditional is read first.

Main definitions:

* `PlainC.Parser.variableOf`, `PlainC.Parser.localVariables` — read the variables of a declaration;
* `PlainC.Parser.blockWith`, `PlainC.Parser.statementWith` — read a block and a statement, given a
  parser for nested statements;
* `PlainC.Parser.block`, `PlainC.Parser.statement` — read a block and a statement.
-/

import PlainC.Tree.Parser.Expression

set_option relaxedAutoImplicit false
set_option autoImplicit false

namespace PlainC.Parser

/-! ### Variables -/

/-- Joins a declarator of a variable to its specifier. -/
def declarationOf (s : Specifier String) (d : Declarator) : Parser (Declaration String) := do
  let shape ← shapeOf d.layers
  if let some name := d.name then note name
  return ⟨s, shape, d.name⟩

/-- Reads what stands behind the declarator of a variable: its initial value, if there is one. -/
def variableAfter (s : Specifier String) (d : Declarator) : Parser (Variable String) := do
  let declaration ← declarationOf s d
  if ← accept .assign then
    let token ← current
    if token.lexeme = .punctuator .braceOpen then fail (.unsupported .initializerList) token
    return ⟨declaration, some (← expression)⟩
  return ⟨declaration, none⟩

/-- Reads a variable behind its specifier. -/
def variableOf (s : Specifier String) : Parser (Variable String) := do
  variableAfter s (← declarator false)

/-- Reads the declaration of one or more local variables. -/
def localVariables : Parser (List (Variable String)) := do
  let s ← specifier
  let found ← commaSeparated (variableOf s)
  expect .semicolon
  return found

/-! ### Statements -/

/-- Reads one item of a block: the variables of a declaration, nothing, or a statement. -/
def blockItem (nested : Parser (Stmt String)) (statements : List (Stmt String)) :
    Parser (ForInStep (List (Stmt String))) := do
  let token ← current
  if token.lexeme = .punctuator .braceClose || (← atEnd) then return .done statements
  locatedAt token do
    if token.lexeme.startsDeclaration then
      return .yield (statements ++ (← localVariables).map .declaration)
    if ← accept .semicolon then return .yield statements
    return .yield (statements ++ [← nested])

/-- Reads a block, given a parser for the statements in it. -/
def blockWith (nested : Parser (Stmt String)) : Parser (List (Stmt String)) := do
  expect .braceOpen
  let statements ← loop (blockItem nested) []
  expect .braceClose
  return statements

/-- The options in force. -/
def options : Parser Options := do return (← read).options

/-- A body in a block of its own, unless it is a block already. -/
def asBlock {ν : Type} : Stmt ν → Stmt ν
  | .block statements => .block statements
  | s => .block [s]

/-- Reads the body of a conditional or a loop. -/
def bodyWith (nested : Parser (Stmt String)) : Parser (Stmt String) := do
  let s ← nested
  return if (← options).wrapBodies then asBlock s else s

/-- Reads a condition in parentheses. -/
def condition : Parser (Expr String) := do
  expect .parenOpen
  let value ← expression
  expect .parenClose
  return value

/-- Reads an expression that may be left out in front of a punctuator. -/
def expressionBefore (p : Punctuator) : Parser (Option (Expr String)) := do
  if ← nextIs p then return none
  return some (← expression)

/-- Reads what stands behind `if`. -/
def conditionalWith (nested : Parser (Stmt String)) : Parser (Stmt String) := do
  let test ← condition
  let thenBranch ← bodyWith nested
  if ← acceptLexeme (.keyword .elseWord) then
    return .ifElse test thenBranch (← bodyWith nested)
  return .ifThen test thenBranch

/-- Reads the declaration of a loop variable, if there is one. -/
def loopVariable : Parser (Option (Variable String)) := do
  if ← nextIs .semicolon then return none
  let token ← current
  unless token.lexeme.startsDeclaration do fail (.unsupported .expressionInitializer) token
  let v ← variableOf (← specifier)
  let next ← current
  if next.lexeme = .punctuator .comma then fail (.unsupported .severalInitializers) next
  return some v

/-- Reads what stands behind `for`. -/
def forLoopWith (nested : Parser (Stmt String)) : Parser (Stmt String) := do
  expect .parenOpen
  let first ← loopVariable
  expect .semicolon
  let test ← expressionBefore .semicolon
  expect .semicolon
  let step ← expressionBefore .parenClose
  expect .parenClose
  return .forLoop first test step (← bodyWith nested)

/-- Reads a statement that is no declaration, given a parser for the statements in it. -/
def statementWith (nested : Parser (Stmt String)) : Parser (Stmt String) := do
  let token ← current
  locatedAt token do
    match token.lexeme with
    | .keyword .ifWord =>
        advance
        conditionalWith nested
    | .keyword .whileWord =>
        advance
        let test ← condition
        return .whileLoop test (← bodyWith nested)
    | .keyword .forWord =>
        advance
        forLoopWith nested
    | .keyword .returnWord =>
        advance
        let value ← expressionBefore .semicolon
        expectAs .semicolon "';' after return"
        return .returnWith value
    | .keyword .breakWord =>
        advance
        expectAs .semicolon "';' after 'break'"
        return .breakLoop
    | .keyword .continueWord =>
        advance
        expectAs .semicolon "';' after 'continue'"
        return .continueLoop
    | .punctuator .braceOpen => return .block (← blockWith nested)
    | .punctuator .semicolon =>
        -- nothing at all is an empty block
        advance
        return .block []
    | lexeme =>
        -- a declaration can only stand in a block
        if lexeme.startsDeclaration then unexpected "statement"
        let value ← expression
        expect .semicolon
        return .expression value

/-- Reads a statement that is no declaration and is nested at most as deep as the budget. -/
def statementWithin : Nat → Parser (Stmt String)
  | 0 => exhausted
  | budget + 1 => statementWith (statementWithin budget)

/-- Reads a statement that is no declaration. -/
def statement : Parser (Stmt String) := budgeted statementWithin

/-- Reads a block. -/
def block : Parser (Block String) := do return ⟨← blockWith statement⟩

end PlainC.Parser
