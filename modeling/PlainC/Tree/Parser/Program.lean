/-
**Reading programs.**

A program is a row of units, each read off the front of what the units before it have left.  The
units that were completed in front of a fault are known too.  A whole source can also be read as a
single statement or a single expression.

Main definitions:

* `PlainC.Parser.unit` — reads one declaration at the outermost level, which can hold several
  units;
* `PlainC.Units`, `PlainC.unitsWithin` — the units of a source up to its end or up to a fault;
* `PlainC.Parser.program`, `PlainC.Parser.wholeStatement`, `PlainC.Parser.wholeExpression` — read a
  whole source;
* `PlainC.Goal`, `PlainC.Parser.whole` — read a whole source as any of the three.
-/

import PlainC.Tree.Node
import PlainC.Tree.Parser.Statement

set_option relaxedAutoImplicit false
set_option autoImplicit false

namespace PlainC

namespace Parser

/-! ### Structs -/

/-- Reads the members of one declaration in a struct. -/
def structMembers (struct : String) (members : List (Declaration String)) :
    Parser (ForInStep (List (Declaration String))) := do
  let start ← current
  if start.lexeme = .punctuator .braceClose || (← atEnd) then return .done members
  let s ← specifier
  if s.isStatic then fail (.unsupported (.staticMember struct)) start
  let more ← commaSeparated do declarationOf s (← declarator false)
  expect .semicolon
  return .yield (members ++ more)

/-- Reads the definition of a struct. -/
def structDefinition : Parser (Struct String) := do
  let start ← current
  advance
  let name ← identifier "struct name"
  expect .braceOpen
  let members ← loop (structMembers name) []
  expect .braceClose
  let token ← current
  match token.lexeme with
  | .identifier _ | .punctuator .star =>
      fail (.unsupported (.structWithDeclarator name)) token
  | _ => pure ()
  expectAs .semicolon "';' after struct definition"
  if members.isEmpty && !(← options).allowEmptyStructs then
    fail (.unsupported .emptyStruct) start
  -- the name of a struct is met behind those of its members
  note name
  return ⟨name, members⟩

/-! ### Functions -/

/-- Stops at the name of a function with a body if one of its parameters has no name. -/
def namedParameters (ident : Token) (parameters : List (Declaration String)) : Parser Unit :=
  match parameters.findIdx? Declaration.isAbstract with
  | some index => fail (.misfit (.namelessParameter (index + 1) ident.lexeme.text)) ident
  | none => pure ()

/-- Reads what stands behind the declarator of a function: its body, or the semicolon of a
prototype. -/
def functionAfter (s : Specifier String) (d : Declarator) (ident : Token)
    (parameters : List (Declaration String)) : Parser (Function String) := do
  let declaration ← declarationOf s d
  if ← nextIs .braceOpen then
    namedParameters ident parameters
    return { declaration, parameters, body := some (← block) }
  -- a prototype that is not wanted is reported at its semicolon
  let semicolon ← current
  expectAs .semicolon "';' or function body"
  unless (← options).allowPrototypes do fail (.unsupported .functionPrototype) semicolon
  return { declaration, parameters }

/-! ### Units -/

/-- Whether the definition of a struct is at the front. -/
def atStructDefinition : Parser Bool := do
  let word ← current
  let name ← ahead 1
  let brace ← ahead 2
  return match word.lexeme, name.lexeme, brace.lexeme with
    | .keyword .structWord, .identifier _, .punctuator .braceOpen => true
    | _, _, _ => false

/-- Reads one declaration at the outermost level: a struct, a function, or one or more
variables. -/
def unit : Parser (List (TopLevel String)) := do
  if ← atStructDefinition then return [.struct (← structDefinition)]
  let start ← current
  let s ← specifier
  if ← nextIs .semicolon then fail (.unsupported .emptyDeclaration) start
  -- only the first declarator can declare a function, and then it is the only one
  let d ← topDeclarator
  if let (some ident, some parameters) := (d.ident, d.parameters) then
    return [.function (← functionAfter s d ident parameters)]
  let found ← moreAfterCommas (variableOf s) [← variableAfter s d]
  expect .semicolon
  return found.map .var

end Parser

/-- The units of a source that were completed, why the reading stopped if it did not reach the end,
and how far it has come. -/
structure Units where
  completed : List (TopLevel String)
  stop : Option Stop
  progress : Progress
deriving Repr

/-- Reads at most as many declarations as the budget, up to the end or a fault. -/
def unitsWithin (s : Setting) : Nat → Progress → Units
  | 0, p => ⟨[], some .exhausted, p⟩
  | budget + 1, p =>
      if p.rest.isEmpty then ⟨[], none, p⟩
      else
        -- a declaration reads at least one token, so the budget outlasts the tokens
        match Parser.locatedAt (p.rest.headD s.ending) Parser.unit s p with
        | .error stop p' => ⟨[], some stop, p'⟩
        | .ok units p' =>
            let more := unitsWithin s budget p'
            { more with completed := units ++ more.completed }

namespace Parser

/-! ### Whole sources -/

/-- Reads the units that are left. -/
def units (s : Setting) (p : Progress) : Units := unitsWithin s (p.rest.length + 1) p

/-- Reads a whole source as a program. -/
def program : Parser (Program String) := fun s p =>
  let found := units s p
  match found.stop with
  | none => .ok ⟨found.completed⟩ found.progress
  | some stop => .error stop found.progress

/-- Reads a whole source as a statement; as a declaration it declares one variable. -/
def wholeStatement : Parser (Stmt String) := do
  let token ← current
  let s ←
    if token.lexeme.startsDeclaration then
      locatedAt token do
        match ← localVariables with
        | [v] => return .declaration v
        | _ => fail (.unsupported .severalDeclarators) token
    else statement
  finish
  return s

/-- Reads a whole source as an expression. -/
def wholeExpression : Parser (Expr String) := do
  let e ← expression
  finish
  return e

end Parser

/-- What a whole source is read as. -/
inductive Goal where
  | program | statement | expression
deriving Repr, DecidableEq

/-- Reads a whole source. -/
def Parser.whole : Goal → Parser (Node String)
  | .program => do return .program (← program)
  | .statement => do return .statement (← wholeStatement)
  | .expression => do return .expression (← wholeExpression)

end PlainC
