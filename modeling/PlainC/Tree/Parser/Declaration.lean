/-
**Reading declarations.**

A declaration is a specifier with a declarator.  The words of a specifier may stand in any order.  A
declarator is read from the inside out: what is in parentheses applies to the name first, then the
arrays behind it, then the pointers in front of it.  Only a declarator at the outermost level of a
program can declare a function; anywhere else a parameter list is refused.

Main definitions:

* `PlainC.Parser.specifier` — reads a specifier;
* `PlainC.Declarator`, `PlainC.Parser.declarator` — reads a declarator that declares no function;
* `PlainC.Parser.topDeclarator` — reads a declarator that may declare a function.
-/

import PlainC.Tree
import PlainC.Tree.Parser

set_option relaxedAutoImplicit false
set_option autoImplicit false

namespace PlainC

namespace Parser

/-! ### Specifiers -/

/-- Reads one word of a specifier. -/
def specifierWord (s : Specifier String) : Parser (ForInStep (Specifier String)) := do
  let token ← current
  match token.lexeme with
  | .keyword .static =>
      advance
      return .yield { s with isStatic := true }
  | .keyword .const =>
      advance
      return .yield { s with isConst := true }
  | .keyword .structWord =>
      advance
      let name ← identifier "struct name"
      -- a struct is defined on its own, never as a part of another declaration
      if ← nextIs .braceOpen then fail (.unsupported .structInside) token
      note name
      return .yield { s with words := s.words ++ [.struct name] }
  | lexeme =>
      match TypeWord.ofLexeme? lexeme with
      | some word =>
          advance
          return .yield { s with words := s.words ++ [word] }
      | none => return .done s

/-- Reads a specifier, whose words must name a type. -/
def specifier : Parser (Specifier String) := do
  let start ← current
  let s ← loop specifierWord { words := [] }
  if s.words.isEmpty then missing "type specifier"
  -- words that name no type are reported here, where the place of the first one is known
  let _ ← locatedAt start (ofExcept (TypeWord.resolve s.words))
  return s

end Parser

/-! ### Declarators -/

/-- A declarator before it is joined to its specifier: the identifier that it declares, if there is
one, the layers around it, outermost first, and the parameters if it declares a function. -/
structure Declarator where
  ident : Option Token := none
  layers : List (Layer Int) := []
  parameters : Option (List (Declaration String)) := none
deriving Repr

/-- The name that a declarator declares. -/
def Declarator.name (d : Declarator) : Option String := d.ident.map fun token => token.lexeme.text

namespace Parser

/-- The shape that some layers make up. -/
def shapeOf (layers : List (Layer Int)) : Parser Shape :=
  ofExcept ((Shape.ofLayers layers).mapError Fault.misfit)

/-- Reads one pointer in front of a declarator. -/
def pointerMark (layers : List (Layer Int)) : Parser (ForInStep (List (Layer Int))) := do
  if ← accept .star then
    let token ← current
    if token.lexeme = .keyword .const then fail (.unsupported .constPointer) token
    return .yield (layers ++ [⟨.pointer, none⟩])
  return .done layers

/-- Reads the pointers in front of a declarator. -/
def pointers : Parser (List (Layer Int)) := loop pointerMark []

/-- Reads the size of an array behind its opening bracket. -/
def arraySuffix : Parser (Layer Int) := do
  if ← accept .bracketClose then return ⟨.array, none⟩
  let token ← current
  match token.lexeme with
  | .number size =>
      advance
      expect .bracketClose
      return ⟨.array, some size⟩
  | _ => fail (.unsupported .arraySize) token

/-- Whether a lexeme behind an opening parenthesis makes it the start of a nested declarator. -/
def opensDeclarator : Lexeme → Bool
  | .punctuator .star | .punctuator .parenOpen | .identifier _ => true
  | _ => false

/-- Reads what stands between the pointers and the suffixes of a declarator: an identifier, a
declarator in parentheses, or nothing if there need not be a name.  Tells whether there were
parentheses. -/
def declaratorCore (nested : Parser Declarator) (nameless : Bool) : Parser (Declarator × Bool) := do
  let token ← current
  if let .identifier _ := token.lexeme then
    advance
    return ({ ident := some token }, false)
  if token.lexeme = .punctuator .parenOpen && opensDeclarator (← ahead 1).lexeme then
    advance
    let inner ← nested
    expect .parenClose
    return ({ ident := inner.ident, layers := inner.layers }, true)
  unless nameless do missing "identifier"
  return ({}, false)

/-- Reads one array or parameter list behind the core of a declarator.  A parameter list is read by
`parameterList`, if there may be one; it stands directly behind the name. -/
def declaratorSuffix (parameterList : Option (Parser (List (Declaration String))))
    (inParentheses : Bool) (d : Declarator) : Parser (ForInStep Declarator) := do
  let token ← current
  if ← accept .bracketOpen then
    if d.parameters.isSome then fail (.unsupported .functionReturningArray) token
    return .yield { d with layers := d.layers ++ [← arraySuffix] }
  if ← nextIs .parenOpen then
    -- parameters behind a declarator in parentheses make a pointer to a function
    if inParentheses then fail (.unsupported .functionPointer) token
    match parameterList with
    | some list =>
        if !d.layers.isEmpty || d.parameters.isSome || d.ident.isNone then
          fail (.unsupported .functionDeclarator) token
        advance
        return .yield { d with parameters := some (← list) }
    | none => fail (.unsupported .functionDeclarator) token
  return .done d

/-- Reads a declarator, given a parser for nested ones. -/
def declaratorWith (nested : Parser Declarator)
    (parameterList : Option (Parser (List (Declaration String)))) (nameless : Bool) :
    Parser Declarator := do
  let outer ← pointers
  let (core, inParentheses) ← declaratorCore nested nameless
  let d ← loop (declaratorSuffix parameterList inParentheses) core
  -- the pointers in front apply last
  return { d with layers := d.layers ++ outer }

/-- Reads a declarator that declares no function and is nested at most as deep as the budget. -/
def declaratorWithin (nameless : Bool) : Nat → Parser Declarator
  | 0 => exhausted
  | budget + 1 => declaratorWith (declaratorWithin nameless budget) none nameless

/-- Reads a declarator that declares no function; `nameless` tells whether the name may be left
out. -/
def declarator (nameless : Bool) : Parser Declarator := budgeted (declaratorWithin nameless)

/-! ### Parameters -/

/-- Reads a parameter, whose name may be left out. -/
def parameter : Parser (Declaration String) := do
  let s ← specifier
  let d ← declarator true
  if let some name := d.name then note name
  return ⟨s, ← shapeOf d.layers, d.name⟩

/-- Reads the parameters behind an opening parenthesis, up to the closing one. -/
def parameterList : Parser (List (Declaration String)) := do
  if ← accept .parenClose then return []
  -- a lone `void` stands for no parameters
  if (← current).lexeme = .keyword .void && (← ahead 1).lexeme = .punctuator .parenClose then
    advance
    advance
    return []
  let parameters ← commaSeparated do
    let token ← current
    if token.lexeme = .punctuator .ellipsis then fail (.unsupported .variadicFunction) token
    parameter
  expect .parenClose
  return parameters

/-- Reads a declarator at the outermost level of a program, which may declare a function. -/
def topDeclarator : Parser Declarator :=
  declaratorWith (declarator false) (some parameterList) false

end Parser

end PlainC
