/-
**Reading trees off tokens.**

A parser reads a tree off the front of a row of tokens.  It looks one or two tokens ahead and never
goes back, and the first fault stops it.  The names that it meets are noted in their order, so that
a name table can take them in afterwards; the reading itself does not depend on any table.

Every rule that calls itself does so behind at least one token, so the number of tokens that are
left bounds the depth of the calls and the number of turns of a loop.  A budget one greater than
that number is handed to every rule that needs one, and is never used up.

Main definitions:

* `PlainC.Options` — which parts of the language are accepted, and how bodies are kept;
* `PlainC.Setting`, `PlainC.Progress`, `PlainC.Stop` — what a parser is given, how far it has come,
  and why it stops;
* `PlainC.Parser` — parsers;
* `PlainC.Parser.accept`, `PlainC.Parser.expect`, `PlainC.Parser.fail` — reading one token, and
  reporting a fault at a token;
* `PlainC.Parser.loop`, `PlainC.Parser.moreAfterCommas` — repetition.

Main results:

* `PlainC.Parser.iterate_done`, `PlainC.Parser.iterate_yield` — a loop ends with the turn that says
  so, and goes on otherwise.
-/

import PlainC.Diagnostic
import PlainC.Token

set_option relaxedAutoImplicit false
set_option autoImplicit false

namespace PlainC

/-! ### Parsers -/

/-- Which parts of the language are accepted, and how the body of a conditional or a loop is kept:
as it is written, or always as a block. -/
structure Options where
  allowPrototypes : Bool := true
  allowEmptyStructs : Bool := true
  wrapBodies : Bool := true
deriving Repr, DecidableEq

/-- What a parser is given: the name of the source and its lines, for diagnostics; the options; and
the token at which the source ends. -/
structure Setting where
  file : String
  lines : List String := []
  options : Options := {}
  ending : Token
deriving Repr

/-- The line of that number, counted from one, if there is one. -/
def Setting.quote (s : Setting) (line : Int) : Option String :=
  if 0 < line then s.lines[(line - 1).toNat]? else none

/-- How far a reading has come: the tokens that are left before the end, and the names met. -/
structure Progress where
  rest : List Token
  names : List String := []
deriving Repr, DecidableEq

/-- Why a reading stops without a tree. -/
inductive Stop where
  /-- There is a fault in the source. -/
  | fault (diagnostic : Diagnostic)
  /-- An integer of the source has more digits than are converted. -/
  | overlong (digits : Nat)
  /-- A budget was used up. -/
  | exhausted
deriving Repr, DecidableEq

/-- A reading off the front of the tokens that are left. -/
abbrev Parser := ReaderT Setting (EStateM Stop Progress)

namespace Parser

variable {α β : Type}

/-! ### Looking ahead -/

/-- The token at a distance from the front, or the end. -/
def ahead (distance : Nat) : Parser Token := fun s p => .ok (p.rest.getD distance s.ending) p

/-- The token at the front. -/
def current : Parser Token := ahead 0

/-- Whether a punctuator is at the front. -/
def nextIs (p : Punctuator) : Parser Bool := do
  return (← current).lexeme = .punctuator p

/-- Whether the source is at its end. -/
def atEnd : Parser Bool := fun _ p => .ok p.rest.isEmpty p

/-! ### Faults -/

/-- Stops with a fault that has no place yet. -/
def refuse (fault : Fault) : Parser α := fun _ p => .error (.fault (.ofFault fault)) p

/-- Stops with a fault at a token. -/
def fail (fault : Fault) (token : Token) : Parser α := fun s p =>
  .error (.fault (.placed fault ⟨s.file, token.line, token.column⟩ (s.quote token.line))) p

/-- Stops at the token at the front, with something missing in front of it. -/
def missing (expected : String) : Parser α := do fail (.missingToken expected) (← current)

/-- Stops at the token at the front, which does not belong there. -/
def unexpected (expected : String) : Parser α := do
  let token ← current
  fail (.unexpectedToken token.lexeme.text (some expected)) token

/-- Stops because a budget is used up. -/
def exhausted : Parser α := fun _ p => .error .exhausted p

/-- Gives a fault of `p` that has no place the place of `token`. -/
def locatedAt (token : Token) (p : Parser α) : Parser α := fun s progress =>
  match p s progress with
  | .error (.fault d) progress' =>
      .error (.fault (d.locate (some ⟨s.file, token.line, token.column⟩) (s.quote token.line)))
        progress'
  | outcome => outcome

/-- The value of a computation, or its fault. -/
def ofExcept (result : Except Fault α) : Parser α :=
  match result with
  | .ok value => pure value
  | .error fault => refuse fault

/-! ### Reading a token -/

/-- Goes past the token at the front. -/
def advance : Parser Unit := fun _ p => .ok () { p with rest := p.rest.tail }

/-- Goes past the token at the front if it is a given lexeme; tells whether it is. -/
def acceptLexeme (l : Lexeme) : Parser Bool := do
  if (← current).lexeme = l then
    advance
    return true
  return false

/-- Goes past a punctuator if it is at the front; tells whether it is. -/
def accept (p : Punctuator) : Parser Bool := acceptLexeme (.punctuator p)

/-- Goes past a punctuator, which must be at the front. -/
def expectAs (p : Punctuator) (expected : String) : Parser Unit := do
  unless ← accept p do missing expected

/-- Goes past a punctuator, which must be at the front. -/
def expect (p : Punctuator) : Parser Unit := expectAs p ("'" ++ p.spelling ++ "'")

/-- Reads an identifier, which must be at the front. -/
def identifier (expected : String) : Parser String := do
  match (← current).lexeme with
  | .identifier text =>
      advance
      return text
  | _ => missing expected

/-- Notes that a name was met. -/
def note (name : String) : Parser Unit := fun _ p => .ok () { p with names := p.names ++ [name] }

/-- Stops unless the source is at its end. -/
def finish : Parser Unit := do
  unless ← atEnd do unexpected "end of input"

/-! ### Repetition -/

/-- Hands a rule a budget that is one greater than the number of tokens left. -/
def budgeted (rule : Nat → Parser α) : Parser α := fun s p => rule (p.rest.length + 1) s p

/-- Repeats a step until it is done. -/
def iterate (step : β → Parser (ForInStep β)) : Nat → β → Parser β
  | 0, _ => exhausted
  | budget + 1, b => do
      match ← step b with
      | .done b' => return b'
      | .yield b' => iterate step budget b'

/-- Repeats a step until it is done; every step that is not the last must read a token. -/
def loop (step : β → Parser (ForInStep β)) (b : β) : Parser β :=
  budgeted fun budget => iterate step budget b

/-- Reads one item after a comma, if a comma follows. -/
def itemAfterComma (item : Parser α) (items : List α) : Parser (ForInStep (List α)) := do
  if ← accept .comma then return .yield (items ++ [← item]) else return .done items

/-- Reads one item after every comma that follows. -/
def moreAfterCommas (item : Parser α) (first : List α) : Parser (List α) :=
  loop (itemAfterComma item) first

/-- Reads one or more items with a comma between two of them. -/
def commaSeparated (item : Parser α) : Parser (List α) := do moreAfterCommas item [← item]

/-- A loop ends with the turn that says so. -/
theorem iterate_done {step : β → Parser (ForInStep β)} {b b' : β} {s : Setting} {p p' : Progress}
    (h : step b s p = .ok (.done b') p') (budget : Nat) :
    iterate step (budget + 1) b s p = .ok b' p' := by
  simp [iterate, bind, ReaderT.bind, EStateM.bind, h, pure, ReaderT.pure, EStateM.pure]

/-- A loop goes on after a turn that does not end it. -/
theorem iterate_yield {step : β → Parser (ForInStep β)} {b b' : β} {s : Setting} {p p' : Progress}
    (h : step b s p = .ok (.yield b') p') (budget : Nat) :
    iterate step (budget + 1) b s p = iterate step budget b' s p' := by
  simp [iterate, bind, ReaderT.bind, EStateM.bind, h]

end Parser

end PlainC
