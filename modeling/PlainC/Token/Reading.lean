/-
**What reading one lexeme can come to.**

A lexeme is read off the front of a text, without regard to where that text stands: the reading
tells which characters were consumed, and the place of the token and of a fault follow from them.
A fault is reported either where the lexeme begins or behind the characters consumed so far.  An
integer with too many digits is no fault of the language: it has no place and no wording here.

Main definitions:

* `PlainC.Refusal` — a fault met while reading a lexeme, and how to report it;
* `PlainC.Reading` — a lexeme, a refusal or an integer that is too long, with the text consumed and
  the text left.
-/

import PlainC.Diagnostic
import PlainC.Token

set_option relaxedAutoImplicit false
set_option autoImplicit false

namespace PlainC

/-- A fault met while reading a lexeme: whether it is reported at the first character of the
lexeme, and whether the line that the reading has reached is quoted. -/
structure Refusal where
  fault : Fault
  atStart : Bool
  quotesLine : Bool
deriving Repr, DecidableEq

/-- The outcome of reading one lexeme off the front of a text: the characters consumed and the
characters left, after a lexeme, up to a refusal, or after an integer with more digits than are
converted. -/
inductive Reading where
  | read (lexeme : Lexeme) (text rest : List Char)
  | refused (refusal : Refusal) (text rest : List Char)
  | overlong (digits : Nat) (text rest : List Char)
deriving Repr, DecidableEq

namespace Reading

/-- The characters consumed. -/
def text : Reading → List Char
  | read _ text _ | refused _ text _ | overlong _ text _ => text

/-- The characters left. -/
def rest : Reading → List Char
  | read _ _ rest | refused _ _ rest | overlong _ _ rest => rest

/-- A refusal that is reported behind the characters consumed, with the line quoted. -/
def refuse (fault : Fault) (text rest : List Char) : Reading :=
  .refused ⟨fault, false, true⟩ text rest

end Reading

end PlainC
