/-
**Diagnostics.**

A diagnostic says what is wrong, where, and how to mend it.  What is wrong is a `Fault`, a cause
with its data; the wording of every fault and of its hint is fixed in one place each.  A diagnostic
is often raised by a part of the library that knows no positions; the place is attached on the way
out, and the innermost place wins.

Main definitions:

* `PlainC.Location` — a place in a source;
* `PlainC.LexicalFault`, `PlainC.Misfit`, `PlainC.Construct`, `PlainC.Fault` — what can be wrong;
* `PlainC.Fault.text`, `PlainC.Fault.hint` — its wording and the hint that goes with it;
* `PlainC.Diagnostic` — a fault with a place, a hint and the source line;
* `PlainC.Diagnostic.locate` — attaches a place to a diagnostic that has none;
* `PlainC.Diagnostic.message` — the text shown to the user.

Main results:

* `PlainC.Diagnostic.locate_locate` — the place that is attached first stays;
* `PlainC.Diagnostic.locate_of_isSome` — a diagnostic with a place is left as it is.
-/

import PlainC.Text.Quoted

set_option relaxedAutoImplicit false
set_option autoImplicit false

namespace PlainC

/-! ### Places -/

/-- A place in a source: its name, and the line and column, both counted from one. -/
structure Location where
  file : String
  line : Int
  column : Int
deriving Repr, DecidableEq

/-- A place in the form `file:line:column`. -/
def Location.text (l : Location) : String :=
  l.file ++ ":" ++ toString l.line ++ ":" ++ toString l.column

/-! ### Faults of tokens -/

/-- What can be wrong inside a comment or a literal. -/
inductive LexicalFault where
  | unclosedComment
  | unclosedCharacter
  | emptyCharacter
  | longCharacter
  | noExponentDigits
  | noHexadecimalDigits
  | noBinaryDigits
  | octalDigit (spelling : String)
  | noEscapeDigits
  | endInEscape
  /-- Any other fault of this family, in its own words. -/
  | other (text : String)
deriving Repr, DecidableEq

/-- The wording of a fault inside a comment or a literal. -/
def LexicalFault.text : LexicalFault → String
  | .unclosedComment => "unterminated multi-line comment"
  | .unclosedCharacter => "unterminated character literal"
  | .emptyCharacter => "empty character literal"
  | .longCharacter => "character literal too long or missing closing quote"
  | .noExponentDigits => "expected exponent digits in floating literal"
  | .noHexadecimalDigits => "expected hexadecimal digits after '0x'"
  | .noBinaryDigits => "expected binary digits after '0b'"
  | .octalDigit spelling => "invalid digit in octal literal '" ++ spelling ++ "'"
  | .noEscapeDigits => "expected hexadecimal digits after '\\x'"
  | .endInEscape => "unexpected end of input in escape sequence"
  | .other text => text

/-- How to mend a fault inside a comment or a literal. -/
def LexicalFault.hint : LexicalFault → Option String
  | .unclosedComment => some "add closing */ to terminate the comment"
  | .unclosedCharacter => some "add closing ' to complete the character literal"
  | .emptyCharacter | .longCharacter =>
      some "character literals can only contain a single character"
  | _ => none

/-! ### Faults of composition -/

/-- Why parts do not form a tree.  A `kind` names what was given, a `role` the part it was given
for. -/
inductive Misfit where
  | kindOfPart (role kind : String)
  | nameless (what : String)
  | namelessMember (struct : String)
  | namelessParameter (number : Nat) (function : String)
  | literalValue (kind value : String)
  | sizeofOperands
  | noTypeWords
  | nothingToResolve
  | groupMember (group kind : String)
  | structWithoutName
  | nameOnWord (word : String)
  | shapePart (role kind : String)
  | sizeKind (value : String)
  | negativeSize (size : Int)
  | sizeOnPointer
  /-- Any other fault of this family, in its own words. -/
  | other (text : String)
deriving Repr, DecidableEq

/-- The wording of a fault of composition. -/
def Misfit.text : Misfit → String
  | .kindOfPart role kind => role ++ " cannot be " ++ kind
  | .nameless what => what ++ " requires a name"
  | .namelessMember struct => "member of struct " ++ struct ++ " requires a name"
  | .namelessParameter number function =>
      "parameter " ++ toString number ++ " of '" ++ function ++ "' has no name"
  | .literalValue kind value => kind ++ " literal cannot hold " ++ value
  | .sizeofOperands => "sizeof requires exactly one of a type or an expression"
  | .noTypeWords => "declaration specifier has no type specifier"
  | .nothingToResolve => "no type specifier to resolve"
  | .groupMember group kind => "expected a " ++ group ++ ", got " ++ kind
  | .structWithoutName => "struct type specifier requires a name"
  | .nameOnWord word => "'" ++ word ++ "' type specifier cannot carry a struct name"
  | .shapePart role kind => role ++ " must be a declarator shape, got " ++ kind
  | .sizeKind value => "array size must be an integer, got " ++ value
  | .negativeSize size => "array size cannot be negative (" ++ toString size ++ ")"
  | .sizeOnPointer => "pointer layer cannot carry a size"
  | .other text => text

/-! ### Constructs outside the language -/

/-- Constructs of C that this dialect leaves out. -/
inductive Construct where
  | functionPointer
  | functionDeclarator
  | functionReturningArray
  | functionPrototype
  | variadicFunction
  | emptyDeclaration
  | severalDeclarators
  | severalInitializers
  | initializerList
  | expressionInitializer
  | structInside
  | structWithDeclarator (struct : String)
  | emptyStruct
  | staticMember (struct : String)
  | constPointer
  | arraySize
  | castTo (specifier : String)
  | pointerCast
  | computedCall
  | repeatedWord (word spelled : String)
  | structAmongWords (spelled : String)
  | bothSigns (spelled : String)
  | typeWords (spelled : String)
  /-- Any other construct, in its own words. -/
  | other (text : String)
deriving Repr, DecidableEq

/-- The name of a construct. -/
def Construct.text : Construct → String
  | .functionPointer => "function pointer"
  | .functionDeclarator => "function declarator in this position"
  | .functionReturningArray => "function returning an array"
  | .functionPrototype => "function prototype"
  | .variadicFunction => "variadic function"
  | .emptyDeclaration => "declaration that declares nothing"
  | .severalDeclarators => "multiple declarators in a single statement"
  | .severalInitializers => "multiple declarations in for initializer"
  | .initializerList => "initializer list"
  | .expressionInitializer => "expression as for initializer"
  | .structInside => "struct definition in this position"
  | .structWithDeclarator _ => "struct definition combined with a declarator"
  | .emptyStruct => "empty struct"
  | .staticMember struct => "static member in struct " ++ struct
  | .constPointer => "const-qualified pointer"
  | .arraySize => "non-literal array size"
  | .castTo specifier => "cast to '" ++ specifier ++ "'"
  | .pointerCast => "pointer cast"
  | .computedCall => "call through an expression"
  | .repeatedWord word spelled =>
      "repeated type specifier '" ++ word ++ "' in '" ++ spelled ++ "'"
  | .structAmongWords spelled =>
      "struct combined with other type specifiers in '" ++ spelled ++ "'"
  | .bothSigns spelled => "both signed and unsigned in '" ++ spelled ++ "'"
  | .typeWords spelled => "type '" ++ spelled ++ "'"
  | .other text => text

/-- What to write instead of a construct. -/
def Construct.hint : Construct → Option String
  | .functionPointer => some "call the function by name instead"
  | .functionPrototype => some "define the function before it is used"
  | .variadicFunction => some "declare a fixed parameter list"
  | .emptyDeclaration => some "forward declarations are not needed"
  | .severalDeclarators => some "declare one variable per statement"
  | .initializerList => some "assign the elements one at a time"
  | .expressionInitializer =>
      some "declare the loop variable, e.g. 'for (int i = 0; ...)'"
  | .structInside => some "define structs at file scope on their own"
  | .structWithDeclarator struct =>
      some ("declare variables of struct " ++ struct ++ " separately")
  | .arraySize => some "use an integer literal"
  | .castTo _ => some "cast to a single base type such as (int) or (char)"
  | .computedCall => some "call functions by name"
  | _ => none

/-! ### All faults -/

/-- What a diagnostic reports. -/
inductive Fault where
  /-- A fault of no particular family, in its own words. -/
  | general (text : String)
  | lexical (fault : LexicalFault)
  | unclosedString
  | invalidCharacter (c : Char)
  | unexpectedToken (found : String) (expected : Option String)
  | missingToken (expected : String)
  | misfit (fault : Misfit)
  | unsupported (construct : Construct)
deriving Repr, DecidableEq

/-- The wording of a fault. -/
def Fault.text : Fault → String
  | .general text => text
  | .lexical fault => fault.text
  | .unclosedString => "unterminated string literal"
  | .invalidCharacter c =>
      "invalid character '" ++ String.singleton c ++ "' (0x"
        ++ String.ofList (Text.upperHexadecimal 2 c.toNat) ++ ")"
  | .unexpectedToken found _ => "unexpected token '" ++ found ++ "'"
  | .missingToken expected => "expected " ++ expected
  | .misfit fault => fault.text
  | .unsupported construct => "unsupported construct: " ++ construct.text

/-- The hint that goes with a fault. -/
def Fault.hint : Fault → Option String
  | .lexical fault => fault.hint
  | .unclosedString => some "add closing '\"' to complete the string"
  | .unexpectedToken _ (some expected) =>
      if expected = "" then none else some ("expected " ++ expected)
  | .unsupported construct => construct.hint
  | _ => none

/-! ### Diagnostics -/

/-- A fault with the place where it was found, a hint, and the source line to quote. -/
structure Diagnostic where
  fault : Fault
  location : Option Location := none
  hint : Option String := none
  sourceLine : Option String := none
deriving Repr, DecidableEq

namespace Diagnostic

/-- A fault with its usual hint, without a place. -/
def ofFault (fault : Fault) : Diagnostic := ⟨fault, none, fault.hint, none⟩

/-- A fault with its usual hint at a place. -/
def placed (fault : Fault) (location : Location) (sourceLine : Option String) : Diagnostic :=
  ⟨fault, some location, fault.hint, sourceLine⟩

/-- Attaches a place and the line to quote to a diagnostic that has no place yet. -/
def locate (d : Diagnostic) (location : Option Location) (sourceLine : Option String) :
    Diagnostic :=
  if d.location.isNone then { d with location := location, sourceLine := sourceLine } else d

/-- The quoted source line and, under the column of the place, a caret. -/
def excerpt (location : Location) (line : String) : List String :=
  let caret :=
    if 0 < location.column then
      [String.ofList (List.replicate (4 + location.column - 1).toNat ' ' ++ ['^'])]
    else []
  ("    " ++ line) :: caret

/-- The text shown to the user: the place and the fault, then the quoted line with the caret, then
the hint, each only when there is one. -/
def message (d : Diagnostic) : String :=
  let heading := match d.location with
    | some location => location.text ++ ": error: " ++ d.fault.text
    | none => "error: " ++ d.fault.text
  let quotation := match d.location, d.sourceLine with
    | some location, some line => excerpt location line
    | _, _ => []
  let advice := match d.hint with
    | some hint => if hint = "" then [] else ["hint: " ++ hint]
    | none => []
  "\n".intercalate (heading :: quotation ++ advice)

/-- A diagnostic with a place is left as it is. -/
theorem locate_of_isSome {d : Diagnostic} (h : d.location.isSome) (location : Option Location)
    (line : Option String) : d.locate location line = d := by
  cases found : d.location with
  | none => simp [found] at h
  | some _ => simp [locate, found]

/-- The place that is attached first stays. -/
theorem locate_locate (d : Diagnostic) (first : Location) (second : Option Location)
    (line line' : Option String) :
    (d.locate (some first) line).locate second line' = d.locate (some first) line := by
  apply locate_of_isSome
  cases found : d.location <;> simp [locate, found]

end Diagnostic

end PlainC
