/-
**Tokens.**

A token is a lexeme with its place.  A lexeme is a reserved word, an identifier, a literal with the
value it stands for, a punctuator, or the end of the source.  Reserved words and punctuators have
one spelling each, so their spelling is not stored.

Main definitions:

* `PlainC.Keyword`, `PlainC.Punctuator` — the reserved words and the punctuators, with their
  spellings;
* `PlainC.Lexeme` — what a token is, apart from its place;
* `PlainC.Token` — a lexeme at a line and a column;
* `PlainC.Token.listing` — a token as it stands in a listing.

Main results:

* `PlainC.Keyword.ofSpelling?_spelling`, `PlainC.Punctuator.ofSpelling?_spelling` — a reserved word
  and a punctuator are found by their spelling;
* `PlainC.Punctuator.all_sorted` — the list of all punctuators has the longer spellings first.
-/

import PlainC.Number.Shortest
import PlainC.Text.Quoted

set_option relaxedAutoImplicit false
set_option autoImplicit false

namespace PlainC

/-! ### Reserved words -/

/-- The reserved words. -/
inductive Keyword where
  | void | char | int | long | double | signed | unsigned | structWord | static | const | ifWord
  | elseWord | whileWord | forWord | breakWord | continueWord | returnWord | sizeof
deriving Repr, DecidableEq

namespace Keyword

/-- The reserved words in the order of their declaration. -/
def all : List Keyword :=
  [.void, .char, .int, .long, .double, .signed, .unsigned, .structWord, .static, .const, .ifWord,
   .elseWord, .whileWord, .forWord, .breakWord, .continueWord, .returnWord, .sizeof]

/-- The spelling of a reserved word. -/
def spelling : Keyword → String
  | .void => "void"
  | .char => "char"
  | .int => "int"
  | .long => "long"
  | .double => "double"
  | .signed => "signed"
  | .unsigned => "unsigned"
  | .structWord => "struct"
  | .static => "static"
  | .const => "const"
  | .ifWord => "if"
  | .elseWord => "else"
  | .whileWord => "while"
  | .forWord => "for"
  | .breakWord => "break"
  | .continueWord => "continue"
  | .returnWord => "return"
  | .sizeof => "sizeof"

/-- The name of a reserved word in listings. -/
def kindName (k : Keyword) : String := k.spelling.map Char.toUpper

/-- The reserved word with a given spelling. -/
def ofSpelling? (text : String) : Option Keyword := all.find? fun k => k.spelling = text

theorem mem_all (k : Keyword) : k ∈ all := by cases k <;> decide

theorem ofSpelling?_spelling (k : Keyword) : ofSpelling? k.spelling = some k := by
  cases k <;> decide

/-- Whether a base type can begin with this word. -/
def isTypeWord : Keyword → Bool
  | .void | .char | .int | .long | .double | .signed | .unsigned | .structWord => true
  | _ => false

/-- Whether a declaration can begin with this word. -/
def startsDeclaration : Keyword → Bool
  | .static | .const => true
  | k => k.isTypeWord

end Keyword

/-! ### Punctuators -/

/-- The operators and separators. -/
inductive Punctuator where
  | shiftLeftAssign | shiftRightAssign | ellipsis | increment | decrement | arrow | plusAssign
  | minusAssign | starAssign | slashAssign | percentAssign | andAssign | orAssign | xorAssign
  | equal | notEqual | lessEqual | greaterEqual | andAnd | orOr | shiftLeft | shiftRight | plus
  | minus | star | slash | percent | less | greater | bang | ampersand | pipe | caret | tilde
  | assign | dot | parenOpen | parenClose | braceOpen | braceClose | bracketOpen | bracketClose
  | semicolon | comma
deriving Repr, DecidableEq

namespace Punctuator

/-- The punctuators, those with the longer spellings first. -/
def all : List Punctuator :=
  [.shiftLeftAssign, .shiftRightAssign, .ellipsis, .increment, .decrement, .arrow, .plusAssign,
   .minusAssign, .starAssign, .slashAssign, .percentAssign, .andAssign, .orAssign, .xorAssign,
   .equal, .notEqual, .lessEqual, .greaterEqual, .andAnd, .orOr, .shiftLeft, .shiftRight, .plus,
   .minus, .star, .slash, .percent, .less, .greater, .bang, .ampersand, .pipe, .caret, .tilde,
   .assign, .dot, .parenOpen, .parenClose, .braceOpen, .braceClose, .bracketOpen, .bracketClose,
   .semicolon, .comma]

/-- The spelling of a punctuator. -/
def spelling : Punctuator → String
  | .shiftLeftAssign => "<<="
  | .shiftRightAssign => ">>="
  | .ellipsis => "..."
  | .increment => "++"
  | .decrement => "--"
  | .arrow => "->"
  | .plusAssign => "+="
  | .minusAssign => "-="
  | .starAssign => "*="
  | .slashAssign => "/="
  | .percentAssign => "%="
  | .andAssign => "&="
  | .orAssign => "|="
  | .xorAssign => "^="
  | .equal => "=="
  | .notEqual => "!="
  | .lessEqual => "<="
  | .greaterEqual => ">="
  | .andAnd => "&&"
  | .orOr => "||"
  | .shiftLeft => "<<"
  | .shiftRight => ">>"
  | .plus => "+"
  | .minus => "-"
  | .star => "*"
  | .slash => "/"
  | .percent => "%"
  | .less => "<"
  | .greater => ">"
  | .bang => "!"
  | .ampersand => "&"
  | .pipe => "|"
  | .caret => "^"
  | .tilde => "~"
  | .assign => "="
  | .dot => "."
  | .parenOpen => "("
  | .parenClose => ")"
  | .braceOpen => "\x7b"
  | .braceClose => "\x7d"
  | .bracketOpen => "["
  | .bracketClose => "]"
  | .semicolon => ";"
  | .comma => ","

/-- The name of a punctuator in listings. -/
def kindName : Punctuator → String
  | .shiftLeftAssign => "LSHIFT_ASSIGN"
  | .shiftRightAssign => "RSHIFT_ASSIGN"
  | .ellipsis => "ELLIPSIS"
  | .increment => "INCREMENT"
  | .decrement => "DECREMENT"
  | .arrow => "ARROW"
  | .plusAssign => "PLUS_ASSIGN"
  | .minusAssign => "MINUS_ASSIGN"
  | .starAssign => "STAR_ASSIGN"
  | .slashAssign => "SLASH_ASSIGN"
  | .percentAssign => "PERCENT_ASSIGN"
  | .andAssign => "AND_ASSIGN"
  | .orAssign => "OR_ASSIGN"
  | .xorAssign => "XOR_ASSIGN"
  | .equal => "EQ"
  | .notEqual => "NE"
  | .lessEqual => "LE"
  | .greaterEqual => "GE"
  | .andAnd => "AND"
  | .orOr => "OR"
  | .shiftLeft => "LSHIFT"
  | .shiftRight => "RSHIFT"
  | .plus => "PLUS"
  | .minus => "MINUS"
  | .star => "STAR"
  | .slash => "SLASH"
  | .percent => "PERCENT"
  | .less => "LT"
  | .greater => "GT"
  | .bang => "NOT"
  | .ampersand => "AMPERSAND"
  | .pipe => "PIPE"
  | .caret => "CARET"
  | .tilde => "TILDE"
  | .assign => "ASSIGN"
  | .dot => "DOT"
  | .parenOpen => "LPAREN"
  | .parenClose => "RPAREN"
  | .braceOpen => "LBRACE"
  | .braceClose => "RBRACE"
  | .bracketOpen => "LBRACKET"
  | .bracketClose => "RBRACKET"
  | .semicolon => "SEMICOLON"
  | .comma => "COMMA"

/-- The characters of the spelling. -/
def chars (p : Punctuator) : List Char := p.spelling.toList

/-- The punctuator with a given spelling. -/
def ofSpelling? (text : String) : Option Punctuator := all.find? fun p => p.spelling = text

/-- The longest punctuator with which the text begins. -/
def longest? (cs : List Char) : Option Punctuator := all.find? fun p => p.chars.isPrefixOf cs

theorem mem_all (p : Punctuator) : p ∈ all := by cases p <;> decide

theorem ofSpelling?_spelling (p : Punctuator) : ofSpelling? p.spelling = some p := by
  cases p <;> decide

/-- No spelling is empty. -/
theorem chars_ne_nil (p : Punctuator) : p.chars ≠ [] := by cases p <;> decide

/-- In the list of all punctuators the longer spellings come first. -/
theorem all_sorted : all.Pairwise fun p p' => p'.chars.length ≤ p.chars.length := by decide

end Punctuator

/-! ### Lexemes -/

/-- What a token is, apart from its place.  A character literal is given by its code, a string
literal by the text that it stands for. -/
inductive Lexeme where
  | ending
  | identifier (text : String)
  | number (value : Int)
  | float (value : Double)
  | string (text : String)
  | character (code : Int)
  | keyword (word : Keyword)
  | punctuator (mark : Punctuator)
deriving Repr, DecidableEq

namespace Lexeme

/-- The name of the kind of a lexeme in listings. -/
def kindName : Lexeme → String
  | .ending => "EOF"
  | .identifier _ => "IDENTIFIER"
  | .number _ => "NUMBER"
  | .float _ => "FLOAT"
  | .string _ => "STRING"
  | .character _ => "CHAR_LITERAL"
  | .keyword word => word.kindName
  | .punctuator mark => mark.kindName

/-- The text of a lexeme in diagnostics: its spelling, its value, or the name of its kind at the
end of the source. -/
def text : Lexeme → String
  | .ending => "EOF"
  | .identifier text | .string text => text
  | .number value | .character value => toString value
  | .float value => value.text
  | .keyword word => word.spelling
  | .punctuator mark => mark.spelling

/-- The value of a lexeme in listings: texts in quotation marks, numbers as they are, and nothing
at the end of the source. -/
def shownValue : Lexeme → Option String
  | .ending => none
  | .number value | .character value => some (toString value)
  | .float value => some value.text
  | l => some (Text.quoted l.text)

/-- Whether a base type can begin here. -/
def isTypeWord : Lexeme → Bool
  | .keyword word => word.isTypeWord
  | _ => false

/-- Whether a declaration can begin here. -/
def startsDeclaration : Lexeme → Bool
  | .keyword word => word.startsDeclaration
  | _ => false

end Lexeme

/-! ### Tokens -/

/-- A lexeme at the line and column, counted from one, of its first character. -/
structure Token where
  lexeme : Lexeme
  line : Int
  column : Int
deriving Repr, DecidableEq

/-- A token as it stands in a listing. -/
def Token.listing (t : Token) : String :=
  let value := match t.lexeme.shownValue with
    | some shown => ", " ++ shown
    | none => ""
  "Token(" ++ t.lexeme.kindName ++ value ++ ", " ++ toString t.line ++ ":"
    ++ toString t.column ++ ")"

end PlainC
