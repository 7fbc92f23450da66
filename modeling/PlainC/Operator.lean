/-
**Operators.**

Operators come in three families: those behind their operand, those in front of it, and those
between two operands.  Every operator is spelled by one punctuator, and within a family a punctuator
spells at most one operator; `*`, `&`, `+`, `-`, `++` and `--` belong to two families and are told
apart by their position.  Assignments stand between two operands like any other operator; they bind
weakest and are the only ones that group to the right.  A tree that is put together by hand can also
hold an assignment by something foreign, which nothing spells.

Main definitions:

* `PlainC.PostfixOp`, `PlainC.UnaryOp` — the operators behind and in front of one operand;
* `PlainC.BinaryOp`, `PlainC.AssignOp`, `PlainC.Operator` — the operators between two operands;
* `PlainC.Operator.precedence`, `PlainC.Operator.groupsRight` — how they bind.

Main results:

* `PlainC.Operator.ofLexeme?_eq_some_iff` — a lexeme is an operator exactly if it spells that
  operator;
* `PlainC.Operator.precedence_eq_one_iff` — the assignments are the operators of the weakest level.
-/

import PlainC.Foreign
import PlainC.Token

set_option relaxedAutoImplicit false
set_option autoImplicit false

namespace PlainC

/-! ### One operand -/

/-- Operators behind their operand. -/
inductive PostfixOp where
  | increment | decrement
deriving Repr, DecidableEq

namespace PostfixOp

/-- All operators behind an operand, in the order of their declaration. -/
def all : List PostfixOp :=
  [.increment, .decrement]

/-- The name of the operator in listings. -/
def name : PostfixOp → String
  | .increment => "INCREMENT"
  | .decrement => "DECREMENT"

/-- The punctuator that spells the operator. -/
def mark : PostfixOp → Punctuator
  | .increment => .increment
  | .decrement => .decrement

/-- The spelling of the operator. -/
def spelling (op : PostfixOp) : String := op.mark.spelling

/-- The operator of this family that a lexeme spells. -/
def ofLexeme? : Lexeme → Option PostfixOp
  | .punctuator p => all.find? fun op => op.mark = p
  | _ => none

theorem mem_all (op : PostfixOp) : op ∈ all := by cases op <;> decide

theorem ofLexeme?_mark (op : PostfixOp) : ofLexeme? (.punctuator op.mark) = some op := by
  cases op <;> decide

/-- A lexeme spells an operator of this family exactly if it is the mark of that operator. -/
theorem ofLexeme?_eq_some_iff {l : Lexeme} {op : PostfixOp} :
    ofLexeme? l = some op ↔ l = .punctuator op.mark := by
  constructor
  · intro h
    cases l <;> simp only [ofLexeme?, reduceCtorEq] at h
    have := List.find?_some h
    simp_all
  · rintro rfl
    exact ofLexeme?_mark op

end PostfixOp

/-- Operators in front of their operand. -/
inductive UnaryOp where
  | increment | decrement | plus | negate | logicalNot | bitwiseNot | dereference | addressOf
deriving Repr, DecidableEq

namespace UnaryOp

/-- All operators in front of an operand, in the order of their declaration. -/
def all : List UnaryOp :=
  [.increment, .decrement, .plus, .negate, .logicalNot, .bitwiseNot, .dereference, .addressOf]

/-- The name of the operator in listings. -/
def name : UnaryOp → String
  | .increment => "INCREMENT"
  | .decrement => "DECREMENT"
  | .plus => "PLUS"
  | .negate => "NEGATE"
  | .logicalNot => "LOGICAL_NOT"
  | .bitwiseNot => "BITWISE_NOT"
  | .dereference => "DEREF"
  | .addressOf => "ADDRESS_OF"

/-- The punctuator that spells the operator. -/
def mark : UnaryOp → Punctuator
  | .increment => .increment
  | .decrement => .decrement
  | .plus => .plus
  | .negate => .minus
  | .logicalNot => .bang
  | .bitwiseNot => .tilde
  | .dereference => .star
  | .addressOf => .ampersand

/-- The spelling of the operator. -/
def spelling (op : UnaryOp) : String := op.mark.spelling

/-- The operator of this family that a lexeme spells. -/
def ofLexeme? : Lexeme → Option UnaryOp
  | .punctuator p => all.find? fun op => op.mark = p
  | _ => none

theorem mem_all (op : UnaryOp) : op ∈ all := by cases op <;> decide

theorem ofLexeme?_mark (op : UnaryOp) : ofLexeme? (.punctuator op.mark) = some op := by
  cases op <;> decide

/-- A lexeme spells an operator of this family exactly if it is the mark of that operator. -/
theorem ofLexeme?_eq_some_iff {l : Lexeme} {op : UnaryOp} :
    ofLexeme? l = some op ↔ l = .punctuator op.mark := by
  constructor
  · intro h
    cases l <;> simp only [ofLexeme?, reduceCtorEq] at h
    have := List.find?_some h
    simp_all
  · rintro rfl
    exact ofLexeme?_mark op

end UnaryOp

/-! ### Two operands -/

/-- Operators between two operands, the assignments apart. -/
inductive BinaryOp where
  | add | subtract | multiply | divide | modulo | equal | notEqual | greater | greaterEqual
  | less | lessEqual | logicalAnd | logicalOr | bitwiseAnd | bitwiseOr | bitwiseXor | shiftLeft
  | shiftRight
deriving Repr, DecidableEq

namespace BinaryOp

/-- All operators between two operands that do not assign, in the order of their declaration. -/
def all : List BinaryOp :=
  [.add, .subtract, .multiply, .divide, .modulo, .equal, .notEqual, .greater, .greaterEqual,
   .less, .lessEqual, .logicalAnd, .logicalOr, .bitwiseAnd, .bitwiseOr, .bitwiseXor, .shiftLeft,
   .shiftRight]

/-- The name of the operator in listings. -/
def name : BinaryOp → String
  | .add => "ADD"
  | .subtract => "SUBTRACT"
  | .multiply => "MULTIPLY"
  | .divide => "DIVIDE"
  | .modulo => "MODULO"
  | .equal => "EQUAL"
  | .notEqual => "NOT_EQUAL"
  | .greater => "GREATER_THAN"
  | .greaterEqual => "GREATER_THAN_EQUAL"
  | .less => "LESS_THAN"
  | .lessEqual => "LESS_THAN_EQUAL"
  | .logicalAnd => "LOGICAL_AND"
  | .logicalOr => "LOGICAL_OR"
  | .bitwiseAnd => "BITWISE_AND"
  | .bitwiseOr => "BITWISE_OR"
  | .bitwiseXor => "BITWISE_XOR"
  | .shiftLeft => "LEFT_SHIFT"
  | .shiftRight => "RIGHT_SHIFT"

/-- The punctuator that spells the operator. -/
def mark : BinaryOp → Punctuator
  | .add => .plus
  | .subtract => .minus
  | .multiply => .star
  | .divide => .slash
  | .modulo => .percent
  | .equal => .equal
  | .notEqual => .notEqual
  | .greater => .greater
  | .greaterEqual => .greaterEqual
  | .less => .less
  | .lessEqual => .lessEqual
  | .logicalAnd => .andAnd
  | .logicalOr => .orOr
  | .bitwiseAnd => .ampersand
  | .bitwiseOr => .pipe
  | .bitwiseXor => .caret
  | .shiftLeft => .shiftLeft
  | .shiftRight => .shiftRight

/-- The spelling of the operator. -/
def spelling (op : BinaryOp) : String := op.mark.spelling

/-- The operator of this family that a lexeme spells. -/
def ofLexeme? : Lexeme → Option BinaryOp
  | .punctuator p => all.find? fun op => op.mark = p
  | _ => none

theorem mem_all (op : BinaryOp) : op ∈ all := by cases op <;> decide

theorem ofLexeme?_mark (op : BinaryOp) : ofLexeme? (.punctuator op.mark) = some op := by
  cases op <;> decide

/-- A lexeme spells an operator of this family exactly if it is the mark of that operator. -/
theorem ofLexeme?_eq_some_iff {l : Lexeme} {op : BinaryOp} :
    ofLexeme? l = some op ↔ l = .punctuator op.mark := by
  constructor
  · intro h
    cases l <;> simp only [ofLexeme?, reduceCtorEq] at h
    have := List.find?_some h
    simp_all
  · rintro rfl
    exact ofLexeme?_mark op

/-- How tightly the operator binds; higher is tighter. -/
def precedence : BinaryOp → Nat
  | .multiply | .divide | .modulo => 11
  | .add | .subtract => 10
  | .shiftLeft | .shiftRight => 9
  | .greater | .greaterEqual | .less | .lessEqual => 8
  | .equal | .notEqual => 7
  | .bitwiseAnd => 6
  | .bitwiseXor => 5
  | .bitwiseOr => 4
  | .logicalAnd => 3
  | .logicalOr => 2

end BinaryOp

/-- The assignments. -/
inductive AssignOp where
  | plain | add | subtract | multiply | divide | modulo | bitwiseAnd | bitwiseOr | bitwiseXor
  | shiftLeft | shiftRight
deriving Repr, DecidableEq

namespace AssignOp

/-- All assignments, in the order of their declaration. -/
def all : List AssignOp :=
  [.plain, .add, .subtract, .multiply, .divide, .modulo, .bitwiseAnd, .bitwiseOr, .bitwiseXor,
   .shiftLeft, .shiftRight]

/-- The name of the operator in listings. -/
def name : AssignOp → String
  | .plain => "ASSIGN"
  | .add => "PLUS"
  | .subtract => "MINUS"
  | .multiply => "MULTIPLY"
  | .divide => "DIVIDE"
  | .modulo => "MODULO"
  | .bitwiseAnd => "BITWISE_AND"
  | .bitwiseOr => "BITWISE_OR"
  | .bitwiseXor => "BITWISE_XOR"
  | .shiftLeft => "LEFT_SHIFT"
  | .shiftRight => "RIGHT_SHIFT"

/-- The punctuator that spells the operator. -/
def mark : AssignOp → Punctuator
  | .plain => .assign
  | .add => .plusAssign
  | .subtract => .minusAssign
  | .multiply => .starAssign
  | .divide => .slashAssign
  | .modulo => .percentAssign
  | .bitwiseAnd => .andAssign
  | .bitwiseOr => .orAssign
  | .bitwiseXor => .xorAssign
  | .shiftLeft => .shiftLeftAssign
  | .shiftRight => .shiftRightAssign

/-- The spelling of the operator. -/
def spelling (op : AssignOp) : String := op.mark.spelling

/-- The operator of this family that a lexeme spells. -/
def ofLexeme? : Lexeme → Option AssignOp
  | .punctuator p => all.find? fun op => op.mark = p
  | _ => none

theorem mem_all (op : AssignOp) : op ∈ all := by cases op <;> decide

theorem ofLexeme?_mark (op : AssignOp) : ofLexeme? (.punctuator op.mark) = some op := by
  cases op <;> decide

/-- A lexeme spells an operator of this family exactly if it is the mark of that operator. -/
theorem ofLexeme?_eq_some_iff {l : Lexeme} {op : AssignOp} :
    ofLexeme? l = some op ↔ l = .punctuator op.mark := by
  constructor
  · intro h
    cases l <;> simp only [ofLexeme?, reduceCtorEq] at h
    have := List.find?_some h
    simp_all
  · rintro rfl
    exact ofLexeme?_mark op

/-- The operation that a compound assignment applies before it stores. -/
def fused : AssignOp → Option BinaryOp
  | .plain => none
  | .add => some .add
  | .subtract => some .subtract
  | .multiply => some .multiply
  | .divide => some .divide
  | .modulo => some .modulo
  | .bitwiseAnd => some .bitwiseAnd
  | .bitwiseOr => some .bitwiseOr
  | .bitwiseXor => some .bitwiseXor
  | .shiftLeft => some .shiftLeft
  | .shiftRight => some .shiftRight

/-- Whether the assignment applies an operation before it stores. -/
def isCompound (op : AssignOp) : Bool := op ≠ .plain

theorem isCompound_eq_isSome_fused (op : AssignOp) : op.isCompound = op.fused.isSome := by
  cases op <;> decide

end AssignOp

/-- Anything that can stand between two operands. -/
inductive Operator where
  | binary (op : BinaryOp)
  | assign (op : AssignOp)
  | foreign (part : Foreign)
deriving Repr, DecidableEq

namespace Operator

/-- The lexeme that spells the operator; a foreign one has none. -/
def lexeme? : Operator → Option Lexeme
  | .binary op => some (.punctuator op.mark)
  | .assign op => some (.punctuator op.mark)
  | .foreign _ => none

/-- The spelling of the operator, or the text of a foreign one. -/
def spelling : Operator → String
  | .binary op => op.spelling
  | .assign op => op.spelling
  | .foreign part => part.text

/-- Whether the operator is an assignment. -/
def isAssignment : Operator → Bool
  | .binary _ => false
  | .assign _ | .foreign _ => true

/-- How tightly the operator binds; higher is tighter, and the assignments bind weakest. -/
def precedence : Operator → Nat
  | .binary op => op.precedence
  | .assign _ | .foreign _ => 1

/-- Whether a row of this operator groups to the right, as in `a = (b = c)`. -/
def groupsRight (op : Operator) : Bool := op.isAssignment

/-- The operator between two operands that a lexeme spells. -/
def ofLexeme? (l : Lexeme) : Option Operator :=
  match BinaryOp.ofLexeme? l with
  | some op => some (.binary op)
  | none => (AssignOp.ofLexeme? l).map .assign

theorem ofLexeme?_of_lexeme? {l : Lexeme} {op : Operator} (h : op.lexeme? = some l) :
    ofLexeme? l = some op := by
  rcases op with op | op | part
  · cases h
    cases op <;> decide
  · cases h
    cases op <;> decide
  · cases h

/-- A lexeme is an operator exactly if it spells that operator. -/
theorem ofLexeme?_eq_some_iff {l : Lexeme} {op : Operator} :
    ofLexeme? l = some op ↔ op.lexeme? = some l := by
  constructor
  · intro h
    unfold ofLexeme? at h
    split at h
    · rename_i found
      cases h
      simp [lexeme?, BinaryOp.ofLexeme?_eq_some_iff.1 found]
    · obtain ⟨_, found, rfl⟩ := Option.map_eq_some_iff.1 h
      simp [lexeme?, AssignOp.ofLexeme?_eq_some_iff.1 found]
  · exact ofLexeme?_of_lexeme?

/-- The assignments are the operators of the weakest level. -/
theorem precedence_eq_one_iff (op : Operator) : op.precedence = 1 ↔ op.isAssignment := by
  rcases op with op | op | part
  · cases op <;> decide
  · cases op <;> decide
  · simp [precedence, isAssignment]

theorem precedence_pos (op : Operator) : 0 < op.precedence := by
  rcases op with op | op | part
  · cases op <;> decide
  · cases op <;> decide
  · simp [precedence]

end Operator

end PlainC
