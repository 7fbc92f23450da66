/-
**How expressions are spelled, and which groupings need no parentheses.**

The spelling of an expression is its reading from left to right.  It shows no grouping beyond the
parentheses that the tree itself holds, so a tree is the reading of its own spelling only if it is
well grouped: the operands of an operator hold together at least as tightly as the operator asks of
that side, and what stands in front of a suffix is no operation of any other kind.

Main definitions:

* `PlainC.Expr.spelling` — the lexemes of an expression in order;
* `PlainC.Expr.hasSpelling` — whether an expression has no blank and no foreign part;
* `PlainC.Expr.level`, `PlainC.Operator.leftLevel` — how tightly an expression holds together, and
  what an operator asks of its left operand;
* `PlainC.Expr.isGrouped` — the trees that need no further parentheses;
* `PlainC.Expr.holdsType` — whether the size of a type is taken anywhere.

Main results:

* `PlainC.Literal.ofLexeme?_eq_some_iff` — a lexeme is a literal exactly if it spells that literal;
* `PlainC.Operator.leftLevel_le_iff` — which operators can stand behind an operation.
-/

import PlainC.Proofs.Spelling.Declarator
import PlainC.Tree.Parser.Expression

set_option relaxedAutoImplicit false
set_option autoImplicit false

namespace PlainC

variable {ν : Type}

/-! ### Literals and operators -/

/-- The lexeme of a literal. -/
def Literal.lexeme : Literal → Lexeme
  | int value => .number value
  | double value => .float value
  | char code => .character code
  | string text => .string text

/-- A lexeme is a literal exactly if it spells that literal. -/
theorem Literal.ofLexeme?_eq_some_iff {l : Lexeme} {v : Literal} :
    ofLexeme? l = some v ↔ l = v.lexeme := by
  constructor
  · intro h
    cases l <;> simp only [ofLexeme?, reduceCtorEq, Option.some.injEq] at h <;> rw [← h] <;> rfl
  · rintro rfl
    cases v <;> rfl

/-- Whether an operator can be written in a source. -/
def Operator.hasSpelling : Operator → Bool
  | .foreign _ => false
  | _ => true

theorem Operator.exists_lexeme {op : Operator} (h : op.hasSpelling) :
    ∃ l, op.lexeme? = some l := by
  cases op with
  | foreign part => cases h
  | _ => exact ⟨_, rfl⟩

theorem Operator.hasSpelling_of_ofLexeme? {op : Operator} {l : Lexeme}
    (h : ofLexeme? l = some op) : op.hasSpelling := by
  cases op with
  | foreign part => cases ofLexeme?_eq_some_iff.1 h
  | _ => rfl

/-- The level that an operator asks of its left operand. -/
def Operator.leftLevel (op : Operator) : Nat :=
  if op.groupsRight then op.precedence + 1 else op.precedence

theorem Operator.precedence_le_leftLevel (op : Operator) : op.precedence ≤ op.leftLevel := by
  unfold leftLevel
  split <;> omega

theorem Operator.leftLevel_le (op : Operator) : op.leftLevel ≤ op.precedence + 1 := by
  unfold leftLevel
  split <;> omega

/-- No operator asks more of its left operand than an operand gives. -/
theorem Operator.leftLevel_le_operandLevel (op : Operator) : op.leftLevel ≤ operandLevel := by
  have below := op.precedence_lt_operandLevel
  have above := op.leftLevel_le
  omega

/-- No operator asks more of its right operand than an operand gives. -/
theorem Operator.rightLevel_le_operandLevel (op : Operator) : op.rightLevel ≤ operandLevel := by
  have below := op.precedence_lt_operandLevel
  unfold rightLevel
  split <;> omega

/-- Operators that bind equally tightly group in the same way. -/
theorem Operator.groupsRight_eq_of_precedence_eq {op op' : Operator}
    (same : op.precedence = op'.precedence) : op.groupsRight = op'.groupsRight := by
  rw [Bool.eq_iff_iff, groupsRight, groupsRight, ← precedence_eq_one_iff, ← precedence_eq_one_iff,
    same]

/-- An operator takes an operation as its left operand exactly if the right operand of that
operation ends in front of it. -/
theorem Operator.leftLevel_le_iff {op op' : Operator} :
    op'.leftLevel ≤ op.precedence ↔ op'.precedence < op.rightLevel := by
  have same : op.precedence = op'.precedence → op.groupsRight = op'.groupsRight :=
    groupsRight_eq_of_precedence_eq
  unfold leftLevel rightLevel
  split <;> split <;> rename_i h h'
  · omega
  · have different : op.precedence ≠ op'.precedence := by
      intro eq
      rw [same eq] at h'
      exact h' h
    omega
  · have different : op.precedence ≠ op'.precedence := by
      intro eq
      rw [same eq] at h'
      exact h h'
    omega
  · omega

namespace Expr

/-! ### Spelling -/

mutual

/-- The lexemes of an expression, from left to right; a blank has none. -/
def spelling : Expr String → List Lexeme
  | blank => []
  | literal value => [value.lexeme]
  | var name => [.identifier name]
  | sizeofType type =>
      .keyword .sizeof :: .punctuator .parenOpen :: type.spelling ++ [.punctuator .parenClose]
  | sizeofExpr operand => .keyword .sizeof :: operand.spelling
  | parenthesized inner => .punctuator .parenOpen :: inner.spelling ++ [.punctuator .parenClose]
  | postfixed op operand => operand.spelling ++ [.punctuator op.mark]
  | unary op operand => .punctuator op.mark :: operand.spelling
  | binary op left right => left.spelling ++ op.lexeme?.toList ++ right.spelling
  | call callee arguments =>
      .identifier callee :: .punctuator .parenOpen :: rowSpelling arguments
        ++ [.punctuator .parenClose]
  | index target subscript =>
      target.spelling ++ .punctuator .bracketOpen :: subscript.spelling
        ++ [.punctuator .bracketClose]
  | member target name => target.spelling ++ [.punctuator .dot, .identifier name]
  | pointerMember target name => target.spelling ++ [.punctuator .arrow, .identifier name]
  | cast word operand =>
      .punctuator .parenOpen :: word.spelling ++ .punctuator .parenClose :: operand.spelling

/-- The lexemes of a row of expressions with a comma between two of them. -/
def rowSpelling : List (Expr String) → List Lexeme
  | [] => []
  | e :: es => e.spelling ++ moreSpelling es

/-- The lexemes of a row of expressions with a comma in front of each of them. -/
def moreSpelling : List (Expr String) → List Lexeme
  | [] => []
  | e :: es => .punctuator .comma :: e.spelling ++ moreSpelling es

end

theorem moreSpelling_append (es es' : List (Expr String)) :
    moreSpelling (es ++ es') = moreSpelling es ++ moreSpelling es' := by
  induction es with
  | nil => rfl
  | cons e es ih => simp [moreSpelling, ih]

mutual

/-- Whether an expression can be written in a source: it has no blank and no foreign part,
and the types in it have no name. -/
def hasSpelling : Expr String → Bool
  | blank => false
  | literal _ | var _ => true
  | sizeofType type => type.isAbstract && type.hasSpelling
  | sizeofExpr operand => operand.hasSpelling
  | parenthesized inner => inner.hasSpelling
  | postfixed _ operand => operand.hasSpelling
  | unary _ operand => operand.hasSpelling
  | binary op left right => op.hasSpelling && left.hasSpelling && right.hasSpelling
  | call _ arguments => rowHasSpelling arguments
  | index target subscript => target.hasSpelling && subscript.hasSpelling
  | member target _ => target.hasSpelling
  | pointerMember target _ => target.hasSpelling
  | cast word operand => word.hasSpelling && operand.hasSpelling

/-- Whether all expressions of a row can be written in a source. -/
def rowHasSpelling : List (Expr String) → Bool
  | [] => true
  | e :: es => e.hasSpelling && rowHasSpelling es

end

theorem rowHasSpelling_iff {es : List (Expr String)} :
    rowHasSpelling es ↔ ∀ e ∈ es, e.hasSpelling := by
  induction es with
  | nil => simp [rowHasSpelling]
  | cons e es ih => simp [rowHasSpelling, ih]

theorem rowHasSpelling_append (es es' : List (Expr String)) :
    rowHasSpelling (es ++ es') = (rowHasSpelling es && rowHasSpelling es') := by
  induction es with
  | nil => simp [rowHasSpelling]
  | cons e es ih => simp [rowHasSpelling, ih, Bool.and_assoc]

mutual

/-- Whether the size of a type is taken anywhere in an expression. -/
def holdsType : Expr ν → Bool
  | blank | literal _ | var _ => false
  | sizeofType _ => true
  | sizeofExpr operand => operand.holdsType
  | parenthesized inner => inner.holdsType
  | postfixed _ operand => operand.holdsType
  | unary _ operand => operand.holdsType
  | binary _ left right => left.holdsType || right.holdsType
  | call _ arguments => rowHoldsType arguments
  | index target subscript => target.holdsType || subscript.holdsType
  | member target _ => target.holdsType
  | pointerMember target _ => target.holdsType
  | cast _ operand => operand.holdsType

/-- Whether the size of a type is taken anywhere in a row of expressions. -/
def rowHoldsType : List (Expr ν) → Bool
  | [] => false
  | e :: es => e.holdsType || rowHoldsType es

end

theorem rowHoldsType_iff {es : List (Expr ν)} :
    rowHoldsType es = true ↔ ∃ e ∈ es, e.holdsType = true := by
  induction es with
  | nil => simp [rowHoldsType]
  | cons e es ih => simp [rowHoldsType, ih]

theorem rowHoldsType_append (es es' : List (Expr ν)) :
    rowHoldsType (es ++ es') = (rowHoldsType es || rowHoldsType es') := by
  induction es with
  | nil => simp [rowHoldsType]
  | cons e es ih => simp [rowHoldsType, ih, Bool.or_assoc]

/-! ### Grouping -/

/-- How tightly an expression holds together: as tightly as its operator if it has one between two
operands, and as tightly as an operand otherwise. -/
def level : Expr ν → Nat
  | binary op _ _ => op.precedence
  | _ => operandLevel

/-- Every expression is one of the weakest level. -/
theorem expressionLevel_le_level (e : Expr ν) : expressionLevel ≤ e.level := by
  have weakest : expressionLevel ≤ operandLevel := by decide
  cases e with
  | binary op left right => exact op.precedence_pos
  | _ => exact weakest

/-- Whether an expression is an operation on two operands. -/
def isBinary : Expr ν → Bool
  | binary .. => true
  | _ => false

/-- The expressions that hold together as tightly as an operand are those without an operator
between operands. -/
theorem operandLevel_le_level_iff (e : Expr ν) :
    operandLevel ≤ e.level ↔ e.isBinary = false := by
  cases e with
  | binary op left right =>
      have below := op.precedence_lt_operandLevel
      simp only [level, isBinary]
      constructor
      · intro h
        omega
      · intro h
        cases h
  | _ => exact iff_of_true (Nat.le_refl _) rfl

/-- Whether an expression is a cast. -/
def isCast : Expr ν → Bool
  | cast .. => true
  | _ => false

/-- Whether a suffix can stand behind an expression: whether it is no operation on two operands, no
operator in front of an operand, no cast and no size. -/
def takesSuffix : Expr ν → Bool
  | binary .. | unary .. | cast .. | sizeofType _ | sizeofExpr _ => false
  | _ => true

mutual

/-- Whether an expression needs no parentheses besides those that it holds. -/
def isGrouped : Expr ν → Bool
  | blank | literal _ | var _ | sizeofType _ => true
  | sizeofExpr operand => !operand.isBinary && !operand.isCast && operand.isGrouped
  | parenthesized inner => inner.isGrouped
  | postfixed _ operand => operand.takesSuffix && operand.isGrouped
  | unary _ operand => !operand.isBinary && operand.isGrouped
  | binary op left right =>
      op.leftLevel ≤ left.level && op.rightLevel ≤ right.level && left.isGrouped && right.isGrouped
  | call _ arguments => rowIsGrouped arguments
  | index target subscript => target.takesSuffix && target.isGrouped && subscript.isGrouped
  | member target _ => target.takesSuffix && target.isGrouped
  | pointerMember target _ => target.takesSuffix && target.isGrouped
  | cast _ operand => !operand.isBinary && operand.isGrouped

/-- Whether all expressions of a row need no parentheses besides those that they hold. -/
def rowIsGrouped : List (Expr ν) → Bool
  | [] => true
  | e :: es => e.isGrouped && rowIsGrouped es

end

theorem rowIsGrouped_iff {es : List (Expr ν)} : rowIsGrouped es ↔ ∀ e ∈ es, e.isGrouped := by
  induction es with
  | nil => simp [rowIsGrouped]
  | cons e es ih => simp [rowIsGrouped, ih]

theorem rowIsGrouped_append (es es' : List (Expr ν)) :
    rowIsGrouped (es ++ es') = (rowIsGrouped es && rowIsGrouped es') := by
  induction es with
  | nil => simp [rowIsGrouped]
  | cons e es ih => simp [rowIsGrouped, ih, Bool.and_assoc]

end Expr

end PlainC
