/-
**Parentheses that a text adds, and parentheses left out.**

The text of an expression has parentheses around every operation, whether the tree holds them or
not.  So the text spells another tree: the one with these parentheses in it.  That tree is grouped,
whatever the operators are and however they are nested, and without parentheses it is the same as
the first one.

Main definitions:

* `PlainC.Expr.enclosed` — an expression with the parentheses that its text has;
* `PlainC.Expr.bare` — an expression without parentheses;
* `PlainC.Expr.IsReprintable` — the expressions whose text is read again.

Main results:

* `PlainC.Expr.bare_enclosed` — **the parentheses of the text add nothing else**;
* `PlainC.Expr.IsReprintable.isGrouped_enclosed`, `PlainC.Expr.IsReprintable.hasSpelling_enclosed` —
  **with the parentheses of its text an expression is grouped**, and it can be written.
-/

import PlainC.Proofs.Conservation.Renaming
import PlainC.Proofs.Scanning.Lexeme
import PlainC.Proofs.Spelling.Expression

set_option relaxedAutoImplicit false
set_option autoImplicit false

namespace PlainC

variable {ν : Type}

namespace Expr

/-! ### Parentheses -/

mutual

/-- The expression without the parentheses that it holds. -/
def bare : Expr ν → Expr ν
  | blank => blank
  | literal value => literal value
  | var name => var name
  | sizeofType type => sizeofType type
  | sizeofExpr operand => sizeofExpr operand.bare
  | parenthesized inner => inner.bare
  | postfixed op operand => postfixed op operand.bare
  | unary op operand => unary op operand.bare
  | binary op left right => binary op left.bare right.bare
  | call callee arguments => call callee (bareAll arguments)
  | index target subscript => index target.bare subscript.bare
  | member target name => member target.bare name
  | pointerMember target name => pointerMember target.bare name
  | cast word operand => cast word operand.bare

/-- The expressions without the parentheses that they hold. -/
def bareAll : List (Expr ν) → List (Expr ν)
  | [] => []
  | e :: es => e.bare :: bareAll es

end

mutual

/-- The expression with parentheses around every operation on one or two operands, and around every
cast. -/
def enclosed : Expr ν → Expr ν
  | blank => blank
  | literal value => literal value
  | var name => var name
  | sizeofType type => sizeofType type
  | sizeofExpr operand => sizeofExpr operand.enclosed
  | parenthesized inner => parenthesized inner.enclosed
  | postfixed op operand => parenthesized (postfixed op operand.enclosed)
  | unary op operand => parenthesized (unary op operand.enclosed)
  | binary op left right => parenthesized (binary op left.enclosed right.enclosed)
  | call callee arguments => call callee (enclosedAll arguments)
  | index target subscript => index target.enclosed subscript.enclosed
  | member target name => member target.enclosed name
  | pointerMember target name => pointerMember target.enclosed name
  | cast word operand => parenthesized (cast word operand.enclosed)

/-- The expressions with parentheses around their operations. -/
def enclosedAll : List (Expr ν) → List (Expr ν)
  | [] => []
  | e :: es => e.enclosed :: enclosedAll es

end

theorem bareAll_eq_map (es : List (Expr ν)) : bareAll es = es.map bare := by
  induction es with
  | nil => rfl
  | cons e es ih => simp [bareAll, ih]

theorem enclosedAll_eq_map (es : List (Expr ν)) : enclosedAll es = es.map enclosed := by
  induction es with
  | nil => rfl
  | cons e es ih => simp [enclosedAll, ih]

/-- **The parentheses of the text add nothing else.** -/
theorem bare_enclosed (e : Expr ν) : e.enclosed.bare = e.bare := by
  induction e using induct with
  | call callee arguments ih =>
      have each : (arguments.map enclosed).map bare = arguments.map bare := by
        rw [List.map_map]
        exact List.map_congr_left ih
      simp only [enclosed, bare, enclosedAll_eq_map, bareAll_eq_map, each]
  | _ => simp_all only [enclosed, bare]

/-! ### Expressions that can be read again -/

/-- Whether the size of a type or of an expression is taken. -/
def isSizeof : Expr ν → Bool
  | sizeofType _ | sizeofExpr _ => true
  | _ => false

/-- Whether an expression is an integer. -/
def isInteger : Expr ν → Bool
  | literal (.int _) => true
  | _ => false

end Expr

/-- The literals whose text is a literal again: integers that are not negative, characters of ASCII
that show as themselves, the apostrophe apart, and texts without a double quote, a backslash and a
newline. -/
def Literal.IsReprintable : Literal → Prop
  | int value => 0 ≤ value
  | double _ => False
  | char code => 32 ≤ code ∧ code ≤ 126 ∧ code ≠ 39
  | string text => '\x22' ∉ text.toList ∧ '\x5c' ∉ text.toList ∧ '\n' ∉ text.toList

/-- The type words whose text is a type word again: those of the language, and structs whose name is
an identifier. -/
def TypeWord.IsReprintable : TypeWord String → Prop
  | struct name => IsIdentifier name.toList
  | tagged _ | foreign _ => False
  | _ => True

/-- The expressions whose text is read again, by their form: names are identifiers, operators can be
written, no size stands in front of a suffix, and no integer in front of a point, with which it
would be a number of another kind. -/
inductive Expr.IsReprintable : Expr String → Prop
  | literal {value : Literal} : value.IsReprintable → IsReprintable (.literal value)
  | var {name : String} : IsIdentifier name.toList → IsReprintable (.var name)
  | sizeofType {sp : Specifier String} : (∀ word ∈ sp.words, word.IsReprintable) →
      (TypeWord.resolve sp.words).isOk → IsReprintable (.sizeofType ⟨sp, .plain, none⟩)
  | sizeofExpr {operand : Expr String} : IsReprintable operand → IsReprintable (.sizeofExpr operand)
  | parenthesized {inner : Expr String} : IsReprintable inner → IsReprintable (.parenthesized inner)
  | postfixed {op : PostfixOp} {operand : Expr String} : operand.isSizeof = false →
      IsReprintable operand → IsReprintable (.postfixed op operand)
  | unary {op : UnaryOp} {operand : Expr String} : IsReprintable operand →
      IsReprintable (.unary op operand)
  | binary {op : Operator} {left right : Expr String} : op.hasSpelling → IsReprintable left →
      IsReprintable right → IsReprintable (.binary op left right)
  | call {callee : String} {arguments : List (Expr String)} : IsIdentifier callee.toList →
      (∀ a ∈ arguments, IsReprintable a) → IsReprintable (.call callee arguments)
  | index {target subscript : Expr String} : target.isSizeof = false → IsReprintable target →
      IsReprintable subscript → IsReprintable (.index target subscript)
  | member {target : Expr String} {name : String} : target.isSizeof = false →
      target.isInteger = false → IsIdentifier name.toList → IsReprintable target →
      IsReprintable (.member target name)
  | pointerMember {target : Expr String} {name : String} : target.isSizeof = false →
      IsIdentifier name.toList → IsReprintable target → IsReprintable (.pointerMember target name)
  | cast {word : TypeWord String} {operand : Expr String} : word.IsReprintable →
      IsReprintable operand → IsReprintable (.cast word operand)

theorem TypeWord.IsReprintable.hasSpelling {word : TypeWord String} (h : word.IsReprintable) :
    word.hasSpelling := by
  cases word with
  | tagged | foreign => exact h.elim
  | _ => rfl

namespace Expr

variable {e : Expr String}

/-- With the parentheses of its text, an expression is no operation on two operands. -/
theorem isBinary_enclosed (e : Expr ν) : e.enclosed.isBinary = false := by cases e <;> rfl

theorem isCast_enclosed (e : Expr ν) : e.enclosed.isCast = false := by cases e <;> rfl

theorem level_enclosed (e : Expr ν) : e.enclosed.level = operandLevel := by cases e <;> rfl

/-- With the parentheses of its text, an expression can have a suffix unless it is a size. -/
theorem takesSuffix_enclosed {e : Expr ν} (noSize : e.isSizeof = false) :
    e.enclosed.takesSuffix := by
  cases e with
  | sizeofType | sizeofExpr => cases noSize
  | _ => rfl

/-- With the parentheses of its text, an expression can be written. -/
theorem IsReprintable.hasSpelling_enclosed (h : e.IsReprintable) : e.enclosed.hasSpelling := by
  induction h with
  | literal | var => rfl
  | @sizeofType sp words resolves =>
      have each : sp.words.all TypeWord.hasSpelling :=
        List.all_eq_true.2 fun word member => (words word member).hasSpelling
      simp [enclosed, hasSpelling, Declaration.isAbstract, Declaration.hasSpelling,
        Specifier.hasSpelling, Shape.isKnown, each, resolves]
  | sizeofExpr _ ih | parenthesized _ ih | postfixed _ _ ih | unary _ ih | member _ _ _ _ ih
  | pointerMember _ _ _ ih => exact ih
  | binary known _ _ ihLeft ihRight => simp [enclosed, hasSpelling, known, ihLeft, ihRight]
  | call _ _ ih =>
      rw [enclosed, hasSpelling, rowHasSpelling_iff, enclosedAll_eq_map]
      exact List.forall_mem_map.2 ih
  | index _ _ _ ihTarget ihSubscript => simp [enclosed, hasSpelling, ihTarget, ihSubscript]
  | cast word _ ih => simp [enclosed, hasSpelling, word.hasSpelling, ih]

/-- **With the parentheses of its text an expression is grouped**, whatever its operators are. -/
theorem IsReprintable.isGrouped_enclosed (h : e.IsReprintable) : e.enclosed.isGrouped := by
  induction h with
  | literal | var | sizeofType => rfl
  | sizeofExpr _ ih => simp [enclosed, isGrouped, isBinary_enclosed, isCast_enclosed, ih]
  | parenthesized _ ih => exact ih
  | unary _ ih | cast _ _ ih => simp [enclosed, isGrouped, isBinary_enclosed, ih]
  | postfixed noSize _ ih => simp [enclosed, isGrouped, takesSuffix_enclosed noSize, ih]
  | member noSize _ _ _ ih | pointerMember noSize _ _ ih =>
      simp [enclosed, isGrouped, takesSuffix_enclosed noSize, ih]
  | @binary op _ _ _ _ _ ihLeft ihRight =>
      simp [enclosed, isGrouped, level_enclosed, op.leftLevel_le_operandLevel,
        op.rightLevel_le_operandLevel, ihLeft, ihRight]
  | call _ _ ih =>
      rw [enclosed, isGrouped, rowIsGrouped_iff, enclosedAll_eq_map]
      exact List.forall_mem_map.2 ih
  | index noSize _ _ ihTarget ihSubscript =>
      simp [enclosed, isGrouped, takesSuffix_enclosed noSize, ihTarget, ihSubscript]

end Expr

end PlainC
