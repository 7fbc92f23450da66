/-
**Types and expressions in words.**

A declared type is read out in words, from the name to the base: `*x[3]` with the specifier
`static const int` is a `static array[3] of pointer to const int`.  An expression is written in one
line with every operation in parentheses, so that the text shows how its operators were grouped.

A blank expression has no text, and neither has a character literal whose code is no code point;
both can be composed by hand but are never read from a source.  An integer literal with more digits
than are converted has no text either, and it can be read from a source, in another base.

Main definitions:

* `PlainC.Declaration.describe`, `PlainC.Declaration.text` — a type in words, with and without the
  name;
* `PlainC.Expr.text` — an expression in one line;
* `PlainC.Unprintable` — why an expression has no text.

Main results:

* `PlainC.Expr.texts_eq_mapM` — the arguments of a call are written one by one.
-/

import PlainC.Number.Decimal
import PlainC.Tree

set_option relaxedAutoImplicit false
set_option autoImplicit false

namespace PlainC

/-! ### Declarations -/

namespace Declaration

/-- The declared type in words: the storage, the shape from the outside in, the qualifier, and the
type words. -/
def describe {ν : Type} (nameText : ν → String) (d : Declaration ν) : String :=
  let s := d.specifier.map nameText
  " ".intercalate ((if s.isStatic then ["static"] else []) ++ d.shape.layers.map Shape.layerText
    ++ (if s.isConst then ["const"] else []) ++ s.words.map TypeWord.text)

/-- The name, if there is one, with the declared type in words. -/
def text {ν : Type} (nameText : ν → String) (d : Declaration ν) : String :=
  match d.name with
  | none => d.describe nameText
  | some name => nameText name ++ ": " ++ d.describe nameText

end Declaration

/-! ### Expressions -/

/-- Why an expression has no text. -/
inductive Unprintable where
  /-- Nothing is known of the expression. -/
  | unknownExpression
  /-- A character literal has a code that is no code point. -/
  | noCodePoint (code : Int)
  /-- An integer literal has more decimal digits than are converted. -/
  | overlong
deriving Repr, DecidableEq

/-- The text of a literal. -/
def Literal.text : Literal → Except Unprintable String
  | .int value => if isConvertible value then .ok (toString value) else .error .overlong
  | .double value => .ok value.text
  | .char code =>
      if 0 ≤ code ∧ code < 0x110000 then .ok (Text.quotedCode code.toNat)
      else .error (.noCodePoint code)
  | .string text => .ok ("\x22" ++ text ++ "\x22")

namespace Literal

theorem text_int {value : Int} (h : isConvertible value) :
    (int value).text = .ok (toString value) := if_pos h

theorem text_int_overlong {value : Int} (h : ¬ isConvertible value) :
    (int value).text = .error .overlong := if_neg h

theorem text_char {code : Int} (h : 0 ≤ code ∧ code < 0x110000) :
    (char code).text = .ok (Text.quotedCode code.toNat) := if_pos h

end Literal

namespace Expr

variable {ν : Type}

mutual

/-- An expression in one line, with every operation in parentheses. -/
def text (nameText : ν → String) : Expr ν → Except Unprintable String
  | blank => .error .unknownExpression
  | literal value => value.text
  | var name => .ok (nameText name)
  | sizeofType type => .ok ("sizeof(" ++ type.describe nameText ++ ")")
  | sizeofExpr operand => do return "sizeof " ++ (← operand.text nameText)
  | parenthesized inner => do return "(" ++ (← inner.text nameText) ++ ")"
  | postfixed op operand => do return "(" ++ (← operand.text nameText) ++ op.spelling ++ ")"
  | unary op operand => do return "(" ++ op.spelling ++ (← operand.text nameText) ++ ")"
  | binary op left right => do
      let leftText ← left.text nameText
      let rightText ← right.text nameText
      return "(" ++ leftText ++ " " ++ op.spelling ++ " " ++ rightText ++ ")"
  | call callee arguments => do
      return nameText callee ++ "(" ++ ", ".intercalate (← texts nameText arguments) ++ ")"
  | index target subscript => do
      let targetText ← target.text nameText
      let subscriptText ← subscript.text nameText
      return targetText ++ "[" ++ subscriptText ++ "]"
  | member target name => do return (← target.text nameText) ++ "." ++ nameText name
  | pointerMember target name => do return (← target.text nameText) ++ "->" ++ nameText name
  | cast word operand => do
      return "((" ++ (word.map nameText).text ++ ") " ++ (← operand.text nameText) ++ ")"

/-- Expressions in one line each. -/
def texts (nameText : ν → String) : List (Expr ν) → Except Unprintable (List String)
  | [] => .ok []
  | e :: es => do
      let first ← e.text nameText
      let more ← texts nameText es
      return first :: more

end

/-- The arguments of a call are written one by one. -/
theorem texts_eq_mapM (nameText : ν → String) (es : List (Expr ν)) :
    texts nameText es = es.mapM (text nameText) := by
  induction es with
  | nil => rfl
  | cons e es ih => simp [texts, ih]

end Expr

end PlainC
