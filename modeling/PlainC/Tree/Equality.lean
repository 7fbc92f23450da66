/-
**Equality of trees.**

Two trees are equal when they have the same form and the same names at every place.  Calls and
blocks hold rows of trees, so the comparison of trees goes along with the comparison of rows.

Main definitions:

* `PlainC.Expr.same`, `PlainC.Stmt.same` — the comparison of expressions and of statements;
* instances that decide the equality of trees of every sort.

Main results:

* `PlainC.Expr.same_iff`, `PlainC.Stmt.same_iff` — the comparison decides equality.
-/

import PlainC.Tree.Node

set_option relaxedAutoImplicit false
set_option autoImplicit false

namespace PlainC

variable {ν : Type} [DecidableEq ν]

/-! ### Expressions -/

namespace Expr

mutual

/-- Whether two expressions are equal. -/
def same : Expr ν → Expr ν → Bool
  | blank, blank => true
  | literal value, literal value' => value = value'
  | var name, var name' => name = name'
  | sizeofType type, sizeofType type' => type = type'
  | sizeofExpr operand, sizeofExpr operand' => operand.same operand'
  | parenthesized inner, parenthesized inner' => inner.same inner'
  | postfixed op operand, postfixed op' operand' => op = op' && operand.same operand'
  | unary op operand, unary op' operand' => op = op' && operand.same operand'
  | binary op left right, binary op' left' right' =>
      op = op' && left.same left' && right.same right'
  | call callee arguments, call callee' arguments' =>
      callee = callee' && sameAll arguments arguments'
  | index target subscript, index target' subscript' =>
      target.same target' && subscript.same subscript'
  | member target name, member target' name' => target.same target' && name = name'
  | pointerMember target name, pointerMember target' name' => target.same target' && name = name'
  | cast word operand, cast word' operand' => word = word' && operand.same operand'
  | _, _ => false

/-- Whether two rows of expressions are equal. -/
def sameAll : List (Expr ν) → List (Expr ν) → Bool
  | [], [] => true
  | e :: es, e' :: es' => e.same e' && sameAll es es'
  | _, _ => false

end

/-- Rows are compared as their members are. -/
theorem sameAll_iff {es : List (Expr ν)} (h : ∀ e ∈ es, ∀ e', e.same e' = true ↔ e = e')
    (es' : List (Expr ν)) : sameAll es es' = true ↔ es = es' := by
  induction es generalizing es' with
  | nil => cases es' <;> simp [sameAll]
  | cons e es ih =>
      cases es' with
      | nil => simp [sameAll]
      | cons e' es' =>
          simp [sameAll, h e (by simp), ih fun e member => h e (List.mem_cons_of_mem _ member)]

/-- The comparison decides equality. -/
theorem same_iff (e e' : Expr ν) : e.same e' = true ↔ e = e' := by
  induction e using induct generalizing e' with
  | call callee arguments ih => cases e' <;> simp [same, sameAll_iff ih]
  | _ => cases e' <;> simp_all [same, and_assoc]

instance : DecidableEq (Expr ν) := fun e e' => decidable_of_iff _ (same_iff e e')

end Expr

deriving instance DecidableEq for Variable

/-! ### Statements -/

namespace Stmt

mutual

/-- Whether two statements are equal. -/
def same : Stmt ν → Stmt ν → Bool
  | blank, blank => true
  | expression value, expression value' => value = value'
  | declaration v, declaration v' => v = v'
  | ifThen condition thenBranch, ifThen condition' thenBranch' =>
      condition = condition' && thenBranch.same thenBranch'
  | ifElse condition thenBranch elseBranch, ifElse condition' thenBranch' elseBranch' =>
      condition = condition' && thenBranch.same thenBranch' && elseBranch.same elseBranch'
  | whileLoop condition body, whileLoop condition' body' =>
      condition = condition' && body.same body'
  | forLoop first condition step body, forLoop first' condition' step' body' =>
      first = first' && condition = condition' && step = step' && body.same body'
  | breakLoop, breakLoop => true
  | continueLoop, continueLoop => true
  | returnWith value, returnWith value' => value = value'
  | block statements, block statements' => sameAll statements statements'
  | _, _ => false

/-- Whether two rows of statements are equal. -/
def sameAll : List (Stmt ν) → List (Stmt ν) → Bool
  | [], [] => true
  | s :: ss, s' :: ss' => s.same s' && sameAll ss ss'
  | _, _ => false

end

/-- Rows are compared as their members are. -/
theorem sameAll_iff {ss : List (Stmt ν)} (h : ∀ s ∈ ss, ∀ s', s.same s' = true ↔ s = s')
    (ss' : List (Stmt ν)) : sameAll ss ss' = true ↔ ss = ss' := by
  induction ss generalizing ss' with
  | nil => cases ss' <;> simp [sameAll]
  | cons s ss ih =>
      cases ss' with
      | nil => simp [sameAll]
      | cons s' ss' =>
          simp [sameAll, h s (by simp), ih fun s member => h s (List.mem_cons_of_mem _ member)]

/-- The comparison decides equality. -/
theorem same_iff (s s' : Stmt ν) : s.same s' = true ↔ s = s' := by
  induction s using induct generalizing s' with
  | block statements ih => cases s' <;> simp [same, sameAll_iff ih]
  | _ => cases s' <;> simp_all [same, and_assoc]

instance : DecidableEq (Stmt ν) := fun s s' => decidable_of_iff _ (same_iff s s')

end Stmt

/-! ### Programs -/

deriving instance DecidableEq for Block
deriving instance DecidableEq for Function
deriving instance DecidableEq for TopLevel
deriving instance DecidableEq for Program
deriving instance DecidableEq for Operand
deriving instance DecidableEq for Node

end PlainC
