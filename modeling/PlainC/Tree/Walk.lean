/-
**Walks over trees.**

A tree is walked from the whole to its parts, the parts in the order in which they stand, and each
part before its own parts.  The walk can pass by the parts of some kinds of tree: such a tree is
met, but not entered.

Main definitions:

* `PlainC.Node.over` — a walk that meets a tree and then, if its kind is entered, its parts;
* `PlainC.Node.walk` — the trees met on a walk, in order.

Main results:

* `PlainC.Expr.walkAll_eq_flatMap`, `PlainC.Stmt.walkAll_eq_flatMap` — rows are walked one by one.
-/

import PlainC.Tree.Node

set_option relaxedAutoImplicit false
set_option autoImplicit false

namespace PlainC

variable {ν : Type}

/-- The walk from a tree, given the walks over its parts in order: they are left out if its kind is
not entered. -/
def Node.over (enter : NodeKind → Bool) (tree : Node ν) (parts : List (Node ν)) : List (Node ν) :=
  tree :: if enter tree.kind then parts else []

/-- The walk over a declaration, which has no parts. -/
def Declaration.walk (d : Declaration ν) : List (Node ν) := [.declaration d]

namespace Expr

mutual

/-- The walk over an expression. -/
def walk (enter : NodeKind → Bool) : Expr ν → List (Node ν)
  | sizeofType type =>
      Node.over enter (.expression (sizeofType type))
        (Node.over enter (.operand (.type type)) type.walk)
  | sizeofExpr operand =>
      Node.over enter (.expression (sizeofExpr operand))
        (Node.over enter (.operand (.expression operand)) (operand.walk enter))
  | parenthesized inner =>
      Node.over enter (.expression (parenthesized inner)) (inner.walk enter)
  | postfixed op operand =>
      Node.over enter (.expression (postfixed op operand)) (operand.walk enter)
  | unary op operand => Node.over enter (.expression (unary op operand)) (operand.walk enter)
  | binary op left right =>
      Node.over enter (.expression (binary op left right)) (left.walk enter ++ right.walk enter)
  | call callee arguments =>
      Node.over enter (.expression (call callee arguments)) (walkAll enter arguments)
  | index target subscript =>
      Node.over enter (.expression (index target subscript))
        (target.walk enter ++ subscript.walk enter)
  | member target name => Node.over enter (.expression (member target name)) (target.walk enter)
  | pointerMember target name =>
      Node.over enter (.expression (pointerMember target name)) (target.walk enter)
  | cast word operand => Node.over enter (.expression (cast word operand)) (operand.walk enter)
  | blank => [.expression blank]
  | literal value => [.expression (literal value)]
  | var name => [.expression (var name)]

/-- The walk over expressions, one by one. -/
def walkAll (enter : NodeKind → Bool) : List (Expr ν) → List (Node ν)
  | [] => []
  | e :: es => e.walk enter ++ walkAll enter es

end

/-- Rows are walked one by one. -/
theorem walkAll_eq_flatMap (enter : NodeKind → Bool) (es : List (Expr ν)) :
    walkAll enter es = es.flatMap (walk enter) := by
  induction es with
  | nil => rfl
  | cons e es ih => simp [walkAll, ih]

/-- The walk over an expression that may be absent. -/
def walkOption (enter : NodeKind → Bool) (e : Option (Expr ν)) : List (Node ν) :=
  e.toList.flatMap (walk enter)

end Expr

/-- The walk over a variable. -/
def Variable.walk (enter : NodeKind → Bool) (v : Variable ν) : List (Node ν) :=
  Node.over enter (.unit (.var v)) (v.declaration.walk ++ Expr.walkOption enter v.initializer)

namespace Stmt

mutual

/-- The walk over a statement. -/
def walk (enter : NodeKind → Bool) : Stmt ν → List (Node ν)
  | expression value => Node.over enter (.statement (expression value)) (value.walk enter)
  | declaration v => Node.over enter (.statement (declaration v)) (v.walk enter)
  | ifThen condition thenBranch =>
      Node.over enter (.statement (ifThen condition thenBranch))
        (condition.walk enter ++ thenBranch.walk enter)
  | ifElse condition thenBranch elseBranch =>
      Node.over enter (.statement (ifElse condition thenBranch elseBranch))
        (condition.walk enter ++ thenBranch.walk enter ++ elseBranch.walk enter)
  | whileLoop condition body =>
      Node.over enter (.statement (whileLoop condition body))
        (condition.walk enter ++ body.walk enter)
  | forLoop first condition step body =>
      Node.over enter (.statement (forLoop first condition step body))
        (first.toList.flatMap (Variable.walk enter) ++ Expr.walkOption enter condition
          ++ Expr.walkOption enter step ++ body.walk enter)
  | returnWith value =>
      Node.over enter (.statement (returnWith value)) (Expr.walkOption enter value)
  | block statements =>
      Node.over enter (.statement (block statements))
        (Node.over enter (.block ⟨statements⟩) (walkAll enter statements))
  | blank => [.statement blank]
  | breakLoop => [.statement breakLoop]
  | continueLoop => [.statement continueLoop]

/-- The walk over statements, one by one. -/
def walkAll (enter : NodeKind → Bool) : List (Stmt ν) → List (Node ν)
  | [] => []
  | s :: ss => s.walk enter ++ walkAll enter ss

end

/-- Rows are walked one by one. -/
theorem walkAll_eq_flatMap (enter : NodeKind → Bool) (ss : List (Stmt ν)) :
    walkAll enter ss = ss.flatMap (walk enter) := by
  induction ss with
  | nil => rfl
  | cons s ss ih => simp [walkAll, ih]

end Stmt

/-- The walk over a block. -/
def Block.walk (enter : NodeKind → Bool) (b : Block ν) : List (Node ν) :=
  Node.over enter (.block b) (b.statements.flatMap (Stmt.walk enter))

/-- The walk over a unit. -/
def TopLevel.walk (enter : NodeKind → Bool) : TopLevel ν → List (Node ν)
  | blank => [.unit blank]
  | var unit => unit.walk enter
  | function unit =>
      Node.over enter (.unit (function unit))
        (unit.declaration.walk ++ unit.parameters.flatMap Declaration.walk
          ++ unit.body.toList.flatMap (Block.walk enter))
  | struct unit =>
      Node.over enter (.unit (struct unit)) (unit.members.flatMap Declaration.walk)

/-- The walk over a program. -/
def Program.walk (enter : NodeKind → Bool) (p : Program ν) : List (Node ν) :=
  Node.over enter (.program p) (p.units.flatMap (TopLevel.walk enter))

/-- The walk over an operand. -/
def Operand.walk (enter : NodeKind → Bool) : Operand ν → List (Node ν)
  | blank => [.operand blank]
  | type declaration => Node.over enter (.operand (type declaration)) declaration.walk
  | expression value => Node.over enter (.operand (expression value)) (value.walk enter)

/-- The trees met on a walk over a tree of any sort, in order; the trees of a kind that is not
entered are met, but none of their parts is. -/
def Node.walk (enter : NodeKind → Bool) : Node ν → List (Node ν)
  | blank => [blank]
  | program tree => tree.walk enter
  | unit tree => tree.walk enter
  | declaration tree => tree.walk
  | block tree => tree.walk enter
  | statement tree => tree.walk enter
  | operand tree => tree.walk enter
  | expression tree => tree.walk enter

end PlainC
