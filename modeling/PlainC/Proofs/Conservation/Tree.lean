/-
**The literals of a tree.**

A literal of a source becomes a literal of its tree, but for the sizes of arrays, which become part
of the shape of a declaration.  A walk over a tree meets all of them in the order of the source.

Main definitions:

* `PlainC.Node.ownLiterals` — a literal, or the sizes of the arrays of a declaration;
* `PlainC.Node.literals` — the literals met on a walk.

Main results:

* `PlainC.Expr.literals_call`, `PlainC.Stmt.literals_forLoop`, `PlainC.TopLevel.literals_function` —
  the literals of a tree are those of its parts.
-/

import PlainC.Tree.Parser.Program
import PlainC.Tree.Walk

set_option relaxedAutoImplicit false
set_option autoImplicit false

namespace PlainC

variable {ν : Type}

/-! ### Literals met on a walk -/

/-- The literals that a tree is itself, and not one of its parts: a literal, or the sizes of the
arrays of a declaration, outermost first. -/
def Node.ownLiterals : Node ν → List Literal
  | .expression (.literal value) => [value]
  | .declaration d => (d.shape.layers.filterMap Layer.size).map fun size => .int (size : Nat)
  | _ => []

/-- The literals of the trees met on a walk, in order. -/
def literalsMet (met : List (Node ν)) : List Literal := met.flatMap Node.ownLiterals

/-- The literals of a tree: those met on a walk through all of it. -/
def Node.literals (tree : Node ν) : List Literal := literalsMet (tree.walk fun _ => true)

@[simp] theorem literalsMet_append (met more : List (Node ν)) :
    literalsMet (met ++ more) = literalsMet met ++ literalsMet more := List.flatMap_append

@[simp] theorem literalsMet_flatMap {α : Type} (walk : α → List (Node ν)) (as : List α) :
    literalsMet (as.flatMap walk) = as.flatMap fun a => literalsMet (walk a) :=
  List.flatMap_assoc

/-- The literals of a declaration: the sizes of its arrays, outermost first. -/
def Declaration.literals (d : Declaration ν) : List Literal := literalsMet d.walk

theorem Declaration.literals_eq (d : Declaration ν) :
    d.literals = (d.shape.layers.filterMap Layer.size).map fun size => .int (size : Nat) :=
  List.append_nil _

/-! ### Expressions -/

namespace Expr

/-- The literals of an expression. -/
def literals (e : Expr ν) : List Literal := literalsMet (e.walk fun _ => true)

@[simp] theorem literals_literal (value : Literal) :
    (literal value : Expr ν).literals = [value] := rfl

@[simp] theorem literals_var (name : ν) : (var name).literals = [] := rfl

@[simp] theorem literals_sizeofType (type : Declaration ν) :
    (sizeofType type).literals = type.literals := rfl

@[simp] theorem literals_sizeofExpr (operand : Expr ν) :
    (sizeofExpr operand).literals = operand.literals := rfl

@[simp] theorem literals_parenthesized (inner : Expr ν) :
    (parenthesized inner).literals = inner.literals := rfl

@[simp] theorem literals_postfixed (op : PostfixOp) (operand : Expr ν) :
    (postfixed op operand).literals = operand.literals := rfl

@[simp] theorem literals_unary (op : UnaryOp) (operand : Expr ν) :
    (unary op operand).literals = operand.literals := rfl

@[simp] theorem literals_binary (op : Operator) (left right : Expr ν) :
    (binary op left right).literals = left.literals ++ right.literals := literalsMet_append _ _

@[simp] theorem literals_call (callee : ν) (arguments : List (Expr ν)) :
    (call callee arguments).literals = arguments.flatMap literals :=
  (congrArg literalsMet (walkAll_eq_flatMap _ _)).trans (literalsMet_flatMap _ _)

@[simp] theorem literals_index (target subscript : Expr ν) :
    (index target subscript).literals = target.literals ++ subscript.literals :=
  literalsMet_append _ _

@[simp] theorem literals_member (target : Expr ν) (name : ν) :
    (member target name).literals = target.literals := rfl

@[simp] theorem literals_pointerMember (target : Expr ν) (name : ν) :
    (pointerMember target name).literals = target.literals := rfl

@[simp] theorem literals_cast (word : TypeWord ν) (operand : Expr ν) :
    (cast word operand).literals = operand.literals := rfl

end Expr

/-- The literals of an expression that may be absent. -/
def Expr.optionLiterals (e : Option (Expr ν)) : List Literal := e.toList.flatMap Expr.literals

theorem Expr.literalsMet_walkOption (e : Option (Expr ν)) :
    literalsMet (walkOption (fun _ => true) e) = optionLiterals e := literalsMet_flatMap _ _

/-! ### Statements -/

/-- The literals of a variable. -/
def Variable.literals (v : Variable ν) : List Literal := literalsMet (v.walk fun _ => true)

theorem Variable.literals_eq (v : Variable ν) :
    v.literals = v.declaration.literals ++ Expr.optionLiterals v.initializer :=
  (literalsMet_append _ _).trans (congrArg _ (Expr.literalsMet_walkOption _))

/-- The literals of a variable that may be absent. -/
def Variable.optionLiterals (v : Option (Variable ν)) : List Literal :=
  v.toList.flatMap Variable.literals

namespace Stmt

/-- The literals of a statement. -/
def literals (st : Stmt ν) : List Literal := literalsMet (st.walk fun _ => true)

@[simp] theorem literals_expression (value : Expr ν) :
    (expression value).literals = value.literals := rfl

@[simp] theorem literals_declaration (v : Variable ν) :
    (declaration v).literals = v.literals := rfl

@[simp] theorem literals_ifThen (condition : Expr ν) (thenBranch : Stmt ν) :
    (ifThen condition thenBranch).literals = condition.literals ++ thenBranch.literals :=
  literalsMet_append _ _

@[simp] theorem literals_ifElse (condition : Expr ν) (thenBranch elseBranch : Stmt ν) :
    (ifElse condition thenBranch elseBranch).literals =
      condition.literals ++ thenBranch.literals ++ elseBranch.literals :=
  (literalsMet_append _ _).trans (congrArg (· ++ _) (literalsMet_append _ _))

@[simp] theorem literals_whileLoop (condition : Expr ν) (body : Stmt ν) :
    (whileLoop condition body).literals = condition.literals ++ body.literals :=
  literalsMet_append _ _

@[simp] theorem literals_forLoop (first : Option (Variable ν)) (condition step : Option (Expr ν))
    (body : Stmt ν) :
    (forLoop first condition step body).literals =
      Variable.optionLiterals first ++ Expr.optionLiterals condition ++ Expr.optionLiterals step ++
        body.literals := by
  refine (literalsMet_append _ _).trans (congrArg (· ++ _) ?_)
  rw [literalsMet_append, literalsMet_append, literalsMet_flatMap, Expr.literalsMet_walkOption,
    Expr.literalsMet_walkOption]
  rfl

@[simp] theorem literals_breakLoop : (breakLoop : Stmt ν).literals = [] := rfl

@[simp] theorem literals_continueLoop : (continueLoop : Stmt ν).literals = [] := rfl

@[simp] theorem literals_returnWith (value : Option (Expr ν)) :
    (returnWith value).literals = Expr.optionLiterals value := Expr.literalsMet_walkOption value

@[simp] theorem literals_block (statements : List (Stmt ν)) :
    (block statements).literals = statements.flatMap literals :=
  (congrArg literalsMet (walkAll_eq_flatMap _ _)).trans (literalsMet_flatMap _ _)

/-- A body holds the same literals in a block of its own. -/
theorem literals_asBlock (st : Stmt ν) : (Parser.asBlock st).literals = st.literals := by
  cases st <;> simp [Parser.asBlock]

end Stmt

/-- The literals of a block. -/
def Block.literals (b : Block ν) : List Literal := literalsMet (b.walk fun _ => true)

theorem Block.literals_eq (b : Block ν) : b.literals = b.statements.flatMap Stmt.literals :=
  literalsMet_flatMap _ _

/-! ### Programs -/

namespace TopLevel

/-- The literals of a unit. -/
def literals (u : TopLevel ν) : List Literal := literalsMet (u.walk fun _ => true)

@[simp] theorem literals_var (v : Variable ν) : (var v).literals = v.literals := rfl

@[simp] theorem literals_function (f : Function ν) :
    (function f).literals =
      f.declaration.literals ++ f.parameters.flatMap Declaration.literals ++
        f.body.toList.flatMap Block.literals := by
  refine (literalsMet_append _ _).trans ?_
  rw [literalsMet_append, literalsMet_flatMap, literalsMet_flatMap]
  rfl

@[simp] theorem literals_struct (u : Struct ν) :
    (struct u).literals = u.members.flatMap Declaration.literals := literalsMet_flatMap _ _

end TopLevel

/-- The literals of a program. -/
def Program.literals (p : Program ν) : List Literal := literalsMet (p.walk fun _ => true)

theorem Program.literals_eq (p : Program ν) : p.literals = p.units.flatMap TopLevel.literals :=
  literalsMet_flatMap _ _

end PlainC
