/-
**Trees of any sort.**

Some things can be said of a tree without regard to its sort: what kind of tree it is, and what its
parts are.

Main definitions:

* `PlainC.Operand` — what the size is taken of: a type or an expression;
* `PlainC.Node` — a tree of any sort;
* `PlainC.NodeKind`, `PlainC.Node.kind` — what a tree is.
-/

import PlainC.Tree

set_option relaxedAutoImplicit false
set_option autoImplicit false

namespace PlainC

/-! ### Nodes -/

/-- What the size is taken of: a type or an expression. -/
inductive Operand (ν : Type) where
  | blank
  | type (declaration : Declaration ν)
  | expression (value : Expr ν)
deriving Repr

/-- A tree of any sort. -/
inductive Node (ν : Type) where
  | blank
  | program (tree : Program ν)
  | unit (tree : TopLevel ν)
  | declaration (tree : Declaration ν)
  | block (tree : Block ν)
  | statement (tree : Stmt ν)
  | operand (tree : Operand ν)
  | expression (tree : Expr ν)
deriving Repr

/-! ### Kinds -/

/-- What a tree is. -/
inductive NodeKind where
  | node | program | declaration | unit | variable | function | struct | block | statement
  | expressionStatement | declarationStatement | conditional | whileLoop | forLoop | breakLoop
  | continueLoop | returnWith | blockStatement | operand | sizeofType | sizeofExpression
  | expression | literal | var | sizeof | parenthesized | postfixed | unary | binary | call
  | index | member | pointerMember | cast
deriving Repr, DecidableEq

/-- All kinds of tree. -/
def NodeKind.all : List NodeKind :=
  [.node, .program, .declaration, .unit, .variable, .function, .struct, .block, .statement,
   .expressionStatement, .declarationStatement, .conditional, .whileLoop, .forLoop, .breakLoop,
   .continueLoop, .returnWith, .blockStatement, .operand, .sizeofType, .sizeofExpression,
   .expression, .literal, .var, .sizeof, .parenthesized, .postfixed, .unary, .binary, .call, .index,
   .member, .pointerMember, .cast]

theorem NodeKind.mem_all (k : NodeKind) : k ∈ all := by cases k <;> decide

/-- The name of a kind of tree in listings. -/
def NodeKind.name : NodeKind → String
  | .node => "ASTNode"
  | .program => "Program"
  | .declaration => "Declaration"
  | .unit => "ExternalDeclaration"
  | .variable => "VariableDeclaration"
  | .function => "FunctionDeclaration"
  | .struct => "StructDeclaration"
  | .block => "Block"
  | .statement => "Statement"
  | .expressionStatement => "ExpressionStatement"
  | .declarationStatement => "DeclarationStatement"
  | .conditional => "If"
  | .whileLoop => "While"
  | .forLoop => "For"
  | .breakLoop => "Break"
  | .continueLoop => "Continue"
  | .returnWith => "Return"
  | .blockStatement => "BlockStatement"
  | .operand => "TypeOrExpression"
  | .sizeofType => "SizeofType"
  | .sizeofExpression => "SizeofExpression"
  | .expression => "Expression"
  | .literal => "Literal"
  | .var => "Variable"
  | .sizeof => "Sizeof"
  | .parenthesized => "Parenthesized"
  | .postfixed => "Postfix"
  | .unary => "Unary"
  | .binary => "Binary"
  | .call => "FunctionCall"
  | .index => "Index"
  | .member => "Member"
  | .pointerMember => "PointerMember"
  | .cast => "Cast"

variable {ν μ : Type}

/-- The operand with its names replaced. -/
def Operand.map (f : ν → μ) : Operand ν → Operand μ
  | blank => .blank
  | type declaration => .type (declaration.map f)
  | expression value => .expression (value.map f)

/-- The tree with its names replaced. -/
def Node.map (f : ν → μ) : Node ν → Node μ
  | blank => .blank
  | program tree => .program (tree.map f)
  | unit tree => .unit (tree.map f)
  | declaration tree => .declaration (tree.map f)
  | block tree => .block (tree.map f)
  | statement tree => .statement (tree.map f)
  | operand tree => .operand (tree.map f)
  | expression tree => .expression (tree.map f)

/-- The kind of an expression. -/
def Expr.kind : Expr ν → NodeKind
  | blank => .expression
  | literal _ => .literal
  | var _ => .var
  | sizeofType _ | sizeofExpr _ => .sizeof
  | parenthesized _ => .parenthesized
  | postfixed _ _ => .postfixed
  | unary _ _ => .unary
  | binary _ _ _ => .binary
  | call _ _ => .call
  | index _ _ => .index
  | member _ _ => .member
  | pointerMember _ _ => .pointerMember
  | cast _ _ => .cast

/-- The kind of a statement. -/
def Stmt.kind : Stmt ν → NodeKind
  | blank => .statement
  | expression _ => .expressionStatement
  | declaration _ => .declarationStatement
  | ifThen _ _ | ifElse _ _ _ => .conditional
  | whileLoop _ _ => .whileLoop
  | forLoop _ _ _ _ => .forLoop
  | breakLoop => .breakLoop
  | continueLoop => .continueLoop
  | returnWith _ => .returnWith
  | block _ => .blockStatement

/-- The kind of a unit. -/
def TopLevel.kind : TopLevel ν → NodeKind
  | blank => .unit
  | var _ => .variable
  | function _ => .function
  | struct _ => .struct

/-- The kind of an operand. -/
def Operand.kind : Operand ν → NodeKind
  | blank => .operand
  | type _ => .sizeofType
  | expression _ => .sizeofExpression

/-- The kind of a tree. -/
def Node.kind : Node ν → NodeKind
  | blank => .node
  | program _ => .program
  | unit tree => tree.kind
  | declaration _ => .declaration
  | block _ => .block
  | statement tree => tree.kind
  | operand tree => tree.kind
  | expression tree => tree.kind

end PlainC
