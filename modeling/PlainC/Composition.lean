/-
**Compositions.**

A composition says how a value is put together: it names the operation for a sort of tree and gives
the parts, which are compositions themselves.  It is evaluated from the parts to the whole, and the
first part that fails is the failure of the whole.

Main definitions:

* `PlainC.Maker` — the operations by name, with the names of their fields;
* `PlainC.Composition` — a value, or an operation applied to compositions;
* `PlainC.Composition.evaluate` — the value that a composition gives.

Main results:

* `PlainC.Composition.evaluateAll_eq_mapM` — parts are evaluated one by one, in order.
-/

import PlainC.Composition.Checked

set_option relaxedAutoImplicit false
set_option autoImplicit false

namespace PlainC

/-! ### Operations by name -/

/-- The operations that put values together. -/
inductive Maker where
  | tree (kind : NodeKind)
  | typeWord | specifier | plainShape | unspecifiedShape | pointer | array | layer | shapeOfRow
  | resolved | assignment | sizeOfEither
deriving Repr, DecidableEq

namespace Maker

/-- All operations. -/
def all : List Maker :=
  NodeKind.all.map tree ++
    [typeWord, specifier, plainShape, unspecifiedShape, pointer, array, layer, shapeOfRow, resolved,
     assignment, sizeOfEither]

/-- The name of an operation. -/
def name : Maker → String
  | tree kind => kind.name
  | typeWord => "TypeSpecifier"
  | specifier => "DeclarationSpecifier"
  | plainShape => "TerminalDeclarator"
  | unspecifiedShape => "DeclaratorType"
  | pointer => "PointerDeclarator"
  | array => "ArrayDeclarator"
  | layer => "DeclaratorLayer"
  | shapeOfRow => "build_declarator"
  | resolved => "ResolvedType"
  | assignment => "Assign"
  | sizeOfEither => "make_sizeof"

/-- The operation with a given name. -/
def ofName? (text : String) : Option Maker := all.find? fun m => m.name = text

/-- The names of the fields of a tree. -/
def treeFields : NodeKind → List String
  | .program => ["units"]
  | .declaration => ["specifier", "declarator", "ident"]
  | .variable => ["declaration", "initializer"]
  | .function => ["declaration", "parameters", "varargs", "body"]
  | .struct => ["name", "members"]
  | .block => ["statements"]
  | .expressionStatement | .sizeofExpression => ["expression"]
  | .declarationStatement | .sizeofType => ["declaration"]
  | .conditional => ["condition", "then_branch", "else_branch"]
  | .whileLoop => ["condition", "body"]
  | .forLoop => ["init", "condition", "step", "body"]
  | .returnWith => ["value"]
  | .blockStatement => ["block"]
  | .literal => ["kind", "value"]
  | .var => ["name"]
  | .sizeof => ["operand"]
  | .parenthesized => ["inner"]
  | .postfixed | .unary => ["op", "operand"]
  | .binary => ["op", "left", "right"]
  | .call => ["callee", "arguments"]
  | .index => ["target", "index"]
  | .member | .pointerMember => ["target", "member"]
  | .cast => ["target", "operand"]
  | .node | .unit | .statement | .breakLoop | .continueLoop | .operand | .expression => []

/-- The names of the fields of an operation, in order. -/
def fields : Maker → List String
  | tree kind => treeFields kind
  | typeWord => ["kind", "struct_name"]
  | specifier => ["storage", "qualifiers", "type_specifiers"]
  | plainShape | unspecifiedShape => []
  | pointer => ["to"]
  | array => ["of", "size"]
  | layer => ["kind", "size"]
  | shapeOfRow => ["layers"]
  | resolved => ["base_type", "is_unsigned", "is_signed_explicit", "struct_name"]
  | assignment => ["op"]
  | sizeOfEither => ["declaration", "expression"]

/-- The value of a field, or what stands for a field that is not given. -/
def field (given : List (String × Value)) (name : String) (absent : Value) : Value :=
  (given.lookup name).getD absent

/-- Puts a tree together. -/
def makeTree (kind : NodeKind) (given : List (String × Value)) : Except Flaw Value :=
  let part (name : String) : Value := field given name .nothing
  let row (name : String) : Value := field given name (.list [])
  match kind with
  | .node => .ok (.node .blank)
  | .unit => .ok (.node (.unit .blank))
  | .statement => .ok (.node (.statement .blank))
  | .operand => .ok (.node (.operand .blank))
  | .expression => .ok (.node (.expression .blank))
  | .program => Compose.program (row "units")
  | .declaration =>
      Compose.declaration (part "specifier") (field given "declarator" (.shape .plain))
        (part "ident")
  | .variable => Compose.variableUnit (part "declaration") (part "initializer")
  | .function =>
      Compose.functionUnit (part "declaration") (row "parameters")
        (field given "varargs" (.bool false)) (part "body")
  | .struct => Compose.structUnit (part "name") (row "members")
  | .block => Compose.block (row "statements")
  | .expressionStatement => Compose.expressionStatement (part "expression")
  | .declarationStatement => Compose.declarationStatement (part "declaration")
  | .conditional =>
      Compose.conditional (part "condition") (part "then_branch") (part "else_branch")
  | .whileLoop => Compose.whileLoop (part "condition") (part "body")
  | .forLoop => Compose.forLoop (part "init") (part "condition") (part "step") (part "body")
  | .breakLoop => .ok (.node (.statement .breakLoop))
  | .continueLoop => .ok (.node (.statement .continueLoop))
  | .returnWith => Compose.returnWith (part "value")
  | .blockStatement => Compose.blockStatement (part "block")
  | .literal => Compose.literal (part "kind") (part "value")
  | .var => Compose.var (part "name")
  | .sizeofType => Compose.sizeofType (part "declaration")
  | .sizeofExpression => Compose.sizeofExpression (part "expression")
  | .sizeof => Compose.sizeof (part "operand")
  | .parenthesized => Compose.parenthesized (part "inner")
  | .postfixed => Compose.postfixed (part "op") (part "operand")
  | .unary => Compose.unary (part "op") (part "operand")
  | .binary => Compose.binary (part "op") (part "left") (part "right")
  | .call => Compose.call (part "callee") (row "arguments")
  | .index => Compose.index (part "target") (part "index")
  | .member => Compose.member (part "target") (part "member")
  | .pointerMember => Compose.pointerMember (part "target") (part "member")
  | .cast => Compose.cast (part "target") (part "operand")

/-- Performs an operation on the fields that are given. -/
def make (m : Maker) (given : List (String × Value)) : Except Flaw Value :=
  match m with
  | tree kind => makeTree kind given
  | typeWord => Compose.typeWord (field given "kind" .nothing) (field given "struct_name" .nothing)
  | specifier =>
      Compose.specifier (field given "storage" (.list [])) (field given "qualifiers" (.list []))
        (field given "type_specifiers" (.list []))
  | plainShape => .ok (.shape .plain)
  | unspecifiedShape => .ok (.shape .unspecified)
  | pointer => Compose.pointer (field given "to" (.shape .plain))
  | array => Compose.array (field given "of" (.shape .plain)) (field given "size" .nothing)
  | layer => .ok (.layer (field given "kind" .nothing) (field given "size" .nothing))
  | shapeOfRow => Compose.shapeOfRow (field given "layers" (.list []))
  | resolved =>
      .ok (.resolved (field given "base_type" .nothing) (field given "is_unsigned" (.bool false))
        (field given "is_signed_explicit" (.bool false)) (field given "struct_name" .nothing))
  | assignment => .ok (.assignment (field given "op" (.member (.assignOp .plain))))
  | sizeOfEither =>
      Compose.sizeOfEither (field given "declaration" .nothing) (field given "expression" .nothing)

end Maker

/-! ### Compositions -/

/-- How a value is put together: it is given, or it is a list, or it comes from an operation on
parts, each of which is for the field at its place. -/
inductive Composition where
  | value (v : Value)
  | list (parts : List Composition)
  | make (maker : Maker) (fields : List String) (parts : List Composition)

namespace Composition

/-- The composition that applies an operation to parts in the order of its fields, and to further
parts by the names of theirs. -/
def apply (maker : Maker) (parts : List Composition) (named : List (String × Composition)) :
    Composition :=
  .make maker (maker.fields.take parts.length ++ named.map Prod.fst) (parts ++ named.map Prod.snd)

mutual

/-- The value that a composition gives. -/
def evaluate : Composition → Except Flaw Value
  | value v => .ok v
  | list parts => do return .list (← evaluateAll parts)
  | make maker fields parts => do maker.make (fields.zip (← evaluateAll parts))

/-- The values that compositions give. -/
def evaluateAll : List Composition → Except Flaw (List Value)
  | [] => .ok []
  | c :: cs => do
      let v ← c.evaluate
      let vs ← evaluateAll cs
      return v :: vs

end

/-- Parts are evaluated one by one, in order. -/
theorem evaluateAll_eq_mapM (cs : List Composition) : evaluateAll cs = cs.mapM evaluate := by
  induction cs with
  | nil => rfl
  | cons c cs ih => simp [evaluateAll, ih]

end Composition

end PlainC
