/-
**The written form and the text of a value.**

A value is written as the composition that gives it: the sort of a tree with its fields by name, a
row of parts in parentheses, a member of an enumeration in angle brackets with its number.

Main definitions:

* `PlainC.Written.record`, `PlainC.Written.row` — how records and rows are written;
* `PlainC.Expr.written`, `PlainC.Stmt.written`, `PlainC.Node.written` — the written form of a tree;
* `PlainC.Value.written` — the written form of a value;
* `PlainC.Value.shown` — the text of a value, which is its written form unless its sort has a text
  of its own.

Main results:

* `PlainC.Expr.writtenAll_eq_map`, `PlainC.Stmt.writtenAll_eq_map` — rows are written one by one.
-/

import PlainC.Composition.Value

set_option relaxedAutoImplicit false
set_option autoImplicit false

namespace PlainC

/-! ### Records and rows -/

namespace Written

/-- A record with its fields by name. -/
def record (sort : String) (fields : List (String × String)) : String :=
  sort ++ "(" ++ ", ".intercalate (fields.map fun (field, part) => field ++ "=" ++ part) ++ ")"

/-- A row of parts; a comma marks a row of one part. -/
def row : List String → String
  | [] => "()"
  | [part] => "(" ++ part ++ ",)"
  | parts => "(" ++ ", ".intercalate parts ++ ")"

/-- A set that is empty or holds one part. -/
def set : Option String → String
  | none => "frozenset()"
  | some part => "frozenset(\x7b" ++ part ++ "\x7d)"

/-- A truth value. -/
def bool (value : Bool) : String := if value then "True" else "False"

/-- What stands for an absent part. -/
def absent : String := "None"

/-- A name. -/
def name (text : String) : String := "Symbol(" ++ Text.quoted text ++ ")"

/-- A member of an enumeration, with its number. -/
def member (m : Member) : String :=
  "<" ++ m.familyName ++ "." ++ m.name ++ ": " ++ toString m.number ++ ">"

end Written

open Written (record row absent)

/-! ### Types -/

/-- The written form of a type word. -/
def TypeWord.written (w : TypeWord String) : String :=
  let kind := match w with
    | .foreign part => part.written
    | _ => (w.kind?.map fun kind => Written.member (.typeWord kind)).getD absent
  let struct := match w with
    | .struct name => Written.name name
    | .tagged tag => tag.written
    | _ => absent
  record "TypeSpecifier" [("kind", kind), ("struct_name", struct)]

/-- The written form of a specifier. -/
def Specifier.written (s : Specifier String) : String :=
  record "DeclarationSpecifier"
    [("storage", Written.set (if s.isStatic then some (Written.member .storage) else none)),
     ("qualifiers", Written.set (if s.isConst then some (Written.member .qualifier) else none)),
     ("type_specifiers", row (s.words.map TypeWord.written))]

/-- The written form of a shape. -/
def Shape.written (s : Shape) : String :=
  match s with
  | .plain | .unspecified => record s.kindName []
  | .pointer target => record s.kindName [("to", target.written)]
  | .array element size =>
      record s.kindName [("of", element.written), ("size", (size.map toString).getD absent)]

/-- The written form of a declaration. -/
def Declaration.written (d : Declaration String) : String :=
  record "Declaration"
    [("specifier", d.specifier.written), ("declarator", d.shape.written),
     ("ident", (d.name.map Written.name).getD absent)]

/-! ### Trees -/

/-- The written form of an operator between operands. -/
def Operator.written : Operator → String
  | .binary op => Written.member (.binaryOp op)
  | .assign op => record "Assign" [("op", Written.member (.assignOp op))]
  | .foreign part => record "Assign" [("op", part.written)]

/-- The written form of a literal. -/
def Literal.written (l : Literal) : String :=
  let value := match l with
    | .int value => toString value
    | .double value => value.text
    | .char code => toString code
    | .string text => Text.quoted text
  record "Literal" [("kind", Written.member (.literal l.kind)), ("value", value)]

namespace Expr

mutual

/-- The written form of an expression. -/
def written : Expr String → String
  | blank => record "Expression" []
  | literal value => value.written
  | var name => record "Variable" [("name", Written.name name)]
  | sizeofType type =>
      record "Sizeof" [("operand", record "SizeofType" [("declaration", type.written)])]
  | sizeofExpr operand =>
      record "Sizeof" [("operand", record "SizeofExpression" [("expression", operand.written)])]
  | parenthesized inner => record "Parenthesized" [("inner", inner.written)]
  | postfixed op operand =>
      record "Postfix" [("op", Written.member (.postfixOp op)), ("operand", operand.written)]
  | unary op operand =>
      record "Unary" [("op", Written.member (.unaryOp op)), ("operand", operand.written)]
  | binary op left right =>
      record "Binary" [("op", op.written), ("left", left.written), ("right", right.written)]
  | call callee arguments =>
      record "FunctionCall"
        [("callee", Written.name callee), ("arguments", row (writtenAll arguments))]
  | index target subscript =>
      record "Index" [("target", target.written), ("index", subscript.written)]
  | member target name =>
      record "Member" [("target", target.written), ("member", Written.name name)]
  | pointerMember target name =>
      record "PointerMember" [("target", target.written), ("member", Written.name name)]
  | cast word operand =>
      record "Cast" [("target", word.written), ("operand", operand.written)]

/-- The written forms of expressions. -/
def writtenAll : List (Expr String) → List String
  | [] => []
  | e :: es => e.written :: writtenAll es

end

/-- Rows are written one by one. -/
theorem writtenAll_eq_map (es : List (Expr String)) : writtenAll es = es.map written := by
  induction es with
  | nil => rfl
  | cons e es ih => simp [writtenAll, ih]

/-- The written form of an expression that may be absent. -/
def writtenOption (e : Option (Expr String)) : String := (e.map written).getD absent

end Expr

/-- The written form of a variable. -/
def Variable.written (v : Variable String) : String :=
  record "VariableDeclaration"
    [("declaration", v.declaration.written), ("initializer", Expr.writtenOption v.initializer)]

namespace Stmt

/-- The written form of a block with statements in their written form. -/
def blockWritten (statements : List String) : String :=
  record "Block" [("statements", row statements)]

/-- The written form of a conditional. -/
def conditionalWritten (condition thenBranch elseBranch : String) : String :=
  record "If"
    [("condition", condition), ("then_branch", thenBranch), ("else_branch", elseBranch)]

mutual

/-- The written form of a statement. -/
def written : Stmt String → String
  | blank => record "Statement" []
  | expression value => record "ExpressionStatement" [("expression", value.written)]
  | declaration v => record "DeclarationStatement" [("declaration", v.written)]
  | ifThen condition thenBranch =>
      conditionalWritten condition.written thenBranch.written absent
  | ifElse condition thenBranch elseBranch =>
      conditionalWritten condition.written thenBranch.written elseBranch.written
  | whileLoop condition body =>
      record "While" [("condition", condition.written), ("body", body.written)]
  | forLoop first condition step body =>
      record "For"
        [("init", (first.map Variable.written).getD absent),
         ("condition", Expr.writtenOption condition), ("step", Expr.writtenOption step),
         ("body", body.written)]
  | breakLoop => record "Break" []
  | continueLoop => record "Continue" []
  | returnWith value => record "Return" [("value", Expr.writtenOption value)]
  | block statements => record "BlockStatement" [("block", blockWritten (writtenAll statements))]

/-- The written forms of statements. -/
def writtenAll : List (Stmt String) → List String
  | [] => []
  | s :: ss => s.written :: writtenAll ss

end

/-- Rows are written one by one. -/
theorem writtenAll_eq_map (ss : List (Stmt String)) : writtenAll ss = ss.map written := by
  induction ss with
  | nil => rfl
  | cons s ss ih => simp [writtenAll, ih]

end Stmt

/-- The written form of a block. -/
def Block.written (b : Block String) : String :=
  Stmt.blockWritten (b.statements.map Stmt.written)

/-- The written form of what counts as false. -/
def Falsity.written : Falsity → String
  | .no => Written.bool false
  | .absent => Written.absent
  | .zero => "0"
  | .zeroDouble negative => (Double.zero negative).text
  | .emptyText => Text.quoted ""
  | .emptyRow => "[]"

/-- The written form of a function. -/
def Function.written (f : Function String) : String :=
  record "FunctionDeclaration"
    [("declaration", f.declaration.written),
     ("parameters", row (f.parameters.map Declaration.written)), ("varargs", f.variadic.written),
     ("body", (f.body.map Block.written).getD absent)]

/-- The written form of a struct. -/
def Struct.written (s : Struct String) : String :=
  record "StructDeclaration"
    [("name", Written.name s.name), ("members", row (s.members.map Declaration.written))]

/-- The written form of a unit. -/
def TopLevel.written : TopLevel String → String
  | blank => record "ExternalDeclaration" []
  | var unit => unit.written
  | function unit => unit.written
  | struct unit => unit.written

/-- The written form of an operand. -/
def Operand.written : Operand String → String
  | blank => record "TypeOrExpression" []
  | type declaration => record "SizeofType" [("declaration", declaration.written)]
  | expression value => record "SizeofExpression" [("expression", value.written)]

/-- The written form of a tree. -/
def Node.written : Node String → String
  | blank => record "ASTNode" []
  | program tree => record "Program" [("units", row (tree.units.map TopLevel.written))]
  | unit tree => tree.written
  | declaration tree => tree.written
  | block tree => tree.written
  | statement tree => tree.written
  | operand tree => tree.written
  | expression tree => tree.written

/-! ### Values -/

namespace Value

mutual

/-- The written form of a value. -/
def written : Value → String
  | nothing => absent
  | bool value => Written.bool value
  | int value => toString value
  | double value => value.text
  | text value => Text.quoted value
  | list values => "[" ++ ", ".intercalate (writtenAll values) ++ "]"
  | name symbol => Written.name symbol
  | member value => Written.member value
  | assignment op => record "Assign" [("op", op.written)]
  | typeWord word => word.written
  | specifier value => value.written
  | shape value => value.written
  | layer kind size =>
      record "DeclaratorLayer" [("kind", kind.written), ("size", size.written)]
  | resolved base isUnsigned isSigned struct =>
      record "ResolvedType"
        [("base_type", base.written), ("is_unsigned", isUnsigned.written),
         ("is_signed_explicit", isSigned.written), ("struct_name", struct.written)]
  | node tree => tree.written

/-- The written forms of values. -/
def writtenAll : List Value → List String
  | [] => []
  | v :: vs => v.written :: writtenAll vs

end

/-! ### Texts -/

/-- The resolved type with some parts, if its base is one of the language. -/
def resolvedType? (base isUnsigned isSigned : Value) (struct : String) :
    Option (ResolvedType String) :=
  match base with
  | member (.baseType b) => some ⟨b, isUnsigned.isTrue, isSigned.isTrue, some struct⟩
  | _ => none

/-- The text of a value: names, texts, words, operators, specifiers, shapes and types have one of
their own, everything else is written. -/
def shown : Value → String
  | text value => value
  | name symbol => symbol
  | member value => value.text
  | assignment op => op.shown
  | typeWord word => word.text
  | specifier value => value.text
  | shape value => value.text
  | resolved base isUnsigned isSigned struct =>
      match resolvedType? base isUnsigned isSigned struct.shown with
      | some type => type.text
      | none => if isUnsigned.isTrue then "unsigned " ++ base.shown else base.shown
  | v => v.written

end Value

end PlainC
