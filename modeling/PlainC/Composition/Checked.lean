/-
**Checked composition.**

Each sort of tree is put together by an operation that is given arbitrary values.  It checks them in
a fixed order and reports the first one that does not fit its place, so a tree that is only partly
sound never comes about.

Main definitions:

* `PlainC.Flaw` — why a composition fails;
* `PlainC.Value.require`, `PlainC.Value.requireOptional`, `PlainC.Value.requireAll` — the checks of
  one part, of a part that may be absent, and of a row of parts;
* `PlainC.Compose` — one operation for each sort of tree.

Main results:

* `PlainC.Value.require_ok_iff` — a part is accepted exactly if it is of the sort that is asked for;
* `PlainC.Value.requireAll_ok_iff` — a row is accepted exactly if all its members are.
-/

import PlainC.Composition.Foreign

set_option relaxedAutoImplicit false
set_option autoImplicit false

namespace PlainC

/-! ### Flaws -/

/-- Why a composition fails. -/
inductive Flaw where
  /-- The parts do not form the whole. -/
  | fault (fault : Fault)
  /-- There is a single value in the place of a row. -/
  | noRow (kind : String)
  /-- There is a list among the parts of what a set holds. -/
  | listInSet
  /-- The value in the place of a layer lacks the kind or the size of one. -/
  | noLayer (kind part : String)
deriving Repr, DecidableEq

/-- Fails because parts do not fit. -/
def misfit {α : Type} (m : Misfit) : Except Flaw α := .error (.fault (.misfit m))

namespace Value

/-! ### Sorts of value -/

/-- The value as an expression. -/
def asExpr : Value → Option (Expr String)
  | node (.expression tree) => some tree
  | _ => none

/-- The value as a statement. -/
def asStmt : Value → Option (Stmt String)
  | node (.statement tree) => some tree
  | _ => none

/-- The value as a block. -/
def asBlock : Value → Option (Block String)
  | node (.block tree) => some tree
  | _ => none

/-- The value as a unit. -/
def asUnit : Value → Option (TopLevel String)
  | node (.unit tree) => some tree
  | _ => none

/-- The value as a variable. -/
def asVariable : Value → Option (Variable String)
  | node (.unit (.var tree)) => some tree
  | _ => none

/-- The value as a declaration. -/
def asDeclaration : Value → Option (Declaration String)
  | node (.declaration tree) => some tree
  | _ => none

/-- The value as the size of a type or of an expression. -/
def asSize : Value → Option (Expr String)
  | node (.operand (.type declaration)) => some (.sizeofType declaration)
  | node (.operand (.expression value)) => some (.sizeofExpr value)
  | _ => none

/-- The value as a name. -/
def asName : Value → Option String
  | name symbol => some symbol
  | _ => none

/-- The value as an operator behind an operand. -/
def asPostfixOp : Value → Option PostfixOp
  | member (.postfixOp op) => some op
  | _ => none

/-- The value as an operator in front of an operand. -/
def asUnaryOp : Value → Option UnaryOp
  | member (.unaryOp op) => some op
  | _ => none

/-- The value as an operator between operands. -/
def asOperator : Value → Option Operator
  | member (.binaryOp op) => some (.binary op)
  | assignment (member (.assignOp op)) => some (.assign op)
  | assignment op => some (.foreign op.asForeign)
  | _ => none

/-- The value as a type word. -/
def asTypeWord : Value → Option (TypeWord String)
  | typeWord word => some word
  | _ => none

/-- The value as a specifier. -/
def asSpecifier : Value → Option (Specifier String)
  | specifier s => some s
  | _ => none

/-- The value as a shape. -/
def asShape : Value → Option Shape
  | shape s => some s
  | _ => none

/-- The value as a kind of literal. -/
def asLiteralKind : Value → Option LiteralKind
  | member (.literal kind) => some kind
  | _ => none

/-! ### Checks -/

variable {α : Type}

/-- The value as a part of the sort `as`; `role` is the part that it is given for. -/
def require (as : Value → Option α) (role : String) (v : Value) : Except Flaw α :=
  match as v with
  | some a => .ok a
  | none => misfit (.kindOfPart role v.kindName)

/-- The value as a part that may be absent. -/
def requireOptional (as : Value → Option α) (role : String) : Value → Except Flaw (Option α)
  | nothing => .ok none
  | v => (v.require as role).map some

/-- The members of a row: a list, or a text with its characters one by one. -/
def members : Value → Except Flaw (List Value)
  | list values => .ok values
  | text value => .ok (value.toList.map fun c => text (String.singleton c))
  | v => .error (.noRow v.kindName)

/-- The value as a row of parts. -/
def requireAll (as : Value → Option α) (role : String) (v : Value) : Except Flaw (List α) := do
  (← v.members).mapM (require as role)

/-- The members of a set, none of which is a list or holds one. -/
def setMembers (v : Value) : Except Flaw (List Value) := do
  let values ← v.members
  if values.any holdsList then .error .listInSet else .ok values

/-- A part is accepted exactly if it is of the sort that is asked for. -/
theorem require_ok_iff (as : Value → Option α) (role : String) (v : Value) (a : α) :
    v.require as role = .ok a ↔ as v = some a := by
  unfold require
  cases as v <;> simp [misfit]

/-- Members are accepted exactly if each of them is. -/
theorem mapM_require_ok_iff (as : Value → Option α) (role : String) (vs : List Value)
    (found : List α) :
    vs.mapM (require as role) = .ok found ↔ vs.map as = found.map some := by
  induction vs generalizing found with
  | nil => cases found <;> simp [pure, Except.pure]
  | cons v vs ih =>
      rw [List.mapM_cons]
      cases first : v.require as role with
      | error flaw =>
          have absent : as v = none := by
            cases sort : as v with
            | none => rfl
            | some a => simp [(require_ok_iff as role v a).2 sort] at first
          cases found <;> simp [bind, Except.bind, absent]
      | ok a =>
          have sort := (require_ok_iff as role v a).1 first
          cases more : vs.mapM (require as role) with
          | error flaw =>
              cases found with
              | nil => simp [bind, Except.bind]
              | cons b found =>
                  have rest : vs.map as ≠ found.map some := fun same => by
                    simp [(ih found).2 same] at more
                  simp [bind, Except.bind, rest]
          | ok as' =>
              have rest := (ih as').1 more
              cases found with
              | nil => simp [bind, Except.bind, pure, Except.pure]
              | cons b found =>
                  simp [bind, Except.bind, pure, Except.pure, sort, rest,
                    List.map_inj_right (f := some) fun _ _ => Option.some.inj]

/-- A row is accepted exactly if all its members are. -/
theorem requireAll_ok_iff (as : Value → Option α) (role : String) (v : Value) (found : List α) :
    v.requireAll as role = .ok found ↔
      ∃ values, v.members = .ok values ∧ values.map as = found.map some := by
  unfold requireAll
  cases v.members with
  | error flaw => simp [bind, Except.bind]
  | ok values => simp [bind, Except.bind, mapM_require_ok_iff]

end Value

/-! ### Types -/

namespace Compose

/-- A type word of a kind, with the name of a struct for `struct` and for no other word.  What the
kind and the name are is not checked: a kind from outside the language gives a foreign word, and
anything that is present can be a tag. -/
def typeWord (kind struct : Value) : Except Flaw Value :=
  match kind, struct with
  | .member (.typeWord .struct), .nothing => misfit .structWithoutName
  | .member (.typeWord .struct), .name tag => .ok (.typeWord (.struct tag))
  | .member (.typeWord .struct), tag => .ok (.typeWord (.tagged tag.asForeign))
  | .member (.typeWord k), .nothing =>
      .ok (.typeWord ((TypeWord.ofKind? k none).getD (.foreign kind.asForeign)))
  | _, .nothing => .ok (.typeWord (.foreign kind.asForeign))
  | _, _ => misfit (.nameOnWord kind.shown)

/-- Checks that the members of a group are of its sort. -/
def group {α : Type} (as : Value → Option α) (role : String) (values : List Value) :
    Except Flaw (List α) :=
  values.mapM fun v =>
    match as v with
    | some a => .ok a
    | none => misfit (.groupMember role v.kindName)

/-- A specifier with the given storage, qualifiers and type words, of which there is at least
one. -/
def specifier (storage qualifiers words : Value) : Except Flaw Value := do
  let storage ← storage.setMembers
  let qualifiers ← qualifiers.setMembers
  -- all three groups must be rows before any of their members is looked at
  let words ← words.members
  if words.isEmpty then misfit .noTypeWords
  let storage ← group (fun | .member .storage => some () | _ => none) "storage specifier" storage
  let qualifiers ←
    group (fun | .member .qualifier => some () | _ => none) "type qualifier" qualifiers
  let words ← group Value.asTypeWord "type specifier" words
  return .specifier ⟨!storage.isEmpty, !qualifiers.isEmpty, words⟩

/-- The type that the words of a specifier name.  The words are counted by their kinds, none of
which may be a list or hold one. -/
def resolve (s : Specifier String) : Except Flaw (ResolvedType String) :=
  if s.words.any (fun | .foreign part => part.holdsList | _ => false) then .error .listInSet
  else (TypeWord.resolve s.words).mapError .fault

/-- The value as a part of a shape. -/
def shapePart (role : String) (v : Value) : Except Flaw Shape :=
  match v.asShape with
  | some s => .ok s
  | none => misfit (.shapePart role v.kindName)

/-- The value as the size of an array. -/
def arraySize : Value → Except Misfit Nat
  | .int size => Shape.sizeOfInt size
  | v => .error (.sizeKind v.written)

/-- A layer with a size that may be absent. -/
def layerOf (kind : LayerKind) : Value → Layer Value
  | .nothing => ⟨kind, none⟩
  | size => ⟨kind, some size⟩

/-- The shape with the given layers, outermost first. -/
def shapeOfLayers (layers : List (Layer Value)) : Except Misfit Shape :=
  Shape.compose arraySize layers

/-- A pointer to a shape. -/
def pointer (target : Value) : Except Flaw Value := do
  return .shape (.pointer (← shapePart "pointer target" target))

/-- An array of a shape, with a size that may be absent. -/
def array (element size : Value) : Except Flaw Value := do
  let inner ← shapePart "array element" element
  let shape ← (Shape.wrap arraySize (layerOf .array size) inner).mapError (.fault ∘ .misfit)
  return .shape shape

/-- What a value in the place of a layer lacks: a type word and a literal have a kind, but nothing
other than a layer has both a kind and a size. -/
def missingPart : Value → String
  | .typeWord _ | .node (.expression (.literal _)) => "size"
  | _ => "kind"

/-- The value as a layer.  Every layer that is no pointer is an array. -/
def layerPart : Value → Except Flaw (Layer Value)
  | .layer (.member (.layer .pointer)) size => .ok (layerOf .pointer size)
  | .layer _ size => .ok (layerOf .array size)
  | v => .error (.noLayer v.kindName (missingPart v))

/-- The shape with the layers in a row; the innermost one is looked at first. -/
def shapeOfRow (row : Value) : Except Flaw Value := do
  let shape ← (← row.members).foldrM
    (fun v inner => do
      let layer ← layerPart v
      (Shape.wrap arraySize layer inner).mapError (.fault ∘ .misfit))
    Shape.plain
  return .shape shape

/-! ### Declarations and programs -/

/-- A declaration, whose name may be absent. -/
def declaration (specifier shape name : Value) : Except Flaw Value := do
  let s ← specifier.require Value.asSpecifier "declaration specifier"
  let d ← shape.require Value.asShape "declarator"
  let n ← name.requireOptional Value.asName "declared name"
  return .node (.declaration ⟨s, d, n⟩)

/-- The value as a declaration with a name; `role` is what it is the declaration of. -/
def namedDeclaration (role : String) (v : Value) : Except Flaw (Declaration String) := do
  let d ← v.require Value.asDeclaration role
  if d.isAbstract then misfit (.nameless role)
  return d

/-- A variable, whose initial value may be absent. -/
def variableUnit (declaration initializer : Value) : Except Flaw Value := do
  let d ← namedDeclaration "variable declaration" declaration
  let e ← initializer.requireOptional Value.asExpr "initializer"
  return .node (.unit (.var ⟨d, e⟩))

/-- A function, whose body may be absent and which takes a fixed number of parameters. -/
def functionUnit (declaration parameters variadic body : Value) : Except Flaw Value := do
  let d ← namedDeclaration "function declaration" declaration
  let ps ← parameters.requireAll Value.asDeclaration "function parameter"
  match variadic.falsity? with
  | none => .error (.fault (.unsupported .variadicFunction))
  | some mark =>
      let b ← body.requireOptional Value.asBlock "function body"
      return .node (.unit (.function ⟨d, ps, mark, b⟩))

/-- A struct, all of whose members have names. -/
def structUnit (name members : Value) : Except Flaw Value := do
  let n ← name.require Value.asName "struct name"
  let ds ← members.requireAll Value.asDeclaration "struct member"
  if ds.any Declaration.isAbstract then misfit (.namelessMember n)
  return .node (.unit (.struct ⟨n, ds⟩))

/-- A program. -/
def program (units : Value) : Except Flaw Value := do
  return .node (.program ⟨← units.requireAll Value.asUnit "top-level unit"⟩)

/-! ### Statements -/

/-- A block. -/
def block (statements : Value) : Except Flaw Value := do
  return .node (.block ⟨← statements.requireAll Value.asStmt "block statement"⟩)

/-- A block as a statement. -/
def blockStatement (block : Value) : Except Flaw Value := do
  let b ← block.require Value.asBlock "nested block"
  return .node (.statement (.block b.statements))

/-- An expression as a statement. -/
def expressionStatement (expression : Value) : Except Flaw Value := do
  return .node (.statement (.expression (← expression.require Value.asExpr "expression statement")))

/-- A variable as a statement. -/
def declarationStatement (declaration : Value) : Except Flaw Value := do
  let v ← declaration.require Value.asVariable "declaration statement"
  return .node (.statement (.declaration v))

/-- A conditional, whose `else` may be absent. -/
def conditional (condition thenBranch elseBranch : Value) : Except Flaw Value := do
  let c ← condition.require Value.asExpr "if condition"
  let t ← thenBranch.require Value.asStmt "if branch"
  match ← elseBranch.requireOptional Value.asStmt "else branch" with
  | none => return .node (.statement (.ifThen c t))
  | some e => return .node (.statement (.ifElse c t e))

/-- A `while` loop. -/
def whileLoop (condition body : Value) : Except Flaw Value := do
  let c ← condition.require Value.asExpr "while condition"
  let b ← body.require Value.asStmt "while body"
  return .node (.statement (.whileLoop c b))

/-- A `for` loop, each clause of which may be absent. -/
def forLoop (first condition step body : Value) : Except Flaw Value := do
  let v ← first.requireOptional Value.asVariable "for initializer"
  let c ← condition.requireOptional Value.asExpr "for condition"
  let s ← step.requireOptional Value.asExpr "for step"
  let b ← body.require Value.asStmt "for body"
  return .node (.statement (.forLoop v c s b))

/-- A `return`, whose value may be absent. -/
def returnWith (value : Value) : Except Flaw Value := do
  return .node (.statement (.returnWith (← value.requireOptional Value.asExpr "return value")))

/-! ### Expressions -/

/-- A literal of a kind, which only holds values of that kind. -/
def literal (kind value : Value) : Except Flaw Value := do
  let k ← kind.require Value.asLiteralKind "literal kind"
  let found : Option Literal := match k, value with
    | .int, .int n => some (.int n)
    | .double, .double x => some (.double x)
    | .char, .int code => some (.char code)
    | .string, .text s => some (.string s)
    | _, _ => none
  match found with
  | some l => return .node (.expression (.literal l))
  | none => misfit (.literalValue (k.name.map Char.toLower) value.written)

/-- A named variable as an expression. -/
def var (name : Value) : Except Flaw Value := do
  return .node (.expression (.var (← name.require Value.asName "variable name")))

/-- A type whose size is taken. -/
def sizeofType (declaration : Value) : Except Flaw Value := do
  return .node (.operand (.type (← declaration.require Value.asDeclaration "sizeof type")))

/-- An expression whose size is taken. -/
def sizeofExpression (expression : Value) : Except Flaw Value := do
  return .node (.operand (.expression (← expression.require Value.asExpr "sizeof expression")))

/-- The size of an operand. -/
def sizeof (operand : Value) : Except Flaw Value := do
  return .node (.expression (← operand.require Value.asSize "sizeof operand"))

/-- The size of a type or of an expression, exactly one of which is given. -/
def sizeOfEither (declaration expression : Value) : Except Flaw Value :=
  match declaration, expression with
  | .nothing, .nothing => misfit .sizeofOperands
  | .nothing, e => do sizeof (← sizeofExpression e)
  | d, .nothing => do sizeof (← sizeofType d)
  | _, _ => misfit .sizeofOperands

/-- An expression in parentheses. -/
def parenthesized (inner : Value) : Except Flaw Value := do
  let e ← inner.require Value.asExpr "parenthesized expression"
  return .node (.expression (.parenthesized e))

/-- An operator behind its operand. -/
def postfixed (op operand : Value) : Except Flaw Value := do
  let o ← op.require Value.asPostfixOp "postfix operator"
  let e ← operand.require Value.asExpr "postfix operand"
  return .node (.expression (.postfixed o e))

/-- An operator in front of its operand. -/
def unary (op operand : Value) : Except Flaw Value := do
  let o ← op.require Value.asUnaryOp "unary operator"
  let e ← operand.require Value.asExpr "unary operand"
  return .node (.expression (.unary o e))

/-- An operator between its operands. -/
def binary (op left right : Value) : Except Flaw Value := do
  let o ← op.require Value.asOperator "binary operator"
  let l ← left.require Value.asExpr "left operand"
  let r ← right.require Value.asExpr "right operand"
  return .node (.expression (.binary o l r))

/-- The call of a named function. -/
def call (callee arguments : Value) : Except Flaw Value := do
  let f ← callee.require Value.asName "callee"
  let es ← arguments.requireAll Value.asExpr "call argument"
  return .node (.expression (.call f es))

/-- A subscript. -/
def index (target subscript : Value) : Except Flaw Value := do
  let t ← target.require Value.asExpr "subscripted expression"
  let i ← subscript.require Value.asExpr "subscript"
  return .node (.expression (.index t i))

/-- A member of a struct. -/
def member (target name : Value) : Except Flaw Value := do
  let t ← target.require Value.asExpr "member access target"
  let n ← name.require Value.asName "member name"
  return .node (.expression (.member t n))

/-- A member of a struct that is pointed to. -/
def pointerMember (target name : Value) : Except Flaw Value := do
  let t ← target.require Value.asExpr "member access target"
  let n ← name.require Value.asName "member name"
  return .node (.expression (.pointerMember t n))

/-- A cast to a single type word. -/
def cast (word operand : Value) : Except Flaw Value := do
  let w ← word.require Value.asTypeWord "cast type"
  let e ← operand.require Value.asExpr "cast operand"
  return .node (.expression (.cast w e))

end Compose

end PlainC
