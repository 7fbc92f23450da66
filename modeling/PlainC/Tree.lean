/-
**Trees.**

A program is a row of units: variables, functions and structs.  Functions hold statements, and
statements hold expressions.  Trees keep no places, and each part has one owner.  Names are of an
arbitrary type `ν`: a tree is read and printed with texts, and handed on with the symbols that a
name table issued for them.

Every sort of tree has a blank member, a part of that sort of which nothing is known; reading a
source never gives one, and it never gives a foreign word or operator either.

Main definitions:

* `PlainC.Declaration` — a type, and the name that has it;
* `PlainC.Literal`, `PlainC.Expr` — expressions;
* `PlainC.Variable`, `PlainC.Stmt`, `PlainC.Block` — variables with their initial values, and
  statements;
* `PlainC.Function`, `PlainC.Struct`, `PlainC.TopLevel`, `PlainC.Program` — programs;
* `PlainC.Program.map` — a program with its names replaced.

Main results:

* `PlainC.Expr.induct`, `PlainC.Stmt.induct` — induction over expressions and statements, with the
  statement for every argument of a call and for every statement of a block;
* `PlainC.Program.map_id` — replacing every name by itself changes nothing.
-/

import PlainC.Operator
import PlainC.Shape
import PlainC.Specifier

set_option relaxedAutoImplicit false
set_option autoImplicit false

namespace PlainC

variable {ν μ : Type}

/-! ### Declarations -/

/-- A declared type, and the name that has it.  Without a name it is just the type. -/
structure Declaration (ν : Type) where
  specifier : Specifier ν
  shape : Shape := .plain
  name : Option ν := none
deriving Repr, DecidableEq

namespace Declaration

/-- Whether the declaration has no name. -/
def isAbstract (d : Declaration ν) : Bool := d.name.isNone

/-- The declaration with its names replaced. -/
def map (f : ν → μ) (d : Declaration ν) : Declaration μ :=
  ⟨d.specifier.map f, d.shape, d.name.map f⟩

@[simp] theorem map_id (d : Declaration ν) : d.map id = d := by simp [map]

end Declaration

/-! ### Literals -/

/-- The kinds of literal. -/
inductive LiteralKind where
  | int | double | char | string
deriving Repr, DecidableEq

/-- The kinds of literal, in the order of their declaration. -/
def LiteralKind.all : List LiteralKind := [.int, .double, .char, .string]

/-- The name of a kind of literal in listings. -/
def LiteralKind.name : LiteralKind → String
  | .int => "INT"
  | .double => "DOUBLE"
  | .char => "CHAR"
  | .string => "STRING"

/-- A literal: a number, the code of a character, or a text. -/
inductive Literal where
  | int (value : Int)
  | double (value : Double)
  | char (code : Int)
  | string (text : String)
deriving Repr, DecidableEq

namespace Literal

/-- The kind of a literal. -/
def kind : Literal → LiteralKind
  | int _ => .int
  | double _ => .double
  | char _ => .char
  | string _ => .string

/-- The literal that a lexeme is. -/
def ofLexeme? : Lexeme → Option Literal
  | .number value => some (.int value)
  | .float value => some (.double value)
  | .character code => some (.char code)
  | .string text => some (.string text)
  | _ => none

end Literal

/-! ### Expressions -/

/-- Expressions.  Parentheses are kept, and assignments are binary like any other operation.  Only
named functions can be called. -/
inductive Expr (ν : Type) where
  | blank
  | literal (value : Literal)
  | var (name : ν)
  | sizeofType (type : Declaration ν)
  | sizeofExpr (operand : Expr ν)
  | parenthesized (inner : Expr ν)
  | postfixed (op : PostfixOp) (operand : Expr ν)
  | unary (op : UnaryOp) (operand : Expr ν)
  | binary (op : Operator) (left right : Expr ν)
  | call (callee : ν) (arguments : List (Expr ν))
  | index (target subscript : Expr ν)
  | member (target : Expr ν) (name : ν)
  | pointerMember (target : Expr ν) (name : ν)
  | cast (word : TypeWord ν) (operand : Expr ν)
deriving Repr

namespace Expr

/-- Induction over expressions; for a call the statement is known of every argument. -/
@[elab_as_elim]
theorem induct {motive : Expr ν → Prop} (blank : motive .blank)
    (literal : ∀ value, motive (.literal value)) (var : ∀ name, motive (.var name))
    (sizeofType : ∀ type, motive (.sizeofType type))
    (sizeofExpr : ∀ operand, motive operand → motive (.sizeofExpr operand))
    (parenthesized : ∀ inner, motive inner → motive (.parenthesized inner))
    (postfixed : ∀ op operand, motive operand → motive (.postfixed op operand))
    (unary : ∀ op operand, motive operand → motive (.unary op operand))
    (binary : ∀ op left right, motive left → motive right → motive (.binary op left right))
    (call : ∀ callee arguments, (∀ a ∈ arguments, motive a) → motive (.call callee arguments))
    (index : ∀ target subscript, motive target → motive subscript →
      motive (.index target subscript))
    (member : ∀ target name, motive target → motive (.member target name))
    (pointerMember : ∀ target name, motive target → motive (.pointerMember target name))
    (cast : ∀ word operand, motive operand → motive (.cast word operand)) (e : Expr ν) :
    motive e :=
  Expr.rec (motive_2 := fun arguments => ∀ a ∈ arguments, motive a) blank literal var sizeofType
    sizeofExpr parenthesized postfixed unary binary call index member pointerMember cast (by simp)
    (fun _ _ head tail => List.forall_mem_cons.2 ⟨head, tail⟩) e

mutual

/-- The expression with its names replaced. -/
def map (f : ν → μ) : Expr ν → Expr μ
  | blank => .blank
  | literal value => .literal value
  | var name => .var (f name)
  | sizeofType type => .sizeofType (type.map f)
  | sizeofExpr operand => .sizeofExpr (operand.map f)
  | parenthesized inner => .parenthesized (inner.map f)
  | postfixed op operand => .postfixed op (operand.map f)
  | unary op operand => .unary op (operand.map f)
  | binary op left right => .binary op (left.map f) (right.map f)
  | call callee arguments => .call (f callee) (mapAll f arguments)
  | index target subscript => .index (target.map f) (subscript.map f)
  | member target name => .member (target.map f) (f name)
  | pointerMember target name => .pointerMember (target.map f) (f name)
  | cast word operand => .cast (word.map f) (operand.map f)

/-- The expressions with their names replaced. -/
def mapAll (f : ν → μ) : List (Expr ν) → List (Expr μ)
  | [] => []
  | e :: es => e.map f :: mapAll f es

end

theorem mapAll_eq_map (f : ν → μ) (es : List (Expr ν)) : mapAll f es = es.map (map f) := by
  induction es with
  | nil => rfl
  | cons e es ih => simp [mapAll, ih]

@[simp] theorem map_id (e : Expr ν) : e.map id = e := by
  induction e using induct with
  | call callee arguments ih =>
      have same : arguments.map (map id) = arguments := by
        simpa using List.map_congr_left (g := id) ih
      simp [map, mapAll_eq_map, same]
  | _ => simp_all [map]

end Expr

/-! ### Variables -/

/-- A variable: its name and type, and the expression for its initial value if there is one. -/
structure Variable (ν : Type) where
  declaration : Declaration ν
  initializer : Option (Expr ν) := none
deriving Repr

/-- The variable with its names replaced. -/
def Variable.map (f : ν → μ) (v : Variable ν) : Variable μ :=
  ⟨v.declaration.map f, v.initializer.map (Expr.map f)⟩

@[simp] theorem Expr.optionMap_id (e : Option (Expr ν)) : e.map (Expr.map id) = e := by
  cases e <;> simp

@[simp] theorem Variable.map_id (v : Variable ν) : v.map id = v := by simp [Variable.map]

/-! ### Statements -/

/-- Statements.  A conditional with an `else` and one without are told apart, and each clause of a
`for` may be absent. -/
inductive Stmt (ν : Type) where
  | blank
  | expression (value : Expr ν)
  | declaration (v : Variable ν)
  | ifThen (condition : Expr ν) (thenBranch : Stmt ν)
  | ifElse (condition : Expr ν) (thenBranch elseBranch : Stmt ν)
  | whileLoop (condition : Expr ν) (body : Stmt ν)
  | forLoop (first : Option (Variable ν)) (condition step : Option (Expr ν)) (body : Stmt ν)
  | breakLoop
  | continueLoop
  | returnWith (value : Option (Expr ν))
  | block (statements : List (Stmt ν))
deriving Repr

namespace Stmt

/-- Induction over statements; for a block the statement is known of every part. -/
@[elab_as_elim]
theorem induct {motive : Stmt ν → Prop} (blank : motive .blank)
    (expression : ∀ value, motive (.expression value))
    (declaration : ∀ v, motive (.declaration v))
    (ifThen : ∀ condition thenBranch, motive thenBranch → motive (.ifThen condition thenBranch))
    (ifElse : ∀ condition thenBranch elseBranch, motive thenBranch → motive elseBranch →
      motive (.ifElse condition thenBranch elseBranch))
    (whileLoop : ∀ condition body, motive body → motive (.whileLoop condition body))
    (forLoop : ∀ first condition step body, motive body →
      motive (.forLoop first condition step body))
    (breakLoop : motive .breakLoop) (continueLoop : motive .continueLoop)
    (returnWith : ∀ value, motive (.returnWith value))
    (block : ∀ statements, (∀ s ∈ statements, motive s) → motive (.block statements))
    (s : Stmt ν) : motive s :=
  Stmt.rec (motive_2 := fun statements => ∀ s ∈ statements, motive s) blank expression declaration
    ifThen ifElse whileLoop forLoop breakLoop continueLoop returnWith block (by simp)
    (fun _ _ head tail => List.forall_mem_cons.2 ⟨head, tail⟩) s

mutual

/-- The statement with its names replaced. -/
def map (f : ν → μ) : Stmt ν → Stmt μ
  | blank => .blank
  | expression value => .expression (value.map f)
  | declaration v => .declaration (v.map f)
  | ifThen condition thenBranch => .ifThen (condition.map f) (thenBranch.map f)
  | ifElse condition thenBranch elseBranch =>
      .ifElse (condition.map f) (thenBranch.map f) (elseBranch.map f)
  | whileLoop condition body => .whileLoop (condition.map f) (body.map f)
  | forLoop first condition step body =>
      .forLoop (first.map (Variable.map f)) (condition.map (Expr.map f)) (step.map (Expr.map f))
        (body.map f)
  | breakLoop => .breakLoop
  | continueLoop => .continueLoop
  | returnWith value => .returnWith (value.map (Expr.map f))
  | block statements => .block (mapAll f statements)

/-- The statements with their names replaced. -/
def mapAll (f : ν → μ) : List (Stmt ν) → List (Stmt μ)
  | [] => []
  | s :: ss => s.map f :: mapAll f ss

end

theorem mapAll_eq_map (f : ν → μ) (ss : List (Stmt ν)) : mapAll f ss = ss.map (map f) := by
  induction ss with
  | nil => rfl
  | cons s ss ih => simp [mapAll, ih]

@[simp] theorem map_id (s : Stmt ν) : s.map id = s := by
  induction s using induct with
  | forLoop first condition step body ih => cases first <;> simp [map, ih]
  | block statements ih =>
      have same : statements.map (map id) = statements := by
        simpa using List.map_congr_left (g := id) ih
      simp [map, mapAll_eq_map, same]
  | _ => simp_all [map]

end Stmt

/-- Statements in the order of their execution. -/
structure Block (ν : Type) where
  statements : List (Stmt ν)
deriving Repr

/-- The block with its names replaced. -/
def Block.map (f : ν → μ) (b : Block ν) : Block μ := ⟨b.statements.map (Stmt.map f)⟩

@[simp] theorem Block.map_id (b : Block ν) : b.map id = b := by
  simp [Block.map, show Stmt.map (id : ν → ν) = id from funext Stmt.map_id]

/-! ### Programs -/

/-- A function: its name and the type it returns, its parameters, and its body.  Without a body it
is a prototype.  A function has no further parameters; the mark that denies them is kept as it was
given. -/
structure Function (ν : Type) where
  declaration : Declaration ν
  parameters : List (Declaration ν) := []
  variadic : Falsity := .no
  body : Option (Block ν) := none
deriving Repr

/-- Whether the function has no body. -/
def Function.isPrototype (f : Function ν) : Bool := f.body.isNone

/-- The function with its names replaced. -/
def Function.map (g : ν → μ) (f : Function ν) : Function μ :=
  { declaration := f.declaration.map g
    parameters := f.parameters.map (Declaration.map g)
    variadic := f.variadic
    body := f.body.map (Block.map g) }

@[simp] theorem Function.map_id (f : Function ν) : f.map id = f := by
  simp [Function.map, show Declaration.map (id : ν → ν) = id from funext Declaration.map_id,
    show Block.map (id : ν → ν) = id from funext Block.map_id]

/-- A struct: its name, and its members in the order of their layout. -/
structure Struct (ν : Type) where
  name : ν
  members : List (Declaration ν) := []
deriving Repr, DecidableEq

/-- The struct with its names replaced. -/
def Struct.map (f : ν → μ) (s : Struct ν) : Struct μ :=
  ⟨f s.name, s.members.map (Declaration.map f)⟩

@[simp] theorem Struct.map_id (s : Struct ν) : s.map id = s := by
  simp [Struct.map, show Declaration.map (id : ν → ν) = id from funext Declaration.map_id]

/-- What stands at the outermost level of a program. -/
inductive TopLevel (ν : Type) where
  | blank
  | var (unit : Variable ν)
  | function (unit : Function ν)
  | struct (unit : Struct ν)
deriving Repr

/-- The unit with its names replaced. -/
def TopLevel.map (f : ν → μ) : TopLevel ν → TopLevel μ
  | blank => .blank
  | var unit => .var (unit.map f)
  | function unit => .function (unit.map f)
  | struct unit => .struct (unit.map f)

/-- The name of a unit. -/
def TopLevel.name? : TopLevel ν → Option ν
  | blank => none
  | var unit => unit.declaration.name
  | function unit => unit.declaration.name
  | struct unit => some unit.name

@[simp] theorem TopLevel.map_id (u : TopLevel ν) : u.map id = u := by
  cases u <;> simp [TopLevel.map]

/-- A program: its units in the order of the source. -/
structure Program (ν : Type) where
  units : List (TopLevel ν)
deriving Repr

namespace Program

/-- The program with its names replaced. -/
def map (f : ν → μ) (p : Program ν) : Program μ := ⟨p.units.map (TopLevel.map f)⟩

/-- Replacing every name by itself changes nothing. -/
@[simp] theorem map_id (p : Program ν) : p.map id = p := by
  simp [map, show TopLevel.map (id : ν → ν) = id from funext TopLevel.map_id]

/-- The functions of a program, in order. -/
def functions (p : Program ν) : List (Function ν) :=
  p.units.filterMap fun | .function unit => some unit | _ => none

/-- The variables at the outermost level, in order. -/
def globals (p : Program ν) : List (Variable ν) :=
  p.units.filterMap fun | .var unit => some unit | _ => none

/-- The structs of a program, in order. -/
def structs (p : Program ν) : List (Struct ν) :=
  p.units.filterMap fun | .struct unit => some unit | _ => none

end Program

end PlainC
