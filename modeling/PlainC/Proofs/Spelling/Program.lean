/-
**How programs are spelled.**

A program is spelled unit by unit, with one declaration for every declared name.  Its spelling can
be read back only if the tree keeps to the shapes that the parser makes: what declares a name has
one, the body of a conditional or a loop is a block, a function returns what pointers lead to, and
so on.

Main definitions:

* `PlainC.Variable.spelling`, `PlainC.Stmt.spelling`, `PlainC.Function.spelling`,
  `PlainC.Struct.spelling`, `PlainC.Program.spelling` — the lexemes of each sort of tree;
* `PlainC.Expr.isReadable`, `PlainC.Variable.isReadable`, `PlainC.Stmt.isReadable`,
  `PlainC.Function.isReadable`, `PlainC.Struct.isReadable`, `PlainC.Program.isReadable` — the trees
  that keep to the shapes that the parser makes.

Main results:

* `PlainC.Program.ending_notMem_spelling` — no spelling holds the end of a source.
-/

import PlainC.Proofs.Spelling.Expression

set_option relaxedAutoImplicit false
set_option autoImplicit false

namespace PlainC

/-! ### Expressions and variables -/

/-- Whether an expression can be written in a source and needs no further parentheses. -/
def Expr.isReadable (e : Expr String) : Bool := e.hasSpelling && e.isGrouped

/-- The lexemes of an expression that may be left out. -/
def Expr.optionSpelling : Option (Expr String) → List Lexeme
  | none => []
  | some e => e.spelling

/-- Whether an expression is left out or can be read back. -/
def Expr.optionIsReadable : Option (Expr String) → Bool
  | none => true
  | some e => e.isReadable

/-- Whether a declaration can be read back and has a name. -/
def Declaration.isReadable (d : Declaration String) : Bool := d.hasSpelling && d.name.isSome

namespace Variable

/-- The lexemes of the initial value of a variable, if there is one. -/
def initialSpelling (v : Variable String) : List Lexeme :=
  match v.initializer with
  | none => []
  | some e => .punctuator .assign :: e.spelling

/-- The lexemes of a variable, without the semicolon. -/
def spelling (v : Variable String) : List Lexeme := v.declaration.spelling ++ v.initialSpelling

/-- Whether a variable can be read back. -/
def isReadable (v : Variable String) : Bool :=
  v.declaration.isReadable && Expr.optionIsReadable v.initializer

/-- The lexemes of a variable that may be left out. -/
def optionSpelling : Option (Variable String) → List Lexeme
  | none => []
  | some v => v.spelling

/-- Whether a variable is left out or can be read back. -/
def optionIsReadable : Option (Variable String) → Bool
  | none => true
  | some v => v.isReadable

end Variable

/-! ### Statements -/

namespace Stmt

/-- Whether a statement is a block. -/
def isBlock {ν : Type} : Stmt ν → Bool
  | block _ => true
  | _ => false

/-- Whether a statement is a declaration. -/
def isDeclaration {ν : Type} : Stmt ν → Bool
  | declaration _ => true
  | _ => false

/-- The lexemes of a condition in parentheses. -/
def conditionSpelling (test : Expr String) : List Lexeme :=
  .punctuator .parenOpen :: test.spelling ++ [.punctuator .parenClose]

mutual

/-- The lexemes of a statement; a blank has none. -/
def spelling : Stmt String → List Lexeme
  | blank => []
  | expression value => value.spelling ++ [.punctuator .semicolon]
  | declaration v => v.spelling ++ [.punctuator .semicolon]
  | ifThen test thenBranch =>
      .keyword .ifWord :: conditionSpelling test ++ thenBranch.spelling
  | ifElse test thenBranch elseBranch =>
      .keyword .ifWord :: conditionSpelling test ++ thenBranch.spelling
        ++ .keyword .elseWord :: elseBranch.spelling
  | whileLoop test body => .keyword .whileWord :: conditionSpelling test ++ body.spelling
  | forLoop first test step body =>
      .keyword .forWord :: .punctuator .parenOpen :: Variable.optionSpelling first
        ++ .punctuator .semicolon :: Expr.optionSpelling test
        ++ .punctuator .semicolon :: Expr.optionSpelling step
        ++ .punctuator .parenClose :: body.spelling
  | breakLoop => [.keyword .breakWord, .punctuator .semicolon]
  | continueLoop => [.keyword .continueWord, .punctuator .semicolon]
  | returnWith value =>
      .keyword .returnWord :: Expr.optionSpelling value ++ [.punctuator .semicolon]
  | block statements =>
      .punctuator .braceOpen :: allSpelling statements ++ [.punctuator .braceClose]

/-- The lexemes of statements in a row. -/
def allSpelling : List (Stmt String) → List Lexeme
  | [] => []
  | s :: ss => s.spelling ++ allSpelling ss

end

mutual

/-- Whether a statement can be read back: the body of a conditional or a loop is a block, and every
part can be read back. -/
def isReadable : Stmt String → Bool
  | blank => false
  | expression value => value.isReadable
  | declaration v => v.isReadable
  | ifThen test thenBranch => test.isReadable && thenBranch.isBlock && thenBranch.isReadable
  | ifElse test thenBranch elseBranch =>
      test.isReadable && thenBranch.isBlock && thenBranch.isReadable && elseBranch.isBlock
        && elseBranch.isReadable
  | whileLoop test body => test.isReadable && body.isBlock && body.isReadable
  | forLoop first test step body =>
      Variable.optionIsReadable first && Expr.optionIsReadable test && Expr.optionIsReadable step
        && body.isBlock && body.isReadable
  | breakLoop | continueLoop => true
  | returnWith value => Expr.optionIsReadable value
  | block statements => allReadable statements

/-- Whether all statements in a row can be read back. -/
def allReadable : List (Stmt String) → Bool
  | [] => true
  | s :: ss => s.isReadable && allReadable ss

end

theorem allReadable_iff {ss : List (Stmt String)} : allReadable ss ↔ ∀ s ∈ ss, s.isReadable := by
  induction ss with
  | nil => simp [allReadable]
  | cons s ss ih => simp [allReadable, ih]

end Stmt

/-- The lexemes of a block. -/
def Block.spelling (b : Block String) : List Lexeme := (Stmt.block b.statements).spelling

/-- Whether a block can be read back. -/
def Block.isReadable (b : Block String) : Bool := Stmt.allReadable b.statements

/-! ### Units -/

/-- Whether a shape has pointers only. -/
def Shape.isPointers : Shape → Bool
  | plain => true
  | pointer target => target.isPointers
  | unspecified | array .. => false

namespace Function

/-- The lexemes of the body of a function, or a semicolon. -/
def bodySpelling (f : Function String) : List Lexeme :=
  match f.body with
  | none => [.punctuator .semicolon]
  | some body => body.spelling

/-- The lexemes of a function: its declaration, its parameters, and its body or a semicolon. -/
def spelling (f : Function String) : List Lexeme :=
  f.declaration.spelling ++ .punctuator .parenOpen :: Declaration.rowSpelling f.parameters
    ++ .punctuator .parenClose :: f.bodySpelling

/-- Whether a function can be read back: only pointers stand in front of its name, its parameters
are not the mark for none, and those of a function with a body have names. -/
def isReadable (f : Function String) : Bool :=
  f.declaration.isReadable && f.declaration.shape.isPointers
    && f.parameters.all Declaration.hasSpelling && f.parameters != [Declaration.loneVoid]
    && f.variadic == .no
    && match f.body with
      | none => true
      | some body => f.parameters.all Declaration.isReadable && body.isReadable

end Function

namespace Struct

/-- The lexemes of a struct, with one declaration for every member. -/
def spelling (u : Struct String) : List Lexeme :=
  .keyword .structWord :: .identifier u.name :: .punctuator .braceOpen
    :: u.members.flatMap (fun d => d.spelling ++ [.punctuator .semicolon])
    ++ [.punctuator .braceClose, .punctuator .semicolon]

/-- Whether a struct can be read back: its members have names, and none of them is static. -/
def isReadable (u : Struct String) : Bool :=
  u.members.all fun d => d.isReadable && !d.specifier.isStatic

end Struct

namespace TopLevel

/-- The lexemes of a unit; a blank has none. -/
def spelling : TopLevel String → List Lexeme
  | blank => []
  | var unit => unit.spelling ++ [.punctuator .semicolon]
  | function unit => unit.spelling
  | struct unit => unit.spelling

/-- Whether a unit can be read back. -/
def isReadable : TopLevel String → Bool
  | blank => false
  | var unit => unit.isReadable
  | function unit => unit.isReadable
  | struct unit => unit.isReadable

end TopLevel

namespace Program

/-- The lexemes of a program, unit by unit. -/
def spelling (p : Program String) : List Lexeme := p.units.flatMap TopLevel.spelling

/-- Whether a program can be read back. -/
def isReadable (p : Program String) : Bool := p.units.all TopLevel.isReadable

end Program

/-! ### No spelling holds the end of a source -/

@[simp] theorem TypeWord.ending_notMem_spelling (w : TypeWord String) :
    .ending ∉ w.spelling := by
  cases w <;> simp [spelling]

@[simp] theorem Specifier.ending_notMem_spelling (sp : Specifier String) :
    .ending ∉ sp.spelling := by
  rcases sp with ⟨_ | _, _ | _, words⟩ <;> simp [spelling]

@[simp] theorem DeclaratorForm.ending_notMem_spelling (w : DeclaratorForm) :
    .ending ∉ w.spelling := by
  have arrays : ∀ size, Lexeme.ending ∉ arraySpelling size := by
    intro size
    cases size <;> simp [arraySpelling]
  induction w with
  | direct pointers name sizes => cases name <;> simp [spelling, arrays]
  | nested pointers inner sizes ih => simp [spelling, arrays, ih]

@[simp] theorem Declaration.ending_notMem_spelling (d : Declaration String) :
    .ending ∉ d.spelling := by
  simp [spelling]

theorem Declaration.ending_notMem_rowSpelling (ds : List (Declaration String)) :
    .ending ∉ rowSpelling ds := by
  cases ds <;> simp [rowSpelling]

@[simp] theorem Expr.ending_notMem_spelling (e : Expr String) : .ending ∉ e.spelling := by
  have more : ∀ es : List (Expr String), (∀ a ∈ es, .ending ∉ a.spelling) →
      .ending ∉ moreSpelling es := by
    intro es h
    induction es with
    | nil => simp [moreSpelling]
    | cons e es ih => simp_all [moreSpelling]
  induction e using induct with
  | literal value => cases value <;> simp [spelling, Literal.lexeme]
  | binary op left right ihl ihr =>
      rcases op with op | op | part <;> simp [spelling, Operator.lexeme?, ihl, ihr]
  | call callee arguments ih => cases arguments <;> simp_all [spelling, rowSpelling]
  | _ => simp_all [spelling]

@[simp] theorem Expr.ending_notMem_optionSpelling (e : Option (Expr String)) :
    .ending ∉ optionSpelling e := by
  cases e <;> simp [optionSpelling]

@[simp] theorem Variable.ending_notMem_spelling (v : Variable String) : .ending ∉ v.spelling := by
  rcases v with ⟨d, _ | e⟩ <;> simp [spelling, initialSpelling]

@[simp] theorem Variable.ending_notMem_optionSpelling (v : Option (Variable String)) :
    .ending ∉ optionSpelling v := by
  cases v <;> simp [optionSpelling]

@[simp] theorem Stmt.ending_notMem_spelling (s : Stmt String) : .ending ∉ s.spelling := by
  have all : ∀ ss : List (Stmt String), (∀ s ∈ ss, .ending ∉ s.spelling) →
      .ending ∉ allSpelling ss := by
    intro ss h
    induction ss with
    | nil => simp [allSpelling]
    | cons s ss ih => simp_all [allSpelling]
  induction s using induct <;> simp_all [spelling, conditionSpelling]

theorem TopLevel.ending_notMem_spelling (u : TopLevel String) : .ending ∉ u.spelling := by
  cases u with
  | blank => simp [spelling]
  | var v => simp [spelling]
  | function f =>
      have parameters := Declaration.ending_notMem_rowSpelling f.parameters
      rcases f with ⟨d, ps, variadic, _ | body⟩ <;>
        simp_all [spelling, Function.spelling, Function.bodySpelling, Block.spelling]
  | struct u => simp [spelling, Struct.spelling]

/-- No spelling of a program holds the end of a source. -/
theorem Program.ending_notMem_spelling (p : Program String) : .ending ∉ p.spelling := by
  simp [spelling, TopLevel.ending_notMem_spelling]

end PlainC
