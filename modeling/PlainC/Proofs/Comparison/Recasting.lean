/-
**Statements recast under other options.**

The options that are asked for while a statement is read decide only how the bodies of conditionals
and loops are kept.  So what other options do to a statement can be described as a recasting of its
bodies, and the rules for statements and units are put together alike whatever that recasting is.
Two recastings matter: the one that changes nothing, and the one that puts every body in a block.

Main definitions:

* `PlainC.Program.mapStmts` — a program with its outermost statements replaced;
* `PlainC.StmtRecasting`, `PlainC.Recasting` — a change of the options, with what it does to
  statements and bodies; and one that leaves alone which units are accepted;
* `PlainC.StmtRecasting.keeping`, `PlainC.Recasting.same` — a recasting that leaves statements as
  they are, and the one that changes nothing at all.

Main results:

* `PlainC.Parser.statement_alike`, `PlainC.Parser.block_alike` — the rules for statements;
* `PlainC.Parser.unit_alike` — the rule for units.
-/

import PlainC.Proofs.Parsing.Alike
import PlainC.Tree.Parser.Program

set_option relaxedAutoImplicit false
set_option autoImplicit false

namespace PlainC

/-! ### Replacing the outermost statements -/

section

variable {ν : Type} (f : Stmt ν → Stmt ν)

/-- The block with each of its statements replaced. -/
def Block.mapStmts (b : Block ν) : Block ν := ⟨b.statements.map f⟩

/-- The function with each statement of its body replaced. -/
def Function.mapStmts (g : Function ν) : Function ν :=
  { g with body := g.body.map (Block.mapStmts f) }

/-- The unit with each statement of its body replaced, if it is a function. -/
def TopLevel.mapStmts : TopLevel ν → TopLevel ν
  | function unit => .function (unit.mapStmts f)
  | u => u

/-- The program with each outermost statement replaced. -/
def Program.mapStmts (p : Program ν) : Program ν := ⟨p.units.map (TopLevel.mapStmts f)⟩

end

@[simp] theorem Block.mapStmts_id {ν : Type} : Block.mapStmts (id : Stmt ν → Stmt ν) = id := by
  funext b
  simp [Block.mapStmts]

@[simp] theorem TopLevel.mapStmts_id {ν : Type} :
    TopLevel.mapStmts (id : Stmt ν → Stmt ν) = id := by
  funext u
  cases u <;> simp [TopLevel.mapStmts, Function.mapStmts]

/-! ### Recastings -/

theorem Stmt.map_asBlock {ν μ : Type} (f : ν → μ) (s : Stmt ν) :
    (Parser.asBlock s).map f = Parser.asBlock (s.map f) := by
  cases s <;> rfl

/-- A change of the options in force, with what it does to the statements that are read and to the
bodies in them. -/
structure StmtRecasting where
  options : Options → Options
  stmt : Stmt String → Stmt String
  body : Stmt String → Stmt String
  /-- How a body is kept depends on the options. -/
  kept : ∀ o s, body (if o.wrapBodies then Parser.asBlock s else s) =
    if (options o).wrapBodies then Parser.asBlock (stmt s) else stmt s
  expression : ∀ value, stmt (.expression value) = .expression value
  declaration : ∀ v, stmt (.declaration v) = .declaration v
  ifThen : ∀ test thenBranch, stmt (.ifThen test thenBranch) = .ifThen test (body thenBranch)
  ifElse : ∀ test thenBranch elseBranch,
    stmt (.ifElse test thenBranch elseBranch) = .ifElse test (body thenBranch) (body elseBranch)
  whileLoop : ∀ test inner, stmt (.whileLoop test inner) = .whileLoop test (body inner)
  forLoop : ∀ first test step inner,
    stmt (.forLoop first test step inner) = .forLoop first test step (body inner)
  breakLoop : stmt .breakLoop = .breakLoop
  continueLoop : stmt .continueLoop = .continueLoop
  returnWith : ∀ value, stmt (.returnWith value) = .returnWith value
  block : ∀ statements, stmt (.block statements) = .block (statements.map stmt)

/-- Such a change that does not bear on the units that are accepted. -/
structure Recasting extends StmtRecasting where
  allowPrototypes : ∀ o, (options o).allowPrototypes = o.allowPrototypes
  allowEmptyStructs : ∀ o, (options o).allowEmptyStructs = o.allowEmptyStructs

/-- Options that keep bodies in the same way change nothing in statements. -/
def StmtRecasting.keeping (adjust : Options → Options)
    (same : ∀ o, (adjust o).wrapBodies = o.wrapBodies) : StmtRecasting where
  options := adjust
  stmt := id
  body := id
  kept o _ := by rw [same]; rfl
  expression _ := rfl
  declaration _ := rfl
  ifThen _ _ := rfl
  ifElse _ _ _ := rfl
  whileLoop _ _ := rfl
  forLoop _ _ _ _ := rfl
  breakLoop := rfl
  continueLoop := rfl
  returnWith _ := rfl
  block _ := by rw [List.map_id]; rfl

/-- The recasting of statements that changes nothing. -/
def StmtRecasting.same : StmtRecasting := .keeping id fun _ => rfl

/-- The recasting that changes nothing. -/
def Recasting.same : Recasting where
  toStmtRecasting := .same
  allowPrototypes _ := rfl
  allowEmptyStructs _ := rfl

namespace Parser

variable {adjust : Options → Options} {longer : Prop}

/-! ### Variables -/

theorem declarationOf_alike (sp : Specifier String) (d : Declarator) :
    Alike adjust longer id (declarationOf sp d) (declarationOf sp d) := by
  refine .bind (shapeOf_alike _) fun shape => ?_
  split
  · exact .bind (.note _) fun _ => .pure rfl
  · exact .pure rfl

theorem variableAfter_alike (sp : Specifier String) (d : Declarator) :
    Alike adjust longer id (variableAfter sp d) (variableAfter sp d) := by
  refine .bind (declarationOf_alike _ _) fun _ => .bind (.accept _) fun _ => .ite ?_ (.pure rfl)
  refine .bind .current fun token => .checked (.fail _ _) ?_
  exact .bind expression_alike fun _ => .pure rfl

theorem variableOf_alike (sp : Specifier String) :
    Alike adjust longer id (variableOf sp) (variableOf sp) :=
  .bind (declarator_alike _) fun _ => variableAfter_alike _ _

theorem localVariables_alike : Alike adjust longer id localVariables localVariables :=
  .bind specifier_alike fun _ => .bind (.commaSeparated (variableOf_alike _)) fun _ =>
    .bind (.expect _) fun _ => .pure rfl

/-! ### Statements -/

theorem condition_alike : Alike adjust longer id condition condition :=
  .bind (.expect _) fun _ => .bind expression_alike fun _ => .bind (.expect _) fun _ => .pure rfl

theorem expressionBefore_alike (m : Punctuator) :
    Alike adjust longer id (expressionBefore m) (expressionBefore m) :=
  .bind (.nextIs _) fun _ => .ite (.pure rfl) (.bind expression_alike fun _ => .pure rfl)

theorem loopVariable_alike : Alike adjust longer id loopVariable loopVariable := by
  refine .bind (.nextIs _) fun _ => .ite (.pure rfl) (.bind .current fun token => ?_)
  refine .required (.bind specifier_alike fun sp => .bind (variableOf_alike _) fun v => ?_)
    (.fail _ _)
  exact .bind .current fun next => .checked (.fail _ _) (.pure rfl)

section

variable (c : StmtRecasting) {nested nested' : Parser (Stmt String)}

section

variable (hn : Alike c.options longer c.stmt nested nested')
include hn

theorem bodyWith_alike : Alike c.options longer c.body (bodyWith nested) (bodyWith nested') :=
  .bindMap hn fun s => .bindMap .options fun o => .pure (c.kept o s)

theorem blockItem_alike (statements : List (Stmt String)) :
    Alike c.options longer (mapTurn (List.map c.stmt)) (blockItem nested statements)
      (blockItem nested' (statements.map c.stmt)) := by
  refine .bind .current fun token => .bind .atEnd fun _ => .ite (.pure rfl) (.locatedAt _ ?_)
  refine .ite (.bind localVariables_alike fun found => .pure ?_) ?_
  · simp [mapTurn, c.declaration, Function.comp_def]
  refine .bind (.accept _) fun _ => .ite (.pure rfl) (.bindMap hn fun s => .pure ?_)
  simp [mapTurn]

theorem blockWith_alike :
    Alike c.options longer (List.map c.stmt) (blockWith nested) (blockWith nested') :=
  .bind (.expect _) fun _ => .bindMap (.loopMap (blockItem_alike c hn) []) fun _ =>
    .bind (.expect _) fun _ => .pure rfl

theorem conditionalWith_alike :
    Alike c.options longer c.stmt (conditionalWith nested) (conditionalWith nested') := by
  refine .bind condition_alike fun test => .bindMap (bodyWith_alike c hn) fun thenBranch => ?_
  refine .bind (.acceptLexeme _) fun _ => .ite ?_ (.pure (c.ifThen _ _))
  exact .bindMap (bodyWith_alike c hn) fun elseBranch => .pure (c.ifElse _ _ _)

theorem forLoopWith_alike :
    Alike c.options longer c.stmt (forLoopWith nested) (forLoopWith nested') := by
  refine .bind (.expect _) fun _ => .bind loopVariable_alike fun first => ?_
  refine .bind (.expect _) fun _ => .bind (expressionBefore_alike _) fun test => ?_
  refine .bind (.expect _) fun _ => .bind (expressionBefore_alike _) fun step => ?_
  exact .bind (.expect _) fun _ => .bindMap (bodyWith_alike c hn) fun inner =>
    .pure (c.forLoop _ _ _ _)

theorem statementWith_alike :
    Alike c.options longer c.stmt (statementWith nested) (statementWith nested') := by
  refine .bind .current fun token => .locatedAt _ ?_
  split
  · exact .bind .advance fun _ => conditionalWith_alike c hn
  · refine .bind .advance fun _ => .bind condition_alike fun test => ?_
    exact .bindMap (bodyWith_alike c hn) fun inner => .pure (c.whileLoop _ _)
  · exact .bind .advance fun _ => forLoopWith_alike c hn
  · refine .bind .advance fun _ => .bind (expressionBefore_alike _) fun value => ?_
    exact .bind (.expectAs _ _) fun _ => .pure (c.returnWith _)
  · exact .bind .advance fun _ => .bind (.expectAs _ _) fun _ => .pure c.breakLoop
  · exact .bind .advance fun _ => .bind (.expectAs _ _) fun _ => .pure c.continueLoop
  · exact .bindMap (blockWith_alike c hn) fun statements => .pure (c.block _)
  · exact .bind .advance fun _ => .pure (c.block [])
  · refine .checked (.unexpected _) (.bind expression_alike fun value => ?_)
    exact .bind (.expect _) fun _ => .pure (c.expression _)

end

theorem statementWithin_alike {m n : Nat} (hmn : m ≤ n) (same : longer ∨ m = n) :
    Alike c.options longer c.stmt (statementWithin m) (statementWithin n) := by
  let rule (n : Nat) (_ : Unit) := statementWithin n
  exact .within rule rule (fun _ => rfl) (fun _ => rfl)
    (fun _ _ ih _ => statementWith_alike c (ih ())) hmn same ()

theorem statement_alike : Alike c.options longer c.stmt statement statement :=
  .budgeted fun _ _ hmn same => statementWithin_alike c hmn same

theorem block_alike : Alike c.options longer (Block.mapStmts c.stmt) block block :=
  .bindMap (blockWith_alike c (statement_alike c)) fun _ => .pure rfl

end

/-! ### Units -/

variable (c : Recasting)

theorem structMembers_alike (struct : String) (members : List (Declaration String)) :
    Alike adjust longer id (structMembers struct members) (structMembers struct members) := by
  refine .bind .current fun start => .bind .atEnd fun _ => .ite (.pure rfl) ?_
  refine .bind specifier_alike fun sp => .checked (.fail _ _) ?_
  refine .bind (.commaSeparated ?_) fun more => .bind (.expect _) fun _ => .pure rfl
  exact .bind (declarator_alike _) fun d => declarationOf_alike _ _

theorem namedParameters_alike (ident : Token) (parameters : List (Declaration String)) :
    Alike adjust longer id (namedParameters ident parameters)
      (namedParameters ident parameters) := by
  unfold namedParameters
  split
  · exact .fail _ _
  · exact .pure rfl

/-- Reads what stands behind the closing brace of a struct that begins at the token `start`. -/
def structEnd (start : Token) (name : String) (members : List (Declaration String)) :
    Parser (Struct String) := do
  expectAs .semicolon "';' after struct definition"
  if members.isEmpty && !(← options).allowEmptyStructs then fail (.unsupported .emptyStruct) start
  note name
  return ⟨name, members⟩

theorem structEnd_alike (start : Token) (name : String) (members : List (Declaration String)) :
    Alike c.options longer id (structEnd start name members) (structEnd start name members) := by
  refine .bind (.expectAs _ _) fun _ => .bindMap .options fun o => ?_
  rw [c.allowEmptyStructs]
  exact .checked (.fail _ _) (.bind (.note _) fun _ => .pure rfl)

theorem structDefinition_alike :
    Alike c.options longer id structDefinition structDefinition := by
  refine .bind .current fun start => .bind .advance fun _ => .bind (.identifier _) fun name => ?_
  refine .bind (.expect _) fun _ => .bind (.loop (structMembers_alike _) _) fun members => ?_
  refine .bind (.expect _) fun _ => .bind .current fun token => ?_
  have last : Alike c.options longer id (structEnd start name members)
      (structEnd start name members) := structEnd_alike c start name members
  split
  · exact .bind (.fail _ _) fun _ => last
  · exact .bind (.fail _ _) fun _ => last
  · exact last

theorem functionAfter_alike (sp : Specifier String) (d : Declarator) (ident : Token)
    (parameters : List (Declaration String)) :
    Alike c.options longer (Function.mapStmts c.stmt) (functionAfter sp d ident parameters)
      (functionAfter sp d ident parameters) := by
  refine .bind (declarationOf_alike _ _) fun _ => .bind (.nextIs _) fun _ => .ite ?_ ?_
  · refine .bind (namedParameters_alike _ _) fun _ =>
      .bindMap (block_alike c.toStmtRecasting) fun b => ?_
    exact .pure rfl
  · refine .bind .current fun semicolon => .bind (.expectAs _ _) fun _ => ?_
    refine .bindMap .options fun o => ?_
    rw [c.allowPrototypes]
    exact .required (.pure rfl) (.fail _ _)

theorem atStructDefinition_alike (h : ¬ longer) :
    Alike adjust longer id atStructDefinition atStructDefinition :=
  .bind .current fun _ => .bind (.ahead h) fun _ => .bind (.ahead h) fun _ => .pure rfl

theorem unit_alike (h : ¬ longer) :
    Alike c.options longer (List.map (TopLevel.mapStmts c.stmt)) unit unit := by
  refine .bind (atStructDefinition_alike h) fun _ => .ite ?_ ?_
  · exact .bind (structDefinition_alike c) fun _ => .pure rfl
  refine .bind .current fun start => .bind specifier_alike fun sp => ?_
  refine .bind (.nextIs _) fun _ => .checked (.fail _ _) (.bind topDeclarator_alike fun d => ?_)
  split
  · exact .bindMap (functionAfter_alike c _ _ _ _) fun _ => .pure rfl
  · refine .bind (variableAfter_alike _ _) fun first => ?_
    refine .bind (.moreAfterCommas (variableOf_alike _) _) fun found => ?_
    refine .bind (.expect _) fun _ => .pure ?_
    rw [List.map_map]
    rfl

end Parser

end PlainC
