/-
**Listings of trees.**

A tree is listed with one line for each unit, member and statement, and the lines of a part are
indented below the line of the whole.  Expressions stand in the line of the statement that holds
them, so an expression or a declaration of its own has no lines, and a blank part has none either.

Main definitions:

* `PlainC.indent` — the lines of a part below the line of the whole;
* `PlainC.Stmt.lines`, `PlainC.TopLevel.lines`, `PlainC.Program.lines` — the listing of a tree;
* `PlainC.Node.listing` — the listing of a tree of any sort as one text.

Main results:

* `PlainC.Stmt.linesAll_eq_mapM` — the statements of a block are listed one by one.
-/

import PlainC.Tree.Node
import PlainC.Tree.Text

set_option relaxedAutoImplicit false
set_option autoImplicit false

namespace PlainC

variable {ν : Type}

/-- The lines of a part below the line of the whole. -/
def indent (lines : List String) : List String := lines.map ("  " ++ ·)

/-- The text of an expression, or the empty text for an absent one. -/
def Expr.optionText (nameText : ν → String) : Option (Expr ν) → Except Unprintable String
  | none => .ok ""
  | some e => e.text nameText

/-- A variable in one line, with its initial value if there is one. -/
def Variable.text (nameText : ν → String) (v : Variable ν) : Except Unprintable String :=
  match v.initializer with
  | none => .ok (v.declaration.text nameText)
  | some e => do return v.declaration.text nameText ++ " = " ++ (← e.text nameText)

/-- The text of a variable, or the empty text for an absent one. -/
def Variable.optionText (nameText : ν → String) : Option (Variable ν) → Except Unprintable String
  | none => .ok ""
  | some v => v.text nameText

/-! ### Statements -/

namespace Stmt

mutual

/-- The lines of a statement. -/
def lines (nameText : ν → String) : Stmt ν → Except Unprintable (List String)
  | blank => .ok []
  | expression value => do return ["Expr: " ++ (← value.text nameText)]
  | declaration v => do return ["Decl: " ++ (← v.text nameText)]
  | ifThen condition thenBranch => do
      let conditionText ← condition.text nameText
      let thenLines ← thenBranch.lines nameText
      return ("If (" ++ conditionText ++ ")") :: indent ("Then:" :: indent thenLines)
  | ifElse condition thenBranch elseBranch => do
      let conditionText ← condition.text nameText
      let thenLines ← thenBranch.lines nameText
      let elseLines ← elseBranch.lines nameText
      return ("If (" ++ conditionText ++ ")")
        :: indent ("Then:" :: indent thenLines ++ "Else:" :: indent elseLines)
  | whileLoop condition body => do
      let conditionText ← condition.text nameText
      let bodyLines ← body.lines nameText
      return ("While (" ++ conditionText ++ ")") :: indent bodyLines
  | forLoop first condition step body => do
      let firstText ← Variable.optionText nameText first
      let conditionText ← Expr.optionText nameText condition
      let stepText ← Expr.optionText nameText step
      let bodyLines ← body.lines nameText
      return ("For (" ++ firstText ++ "; " ++ conditionText ++ "; " ++ stepText ++ ")")
        :: indent bodyLines
  | breakLoop => .ok ["Break"]
  | continueLoop => .ok ["Continue"]
  | returnWith none => .ok ["Return"]
  | returnWith (some value) => do return ["Return " ++ (← value.text nameText)]
  | block statements => do return "Block" :: indent (← linesAll nameText statements)

/-- The lines of statements, in order. -/
def linesAll (nameText : ν → String) : List (Stmt ν) → Except Unprintable (List String)
  | [] => .ok []
  | s :: ss => do
      let first ← s.lines nameText
      let more ← linesAll nameText ss
      return first ++ more

end

/-- The statements of a block are listed one by one. -/
theorem linesAll_eq_mapM (nameText : ν → String) (ss : List (Stmt ν)) :
    linesAll nameText ss = (ss.mapM (lines nameText)).map List.flatten := by
  induction ss with
  | nil => rfl
  | cons s ss ih =>
      simp only [linesAll, ih, List.mapM_cons]
      cases s.lines nameText with
      | error _ => rfl
      | ok _ => cases ss.mapM (lines nameText) <;> rfl

end Stmt

/-- The lines of a block. -/
def Block.lines (nameText : ν → String) (b : Block ν) : Except Unprintable (List String) :=
  (Stmt.block b.statements).lines nameText

/-! ### Programs -/

/-- The line of a function, without its body: its name, its parameters and the type it returns. -/
def Function.heading (nameText : ν → String) (f : Function ν) : String :=
  (if f.isPrototype then "Prototype: " else "Function: ")
    ++ (f.declaration.name.map nameText).getD "" ++ "("
    ++ ", ".intercalate (f.parameters.map (Declaration.text nameText)) ++ ") -> "
    ++ f.declaration.describe nameText

/-- The lines of a function. -/
def Function.lines (nameText : ν → String) (f : Function ν) : Except Unprintable (List String) :=
  match f.body with
  | none => .ok [f.heading nameText]
  | some body => do return f.heading nameText :: indent (← body.lines nameText)

/-- The lines of a struct. -/
def Struct.lines (nameText : ν → String) (s : Struct ν) : List String :=
  ("Struct: " ++ nameText s.name)
    :: indent (s.members.map fun member => "Member: " ++ member.text nameText)

/-- The lines of a unit. -/
def TopLevel.lines (nameText : ν → String) : TopLevel ν → Except Unprintable (List String)
  | blank => .ok []
  | var unit => do return ["Variable: " ++ (← unit.text nameText)]
  | function unit => unit.lines nameText
  | struct unit => .ok (unit.lines nameText)

/-- The lines of a program. -/
def Program.lines (nameText : ν → String) (p : Program ν) : Except Unprintable (List String) := do
  return "Program" :: indent (← p.units.mapM (TopLevel.lines nameText)).flatten

/-- The lines of a tree of any sort; what stands inside a line has none of its own. -/
def Node.lines (nameText : ν → String) : Node ν → Except Unprintable (List String)
  | program tree => tree.lines nameText
  | unit tree => tree.lines nameText
  | block tree => tree.lines nameText
  | statement tree => tree.lines nameText
  | blank | declaration _ | operand _ | expression _ => .ok []

/-- The listing of a tree as one text. -/
def Node.listing (nameText : ν → String) (tree : Node ν) : Except Unprintable String :=
  (tree.lines nameText).map "\n".intercalate

end PlainC
