/-
**An `else` belongs to the nearest `if`.**

A conditional without an `else` could still take one, and so could every statement that ends in such
a conditional.  A statement like that is open.  A conditional asks for an `else` as soon as its
first branch is read, so behind an open statement no `else` is left; hence the first branch of a
conditional with an `else` is never open, however conditionals and loops are nested.

Main definitions:

* `PlainC.Stmt.isOpen` — whether an `else` behind a statement could belong to it;
* `PlainC.Node.BindsNearest` — the `else` of a conditional could not belong to its first branch;
* `PlainC.Parser.Attaches`, `PlainC.Parser.AllAttached` — what is known of a statement and of what
  is left behind it, and of every statement that a rule gives.

Main results:

* `PlainC.Parser.conditionalWith_attaches` — a conditional takes the `else` behind its first branch;
* `PlainC.Parser.statementWith_attaches` — what is known of the statements inside a statement is
  known of the whole;
* `PlainC.Parser.statementWithin_attaches` — **behind an open statement stands no `else`**;
* `PlainC.Reader.call_bindsNearest` — **in every program and in every statement that is read, each
  `else` belongs to the nearest `if`**.
-/

import PlainC.Proofs.Parsing.Yielding
import PlainC.Source
import PlainC.Tree.Equality
import PlainC.Tree.Parser.Program
import PlainC.Tree.Walk

set_option relaxedAutoImplicit false
set_option autoImplicit false

namespace PlainC

variable {ν : Type}

/-! ### Open statements -/

/-- Whether an `else` behind a statement could belong to a conditional at its end. -/
def Stmt.isOpen : Stmt ν → Bool
  | .ifThen _ _ => true
  | .ifElse _ _ elseBranch => elseBranch.isOpen
  | .whileLoop _ body | .forLoop _ _ _ body => body.isOpen
  | _ => false

/-- The `else` of a conditional could not belong to its first branch. -/
def Node.BindsNearest : Node ν → Prop
  | .statement (.ifElse _ thenBranch _) => thenBranch.isOpen = false
  | _ => True

/-- In every conditional that was met the `else` belongs to the nearest `if`. -/
def Node.AllNearest (met : List (Node ν)) : Prop := ∀ node ∈ met, node.BindsNearest

namespace Node

variable {met met' : List (Node ν)}

theorem AllNearest.append (h : AllNearest met) (h' : AllNearest met') : AllNearest (met ++ met') :=
  List.forall_mem_append.2 ⟨h, h'⟩

theorem AllNearest.flatMap {α : Type} {walk : α → List (Node ν)} {trees : List α}
    (h : ∀ t ∈ trees, AllNearest (walk t)) : AllNearest (trees.flatMap walk) := by
  intro node met
  obtain ⟨t, ht, inside⟩ := List.mem_flatMap.1 met
  exact h t ht node inside

theorem AllNearest.over {tree : Node ν} (parts : AllNearest met) (h : tree.BindsNearest) :
    AllNearest (Node.over (fun _ => true) tree met) :=
  List.forall_mem_cons.2 ⟨h, parts⟩

theorem AllNearest.leaf {tree : Node ν} (h : tree.BindsNearest) : AllNearest [tree] :=
  List.forall_mem_singleton.2 h

end Node

open Node

/-- There is no conditional in an expression. -/
theorem Expr.allNearest_walk (e : Expr ν) : AllNearest (e.walk fun _ => true) := by
  induction e using Expr.induct with
  | blank | literal | var => exact .leaf trivial
  | sizeofType type => exact .over (.over (.leaf trivial) trivial) trivial
  | sizeofExpr operand ih => exact .over (.over ih trivial) trivial
  | parenthesized _ ih | postfixed _ _ ih | unary _ _ ih | member _ _ ih | pointerMember _ _ ih
  | cast _ _ ih => exact .over ih trivial
  | binary _ _ _ ih ih' | index _ _ ih ih' => exact .over (.append ih ih') trivial
  | call callee arguments ih =>
      refine .over ?_ trivial
      rw [Expr.walkAll_eq_flatMap]
      exact .flatMap ih

theorem Expr.allNearest_walkOption (e : Option (Expr ν)) :
    AllNearest (Expr.walkOption (fun _ => true) e) :=
  .flatMap fun e _ => e.allNearest_walk

/-- There is no conditional in a variable. -/
theorem Variable.allNearest_walk (v : Variable ν) : AllNearest (v.walk fun _ => true) :=
  .over (.append (.leaf trivial) (Expr.allNearest_walkOption _)) trivial

namespace Stmt

/-- In every conditional in a statement the `else` belongs to the nearest `if`. -/
def AllNearest (st : Stmt ν) : Prop := Node.AllNearest (st.walk fun _ => true)

variable {st thenBranch elseBranch body : Stmt ν}

theorem allNearest_declaration (v : Variable ν) : (declaration v).AllNearest :=
  .over v.allNearest_walk trivial

theorem allNearest_ifThen (test : Expr ν) (h : thenBranch.AllNearest) :
    (ifThen test thenBranch).AllNearest :=
  .over (.append test.allNearest_walk h) trivial

/-- What matters is that the first branch is not open. -/
theorem allNearest_ifElse (test : Expr ν) (h : thenBranch.AllNearest) (h' : elseBranch.AllNearest)
    (closed : thenBranch.isOpen = false) : (ifElse test thenBranch elseBranch).AllNearest :=
  .over (.append (.append test.allNearest_walk h) h') closed

theorem allNearest_whileLoop (test : Expr ν) (h : body.AllNearest) :
    (whileLoop test body).AllNearest :=
  .over (.append test.allNearest_walk h) trivial

theorem allNearest_forLoop (first : Option (Variable ν)) (test step : Option (Expr ν))
    (h : body.AllNearest) : (forLoop first test step body).AllNearest := by
  refine .over (.append (.append (.append ?_ ?_) ?_) h) trivial
  · exact .flatMap fun v _ => v.allNearest_walk
  · exact Expr.allNearest_walkOption test
  · exact Expr.allNearest_walkOption step

theorem allNearest_block {statements : List (Stmt ν)} (h : ∀ st ∈ statements, st.AllNearest) :
    (block statements).AllNearest := by
  refine .over (.over ?_ trivial) trivial
  rw [walkAll_eq_flatMap]
  exact .flatMap h

end Stmt

/-! ### Statements -/

namespace Parser

variable {s : Setting} {p q : Progress} {st : Stmt String} {nested : Parser (Stmt String)}

/-- In a statement that was read every `else` belongs to the nearest `if`, and if it is open, no
`else` is left behind it. -/
structure Attaches (s : Setting) (st : Stmt String) (q : Progress) : Prop where
  nearest : st.AllNearest
  noElse : st.isOpen → q.front s ≠ .keyword .elseWord

/-- Every statement that a rule gives is attached in this way. -/
def AllAttached (s : Setting) (rule : Parser (Stmt String)) : Prop :=
  ∀ p st q, rule s p = .ok st q → Attaches s st q

namespace AllAttached

theorem yields {rule : Parser (Stmt String)} (h : AllAttached s rule) :
    Yields s rule Stmt.AllNearest :=
  fun p st q read => (h p st q read).nearest

/-- A rule behind one whose result does not matter. -/
theorem skip {α : Type} {x : Parser α} {k : α → Parser (Stmt String)}
    (h : ∀ a, AllAttached s (k a)) : AllAttached s (x >>= k) := by
  intro p st q read
  obtain ⟨a, r, -, rest⟩ := bind_eq_ok_iff.1 read
  exact h a r st q rest

theorem locatedAt {rule : Parser (Stmt String)} (h : AllAttached s rule) (t : Token) :
    AllAttached s (locatedAt t rule) :=
  fun p st q read => h p st q (locatedAt_eq_ok_iff.1 read)

/-- A rule that gives no open statement. -/
theorem of_closed {rule : Parser (Stmt String)}
    (h : Yields s rule fun st => st.AllNearest ∧ st.isOpen = false) : AllAttached s rule := by
  intro p st q read
  obtain ⟨nearest, closed⟩ := h p st q read
  refine ⟨nearest, fun isOpen => ?_⟩
  rw [closed] at isOpen
  cases isOpen

end AllAttached

section

variable (plain : s.options.wrapBodies = false) (hn : AllAttached s nested)

include plain in
/-- A body is kept as it is written. -/
theorem bodyWith_eq_ok (read : bodyWith nested s p = .ok st q) : nested s p = .ok st q := by
  obtain ⟨body, r, inner, rest⟩ := bind_eq_ok_iff.1 read
  obtain ⟨o, r', asked, rest⟩ := bind_eq_ok_iff.1 rest
  obtain ⟨rfl, rfl⟩ : s.options = o ∧ r = r' := by
    cases asked
    exact ⟨rfl, rfl⟩
  rw [plain, if_neg Bool.false_ne_true] at rest
  obtain ⟨rfl, rfl⟩ := pure_eq_ok_iff.1 rest
  exact inner

include plain hn

/-- The first branch takes the `else` if it can, so none is left for the whole behind an open
one. -/
theorem conditionalWith_attaches : AllAttached s (conditionalWith nested) := by
  refine .skip fun test => ?_
  intro p st q read
  obtain ⟨thenBranch, r, first, rest⟩ := bind_eq_ok_iff.1 read
  have attached := hn _ _ _ (bodyWith_eq_ok plain first)
  obtain ⟨found, r', asked, rest⟩ := bind_eq_ok_iff.1 rest
  rcases acceptLexeme_eq_ok_iff.1 asked with ⟨isElse, rfl, rfl⟩ | ⟨noElse, rfl, rfl⟩
  · have closed : thenBranch.isOpen = false := by
      cases isOpen : thenBranch.isOpen with
      | false => rfl
      | true => exact absurd isElse (attached.noElse isOpen)
    rw [if_pos rfl] at rest
    obtain ⟨elseBranch, r', second, rest⟩ := bind_eq_ok_iff.1 rest
    obtain ⟨rfl, rfl⟩ := pure_eq_ok_iff.1 rest
    have attached' := hn _ _ _ (bodyWith_eq_ok plain second)
    exact ⟨Stmt.allNearest_ifElse test attached.nearest attached'.nearest closed, attached'.noElse⟩
  · rw [if_neg Bool.false_ne_true] at rest
    obtain ⟨rfl, rfl⟩ := pure_eq_ok_iff.1 rest
    exact ⟨Stmt.allNearest_ifThen test attached.nearest, fun _ => noElse⟩

/-- A `while` loop ends with its body, and is open if the body is. -/
theorem whileLoop_attaches : AllAttached s (do
    let test ← condition
    return .whileLoop test (← bodyWith nested)) := by
  refine .skip fun test => ?_
  intro p st q read
  obtain ⟨body, r, inner, rest⟩ := bind_eq_ok_iff.1 read
  obtain ⟨rfl, rfl⟩ := pure_eq_ok_iff.1 rest
  have attached := hn _ _ _ (bodyWith_eq_ok plain inner)
  exact ⟨Stmt.allNearest_whileLoop test attached.nearest, attached.noElse⟩

/-- So does a `for` loop. -/
theorem forLoopWith_attaches : AllAttached s (forLoopWith nested) := by
  refine .skip fun _ => .skip fun first => .skip fun _ => .skip fun test => .skip fun _ =>
    .skip fun step => .skip fun _ => ?_
  intro p st q read
  obtain ⟨body, r, inner, rest⟩ := bind_eq_ok_iff.1 read
  obtain ⟨rfl, rfl⟩ := pure_eq_ok_iff.1 rest
  have attached := hn _ _ _ (bodyWith_eq_ok plain inner)
  exact ⟨Stmt.allNearest_forLoop first test step attached.nearest, attached.noElse⟩

omit plain in
theorem blockItem_allNearest {statements : List (Stmt String)}
    (kept : ∀ st ∈ statements, st.AllNearest) :
    Yields s (blockItem nested statements) (TurnHas fun statements =>
      ∀ st ∈ statements, st.AllNearest) := by
  refine .skip fun token => .skip fun _ => .ite (fun _ => .pure kept) fun _ => ?_
  refine .locatedAt (.ite (fun _ => ?_) fun _ => .skip fun _ => .ite (fun _ => .pure kept) ?_) _
  · refine .skip fun vs => .pure (List.forall_mem_append.2 ⟨kept, ?_⟩)
    exact List.forall_mem_map.2 fun v _ => Stmt.allNearest_declaration v
  · refine fun _ => .bind hn.yields fun st nearest => .pure ?_
    exact List.forall_mem_append.2 ⟨kept, List.forall_mem_singleton.2 nearest⟩

omit plain in
theorem blockWith_allNearest :
    Yields s (blockWith nested) fun statements => ∀ st ∈ statements, st.AllNearest := by
  refine .skip fun _ => .bind (.loop (fun _ => blockItem_allNearest hn) (List.forall_mem_nil _)) ?_
  exact fun statements nearest => .skip fun _ => .pure nearest

/-- What is known of the statements inside a statement is known of the whole. -/
theorem statementWith_attaches : AllAttached s (statementWith nested) := by
  refine .skip fun token => .locatedAt ?_ token
  split
  · exact .skip fun _ => conditionalWith_attaches plain hn
  · exact .skip fun _ => whileLoop_attaches plain hn
  · exact .skip fun _ => forLoopWith_attaches plain hn
  · refine .of_closed (.skip fun _ => .skip fun value => .skip fun _ => .pure ⟨?_, rfl⟩)
    exact .over (Expr.allNearest_walkOption value) trivial
  · exact .of_closed (.skip fun _ => .skip fun _ => .pure ⟨.leaf trivial, rfl⟩)
  · exact .of_closed (.skip fun _ => .skip fun _ => .pure ⟨.leaf trivial, rfl⟩)
  · refine .of_closed (.bind (blockWith_allNearest hn) fun statements nearest => .pure ⟨?_, rfl⟩)
    exact Stmt.allNearest_block nearest
  · refine .of_closed (.skip fun _ => .pure ⟨?_, rfl⟩)
    exact Stmt.allNearest_block (List.forall_mem_nil _)
  · refine .of_closed (.passed (.unexpected _) fun _ => .skip fun value => .skip fun _ => ?_)
    exact .pure ⟨.over value.allNearest_walk trivial, rfl⟩

end

section

variable (plain : s.options.wrapBodies = false)
include plain

/-- **Behind an open statement stands no `else`**, at any depth of nesting. -/
theorem statementWithin_attaches (n : Nat) : AllAttached s (statementWithin n) := by
  induction n with
  | zero =>
      intro p st q read
      simp [statementWithin] at read
  | succ n ih => exact statementWith_attaches plain ih

theorem statement_attaches : AllAttached s statement :=
  fun p st q read => statementWithin_attaches plain _ p st q read

/-! ### Programs -/

theorem functionAfter_allNearest (sp : Specifier String) (d : Declarator) (ident : Token)
    (parameters : List (Declaration String)) :
    Yields s (functionAfter sp d ident parameters) fun f =>
      AllNearest ((TopLevel.function f).walk fun _ => true) := by
  have whole (f : Function String)
      (body : ∀ b ∈ f.body.toList, ∀ st ∈ b.statements, st.AllNearest) :
      AllNearest ((TopLevel.function f).walk fun _ => true) := by
    refine .over (.append (.append (.leaf trivial) ?_) ?_) trivial
    · exact .flatMap fun d _ => .leaf trivial
    · exact .flatMap fun b hb => .over (.flatMap (body b hb)) trivial
  refine .skip fun declaration => .skip fun brace => .ite (fun _ => .skip fun _ => ?_) fun _ => ?_
  · have block : Yields s block fun b => ∀ st ∈ b.statements, st.AllNearest :=
      .bind (blockWith_allNearest (statement_attaches plain)) fun _ nearest => .pure nearest
    refine .bind block fun b nearest => .pure (whole _ ?_)
    exact List.forall_mem_singleton.2 nearest
  · refine .skip fun semicolon => .skip fun _ => .skip fun o =>
      .required (fun _ => .pure ?_) (.fail _ _)
    exact whole _ (List.forall_mem_nil _)

theorem unit_allNearest :
    Yields s unit fun us => ∀ u ∈ us, AllNearest (u.walk fun _ => true) := by
  refine .skip fun struct => .ite (fun _ => ?_) fun _ => ?_
  · refine .skip fun u => .pure (List.forall_mem_singleton.2 (.over ?_ trivial))
    exact .flatMap fun d _ => .leaf trivial
  refine .skip fun start => .skip fun sp => .skip fun _ => .passed (.fail _ _) fun _ => ?_
  refine .skip fun d => ?_
  split
  · refine .bind (functionAfter_allNearest plain sp d _ _) fun f nearest => ?_
    exact .pure (List.forall_mem_singleton.2 nearest)
  · refine .skip fun first => .skip fun found => .skip fun _ => .pure ?_
    exact List.forall_mem_map.2 fun v _ => v.allNearest_walk

end

end Parser

/-- In every unit that was completed each `else` belongs to the nearest `if`, also in front of a
fault. -/
theorem unitsWithin_allNearest {s : Setting} (plain : s.options.wrapBodies = false) (n : Nat)
    (p : Progress) : ∀ u ∈ (unitsWithin s n p).completed, AllNearest (u.walk fun _ => true) := by
  induction n generalizing p with
  | zero => exact List.forall_mem_nil _
  | succ n ih =>
      unfold unitsWithin
      split
      · exact List.forall_mem_nil _
      split
      · exact List.forall_mem_nil _
      · rename_i us r read
        have units := Parser.unit_allNearest plain p us r (Parser.locatedAt_eq_ok_iff.1 read)
        exact List.forall_mem_append.2 ⟨units, ih r⟩

namespace Parser

variable {s : Setting} (plain : s.options.wrapBodies = false)
include plain

theorem program_allNearest :
    Yields s program fun tree => AllNearest (tree.walk fun _ => true) := by
  intro p tree q whole
  unfold program at whole
  dsimp only at whole
  split at whole
  · cases whole
    exact .over (.flatMap (unitsWithin_allNearest plain _ _)) trivial
  · cases whole

/-- A whole statement is a statement, or the declaration of a variable. -/
theorem wholeStatement_allNearest : Yields s wholeStatement Stmt.AllNearest := by
  refine .skip fun token => .ite (fun _ => .bind (P := Stmt.AllNearest) ?_ ?_) fun _ => ?_
  · refine .locatedAt (.skip fun vs => ?_) _
    split
    · exact .pure (Stmt.allNearest_declaration _)
    · exact .fail _ _
  · exact fun st nearest => .skip fun _ => .pure nearest
  · exact .bind (statement_attaches plain).yields fun st nearest => .skip fun _ => .pure nearest

end Parser

/-- **Each `else` belongs to the nearest `if` that can take it**, in every program and in every
whole statement that is read with bodies kept as they are written: the first branch of a conditional
with an `else` is never open, at any place in the tree. -/
theorem Reader.call_bindsNearest {file : String} {lines : List String} {options : Options}
    {tokens : List Token} {r : Reader} (opened : ofTokens file lines options tokens = some r)
    (plain : options.wrapBodies = false) :
    (∀ tree, (r.call Parser.program).1 = .ok tree →
      ∀ node ∈ (Node.program tree).walk fun _ => true, node.BindsNearest) ∧
    ∀ st, (r.call Parser.wholeStatement).1 = .ok st →
      ∀ node ∈ (Node.statement st).walk fun _ => true, node.BindsNearest := by
  obtain ⟨ending, found, rfl⟩ := Option.map_eq_some_iff.1 opened
  constructor
  · intro tree read
    obtain ⟨q, whole⟩ := call_eq_ok_iff.1 read
    exact Parser.program_allNearest plain _ tree q whole
  · intro st read
    obtain ⟨q, whole⟩ := call_eq_ok_iff.1 read
    exact Parser.wholeStatement_allNearest plain _ st q whole

/-- The tokens of `void f() { if (a) while (b) if (c) ; else ; }`, whose `else` belongs to the `if`
in the loop. -/
theorem Reader.call_bindsNearest_loop :
    let tokens : List Token := ([.keyword .void, .identifier "f", .punctuator .parenOpen,
      .punctuator .parenClose, .punctuator .braceOpen, .keyword .ifWord, .punctuator .parenOpen,
      .identifier "a", .punctuator .parenClose, .keyword .whileWord, .punctuator .parenOpen,
      .identifier "b", .punctuator .parenClose, .keyword .ifWord, .punctuator .parenOpen,
      .identifier "c", .punctuator .parenClose, .punctuator .semicolon, .keyword .elseWord,
      .punctuator .semicolon, .punctuator .braceClose, .ending] : List Lexeme).map (⟨·, 1, 1⟩)
    let tree : Program String := ⟨[.function {
      declaration := ⟨⟨false, false, [.void]⟩, .plain, some "f"⟩
      parameters := []
      body := some ⟨[.ifThen (.var "a") (.whileLoop (.var "b")
        (.ifElse (.var "c") (.block []) (.block [])))]⟩ }]⟩
    ∃ r, ofTokens "" [] { wrapBodies := false } tokens = some r ∧
      (r.call Parser.program).1 = .ok tree ∧
      ∀ node ∈ (Node.program tree).walk fun _ => true, node.BindsNearest := by
  intro tokens tree
  let r : Reader := ⟨⟨"", [], { wrapBodies := false }, ⟨.ending, 1, 1⟩⟩, ⟨tokens.dropLast, []⟩⟩
  have opened : ofTokens "" [] { wrapBodies := false } tokens = some r := rfl
  have same : (r.call Parser.program).1.toOption = some tree := by decide +kernel
  cases read : (r.call Parser.program).1 with
  | error stop =>
      rw [read] at same
      cases same
  | ok other =>
      rw [read] at same
      cases same
      exact ⟨r, opened, read, (Reader.call_bindsNearest opened rfl).1 tree read⟩

end PlainC
