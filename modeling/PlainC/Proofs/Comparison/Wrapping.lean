/-
**What keeping bodies in blocks does.**

One of the options has the body of every conditional and of every loop put in a block, unless it is
one already.  It is asked for at one place only, but what it changes is carried through blocks,
branches and loops up to the functions of a program.  Read with it, a program is the one that is
read without it, with every such body put in a block afterwards; all else is the same, faults and
names included.

Main definitions:

* `PlainC.Stmt.wrapped`, `PlainC.Program.wrapped` — every body in a block, at every depth;
* `PlainC.Stmt.bodiesInBlocks`, `PlainC.Program.bodiesInBlocks` — there is no other body;
* `PlainC.Recasting.wrapping` — what the option does.

Main results:

* `PlainC.Program.bodiesInBlocks_wrapped` — behind the wrapping there is no other body;
* `PlainC.Program.map_wrapped` — the wrapping does not look at names;
* `PlainC.NameTable.program?_wrapBodies` — **to read with the option is to wrap what is read
  without it**.
-/

import PlainC.Proofs.Comparison.Retelling
import PlainC.Proofs.Spelling.Program

set_option relaxedAutoImplicit false
set_option autoImplicit false

namespace PlainC

variable {ν μ : Type}

/-! ### Every body in a block -/

mutual

/-- The statement with every body of a conditional or a loop in it put in a block, unless it is one
already. -/
def Stmt.wrapped : Stmt ν → Stmt ν
  | .blank => .blank
  | .expression value => .expression value
  | .declaration v => .declaration v
  | .ifThen test thenBranch => .ifThen test (Parser.asBlock thenBranch.wrapped)
  | .ifElse test thenBranch elseBranch =>
      .ifElse test (Parser.asBlock thenBranch.wrapped) (Parser.asBlock elseBranch.wrapped)
  | .whileLoop test body => .whileLoop test (Parser.asBlock body.wrapped)
  | .forLoop first test step body => .forLoop first test step (Parser.asBlock body.wrapped)
  | .breakLoop => .breakLoop
  | .continueLoop => .continueLoop
  | .returnWith value => .returnWith value
  | .block statements => .block (Stmt.wrappedAll statements)

/-- The statements with every body in them put in a block. -/
def Stmt.wrappedAll : List (Stmt ν) → List (Stmt ν)
  | [] => []
  | s :: ss => s.wrapped :: Stmt.wrappedAll ss

end

mutual

/-- Whether every body of a conditional or a loop in a statement is a block. -/
def Stmt.bodiesInBlocks : Stmt ν → Bool
  | .ifThen _ thenBranch => thenBranch.isBlock && thenBranch.bodiesInBlocks
  | .ifElse _ thenBranch elseBranch =>
      thenBranch.isBlock && thenBranch.bodiesInBlocks && elseBranch.isBlock
        && elseBranch.bodiesInBlocks
  | .whileLoop _ body | .forLoop _ _ _ body => body.isBlock && body.bodiesInBlocks
  | .block statements => Stmt.allInBlocks statements
  | .blank | .expression _ | .declaration _ | .breakLoop | .continueLoop | .returnWith _ => true

/-- Whether every body in some statements is a block. -/
def Stmt.allInBlocks : List (Stmt ν) → Bool
  | [] => true
  | s :: ss => s.bodiesInBlocks && Stmt.allInBlocks ss

end

/-- The program with every body of a conditional or a loop in it put in a block, unless it is one
already. -/
def Program.wrapped (p : Program ν) : Program ν := p.mapStmts Stmt.wrapped

/-- Whether every body of a conditional or a loop in a program is a block. -/
def Program.bodiesInBlocks (p : Program ν) : Bool :=
  p.functions.all fun f => f.body.all fun b => b.statements.all Stmt.bodiesInBlocks

namespace Stmt

theorem wrappedAll_eq_map (ss : List (Stmt ν)) : wrappedAll ss = ss.map wrapped := by
  induction ss with
  | nil => rfl
  | cons s ss ih => rw [wrappedAll, ih, List.map_cons]

theorem allInBlocks_eq_all (ss : List (Stmt ν)) : allInBlocks ss = ss.all bodiesInBlocks := by
  induction ss with
  | nil => rfl
  | cons s ss ih => rw [allInBlocks, ih, List.all_cons]

/-! ### One body -/

theorem isBlock_asBlock (s : Stmt ν) : (Parser.asBlock s).isBlock = true := by
  cases s <;> rfl

theorem bodiesInBlocks_asBlock (s : Stmt ν) :
    (Parser.asBlock s).bodiesInBlocks = s.bodiesInBlocks := by
  cases s <;> simp [Parser.asBlock, bodiesInBlocks, allInBlocks]

theorem asBlock_asBlock (s : Stmt ν) : Parser.asBlock (Parser.asBlock s) = Parser.asBlock s := by
  cases s <;> rfl

theorem wrapped_asBlock (s : Stmt ν) :
    (Parser.asBlock s).wrapped = Parser.asBlock s.wrapped := by
  cases s <;> rfl

/-! ### Whole statements -/

/-- Behind the wrapping every body is a block. -/
theorem bodiesInBlocks_wrapped (s : Stmt ν) : s.wrapped.bodiesInBlocks = true := by
  induction s using induct with
  | block statements ih =>
      rw [wrapped, bodiesInBlocks, allInBlocks_eq_all, wrappedAll_eq_map, List.all_eq_true]
      intro s hs
      obtain ⟨s, member, rfl⟩ := List.mem_map.1 hs
      exact ih s member
  | _ => simp_all [wrapped, bodiesInBlocks, isBlock_asBlock, bodiesInBlocks_asBlock]

/-- The wrapping does not look at names. -/
theorem map_wrapped (f : ν → μ) (s : Stmt ν) : s.wrapped.map f = (s.map f).wrapped := by
  induction s using induct with
  | block statements ih =>
      simp only [wrapped, map, wrappedAll_eq_map, mapAll_eq_map, List.map_map, block.injEq]
      exact List.map_congr_left ih
  | _ => simp_all [wrapped, map, map_asBlock]

end Stmt

/-! ### Programs -/

/-- Behind the wrapping every body is a block. -/
theorem Program.bodiesInBlocks_wrapped (p : Program ν) : p.wrapped.bodiesInBlocks = true := by
  rw [bodiesInBlocks, List.all_eq_true]
  intro f hf
  rw [Option.all_eq_true]
  intro b hb
  obtain ⟨u, member, unit⟩ := List.mem_filterMap.1 hf
  obtain ⟨u, -, rfl⟩ := List.mem_map.1 member
  cases u with
  | function g =>
      cases unit
      obtain ⟨b, -, rfl⟩ := Option.map_eq_some_iff.1 hb
      simp [Block.mapStmts, Stmt.bodiesInBlocks_wrapped]
  | blank | var | struct => cases unit

/-- The wrapping does not look at names. -/
theorem Program.map_wrapped (f : ν → μ) (p : Program ν) : p.wrapped.map f = (p.map f).wrapped := by
  have units (u : TopLevel ν) :
      (u.mapStmts Stmt.wrapped).map f = (u.map f).mapStmts Stmt.wrapped := by
    cases u with
    | function g =>
        rcases g with ⟨declaration, parameters, variadic, _ | ⟨statements⟩⟩
        · rfl
        · simp [TopLevel.mapStmts, TopLevel.map, Function.mapStmts, Function.map, Block.mapStmts,
            Block.map, Stmt.map_wrapped]
    | blank | var | struct => rfl
  simp [wrapped, mapStmts, map, units]

/-- What the option to put bodies in blocks does. -/
def Recasting.wrapping : Recasting where
  options o := { o with wrapBodies := true }
  stmt := Stmt.wrapped
  body s := Parser.asBlock s.wrapped
  allowPrototypes _ := rfl
  allowEmptyStructs _ := rfl
  kept o s := by
    rw [if_pos rfl]
    split
    · rw [Stmt.wrapped_asBlock, Stmt.asBlock_asBlock]
    · rfl
  expression _ := rfl
  declaration _ := rfl
  ifThen _ _ := rfl
  ifElse _ _ _ := rfl
  whileLoop _ _ := rfl
  forLoop _ _ _ _ := rfl
  breakLoop := rfl
  continueLoop := rfl
  returnWith _ := rfl
  block statements := by rw [Stmt.wrapped, Stmt.wrappedAll_eq_map]

/-- **To read with the option is to wrap what is read without it**: the faults and the table are the
same, and a program differs only in that every body is put in a block. -/
theorem NameTable.program?_wrapBodies (t : NameTable) (file : String) (lines : List String)
    (o : Options) (tokens : List Token) :
    t.program? file lines { o with wrapBodies := true } tokens =
        (t.program? file lines { o with wrapBodies := false } tokens).map
          (fun (t', result) => (t', result.map Program.wrapped)) ∧
      ∀ t' P, t.program? file lines { o with wrapBodies := true } tokens = some (t', .ok P) →
        P.bodiesInBlocks := by
  have run (ending : Token) (p : Progress) :
      Parser.program ⟨file, lines, { o with wrapBodies := true }, ending⟩ p =
        Parser.retell Program.wrapped []
          (Parser.program ⟨file, lines, { o with wrapBodies := false }, ending⟩ p) :=
    Parser.program_retells .wrapping ⟨file, lines, { o with wrapBodies := false }, ending⟩ [] p
  have same : t.program? file lines { o with wrapBodies := true } tokens =
      (t.program? file lines { o with wrapBodies := false } tokens).map
        (fun (t', result) => (t', result.map Program.wrapped)) := by
    unfold program? Reader.ofTokens
    rw [Option.map_map, Option.map_map, Option.map_map]
    congr 1
    funext ending
    simp only [Function.comp_apply, Reader.call, run]
    -- both runs meet the same names, so the tables are the same whether they succeed or not
    cases Parser.program ⟨file, lines, { o with wrapBodies := false }, ending⟩ _ with
    | ok P q => exact congrArg (fun P' => (_, Except.ok P')) (P.map_wrapped _)
    | error stop q => rfl
  refine ⟨same, fun t' P read => ?_⟩
  rw [same] at read
  obtain ⟨⟨_, result⟩, -, found⟩ := Option.map_eq_some_iff.1 read
  cases result with
  | ok P' =>
      cases found
      exact Program.bodiesInBlocks_wrapped P'
  | error stop => cases found

/-- The tokens of `void f() { while (x) break; }`. -/
theorem NameTable.program?_wrapBodies_while :
    let tokens := ([.keyword .void, .identifier "f", .punctuator .parenOpen,
      .punctuator .parenClose, .punctuator .braceOpen, .keyword .whileWord, .punctuator .parenOpen,
      .identifier "x", .punctuator .parenClose, .keyword .breakWord, .punctuator .semicolon,
      .punctuator .braceClose, .ending] : List Lexeme).map (⟨·, 1, 1⟩)
    let program (body : Stmt Symbol) : Program Symbol :=
      ⟨[.function {
        declaration := ⟨⟨false, false, [.void]⟩, .plain, some ⟨0, 0, "f"⟩⟩
        body := some ⟨[.whileLoop (.var ⟨0, 1, "x"⟩) body]⟩ }]⟩
    (NameTable.empty 0).program? "" [] { wrapBodies := false } tokens =
        some (⟨0, ["f", "x"]⟩, .ok (program .breakLoop)) ∧
      (NameTable.empty 0).program? "" [] { wrapBodies := true } tokens =
        some (⟨0, ["f", "x"]⟩, .ok (program (.block [.breakLoop]))) ∧
      (program .breakLoop).bodiesInBlocks = false ∧
      (program (.block [.breakLoop])).bodiesInBlocks = true := by
  intro tokens program
  have bare : (NameTable.empty 0).program? "" [] { wrapBodies := false } tokens =
      some (⟨0, ["f", "x"]⟩, .ok (program .breakLoop)) := by decide +kernel
  obtain ⟨same, inBlocks⟩ := (NameTable.empty 0).program?_wrapBodies "" [] {} tokens
  have wrapped : (NameTable.empty 0).program? "" [] { wrapBodies := true } tokens =
      some (⟨0, ["f", "x"]⟩, .ok (program (.block [.breakLoop]))) :=
    same.trans (by rw [bare]; rfl)
  exact ⟨bare, wrapped, rfl, inBlocks _ _ wrapped⟩

end PlainC
