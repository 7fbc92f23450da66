/-
**Every program that is read is sound.**

The rules for statements and units put together what the rules for declarations and expressions
give, and add checks of their own: a variable at the outermost level has the name that every
declarator there has, the members of a struct are not static, and the parameters of a function are
looked through in front of its body.  So every tree in a program that is read is sound, whatever the
options are.

Main results:

* `PlainC.Parser.expression_yields` — an expression that is read can be read back;
* `PlainC.Parser.statementWith_yields` — a statement is sound in every part if the statements that
  are read inside it are;
* `PlainC.Parser.functionAfter_yields`, `PlainC.Parser.structDefinition_yields` — functions and
  structs;
* `PlainC.Reader.call_program_sound` — **every tree met on the walk over a program that was read is
  sound**.
-/

import PlainC.Proofs.Expression.Grouping
import PlainC.Proofs.Soundness.Nodes
import PlainC.Tree.Equality
import PlainC.Tree.Parser.Program

set_option relaxedAutoImplicit false
set_option autoImplicit false

namespace PlainC

open Node (allSound_append allSound_flatMap allSound_over)

namespace Parser

variable {s : Setting} (hs : s.Closed)

/-! ### Declarations -/

/-- A declaration is made up of its specifier and its declarator. -/
theorem declarationOf_yields {sp : Specifier String} (spelled : sp.hasSpelling) (d : Declarator) :
    Yields s (declarationOf sp d) fun declaration =>
      declaration.hasSpelling ∧ declaration.specifier = sp ∧ declaration.name = d.name ∧
        d.layers = declaration.shape.layers.map Layer.toInt := by
  refine .bind (shapeOf_yields _) fun shape ⟨layers, known⟩ => ?_
  have declared := Declaration.hasSpelling_of_isKnown spelled known d.name
  split
  · exact .skip fun _ => .pure ⟨declared, rfl, rfl, layers⟩
  · exact .pure ⟨declared, rfl, rfl, layers⟩

include hs

/-! ### Expressions and variables -/

/-- An expression that is read can be written, and needs no further parentheses. -/
theorem expression_yields : Yields s expression fun e => e.isReadable := by
  intro p e q h
  have read := (expression_eq_ok_iff hs).1 h
  rw [Expr.isReadable, read.hasSpelling rfl, (read.groups (by decide)).1]
  rfl

theorem variableAfter_yields {sp : Specifier String} (spelled : sp.hasSpelling) {d : Declarator}
    (named : d.name.isSome) : Yields s (variableAfter sp d) fun v => v.isReadable := by
  refine .bind (declarationOf_yields spelled d) fun declaration ⟨declared, _, name, _⟩ => ?_
  have readable : declaration.isReadable := by
    rw [Declaration.isReadable, declared, name, named]
    rfl
  refine .skip fun assigned => .ite (fun _ => .skip fun token => ?_) fun _ => .pure ?_
  · refine .passed (.fail _ _) fun _ => .bind (expression_yields hs) fun e he => .pure ?_
    rw [Variable.isReadable, readable]
    exact he
  · rw [Variable.isReadable, readable]
    rfl

theorem variableOf_yields {sp : Specifier String} (spelled : sp.hasSpelling) :
    Yields s (variableOf sp) fun v => v.isReadable :=
  .bind declarator_yields fun _ fits => variableAfter_yields hs spelled fits.named

theorem localVariables_yields : Yields s localVariables fun vs => ∀ v ∈ vs, v.isReadable := by
  refine .bind specifier_yields fun sp spelled => ?_
  refine .bind (.commaSeparated (variableOf_yields hs spelled)) fun vs readable => ?_
  exact .skip fun _ => .pure readable

/-! ### Statements -/

theorem condition_yields : Yields s condition fun e => e.isReadable :=
  .skip fun _ => .bind (expression_yields hs) fun _ readable => .skip fun _ => .pure readable

theorem expressionBefore_yields (m : Punctuator) :
    Yields s (expressionBefore m) fun e => Expr.optionIsReadable e :=
  .skip fun _ => .ite (fun _ => .pure rfl) fun _ =>
    .bind (expression_yields hs) fun _ readable => .pure readable

theorem loopVariable_yields : Yields s loopVariable fun v => Variable.optionIsReadable v := by
  refine .skip fun _ => .ite (fun _ => .pure rfl) fun _ => .skip fun token => ?_
  refine .required (fun _ => .bind specifier_yields fun sp spelled => ?_) (.fail _ _)
  refine .bind (variableOf_yields hs spelled) fun v readable => .skip fun next => ?_
  exact .passed (.fail _ _) fun _ => .pure readable

section

variable {nested : Parser (Stmt String)} (hn : Yields s nested Stmt.AllSound)
include hn

omit hs in
theorem bodyWith_yields : Yields s (bodyWith nested) Stmt.AllSound := by
  refine .bind hn fun body sound => .skip fun o => .pure ?_
  split
  · unfold asBlock
    split
    · exact sound
    · exact Stmt.allSound_block (List.forall_mem_singleton.2 sound)
  · exact sound

theorem blockItem_yields {statements : List (Stmt String)} (kept : ∀ st ∈ statements, st.AllSound) :
    Yields s (blockItem nested statements) (TurnHas fun statements =>
      ∀ st ∈ statements, st.AllSound) := by
  refine .skip fun token => .skip fun _ => .ite (fun _ => .pure kept) fun _ => ?_
  refine .locatedAt (.ite (fun _ => ?_) fun _ => .skip fun _ => .ite (fun _ => .pure kept) ?_) _
  · refine .bind (localVariables_yields hs) fun vs readable => .pure ?_
    refine List.forall_mem_append.2 ⟨kept, List.forall_mem_map.2 fun v hv => ?_⟩
    exact allSound_over NodeKind.noConfusion (Variable.allSound_walk (readable v hv))
  · refine fun _ => .bind hn fun st sound => .pure ?_
    exact List.forall_mem_append.2 ⟨kept, List.forall_mem_singleton.2 sound⟩

theorem blockWith_yields :
    Yields s (blockWith nested) fun statements => ∀ st ∈ statements, st.AllSound := by
  refine .skip fun _ => .bind (.loop (fun _ => blockItem_yields hs hn) (List.forall_mem_nil _)) ?_
  exact fun statements sound => .skip fun _ => .pure sound

theorem conditionalWith_yields : Yields s (conditionalWith nested) Stmt.AllSound := by
  refine .bind (condition_yields hs) fun test readable => ?_
  refine .bind (bodyWith_yields hn) fun thenBranch sound => .skip fun _ => .ite (fun _ => ?_) ?_
  · refine .bind (bodyWith_yields hn) fun elseBranch soundElse => .pure ?_
    refine allSound_over NodeKind.noConfusion (allSound_append ?_ soundElse)
    exact allSound_append (Expr.allSound_walk readable) sound
  · refine fun _ => .pure (allSound_over NodeKind.noConfusion ?_)
    exact allSound_append (Expr.allSound_walk readable) sound

theorem forLoopWith_yields : Yields s (forLoopWith nested) Stmt.AllSound := by
  refine .skip fun _ => .bind (loopVariable_yields hs) fun first declared => ?_
  refine .skip fun _ => .bind (expressionBefore_yields hs _) fun test readable => ?_
  refine .skip fun _ => .bind (expressionBefore_yields hs _) fun step readableStep => ?_
  refine .skip fun _ => .bind (bodyWith_yields hn) fun body sound => .pure ?_
  refine allSound_over NodeKind.noConfusion (allSound_append (allSound_append ?_ ?_) sound)
  · exact allSound_append (Variable.allSound_walkOption declared)
      (Expr.allSound_walkOption readable)
  · exact Expr.allSound_walkOption readableStep

/-- A statement is sound in every part if the statements that are read inside it are. -/
theorem statementWith_yields : Yields s (statementWith nested) Stmt.AllSound := by
  refine .skip fun token => .locatedAt ?_ _
  split
  · exact .skip fun _ => conditionalWith_yields hs hn
  · refine .skip fun _ => .bind (condition_yields hs) fun test readable => ?_
    refine .bind (bodyWith_yields hn) fun body sound => .pure ?_
    exact allSound_over NodeKind.noConfusion (allSound_append (Expr.allSound_walk readable) sound)
  · exact .skip fun _ => forLoopWith_yields hs hn
  · refine .skip fun _ => .bind (expressionBefore_yields hs _) fun value readable => ?_
    refine .skip fun _ => .pure (allSound_over NodeKind.noConfusion ?_)
    exact Expr.allSound_walkOption readable
  · exact .skip fun _ => .skip fun _ => .pure (List.forall_mem_singleton.2 NodeKind.noConfusion)
  · exact .skip fun _ => .skip fun _ => .pure (List.forall_mem_singleton.2 NodeKind.noConfusion)
  · exact .bind (blockWith_yields hs hn) fun statements sound => .pure (Stmt.allSound_block sound)
  · exact .skip fun _ => .pure (Stmt.allSound_block (List.forall_mem_nil _))
  · refine .passed (.unexpected _) fun _ => .bind (expression_yields hs) fun e readable => ?_
    refine .skip fun _ => .pure (allSound_over NodeKind.noConfusion ?_)
    exact Expr.allSound_walk readable

end

theorem block_yields : Yields s block fun b => ∀ st ∈ b.statements, st.AllSound := by
  have all (n : Nat) : Yields s (statementWithin n) Stmt.AllSound := by
    induction n with
    | zero => exact .exhausted
    | succ n ih => exact statementWith_yields hs ih
  exact .bind (blockWith_yields hs (.budgeted all)) fun statements sound => .pure sound

/-! ### Units -/

/-- What holds of the members of a struct. -/
def MembersFit (members : List (Declaration String)) : Prop :=
  ∀ d ∈ members, d.hasSpelling ∧ d.name.isSome ∧ d.specifier.isStatic = false

omit hs in
theorem structMembers_yields (struct : String) {members : List (Declaration String)}
    (kept : MembersFit members) :
    Yields s (structMembers struct members) (TurnHas MembersFit) := by
  refine .skip fun start => .skip fun _ => .ite (fun _ => .pure kept) fun _ => ?_
  refine .bind specifier_yields fun sp spelled => .passed (.fail _ _) fun automatic => ?_
  have member : Yields s (do declarationOf sp (← declarator false)) fun d =>
      d.hasSpelling ∧ d.name.isSome ∧ d.specifier.isStatic = false := by
    refine .bind declarator_yields fun d fits => (declarationOf_yields spelled d).mono ?_
    rintro declaration ⟨declared, rfl, name, -⟩
    exact ⟨declared, name ▸ fits.named, Bool.eq_false_iff.2 automatic⟩
  refine .bind (.commaSeparated member) fun more fit => .skip fun _ => .pure ?_
  exact List.forall_mem_append.2 ⟨kept, fit⟩

omit hs in
theorem structDefinition_yields : Yields s structDefinition fun u => MembersFit u.members := by
  refine .skip fun start => .skip fun _ => .skip fun name => .skip fun _ => ?_
  refine .bind (.loop (fun _ => structMembers_yields name) (List.forall_mem_nil _)) ?_
  intro members fit
  -- a declarator behind the brace stops the reading; any other token is left to the semicolon
  have last : Yields s (do
      expectAs .semicolon "';' after struct definition"
      if members.isEmpty && !(← options).allowEmptyStructs then
        fail (.unsupported .emptyStruct) start
      note name
      return ⟨name, members⟩) fun u : Struct String => MembersFit u.members :=
    .skip fun _ => .skip fun _ => .passed (.fail _ _) fun _ => .skip fun _ => .pure fit
  refine .skip fun _ => .skip fun token => ?_
  split
  · exact .bind (.fail _ _) fun _ => False.elim
  · exact .bind (.fail _ _) fun _ => False.elim
  · exact last

omit hs in
/-- Behind the check of the parameters every one of them has a name. -/
theorem namedParameters_yields (ident : Token) (parameters : List (Declaration String)) :
    Yields s (namedParameters ident parameters) fun _ => ∀ d ∈ parameters, d.name.isSome := by
  unfold namedParameters
  split
  · exact .fail _ _
  · rename_i found
    refine .pure fun d hd => ?_
    have named := List.findIdx?_eq_none_iff.1 found d hd
    rwa [Declaration.isAbstract, Option.isNone_eq_false_iff] at named

theorem functionAfter_yields {sp : Specifier String} (spelled : sp.hasSpelling) {d : Declarator}
    (fits : DeclaratorFits d) (ident : Token) {parameters : List (Declaration String)}
    (function : d.parameters = some parameters) :
    Yields s (functionAfter sp d ident parameters) fun f =>
      Node.AllSound ((TopLevel.function f).walk fun _ => true) := by
  obtain ⟨spelledAll, noMark⟩ := fits.parameters parameters function
  refine .bind (declarationOf_yields spelled d) fun declaration ⟨declared, _, name, layers⟩ => ?_
  have named : declaration.name.isSome := name ▸ fits.named
  have pointers : ∀ layer ∈ declaration.shape.layers, layer.kind = .pointer := by
    intro layer member
    refine fits.pointers (by rw [function]; rfl) layer.toInt ?_
    rw [layers]
    exact List.mem_map_of_mem member
  refine .skip fun brace => .ite (fun _ => ?_) fun _ => ?_
  · refine .bind (namedParameters_yields ident parameters) fun _ all => ?_
    refine .bind (block_yields hs) fun b sound => .pure ?_
    refine TopLevel.allSound_walk_function ⟨named, pointers, rfl, noMark, fun _ => all⟩ declared
      spelledAll ?_
    rintro _ ⟨⟩
    exact sound
  · refine .skip fun semicolon => .skip fun _ => .skip fun o =>
      .required (fun _ => .pure ?_) (.fail _ _)
    refine TopLevel.allSound_walk_function ⟨named, pointers, rfl, noMark, ?_⟩ declared spelledAll ?_
    · intro body
      cases body
    · rintro _ ⟨⟩

/-- **Every unit that is read is sound in every part.** -/
theorem unit_yields : Yields s unit fun us => ∀ u ∈ us, Node.AllSound (u.walk fun _ => true) := by
  refine .skip fun struct => .ite (fun _ => ?_) fun _ => ?_
  · refine .bind structDefinition_yields fun u fit => .pure (List.forall_mem_singleton.2 ?_)
    refine TopLevel.allSound_walk_struct ⟨fun d hd => ?_, fun d hd => ?_⟩ fun d hd => (fit d hd).1
    · exact (fit d hd).2.1
    · exact (fit d hd).2.2
  refine .skip fun start => .bind specifier_yields fun sp spelled => .skip fun _ => ?_
  refine .passed (.fail _ _) fun _ => .bind (topDeclarator_yields hs) fun d fits => ?_
  split
  · rename_i ident parameters found
    have function : d.parameters = some parameters := congrArg Prod.snd found
    refine .bind (functionAfter_yields hs spelled fits ident function) fun f sound => ?_
    exact .pure (List.forall_mem_singleton.2 sound)
  · refine .bind (variableAfter_yields hs spelled fits.named) fun first readable => ?_
    refine .bind (.moreAfterCommas (variableOf_yields hs spelled)
      (List.forall_mem_singleton.2 readable)) fun found all => .skip fun _ => .pure ?_
    exact List.forall_mem_map.2 fun v hv => Variable.allSound_walk (all v hv)

end Parser

/-- Every unit that was completed is sound in every part, also in front of a fault. -/
theorem unitsWithin_sound {s : Setting} (hs : s.Closed) (n : Nat) (p : Progress) :
    ∀ u ∈ (unitsWithin s n p).completed, Node.AllSound (u.walk fun _ => true) := by
  induction n generalizing p with
  | zero => exact List.forall_mem_nil _
  | succ n ih =>
      unfold unitsWithin
      split
      · exact List.forall_mem_nil _
      split
      · exact List.forall_mem_nil _
      · rename_i us r read
        have units := Parser.unit_yields hs p us r (Parser.locatedAt_eq_ok_iff.1 read)
        exact List.forall_mem_append.2 ⟨units, ih r⟩

theorem Parser.program_yields {s : Setting} (hs : s.Closed) :
    Yields s program fun tree => Node.AllSound (tree.walk fun _ => true) := by
  intro p tree q whole
  unfold program at whole
  dsimp only at whole
  split at whole
  · cases whole
    exact allSound_over trivial (allSound_flatMap (unitsWithin_sound hs _ _))
  · cases whole

/-- **Every program that is read is sound**, whatever the options are: every tree that is met on the
walk over it is what later work relies on. -/
theorem Reader.call_program_sound {file : String} {lines : List String} {options : Options}
    {tokens : List Token} {r : Reader} (opened : ofTokens file lines options tokens = some r)
    {tree : Program String} (read : (r.call Parser.program).1 = .ok tree) :
    ∀ node ∈ (Node.program tree).walk fun _ => true, node.IsSound := by
  obtain ⟨ending, found, rfl⟩ := Option.map_eq_some_iff.1 opened
  have closed : Setting.Closed ⟨file, lines, options, ending⟩ := by
    simpa [Setting.Closed, isEnding] using List.find?_some found
  obtain ⟨q, whole⟩ := call_eq_ok_iff.1 read
  exact Parser.program_yields closed _ tree q whole

/-- The tokens of `int *f(int a, char b[2]) { return -a + b[0] * 2; }`. -/
theorem Reader.call_program_sound_function :
    let tokens : List Token := ([.keyword .int, .punctuator .star, .identifier "f",
      .punctuator .parenOpen, .keyword .int, .identifier "a", .punctuator .comma, .keyword .char,
      .identifier "b", .punctuator .bracketOpen, .number 2, .punctuator .bracketClose,
      .punctuator .parenClose, .punctuator .braceOpen, .keyword .returnWord, .punctuator .minus,
      .identifier "a", .punctuator .plus, .identifier "b", .punctuator .bracketOpen, .number 0,
      .punctuator .bracketClose, .punctuator .star, .number 2, .punctuator .semicolon,
      .punctuator .braceClose, .ending] : List Lexeme).map (⟨·, 1, 1⟩)
    let tree : Program String := ⟨[.function {
      declaration := ⟨⟨false, false, [.int]⟩, .pointer .plain, some "f"⟩
      parameters := [⟨⟨false, false, [.int]⟩, .plain, some "a"⟩,
        ⟨⟨false, false, [.char]⟩, .array .plain (some 2), some "b"⟩]
      body := some ⟨[.returnWith (some (.binary (.binary .add) (.unary .negate (.var "a"))
        (.binary (.binary .multiply) (.index (.var "b") (.literal (.int 0)))
          (.literal (.int 2)))))]⟩ }]⟩
    ∃ r, ofTokens "" [] {} tokens = some r ∧ (r.call Parser.program).1 = .ok tree ∧
      ∀ node ∈ (Node.program tree).walk fun _ => true, node.IsSound := by
  intro tokens tree
  let r : Reader := ⟨⟨"", [], {}, ⟨.ending, 1, 1⟩⟩, ⟨tokens.dropLast, []⟩⟩
  have opened : ofTokens "" [] {} tokens = some r := rfl
  have same : (r.call Parser.program).1.toOption = some tree := by decide +kernel
  cases read : (r.call Parser.program).1 with
  | error stop =>
      rw [read] at same
      cases same
  | ok other =>
      rw [read] at same
      cases same
      exact ⟨r, opened, read, Reader.call_program_sound opened read⟩

end PlainC
