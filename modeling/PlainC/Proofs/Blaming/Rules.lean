/-
**The rules put their faults at tokens that were looked at.**

The rules for declarations, expressions, statements and units are gone through one by one.  Most of
them report a fault at the token where they begin or at the one that they stop at.  A declarator
hands its identifier on, since it is only behind the declarator that a name is found to be out of
place, or the parameters behind it to lack theirs.

Main results:

* `PlainC.Parser.declarator_blames` — a declarator has seen the identifier that it hands on;
* `PlainC.Parser.expression_blames`, `PlainC.Parser.statement_blames` — expressions and statements;
* `PlainC.Parser.unitsWithin_blames` — **the units of a source put every fault at a token**.
-/

import PlainC.Proofs.Blaming.Blame
import PlainC.Proofs.Parsing.Advance
import PlainC.Tree.Parser.Program

set_option relaxedAutoImplicit false
set_option autoImplicit false

namespace PlainC.Parser

variable {s : Setting} {row known : List Token}

/-! ### Specifiers -/

theorem specifierWord_blames (sp : Specifier String) :
    Blames s row known (specifierWord sp) noTokens := by
  refine .current fun token => ?_
  split
  · exact .bind .advance fun _ => .done
  · exact .bind .advance fun _ => .done
  · refine .bind .advance fun _ => .bind (.identifier _) fun name => .nextIs _ fun brace => ?_
    exact .checked (.fail _ (by simp)) (.bind (.note _) fun _ => .done)
  · split
    · exact .bind .advance fun _ => .done
    · exact .done

theorem specifier_blames : Blames s row known specifier noTokens := by
  refine .current fun start => .bind (.loopPlain specifierWord_blames _) fun sp => ?_
  refine .checked (.missing _) (.bind (.locatedAt (.ofExcept _) ?_) fun _ => .done)
  exact List.mem_cons_self ..

/-! ### Declarators -/

/-- The identifier of a declarator. -/
def identToken (d : Declarator) : List Token := d.ident.toList

theorem shapeOf_blames (layers : List (Layer Int)) :
    Blames s row known (shapeOf layers) noTokens :=
  .ofExcept _

theorem pointers_blames : Blames s row known pointers noTokens := by
  refine .loopPlain (fun layers => .bind (.accept _) fun more => .ite ?_ .done) _
  exact .current fun token => .checked (.fail _ (by simp)) .done

theorem arraySuffix_blames : Blames s row known arraySuffix noTokens := by
  refine .bind (.accept _) fun more => .ite .done (.current fun token => ?_)
  split
  · exact .bind .advance fun _ => .bind (.expect _) fun _ => .done
  · exact .fail _ (by simp)

/-- What stands behind the core of a declarator leaves its identifier as it is. -/
theorem declaratorSuffix_blames {list : Option (Parser (List (Declaration String)))}
    (hl : ∀ x ∈ list, ∀ known, Blames s row known x noTokens) (inParentheses : Bool)
    (d : Declarator) :
    Blames s row (identToken d ++ known) (declaratorSuffix list inParentheses d)
      (Blames.turnMarks identToken) := by
  refine .current fun token => ?_
  have kept : identToken d ⊆ token :: (identToken d ++ known) :=
    List.subset_cons_of_subset token (List.subset_append_left ..)
  refine .bind (.accept _) fun array => .ite ?_ ?_
  · exact .checked (.fail _ (by simp)) (.bind arraySuffix_blames fun _ => .pure kept)
  refine .nextIs _ fun paren => .ite (.checked (.fail _ (by simp)) ?_) (.pure kept)
  cases list with
  | some x =>
      refine .checked (.fail _ (by simp)) (.bind .advance fun _ => ?_)
      exact .bind (hl x rfl _) fun _ => .pure kept
  | none => exact .fail _ (by simp)

section

variable {nested : Parser Declarator} (hn : ∀ known, Blames s row known nested identToken)
include hn

/-- The identifier of a declarator is the token in front of it, or that of the one in
parentheses. -/
theorem declaratorCore_blames (nameless : Bool) :
    Blames s row known (declaratorCore nested nameless) fun core => identToken core.1 := by
  refine .current fun token => ?_
  split
  · exact .bind .advance fun _ => .pure (List.cons_subset_cons token (List.nil_subset known))
  · refine .ahead _ fun second => .ite ?_ ?_
    · refine .bind .advance fun _ => .bindHanding (hn _) fun inner => .bind (.expect _) fun _ => ?_
      exact .pure (List.subset_append_left ..)
    · exact .required (.pure (List.nil_subset _)) (.missing _)

theorem declaratorWith_blames {list : Option (Parser (List (Declaration String)))}
    (hl : ∀ x ∈ list, ∀ known, Blames s row known x noTokens) (nameless : Bool) :
    Blames s row known (declaratorWith nested list nameless) identToken := by
  refine .bind pointers_blames fun outer => ?_
  refine .bindHanding (declaratorCore_blames hn nameless) fun core => ?_
  have suffixes : Blames s row (identToken core.1 ++ known)
      (loop (declaratorSuffix list core.2) core.1) identToken :=
    .loop (fun d => declaratorSuffix_blames hl core.2 d) (List.subset_append_left ..)
  exact .bindHanding suffixes fun d => .pure (List.subset_append_left ..)

end

theorem declaratorWithin_blames (nameless : Bool) (n : Nat) (known : List Token) :
    Blames s row known (declaratorWithin nameless n) identToken := by
  induction n generalizing known with
  | zero => exact .exhausted
  | succ n ih => exact declaratorWith_blames ih (fun _ none => absurd none (by simp)) nameless

/-- A declarator has seen the identifier that it hands on. -/
theorem declarator_blames (nameless : Bool) :
    Blames s row known (declarator nameless) identToken :=
  .budgeted fun n => declaratorWithin_blames nameless n known

/-! ### Parameters -/

theorem parameter_blames : Blames s row known parameter noTokens := by
  refine .bind specifier_blames fun sp => .bind (declarator_blames true).forget fun d => ?_
  split
  · exact .bind (.note _) fun _ => .bind (shapeOf_blames _) fun _ => .done
  · exact .bind (shapeOf_blames _) fun _ => .done

theorem parameterList_blames : Blames s row known parameterList noTokens := by
  refine .bind (.accept _) fun closed => .ite .done (.current fun token => ?_)
  refine .ahead _ fun second => .ite ?_ ?_
  · exact .bind .advance fun _ => .bind .advance fun _ => .done
  · refine .bind (.commaSeparated ?_) fun ds => .bind (.expect _) fun _ => .done
    exact .current fun token => .checked (.fail _ (by simp)) parameter_blames

theorem topDeclarator_blames : Blames s row known topDeclarator identToken := by
  refine declaratorWith_blames (fun _ => declarator_blames false) ?_ false
  rintro _ ⟨⟩ known
  exact parameterList_blames

/-! ### Expressions -/

theorem memberName_blames : Blames s row known memberName noTokens :=
  .bind (.identifier _) fun _ => .bind (.note _) fun _ => .done

theorem atParenthesizedType_blames : Blames s row known atParenthesizedType noTokens := by
  refine .nextIs _ fun paren => ?_
  cases paren with
  | false => exact .done
  | true => exact .ahead _ fun _ => .done

/-- The type whose size is taken has no name; a name is reported where it stands. -/
theorem sizeofType_blames : Blames s row known sizeofType noTokens := by
  refine .bind .advance fun _ => .bind specifier_blames fun sp => ?_
  refine .bindHanding (declarator_blames true) fun d => ?_
  split
  · rename_i ident named
    exact .failBind _ (by simp [identToken, named]) _
  · exact .bind (.expect _) fun _ => .bind (shapeOf_blames _) fun _ => .done

section

variable {nested : Nat → Parser (Expr String)}
  (hn : ∀ level known, Blames s row known (nested level) noTokens)
include hn

theorem primaryWith_blames : Blames s row known (primaryWith nested) noTokens := by
  refine .current fun token => ?_
  split
  · exact .bind .advance fun _ => .done
  split
  · exact .bind .advance fun _ => .bind (.note _) fun _ => .done
  refine .bind (.accept _) fun paren => .ite ?_ (.unexpected _)
  exact .bind (hn _ _) fun _ => .bind (.expect _) fun _ => .done

theorem argumentsWith_blames : Blames s row known (argumentsWith nested) noTokens := by
  refine .bind (.accept _) fun closed => .ite .done ?_
  exact .bind (.commaSeparated (hn _ _)) fun _ => .bind (.expect _) fun _ => .done

theorem suffixWith_blames (e : Expr String) :
    Blames s row known (suffixWith nested e) noTokens := by
  refine .current fun token => .bind (.accept _) fun call => .ite ?_ ?_
  · split
    · exact .bind (argumentsWith_blames hn) fun _ => .done
    · exact .fail _ (by simp)
  refine .bind (.accept _) fun subscript => .ite ?_ ?_
  · exact .bind (hn _ _) fun _ => .bind (.expect _) fun _ => .done
  refine .bind (.accept _) fun dot => .ite (.bind memberName_blames fun _ => .done) ?_
  refine .bind (.accept _) fun arrow => .ite (.bind memberName_blames fun _ => .done) ?_
  split
  · exact .bind .advance fun _ => .done
  · exact .done

theorem suffixedWith_blames : Blames s row known (suffixedWith nested) noTokens :=
  .bind (primaryWith_blames hn) fun e => .loopPlain (suffixWith_blames hn) e

theorem castWith_blames : Blames s row known (castWith nested) noTokens := by
  refine .current fun start => .bind .advance fun _ => .bind specifier_blames fun sp => ?_
  split
  · refine .current fun token => .checked (.fail _ (by simp)) (.bind (.expect _) fun _ => ?_)
    exact .bind (hn _ _) fun _ => .done
  · exact .fail _ (by simp)

theorem operandWith_blames : Blames s row known (operandWith nested) noTokens := by
  refine .current fun token => ?_
  split
  · exact .bind .advance fun _ => .bind (hn _ _) fun _ => .done
  refine .ite ?_ ?_
  · refine .bind .advance fun _ => .locatedAt ?_ (by simp)
    refine .bind atParenthesizedType_blames fun type => .ite sizeofType_blames ?_
    exact .bind (hn _ _) fun _ => .done
  · refine .bind atParenthesizedType_blames fun type => ?_
    exact .ite (castWith_blames hn) (suffixedWith_blames hn)

theorem operationWith_blames (level : Nat) (left : Expr String) :
    Blames s row known (operationWith nested level left) noTokens := by
  refine .current fun token => ?_
  split
  · exact .done
  · refine .ite .done (.bind .advance fun _ => ?_)
    exact .bind (hn _ _) fun _ => .done

theorem expressionWith_blames (level : Nat) :
    Blames s row known (expressionWith nested level) noTokens :=
  .bind (operandWith_blames hn) fun e => .loopPlain (operationWith_blames hn level) e

end

theorem expressionWithin_blames (n level : Nat) (known : List Token) :
    Blames s row known (expressionWithin n level) noTokens := by
  induction n generalizing level known with
  | zero => exact .exhausted
  | succ n ih => exact expressionWith_blames ih level

theorem expression_blames : Blames s row known expression noTokens :=
  .budgeted fun n => expressionWithin_blames n _ known

/-! ### Statements -/

theorem declarationOf_blames (sp : Specifier String) (d : Declarator) :
    Blames s row known (declarationOf sp d) noTokens := by
  refine .bind (shapeOf_blames _) fun shape => ?_
  split
  · exact .bind (.note _) fun _ => .done
  · exact .done

theorem variableAfter_blames (sp : Specifier String) (d : Declarator) :
    Blames s row known (variableAfter sp d) noTokens := by
  refine .bind (declarationOf_blames sp d) fun declaration => ?_
  refine .bind (.accept _) fun initial => .ite (.current fun token => ?_) .done
  exact .checked (.fail _ (by simp)) (.bind expression_blames fun _ => .done)

theorem variableOf_blames (sp : Specifier String) :
    Blames s row known (variableOf sp) noTokens :=
  .bind (declarator_blames false).forget fun d => variableAfter_blames sp d

theorem localVariables_blames : Blames s row known localVariables noTokens := by
  refine .bind specifier_blames fun sp => .bind (.commaSeparated (variableOf_blames sp)) fun _ => ?_
  exact .bind (.expect _) fun _ => .done

theorem condition_blames : Blames s row known condition noTokens :=
  .bind (.expect _) fun _ => .bind expression_blames fun _ => .bind (.expect _) fun _ => .done

theorem expressionBefore_blames (m : Punctuator) :
    Blames s row known (expressionBefore m) noTokens :=
  .nextIs _ fun _ => .ite .done (.bind expression_blames fun _ => .done)

theorem loopVariable_blames : Blames s row known loopVariable noTokens := by
  refine .nextIs _ fun _ => .ite .done (.current fun token => ?_)
  refine .required ?_ (.fail _ (by simp))
  refine .bind specifier_blames fun sp => .bind (variableOf_blames sp) fun v => ?_
  exact .current fun next => .checked (.fail _ (by simp)) .done

section

variable {nested : Parser (Stmt String)} (hn : ∀ known, Blames s row known nested noTokens)
include hn

theorem bodyWith_blames : Blames s row known (bodyWith nested) noTokens :=
  .bind (hn _) fun _ => .look (fun _ => ⟨_, rfl⟩) fun _ => .done

theorem blockItem_blames (statements : List (Stmt String)) :
    Blames s row known (blockItem nested statements) noTokens := by
  refine .current fun token => .atEnd fun _ => .ite .done ?_
  refine .locatedAt (.ite ?_ ?_) (by simp)
  · exact .bind localVariables_blames fun _ => .done
  · exact .bind (.accept _) fun _ => .ite .done (.bind (hn _) fun _ => .done)

theorem blockWith_blames : Blames s row known (blockWith nested) noTokens := by
  refine .bind (.expect _) fun _ => .bind (.loopPlain (blockItem_blames hn) []) fun _ => ?_
  exact .bind (.expect _) fun _ => .done

theorem conditionalWith_blames : Blames s row known (conditionalWith nested) noTokens := by
  refine .bind condition_blames fun test => .bind (bodyWith_blames hn) fun thenBranch => ?_
  refine .bind (.acceptLexeme _) fun otherwise => .ite ?_ .done
  exact .bind (bodyWith_blames hn) fun _ => .done

theorem forLoopWith_blames : Blames s row known (forLoopWith nested) noTokens := by
  refine .bind (.expect _) fun _ => .bind loopVariable_blames fun first => ?_
  refine .bind (.expect _) fun _ => .bind (expressionBefore_blames _) fun test => ?_
  refine .bind (.expect _) fun _ => .bind (expressionBefore_blames _) fun step => ?_
  exact .bind (.expect _) fun _ => .bind (bodyWith_blames hn) fun _ => .done

theorem statementWith_blames : Blames s row known (statementWith nested) noTokens := by
  refine .current fun token => .locatedAt ?_ (List.mem_cons_self ..)
  split
  · exact .bind .advance fun _ => conditionalWith_blames hn
  · refine .bind .advance fun _ => .bind condition_blames fun test => ?_
    exact .bind (bodyWith_blames hn) fun _ => .done
  · exact .bind .advance fun _ => forLoopWith_blames hn
  · refine .bind .advance fun _ => .bind (expressionBefore_blames _) fun _ => ?_
    exact .bind (.expectAs _ _) fun _ => .done
  · exact .bind .advance fun _ => .bind (.expectAs _ _) fun _ => .done
  · exact .bind .advance fun _ => .bind (.expectAs _ _) fun _ => .done
  · exact .bind (blockWith_blames hn) fun _ => .done
  · exact .bind .advance fun _ => .done
  · refine .checked (.unexpected _) (.bind expression_blames fun _ => ?_)
    exact .bind (.expect _) fun _ => .done

end

theorem statementWithin_blames (n : Nat) (known : List Token) :
    Blames s row known (statementWithin n) noTokens := by
  induction n generalizing known with
  | zero => exact .exhausted
  | succ n ih => exact statementWith_blames ih

theorem statement_blames : Blames s row known statement noTokens :=
  .budgeted fun n => statementWithin_blames n known

theorem block_blames : Blames s row known block noTokens :=
  .bind (blockWith_blames fun _ => statement_blames) fun _ => .done

/-! ### Units -/

theorem structMembers_blames (struct : String) (members : List (Declaration String)) :
    Blames s row known (structMembers struct members) noTokens := by
  refine .current fun start => .atEnd fun _ => .ite .done ?_
  refine .bind specifier_blames fun sp => .checked (.fail _ (by simp)) ?_
  refine .bind (.commaSeparated ?_) fun more => .bind (.expect _) fun _ => .done
  exact .bind (declarator_blames false).forget fun d => declarationOf_blames sp d

theorem structDefinition_blames : Blames s row known structDefinition noTokens := by
  refine .current fun start => .bind .advance fun _ => .bind (.identifier _) fun name => ?_
  refine .bind (.expect _) fun _ =>
    .bind (.loopPlain (structMembers_blames name) []) fun members => ?_
  refine .bind (.expect _) fun _ => .current fun token => ?_
  split
  · exact .failBind _ (by simp) _
  · exact .failBind _ (by simp) _
  · refine .bind (.expectAs _ _) fun _ => .look (fun _ => ⟨_, rfl⟩) fun options => ?_
    exact .checked (.fail _ (by simp)) (.bind (.note _) fun _ => .done)

theorem namedParameters_blames {ident : Token} (h : ident ∈ known)
    (parameters : List (Declaration String)) :
    Blames s row known (namedParameters ident parameters) noTokens := by
  unfold namedParameters
  split
  · exact .fail _ h
  · exact .done

theorem functionAfter_blames (sp : Specifier String) (d : Declarator) {ident : Token}
    (h : ident ∈ known) (parameters : List (Declaration String)) :
    Blames s row known (functionAfter sp d ident parameters) noTokens := by
  refine .bind (declarationOf_blames sp d) fun declaration => .nextIs _ fun _ => .ite ?_ ?_
  · refine .bind (namedParameters_blames h _) fun _ => ?_
    exact .bind block_blames fun _ => .done
  · refine .current fun semicolon => .bind (.expectAs _ _) fun _ => ?_
    refine .look (fun _ => ⟨_, rfl⟩) fun options => .required .done (.fail _ ?_)
    simp

theorem atStructDefinition_blames : Blames s row known atStructDefinition noTokens :=
  .current fun _ => .ahead _ fun _ => .ahead _ fun _ => .done

theorem unit_blames : Blames s row known unit noTokens := by
  refine .bind atStructDefinition_blames fun isStruct => .ite ?_ (.current fun start => ?_)
  · exact .bind structDefinition_blames fun _ => .done
  refine .bind specifier_blames fun sp => .nextIs _ fun _ => .checked (.fail _ ?_) ?_
  · simp
  refine .bindHanding topDeclarator_blames fun d => ?_
  split
  · rename_i ident parameters named
    have known : d.ident = some ident := congrArg Prod.fst named
    refine .bind (functionAfter_blames _ _ ?_ _) fun _ => .done
    simp [identToken, known]
  · refine .bind (variableAfter_blames sp d) fun first => ?_
    refine .bind (.moreAfterCommas (variableOf_blames sp) [first]) fun found => ?_
    exact .bind (.expect _) fun _ => .done

/-- **The units of a source put every fault at a token** that is not behind the one at which the
reading has stopped. -/
theorem unitsWithin_blames (n : Nat) {p : Progress} (hp : p.rest <:+ row) {d : Diagnostic}
    (stopped : (unitsWithin s n p).stop = some (.fault d)) :
    ∃ t, s.Seen row (unitsWithin s n p).progress t ∧ d = s.blame d.fault t := by
  induction n generalizing p with
  | zero => cases stopped
  | succ n ih =>
      unfold unitsWithin at stopped ⊢
      by_cases none : p.rest.isEmpty
      · rw [if_pos none] at stopped
        cases stopped
      rw [if_neg none] at stopped ⊢
      have first : ∀ t ∈ [p.rest.headD s.ending], s.Seen row p t := by
        intro t ht
        rw [List.mem_singleton.1 ht]
        exact Setting.seen_front hp
      have blames : Blames s row [p.rest.headD s.ending] unit noTokens := unit_blames
      cases read : Parser.locatedAt (p.rest.headD s.ending) unit s p with
      | error stop q =>
          rw [read] at stopped
          cases stopped
          exact (blames.placed (List.mem_singleton.2 rfl) hp first read).2
      | ok us q =>
          rw [read] at stopped
          have goesOn : q.rest <:+ p.rest := by
            have here := blames.locatedAt (List.mem_singleton.2 rfl) p hp first
            rw [read] at here
            exact here.1
          exact ih (goesOn.trans hp) stopped

end PlainC.Parser
