/-
**No rule uses up its budget.**

The rules for declarations, expressions, statements and units are gone through one by one.  Each of
them ends, with any tokens in front of it, and most of them read a token at least: only a declarator
that may be left out, and what stands behind a declarator, can be empty.

Main results:

* `PlainC.Parser.specifier_ends`, `PlainC.Parser.declarator_ends` — specifiers and declarators;
* `PlainC.Parser.expressionWithin_ends`, `PlainC.Parser.statementWithin_ends` — **expressions and
  statements end within every budget that is greater than the number of tokens left**;
* `PlainC.Parser.unit_ends` — a unit reads at least one token.
-/

import PlainC.Proofs.Parsing.Ending
import PlainC.Tree.Parser.Program

set_option relaxedAutoImplicit false
set_option autoImplicit false

namespace PlainC.Parser

variable {n : Nat}

/-- A token whose lexeme is known is not the end marker. -/
theorem advance_ends {token : Token} (h : token.lexeme ≠ .ending) :
    Ends (· = token) n advance fun _ => 1 :=
  .advance fun _ same => same ▸ h

/-- A token that is something other than the end marker is none. -/
theorem advance_ends_of_some {γ : Type} {kind : Lexeme → Option γ} {token : Token} {c : γ}
    (found : kind token.lexeme = some c) (none : kind .ending = none) :
    Ends (· = token) n advance fun _ => 1 := by
  refine advance_ends fun same => ?_
  rw [same, none] at found
  cases found

/-! ### Specifiers -/

/-- Every word of a specifier is a token at least. -/
theorem specifierWord_ends (sp : Specifier String) :
    Ends anyToken n (specifierWord sp) (gaugedCost (fun sp => sp.words.length) sp) := by
  refine .current fun token _ => ?_
  split
  · rename_i same
    refine .bind (advance_ends (by simp [same])) fun _ => .pure ?_
    simp [gaugedCost]
  · rename_i same
    refine .bind (advance_ends (by simp [same])) fun _ => .pure ?_
    simp [gaugedCost]
  · rename_i same
    refine .bind (advance_ends (by simp [same])) fun _ => .bind (.identifier _) fun name => ?_
    refine .nextIs _ fun brace => .checked (.fail _ _) fun _ => .bind (.note name) fun _ => .pure ?_
    simp [gaugedCost]
  · rename_i lexeme _ _ _
    split
    · rename_i word found
      refine .bind (advance_ends_of_some found rfl) fun _ => .pure ?_
      simp [gaugedCost]
    · exact .pure (Nat.sub_self _)

theorem specifier_ends : Ends anyToken n specifier fun _ => 1 := by
  refine .current fun start _ => .bind (.loopGauged _ specifierWord_ends _) fun sp => ?_
  refine .checked (.missing _) fun some' => .bind (.locatedAt (.ofExcept _) _) fun _ => .pure ?_
  have pos : 0 < sp.words.length := by simpa [List.length_pos_iff] using some'
  simp only [List.length_nil]
  omega

/-! ### Declarators -/

theorem pointerMark_ends (layers : List (Layer Int)) :
    Ends anyToken n (pointerMark layers) turnCost := by
  refine .ifAccepts Lexeme.noConfusion ?_ (.pure rfl)
  exact .current fun token _ => .checked (.fail _ _) fun _ => .pure rfl

theorem pointers_ends : Ends anyToken n pointers fun _ => 0 := .loop pointerMark_ends _

theorem arraySuffix_ends : Ends anyToken n arraySuffix fun _ => 1 := by
  refine .ifAccepts Lexeme.noConfusion (.pure rfl) (.current fun token _ => ?_)
  split
  · rename_i same
    exact .bind (advance_ends (by simp [same])) fun _ => .bind (.expect _) fun _ => .pure rfl
  · exact .fail _ _

theorem shapeOf_ends (layers : List (Layer Int)) : Ends anyToken n (shapeOf layers) fun _ => 0 :=
  .ofExcept _

theorem declaratorSuffix_ends {list : Option (Parser (List (Declaration String)))}
    (hl : ∀ x ∈ list, Ends anyToken n x fun _ => 1) (inParentheses : Bool) (d : Declarator) :
    Ends anyToken n (declaratorSuffix list inParentheses d) turnCost := by
  refine .current fun token _ => .ifAccepts Lexeme.noConfusion ?_ ?_
  · exact .checked (.fail _ _) fun _ => .bind arraySuffix_ends fun _ => .pure rfl
  refine .nextIs _ fun paren => .ite (fun _ => .checked (.fail _ _) fun _ => ?_) fun _ => .pure rfl
  cases list with
  | some x =>
      refine .checked (.fail _ _) fun _ => .bind .advanceAnyhow fun _ => ?_
      exact .bind (hl x rfl) fun _ => .pure rfl
  | none => exact .fail _ _

section

variable {nested : Parser Declarator} (hn : Ends anyToken n nested fun _ => 0)
include hn

/-- The core of a declarator can only be empty if there need not be a name. -/
theorem declaratorCore_ends (nameless : Bool) :
    Ends anyToken (n + 1) (declaratorCore nested nameless) fun _ => (!nameless).toNat := by
  refine .current fun token _ => ?_
  split
  · rename_i same
    refine .bind (advance_ends (by simp [same])) fun _ => .pure ?_
    cases nameless <;> rfl
  · refine .ahead _ fun second => .ite (fun opens => ?_) fun _ => ?_
    · have isParen : token.lexeme = .punctuator .parenOpen := by
        rw [Bool.and_eq_true, decide_eq_true_eq] at opens
        exact opens.1
      refine .spend (advance_ends (by simp [isParen])) fun _ => .bind hn fun inner => ?_
      refine .bind (.expect _) fun _ => .pure ?_
      cases nameless <;> rfl
    · exact .required (fun named => .pure (by simp [named])) (.missing _)

theorem declaratorWith_ends {list : Option (Parser (List (Declaration String)))}
    (hl : ∀ x ∈ list, Ends anyToken (n + 1) x fun _ => 1) (nameless : Bool) :
    Ends anyToken (n + 1) (declaratorWith nested list nameless) fun _ => (!nameless).toNat := by
  refine .bind pointers_ends fun outer => .bind (declaratorCore_ends hn nameless) fun core => ?_
  exact .bind (.loop (declaratorSuffix_ends hl _) _) fun _ => .pure (Nat.sub_self _)

end

theorem declaratorWithin_ends (nameless : Bool) (n : Nat) :
    Ends anyToken n (declaratorWithin nameless n) fun _ => (!nameless).toNat := by
  induction n with
  | zero => exact .exhausted
  | succ n ih =>
      exact declaratorWith_ends (ih.mono (Nat.le_refl n) fun _ => Nat.zero_le _) (by simp) nameless

theorem declarator_ends (nameless : Bool) :
    Ends anyToken n (declarator nameless) fun _ => (!nameless).toNat :=
  .budgeted (declaratorWithin_ends nameless)

/-! ### Parameters -/

theorem parameter_ends : Ends anyToken n parameter fun _ => 1 := by
  refine .bind specifier_ends fun sp => .bind (declarator_ends true) fun d => ?_
  split
  · exact .bind (.note _) fun _ => .bind (shapeOf_ends _) fun _ => .pure rfl
  · exact .bind (shapeOf_ends _) fun _ => .pure rfl

theorem parameterList_ends : Ends anyToken n parameterList fun _ => 1 := by
  refine .ifAccepts Lexeme.noConfusion (.pure rfl)
    (.current fun token _ => .ahead _ fun second => ?_)
  refine .ite (fun alone => ?_) fun _ => ?_
  · have isVoid : token.lexeme = .keyword .void := by
      rw [Bool.and_eq_true, decide_eq_true_eq] at alone
      exact alone.1
    exact .bind (advance_ends (by simp [isVoid])) fun _ => .bind .advanceAnyhow fun _ => .pure rfl
  · refine .front (.bind (.commaSeparated ?_) fun ds => .bind (.expect _) fun _ => .pure rfl)
    exact .current fun token _ => .checked (.fail _ _) fun _ => parameter_ends.front

theorem topDeclarator_ends : Ends anyToken n topDeclarator fun _ => 1 :=
  (declaratorWith_ends ((declarator_ends false).mono (Nat.le_refl n) fun _ => Nat.zero_le _)
    (by rintro _ ⟨⟩; exact parameterList_ends) false).mono (Nat.le_succ n) fun _ => Nat.le_refl _

/-! ### Expressions -/

theorem memberName_ends : Ends anyToken n memberName fun _ => 1 :=
  .bind (.identifier _) fun _ => .bind (.note _) fun _ => .pure rfl

theorem atParenthesizedType_ends : Ends anyToken n atParenthesizedType fun _ => 0 := by
  refine .nextIs _ fun paren => ?_
  cases paren with
  | false => exact .pure rfl
  | true => exact .ahead _ fun _ => .pure rfl

theorem sizeofType_ends : Ends anyToken n sizeofType fun _ => 1 := by
  refine .bind .advanceAnyhow fun _ => .bind specifier_ends fun sp => ?_
  refine .bind (declarator_ends true) fun d => ?_
  split
  · exact .never (.bind (.fail _ _) _)
  · exact .bind (.expect _) fun _ => .bind (shapeOf_ends _) fun _ => .pure rfl

section

variable {nested : Nat → Parser (Expr String)}
  (hn : ∀ level, Ends anyToken n (nested level) fun _ => 1)
include hn

theorem primaryWith_ends : Ends anyToken (n + 1) (primaryWith nested) fun _ => 1 := by
  refine .current fun token _ => ?_
  split
  · rename_i value found
    exact .bind (advance_ends_of_some found rfl) fun _ => .pure rfl
  split
  · rename_i name same
    exact .bind (advance_ends (by simp [same])) fun _ => .bind (.note _) fun _ => .pure rfl
  refine .ifAccepts Lexeme.noConfusion ?_ (.never (.unexpected _))
  exact .bind (hn _) fun _ => .bind (.expect _) fun _ => .pure rfl

theorem argumentsWith_ends : Ends anyToken n (argumentsWith nested) fun _ => 1 := by
  refine .ifAccepts Lexeme.noConfusion (.pure rfl) ?_
  exact .bind (.commaSeparated (hn _)) fun _ => .bind (.expect _) fun _ => .pure rfl

theorem suffixWith_ends (e : Expr String) :
    Ends anyToken (n + 1) (suffixWith nested e) turnCost := by
  refine .current fun token _ => .ifAccepts Lexeme.noConfusion ?_ ?_
  · split
    · exact .bind (argumentsWith_ends hn) fun _ => .pure rfl
    · exact .fail _ _
  refine .ifAccepts Lexeme.noConfusion ?_ ?_
  · exact .bind (hn _) fun _ => .bind (.expect _) fun _ => .pure rfl
  refine .ifAccepts Lexeme.noConfusion (.bind memberName_ends fun _ => .pure rfl) ?_
  refine .ifAccepts Lexeme.noConfusion (.bind memberName_ends fun _ => .pure rfl) ?_
  split
  · rename_i op found
    exact .bind (advance_ends_of_some found rfl) fun _ => .pure rfl
  · exact .pure rfl

theorem suffixedWith_ends : Ends anyToken (n + 1) (suffixedWith nested) fun _ => 1 :=
  .bind (primaryWith_ends hn) fun e => .loop (suffixWith_ends hn) e

theorem castWith_ends : Ends anyToken (n + 1) (castWith nested) fun _ => 1 := by
  refine .current fun start _ => .bind .advanceAnyhow fun _ => .spend specifier_ends fun sp => ?_
  split
  · refine .current fun token _ => .checked (.fail _ _) fun _ => .bind (.expect _) fun _ => ?_
    exact .bind (hn _) fun _ => .pure rfl
  · exact .fail _ _

theorem operandWith_ends : Ends anyToken (n + 1) (operandWith nested) fun _ => 1 := by
  refine .current fun token _ => ?_
  split
  · rename_i op found
    exact .spend (advance_ends_of_some found rfl) fun _ => .bind (hn _) fun _ => .pure rfl
  refine .ite (fun isSizeof => ?_) fun _ => ?_
  · refine .spend (advance_ends (by simp [isSizeof])) fun _ => .locatedAt ?_ _
    refine .bind atParenthesizedType_ends fun type => .ite (fun _ => ?_) fun _ => ?_
    · exact sizeofType_ends.mono (Nat.le_refl n) fun _ => Nat.zero_le _
    · exact .bind (hn _) fun _ => .pure rfl
  · refine .bind atParenthesizedType_ends.front fun type => ?_
    exact .ite (fun _ => castWith_ends hn) fun _ => suffixedWith_ends hn

theorem operationWith_ends (level : Nat) (left : Expr String) :
    Ends anyToken (n + 1) (operationWith nested level left) turnCost := by
  refine .current fun token _ => ?_
  split
  · exact .pure rfl
  · rename_i op found
    refine .ite (fun _ => .pure rfl) fun _ => .spend (advance_ends_of_some found rfl) fun _ => ?_
    exact .bind (hn _) fun _ => .pure rfl

theorem expressionWith_ends (level : Nat) :
    Ends anyToken (n + 1) (expressionWith nested level) fun _ => 1 :=
  .bind (operandWith_ends hn) fun e => .loop (operationWith_ends hn level) e

end

/-- **An expression ends within every budget that is greater than the number of tokens left.** -/
theorem expressionWithin_ends (n level : Nat) :
    Ends anyToken n (expressionWithin n level) fun _ => 1 := by
  induction n generalizing level with
  | zero => exact .exhausted
  | succ n ih => exact expressionWith_ends ih level

theorem expression_ends : Ends anyToken n expression fun _ => 1 :=
  .budgeted fun n => expressionWithin_ends n _

/-! ### Statements -/

theorem declarationOf_ends (sp : Specifier String) (d : Declarator) :
    Ends anyToken n (declarationOf sp d) fun _ => 0 := by
  refine .bind (shapeOf_ends _) fun shape => ?_
  split
  · exact .bind (.note _) fun _ => .pure rfl
  · exact .pure rfl

theorem variableAfter_ends (sp : Specifier String) (d : Declarator) :
    Ends anyToken n (variableAfter sp d) fun _ => 0 := by
  refine .bind (declarationOf_ends sp d) fun declaration => ?_
  refine .ifAccepts Lexeme.noConfusion (.current fun token _ => .checked (.fail _ _) fun _ => ?_)
    (.pure rfl)
  exact .bind expression_ends.front fun _ => .pure rfl

theorem variableOf_ends (sp : Specifier String) : Ends anyToken n (variableOf sp) fun _ => 1 :=
  .bind (declarator_ends false) fun d => variableAfter_ends sp d

theorem localVariables_ends : Ends anyToken n localVariables fun _ => 1 := by
  refine .bind specifier_ends fun sp => .bind (.commaSeparated (variableOf_ends sp)) fun _ => ?_
  exact .bind (.expect _) fun _ => .pure rfl

theorem condition_ends : Ends anyToken n condition fun _ => 1 :=
  .bind (.expect _) fun _ => .bind expression_ends fun _ => .bind (.expect _) fun _ => .pure rfl

theorem expressionBefore_ends (m : Punctuator) :
    Ends anyToken n (expressionBefore m) fun _ => 0 :=
  .nextIs _ fun _ => .ite (fun _ => .pure rfl) fun _ => .bind expression_ends fun _ => .pure rfl

theorem loopVariable_ends : Ends anyToken n loopVariable fun _ => 0 := by
  refine .nextIs _ fun _ => .ite (fun _ => .pure rfl) fun _ => .current fun token _ => ?_
  refine .required (fun _ => .front ?_) (.fail _ _)
  refine .bind specifier_ends fun sp => .bind (variableOf_ends sp) fun v => ?_
  exact .current fun next _ => .checked (.fail _ _) fun _ => .pure rfl

section

variable {nested : Parser (Stmt String)} (hn : Ends anyToken n nested fun _ => 1)
include hn

theorem bodyWith_ends : Ends anyToken n (bodyWith nested) fun _ => 1 :=
  .bind hn fun _ => .look (fun _ _ => ⟨_, rfl⟩) fun _ => .pure rfl

theorem blockItem_ends (statements : List (Stmt String)) :
    Ends anyToken n (blockItem nested statements) turnCost := by
  refine .current fun token _ => .atEnd fun _ => .ite (fun _ => .pure rfl) fun _ => ?_
  refine .front (.locatedAt (.ite (fun _ => ?_) fun _ => ?_) _)
  · exact .bind localVariables_ends fun _ => .pure rfl
  · exact .ifAccepts Lexeme.noConfusion (.pure rfl) (.bind hn fun _ => .pure rfl)

theorem blockWith_ends : Ends anyToken (n + 1) (blockWith nested) fun _ => 1 := by
  refine .spend (.expect _) fun _ => .bind (.loop (blockItem_ends hn) []) fun _ => ?_
  exact .bind (.expect _) fun _ => .pure rfl

theorem conditionalWith_ends : Ends anyToken n (conditionalWith nested) fun _ => 1 := by
  refine .bind condition_ends fun test => .bind (bodyWith_ends hn) fun thenBranch => ?_
  -- the second branch stands behind a token more
  have hn' : Ends anyToken (n - 1) nested fun _ => 1 :=
    hn.mono (Nat.sub_le ..) fun _ => Nat.le_refl _
  exact .ifAccepts Lexeme.noConfusion (.bind (bodyWith_ends hn') fun _ => .pure rfl) (.pure rfl)

theorem forLoopWith_ends : Ends anyToken n (forLoopWith nested) fun _ => 1 := by
  refine .bind (.expect _) fun _ => .bind loopVariable_ends fun first => ?_
  refine .bind (.expect _) fun _ => .bind (expressionBefore_ends _) fun test => ?_
  refine .bind (.expect _) fun _ => .bind (expressionBefore_ends _) fun step => ?_
  exact .bind (.expect _) fun _ => .bind (bodyWith_ends hn) fun _ => .pure rfl

theorem statementWith_ends : Ends anyToken (n + 1) (statementWith nested) fun _ => 1 := by
  refine .current fun token _ => .locatedAt ?_ _
  split
  · rename_i same
    refine .spend (advance_ends (by simp [same])) fun _ => ?_
    exact (conditionalWith_ends hn).mono (Nat.le_refl n) fun _ => Nat.zero_le _
  · rename_i same
    refine .spend (advance_ends (by simp [same])) fun _ => .bind condition_ends fun test => ?_
    exact .bind (bodyWith_ends hn) fun _ => .pure rfl
  · rename_i same
    refine .spend (advance_ends (by simp [same])) fun _ => ?_
    exact (forLoopWith_ends hn).mono (Nat.le_refl n) fun _ => Nat.zero_le _
  · rename_i same
    refine .bind (advance_ends (by simp [same])) fun _ =>
      .bind (expressionBefore_ends _) fun _ => ?_
    exact .bind (.expectAs _ _) fun _ => .pure rfl
  · rename_i same
    exact .bind (advance_ends (by simp [same])) fun _ => .bind (.expectAs _ _) fun _ => .pure rfl
  · rename_i same
    exact .bind (advance_ends (by simp [same])) fun _ => .bind (.expectAs _ _) fun _ => .pure rfl
  · exact .bind (blockWith_ends hn).front fun _ => .pure rfl
  · rename_i same
    exact .bind (advance_ends (by simp [same])) fun _ => .pure rfl
  · refine .checked (.unexpected _) fun _ => .bind expression_ends.front fun _ => ?_
    exact .bind (.expect _) fun _ => .pure rfl

end

/-- **A statement ends within every budget that is greater than the number of tokens left.** -/
theorem statementWithin_ends (n : Nat) : Ends anyToken n (statementWithin n) fun _ => 1 := by
  induction n with
  | zero => exact .exhausted
  | succ n ih => exact statementWith_ends ih

theorem statement_ends : Ends anyToken n statement fun _ => 1 := .budgeted statementWithin_ends

theorem block_ends : Ends anyToken n block fun _ => 1 :=
  .bind ((blockWith_ends statement_ends).mono (Nat.le_succ n) fun _ => Nat.le_refl _) fun _ =>
    .pure rfl

/-! ### Units -/

theorem structMembers_ends (struct : String) (members : List (Declaration String)) :
    Ends anyToken n (structMembers struct members) turnCost := by
  refine .current fun start _ => .atEnd fun _ => .ite (fun _ => .pure rfl) fun _ => ?_
  refine .bind specifier_ends.front fun sp => .checked (.fail _ _) fun _ => ?_
  refine .bind (.commaSeparated ?_) fun more => .bind (.expect _) fun _ => .pure rfl
  exact .bind (declarator_ends false) fun d => declarationOf_ends sp d

theorem structDefinition_ends : Ends anyToken n structDefinition fun _ => 1 := by
  refine .current fun start _ => .bind .advanceAnyhow fun _ => .bind (.identifier _) fun name => ?_
  refine .bind (.expect _) fun _ => .bind (.loop (structMembers_ends name) []) fun members => ?_
  refine .bind (.expect _) fun _ => .current fun token _ => ?_
  split
  · exact .never (.bind (.fail _ _) _)
  · exact .never (.bind (.fail _ _) _)
  · refine .bind (.expectAs _ _) fun _ => .look (fun _ _ => ⟨_, rfl⟩) fun options => ?_
    exact .checked (.fail _ _) fun _ => .bind (.note _) fun _ => .pure rfl

theorem namedParameters_ends (ident : Token) (parameters : List (Declaration String)) :
    Ends anyToken n (namedParameters ident parameters) fun _ => 0 := by
  unfold namedParameters
  split
  · exact .fail _ _
  · exact .pure rfl

theorem functionAfter_ends (sp : Specifier String) (d : Declarator) (ident : Token)
    (parameters : List (Declaration String)) :
    Ends anyToken n (functionAfter sp d ident parameters) fun _ => 1 := by
  refine .bind (declarationOf_ends sp d) fun declaration => .nextIs _ fun _ => ?_
  refine .ite (fun _ => ?_) fun _ => .current fun semicolon _ => ?_
  · exact .bind (namedParameters_ends _ _) fun _ => .bind block_ends fun _ => .pure rfl
  · refine .bind (.expectAs _ _) fun _ => .look (fun _ _ => ⟨_, rfl⟩) fun options => ?_
    exact .required (fun _ => .pure rfl) (.fail _ _)

theorem atStructDefinition_ends : Ends anyToken n atStructDefinition fun _ => 0 :=
  .current fun _ _ => .ahead _ fun _ => .ahead _ fun _ => .pure rfl

/-- **A unit reads at least one token.** -/
theorem unit_ends : Ends anyToken n unit fun _ => 1 := by
  refine .bind atStructDefinition_ends fun isStruct => .ite (fun _ => ?_) fun _ => ?_
  · exact .bind structDefinition_ends fun _ => .pure rfl
  refine .current fun start _ => .bind specifier_ends.front fun sp => .nextIs _ fun _ => ?_
  refine .checked (.fail _ _) fun _ => .bind topDeclarator_ends fun d => ?_
  split
  · exact .bind (functionAfter_ends _ _ _ _) fun _ => .pure rfl
  · refine .bind (variableAfter_ends sp d) fun first => ?_
    refine .bind (.moreAfterCommas (variableOf_ends sp) [first]) fun found => ?_
    exact .bind (.expect _) fun _ => .pure rfl

/-! ### Whole sources -/

theorem finish_ends : Ends anyToken n finish fun _ => 0 :=
  .atEnd fun _ => .ite (fun _ => .pure rfl) fun _ => .never (.unexpected _)

theorem wholeStatement_ends : Ends anyToken n wholeStatement fun _ => 1 := by
  have last (st : Stmt String) : Ends anyToken n (finish >>= fun _ => pure st) fun _ => 0 :=
    .bind finish_ends fun _ => .pure rfl
  refine .current fun token _ => .front (.ite (fun _ => ?_) fun _ => .bind statement_ends last)
  refine .bind (c := fun _ => 1) (.locatedAt (.bind localVariables_ends fun vs => ?_) _) last
  split
  · exact .pure rfl
  · exact .fail _ _

theorem wholeExpression_ends : Ends anyToken n wholeExpression fun _ => 1 :=
  .bind expression_ends fun _ => .bind finish_ends fun _ => .pure rfl

end PlainC.Parser
