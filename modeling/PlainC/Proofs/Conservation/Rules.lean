/-
**Nothing is lost between the tokens and the tree.**

Every rule keeps what is held: the literals of its result are those of the tokens that it reads, in
their order, and every name among these tokens is noted once.  Two names are held back for a while.
A declarator holds the name that it declares until it is joined to its specifier, and the sizes of
nested arrays in the order in which they stand, since what is in parentheses applies first.

Main definitions:

* `PlainC.Declarator.stock` — what a declarator holds: sizes, parameters, and its name.

Main results:

* `PlainC.Parser.expression_keeps`, `PlainC.Parser.statement_keeps`, `PlainC.Parser.unit_keeps` —
  **expressions, statements and units keep what is held**.
-/

import PlainC.Proofs.Conservation.Stock
import PlainC.Proofs.Conservation.Tree
import PlainC.Proofs.Expression.Derivation
import PlainC.Proofs.Soundness.Declaration

set_option relaxedAutoImplicit false
set_option autoImplicit false

namespace PlainC

/-! ### Trees -/

/-- What some declarations hold. -/
def declarationsStock (ds : List (Declaration String)) : Stock :=
  .ofLiterals (ds.flatMap Declaration.literals)

/-- What an expression holds. -/
def Expr.stock (e : Expr String) : Stock := .ofLiterals e.literals

/-- What a variable holds. -/
def Variable.stock (v : Variable String) : Stock := .ofLiterals v.literals

/-- What a statement holds. -/
def Stmt.stock (st : Stmt String) : Stock := .ofLiterals st.literals

/-- What a struct holds. -/
def Struct.stock (u : Struct String) : Stock := declarationsStock u.members

/-- What a function holds. -/
def Function.stock (f : Function String) : Stock := .ofLiterals (TopLevel.function f).literals

/-- What some units hold. -/
def unitsStock (us : List (TopLevel String)) : Stock := .ofLiterals (us.flatMap TopLevel.literals)

/-! ### Specifiers -/

/-- A word that is a lexeme of its own holds nothing. -/
theorem Lexeme.stock_of_word {l : Lexeme} {word : TypeWord String}
    (h : TypeWord.ofLexeme? l = some word) : l.stock = 0 := by
  cases l <;> first | rfl | cases h

/-- Neither does an operator. -/
theorem Lexeme.stock_of_operator {l : Lexeme} {op : Operator} (h : Operator.ofLexeme? l = some op) :
    l.stock = 0 := by
  cases l <;> first | rfl | cases h

theorem Lexeme.stock_of_unary {l : Lexeme} {op : UnaryOp} (h : UnaryOp.ofLexeme? l = some op) :
    l.stock = 0 := by
  cases l <;> first | rfl | cases h

theorem Lexeme.stock_of_postfix {l : Lexeme} {op : PostfixOp}
    (h : PostfixOp.ofLexeme? l = some op) : l.stock = 0 := by
  cases l <;> first | rfl | cases h

namespace Parser

theorem specifierWord_keeps (sp : Specifier String) :
    Keeps 0 [] (specifierWord sp) fun _ => 0 := by
  refine .current fun token => ?_
  split
  · rename_i word
    rw [word]
    exact .advance (.pure rfl)
  · rename_i word
    rw [word]
    exact .advance (.pure rfl)
  · rename_i word
    rw [word]
    refine .advance (.bind (.identifier _) fun name => ?_)
    refine .look (fun _ _ => ⟨_, rfl⟩) fun _ => ?_
    exact .passed (fun _ _ => ⟨_, rfl⟩) fun _ => .note (.pure rfl)
  · split
    · rename_i found
      refine .advance (.pure ?_)
      rw [Lexeme.stock_of_word found, add_zero]
    · exact .pure rfl

theorem specifier_keeps {seen : List Lexeme} : Keeps 0 seen specifier fun _ => 0 := by
  refine .anywhere (.current fun start => ?_)
  refine .skip (.anywhere (.loop (Q := fun _ => 0) specifierWord_keeps _)) fun sp => ?_
  refine .passed (fun _ _ => ⟨_, rfl⟩) fun _ => ?_
  exact .skip (.locatedAt (.ofExcept _) _) fun _ => .pure rfl

end Parser

/-! ### Declarators -/

/-- The sizes among some layers, as literals. -/
def sizeLiterals (layers : List (Layer Int)) : List Literal :=
  (layers.filterMap Layer.size).map Literal.int

theorem sizeLiterals_append (layers more : List (Layer Int)) :
    sizeLiterals (layers ++ more) = sizeLiterals layers ++ sizeLiterals more := by
  simp [sizeLiterals]

theorem sizeLiterals_toInt (layers : List (Layer Nat)) :
    sizeLiterals (layers.map Layer.toInt) =
      (layers.filterMap Layer.size).map fun size => .int (size : Nat) := by
  induction layers with
  | nil => rfl
  | cons layer layers ih =>
      obtain ⟨kind, _ | size⟩ := layer
      · exact ih
      · exact congrArg (List.cons (Literal.int size)) ih

/-- What a declarator holds apart from the name that it declares: the sizes of its arrays and the
literals of its parameters. -/
def Declarator.namelessStock (d : Declarator) : Stock :=
  .ofLiterals (sizeLiterals d.layers) + declarationsStock (d.parameters.getD [])

/-- What a declarator holds. -/
def Declarator.stock (d : Declarator) : Stock :=
  d.namelessStock + .ofNames (d.name.toList : Multiset String)

theorem Declarator.stock_of_name {d : Declarator} (name : String) (h : d.name = some name) :
    d.stock = d.namelessStock + .ofNames {name} := by
  rw [stock, h]
  rfl

theorem Declarator.stock_of_nameless {d : Declarator} (h : d.name = none) :
    d.stock = d.namelessStock := by
  rw [stock, h]
  exact add_zero _

/-- The sizes that stand in a declarator are those of its shape. -/
theorem Declarator.namelessStock_eq {d : Declarator} {declaration : Declaration String}
    (h : d.layers = declaration.shape.layers.map Layer.toInt) :
    d.namelessStock =
      .ofLiterals declaration.literals + declarationsStock (d.parameters.getD []) := by
  rw [namelessStock, h, sizeLiterals_toInt, Declaration.literals_eq]

theorem Declarator.namelessStock_of_plain {d : Declarator} (declaration : Declaration String)
    (h : d.layers = declaration.shape.layers.map Layer.toInt) (plain : d.parameters = none) :
    d.namelessStock = .ofLiterals declaration.literals := by
  rw [namelessStock_eq h, plain]
  exact add_zero _

namespace Parser

theorem shapeOf_keeps (layers : List (Layer Int)) {seen : List Lexeme} :
    Keeps 0 seen (shapeOf layers) fun _ => 0 :=
  .ofExcept _

theorem pointers_keeps {seen : List Lexeme} : Keeps 0 seen pointers fun _ => 0 := by
  refine .anywhere (.loop (Q := fun _ => 0) (fun layers => ?_) _)
  refine .ifAccept rfl (.current fun token => ?_) (.pure rfl)
  exact .passed (fun _ _ => ⟨_, rfl⟩) fun _ => .pure rfl

/-- The pointers in front of a declarator have no sizes. -/
theorem pointers_sizeless {s : Setting} :
    Yields s pointers fun layers => sizeLiterals layers = [] := by
  refine .loop (fun layers kept => .skip fun more => .ite (fun _ => ?_) fun _ => .pure kept) rfl
  refine .skip fun token => .passed (.fail _ _) fun _ => .pure ?_
  change sizeLiterals (layers ++ _) = []
  rw [sizeLiterals_append, kept]
  rfl

theorem arraySuffix_keeps :
    Keeps 0 [] arraySuffix fun layer => .ofLiterals (sizeLiterals [layer]) := by
  refine .ifAccept rfl (.pure rfl) (.current fun token => ?_)
  split
  · rename_i size found
    rw [found]
    exact .advance (.skip (.expect _) fun _ => .pure rfl)
  · exact .fail _ _

theorem declaratorCore_keeps {nested : Parser Declarator}
    (hn : Keeps 0 [] nested Declarator.stock)
    (plain : ∀ s, s.Closed → Yields s nested fun d => d.parameters = none) (nameless : Bool) :
    Keeps 0 [] (declaratorCore nested nameless) fun core => core.1.stock := by
  refine .current fun token => ?_
  split
  · rename_i name found
    rw [found]
    refine .advance (.pure ?_)
    rw [Declarator.stock_of_name name (by rw [Declarator.name]; simp [found, Lexeme.text])]
    rfl
  · refine .second fun second => .ite (fun opens => ?_) fun _ => ?_
    · simp only [Bool.and_eq_true, decide_eq_true_eq] at opens
      rw [opens.1]
      refine .advance (.anywhere (.bindWith hn plain fun inner none =>
        .skip (.expect _) fun _ => ?_))
      refine .pure ?_
      simp only [Declarator.stock, Declarator.namelessStock, Declarator.name, none,
        Lexeme.stock_punctuator, add_zero, zero_add]
    · refine .ite (fun _ => .pure rfl) fun _ => ?_
      exact .skip (.missing _) fun _ => .pure rfl

theorem declaratorSuffix_keeps {list : Option (Parser (List (Declaration String)))}
    (hl : ∀ x ∈ list, Keeps 0 [] x declarationsStock) (inParentheses : Bool) (d : Declarator) :
    Keeps d.stock [] (declaratorSuffix list inParentheses d) fun turn => turn.value.stock := by
  refine .current fun token => .ifAccept rfl ?_ (.ifNext ?_ (.pure rfl))
  · refine .passed (fun _ _ => ⟨_, rfl⟩) fun noFunction => ?_
    refine .bind arraySuffix_keeps fun layer => .pure ?_
    simp only [Bool.not_eq_true, Option.isSome_eq_false_iff, Option.isNone_iff_eq_none]
      at noFunction
    simp only [ForInStep.value, Declarator.stock, Declarator.namelessStock, Declarator.name,
      noFunction, sizeLiterals_append]
    exact Stock.ext (by simp [declarationsStock]) (by simp)
  · refine .passed (fun _ _ => ⟨_, rfl⟩) fun _ => ?_
    cases list with
    | none => exact .fail _ _
    | some x =>
        refine .passed (fun _ _ => ⟨_, rfl⟩) fun right => .advance ?_
        refine .bind (hl x rfl) fun ds => .pure ?_
        simp only [Bool.or_eq_true, not_or, Bool.not_eq_true, Bool.not_eq_false',
          List.isEmpty_iff, Option.isSome_eq_false_iff, Option.isNone_iff_eq_none] at right
        simp only [ForInStep.value, Declarator.stock, Declarator.namelessStock, Declarator.name,
          right.1.1, right.1.2]
        exact Stock.ext (by simp [declarationsStock, sizeLiterals]) (by simp [declarationsStock])

/-- A declarator that declares no function has no parameters. -/
theorem declaratorWithin_plain {s : Setting} (nameless : Bool) (n : Nat) :
    Yields s (declaratorWithin nameless n) fun d => d.parameters = none := by
  cases n with
  | zero => exact .exhausted
  | succ n =>
      refine .skip fun outer => .bind (P := fun core => core.1.parameters = none) ?_ ?_
      · refine .skip fun token => ?_
        split
        · exact .skip fun _ => .pure rfl
        · refine .skip fun second => .ite (fun _ => .skip fun _ => .skip fun _ => ?_) fun _ => ?_
          · exact .skip fun _ => .pure rfl
          · exact .required (fun _ => .pure rfl) (.missing _)
      · rintro ⟨core, inParentheses⟩ none
        refine .bind (.loop (fun d none => ?_) none) fun d none => .pure none
        refine .skip fun token => .skip fun array => .ite (fun _ => ?_) fun _ =>
          .skip fun paren => ?_
        · exact .passed (.fail _ _) fun _ => .skip fun layer => .pure none
        · exact .ite (fun _ => .passed (.fail _ _) fun _ => .fail _ _) fun _ => .pure none

theorem declaratorWith_keeps {nested : Parser Declarator}
    {list : Option (Parser (List (Declaration String)))}
    (hn : Keeps 0 [] nested Declarator.stock)
    (plain : ∀ s, s.Closed → Yields s nested fun d => d.parameters = none)
    (hl : ∀ x ∈ list, Keeps 0 [] x declarationsStock) (nameless : Bool) :
    Keeps 0 [] (declaratorWith nested list nameless) Declarator.stock := by
  refine .bindWith pointers_keeps (fun _ _ => pointers_sizeless) fun outer sizeless => ?_
  refine .bind (declaratorCore_keeps hn plain nameless) ?_
  rintro ⟨core, inParentheses⟩
  refine .of_eq (zero_add _) (.follow (.loop (declaratorSuffix_keeps hl inParentheses) core)
    fun d => .pure ?_)
  simp only [Declarator.stock, Declarator.namelessStock, Declarator.name, sizeLiterals_append,
    sizeless, List.append_nil]

theorem declarator_keeps (nameless : Bool) {seen : List Lexeme} :
    Keeps 0 seen (declarator nameless) Declarator.stock := by
  refine .anywhere (.budgeted fun n => ?_)
  induction n with
  | zero => exact .exhausted
  | succ n ih =>
      exact declaratorWith_keeps ih (fun _ _ => declaratorWithin_plain nameless n)
        (by simp) nameless

theorem declarator_plain {s : Setting} (nameless : Bool) :
    Yields s (declarator nameless) fun d => d.parameters = none :=
  .budgeted (declaratorWithin_plain nameless)

/-- A declarator is joined to a specifier: its name is noted, and its sizes are those of the
shape. -/
theorem declarationOf_keeps (sp : Specifier String) (d : Declarator) :
    Keeps d.stock [] (declarationOf sp d) fun declaration =>
      .ofLiterals declaration.literals + declarationsStock (d.parameters.getD []) := by
  refine .bindWith (shapeOf_keeps _) (fun _ _ => shapeOf_yields _) fun shape formed => ?_
  refine .of_eq (add_zero _) ?_
  split
  · rename_i name found
    rw [Declarator.stock_of_name _ found]
    exact .note (.pure (Declarator.namelessStock_eq formed.1).symm)
  · rename_i none
    rw [Declarator.stock_of_nameless (Option.eq_none_iff_forall_ne_some.2 none)]
    exact .pure (Declarator.namelessStock_eq formed.1).symm

/-! ### Parameters -/

theorem parameter_keeps {seen : List Lexeme} :
    Keeps 0 seen parameter fun d => .ofLiterals d.literals := by
  refine .skip specifier_keeps fun sp => ?_
  refine .bindWith (declarator_keeps _) (fun _ _ => declarator_plain _) fun d plain => ?_
  refine .of_eq (zero_add _) ?_
  have joined : Keeps d.namelessStock [] (do return ⟨sp, ← shapeOf d.layers, d.name⟩)
      fun x : Declaration String => .ofLiterals x.literals := by
    refine .bindWith (shapeOf_keeps _) (fun _ _ => shapeOf_yields _) fun shape formed => ?_
    refine .pure ?_
    rw [add_zero]
    exact (Declarator.namelessStock_of_plain ⟨sp, shape, d.name⟩ formed.1 plain).symm
  split
  · rename_i name found
    rw [Declarator.stock_of_name _ found]
    exact .note joined
  · rename_i none
    rw [Declarator.stock_of_nameless (Option.eq_none_iff_forall_ne_some.2 none)]
    exact joined

theorem parameterList_keeps : Keeps 0 [] parameterList declarationsStock := by
  refine .ifAccept rfl (.pure rfl) (.current fun token => .second fun second => .ite ?_ fun _ => ?_)
  · intro lone
    simp only [Bool.and_eq_true, decide_eq_true_eq] at lone
    rw [lone.1, lone.2]
    exact .advance (.advance (.pure rfl))
  · refine .anywhere (.bind
      (.commaSeparated (Q := fun d => .ofLiterals d.literals) ?_) fun ds => ?_)
    · refine .current fun token => ?_
      exact .passed (fun _ _ => ⟨_, rfl⟩) fun _ => parameter_keeps
    · refine .skip (.expect _) fun _ => .pure ?_
      rw [Stock.sum_map_ofLiterals, zero_add]
      rfl

theorem topDeclarator_keeps {seen : List Lexeme} : Keeps 0 seen topDeclarator Declarator.stock := by
  refine .anywhere (declaratorWith_keeps (declarator_keeps _) (fun _ _ => declarator_plain _) ?_ _)
  rintro x ⟨⟩
  exact parameterList_keeps

/-! ### Expressions -/

theorem sizeofType_keeps : Keeps 0 [.punctuator .parenOpen] sizeofType Expr.stock := by
  refine .advance (.skip specifier_keeps fun sp => ?_)
  refine .bindWith (declarator_keeps _) (fun _ _ => declarator_plain _) fun d plain => ?_
  split
  · exact .stopped fun _ _ => ⟨_, rfl⟩
  · rename_i unnamed
    have none : d.name = none := by
      rw [Declarator.name, Option.map_eq_none_iff]
      exact Option.eq_none_iff_forall_ne_some.2 unnamed
    refine .skip (.expect _) fun _ => ?_
    refine .bindWith (shapeOf_keeps _) (fun _ _ => shapeOf_yields _) fun shape formed => .pure ?_
    have held := d.namelessStock_of_plain ⟨sp, shape, Option.none⟩ formed.1 plain
    rw [Declarator.stock_of_nameless none, held]
    simp [Expr.stock]

theorem memberName_keeps : Keeps 0 [] memberName fun _ => 0 :=
  .bind (.identifier _) fun _ => .note (.pure rfl)

/-- In front of a type in parentheses stands the opening parenthesis. -/
theorem Keeps.ifParenthesizedType {α : Type} {h : Stock} {seen : List Lexeme} {x y : Parser α}
    {Q : α → Stock} (hx : Keeps h [.punctuator .parenOpen] x Q) (hy : Keeps h seen y Q) :
    Keeps h seen (atParenthesizedType >>= fun b => if b then x else y) Q := by
  intro s p hs shows
  by_cases opens : opensType s p
  · rw [bind_of_ok (atParenthesizedType_eq_ok_iff.2 ⟨iff_of_true rfl opens, rfl⟩), if_pos rfl]
    exact hx s p hs ⟨opens.1, trivial⟩
  · have closed := iff_of_false Bool.false_ne_true opens
    rw [bind_of_ok (atParenthesizedType_eq_ok_iff.2 ⟨closed, rfl⟩), if_neg Bool.false_ne_true]
    exact hy s p hs shows

section

variable {nested : Nat → Parser (Expr String)} (hn : ∀ level, Keeps 0 [] (nested level) Expr.stock)
include hn

theorem primaryWith_keeps : Keeps 0 [] (primaryWith nested) Expr.stock := by
  refine .current fun token => ?_
  split
  · rename_i value found
    refine .advance (.pure ?_)
    rw [Lexeme.stock_of_literal found, zero_add]
    rfl
  · split
    · rename_i name found
      rw [found]
      exact .advance (.note (.pure rfl))
    · refine .ifAccept rfl (.bind (hn _) fun e => ?_) (.unexpected _)
      exact .skip (.expect _) fun _ => .pure (zero_add _).symm

theorem argumentsWith_keeps :
    Keeps 0 [] (argumentsWith nested) fun es => .ofLiterals (es.flatMap Expr.literals) := by
  refine .ifAccept rfl (.pure rfl) (.bind (.commaSeparated (hn _)) fun es => ?_)
  refine .skip (.expect _) fun _ => .pure ?_
  rw [zero_add]
  exact (Stock.sum_map_ofLiterals _ _).symm

theorem suffixWith_keeps (e : Expr String) :
    Keeps (Expr.stock e) [] (suffixWith nested e) fun turn => Expr.stock turn.value := by
  refine .current fun token => .ifAccept rfl ?_ (.ifAccept rfl ?_ (.ifAccept rfl ?_ ?_))
  · split
    · refine .bind (argumentsWith_keeps hn) fun es => .pure ?_
      simp [Expr.stock, ForInStep.value]
    · exact .fail _ _
  · refine .bind (hn _) fun subscript => .skip (.expect _) fun _ => .pure ?_
    simp [Expr.stock, ForInStep.value, Stock.ofLiterals_append]
  · exact .skip memberName_keeps fun name => .pure rfl
  refine .ifAccept rfl (.skip memberName_keeps fun name => .pure rfl) ?_
  split
  · rename_i found
    refine .advance (.pure ?_)
    rw [Lexeme.stock_of_postfix found, add_zero]
    rfl
  · exact .pure rfl

theorem suffixedWith_keeps : Keeps 0 [] (suffixedWith nested) Expr.stock :=
  .follow (primaryWith_keeps hn) fun e => .loop (suffixWith_keeps hn) e

theorem castWith_keeps : Keeps 0 [.punctuator .parenOpen] (castWith nested) Expr.stock := by
  refine .again fun start _ => .advance (.skip specifier_keeps fun sp => ?_)
  split
  · refine .current fun token => .passed (fun _ _ => ⟨_, rfl⟩) fun _ => ?_
    exact .skip (.expect _) fun _ => .bind (hn _) fun operand => .pure (zero_add _).symm
  · exact .fail _ _

theorem operandWith_keeps : Keeps 0 [] (operandWith nested) Expr.stock := by
  refine .current fun token => ?_
  split
  · rename_i found
    refine .advance (.of_eq ?_ (.follow (hn _) fun operand => .pure rfl))
    rw [Lexeme.stock_of_unary found, zero_add]
  refine .ite (fun word => ?_) fun _ => ?_
  · rw [word]
    refine .advance (.locatedAt (.ifParenthesizedType sizeofType_keeps ?_) _)
    exact .follow (hn _) fun operand => .pure rfl
  · exact .ifParenthesizedType (castWith_keeps hn) (.anywhere (suffixedWith_keeps hn))

theorem operationWith_keeps (level : Nat) (left : Expr String) :
    Keeps (Expr.stock left) [] (operationWith nested level left) fun turn =>
      Expr.stock turn.value := by
  refine .current fun token => ?_
  split
  · exact .pure rfl
  · rename_i found
    refine .ite (fun _ => .pure rfl) fun _ => .advance (.bind (hn _) fun right => .pure ?_)
    rw [Lexeme.stock_of_operator found]
    simp [Expr.stock, ForInStep.value, Stock.ofLiterals_append]

theorem expressionWith_keeps (level : Nat) : Keeps 0 [] (expressionWith nested level) Expr.stock :=
  .follow (operandWith_keeps hn) fun e => .loop (operationWith_keeps hn level) e

end

/-- **Expressions keep what is held.** -/
theorem expression_keeps {seen : List Lexeme} : Keeps 0 seen expression Expr.stock := by
  have all (n level : Nat) : Keeps 0 [] (expressionWithin n level) Expr.stock := by
    induction n generalizing level with
    | zero => exact .exhausted
    | succ n ih => exact expressionWith_keeps ih level
  exact .anywhere (.budgeted fun n => all n _)

/-! ### Statements -/

theorem variableAfter_keeps (sp : Specifier String) {d : Declarator} (plain : d.parameters = none) :
    Keeps d.stock [] (variableAfter sp d) Variable.stock := by
  refine .follow (declarationOf_keeps sp d) fun declaration => ?_
  rw [plain]
  refine .ifAccept rfl (.current fun token => .passed (fun _ _ => ⟨_, rfl⟩) fun _ => ?_) (.pure ?_)
  · refine .bind expression_keeps fun e => .pure ?_
    rw [Variable.stock, Variable.literals_eq]
    simp [declarationsStock, Expr.stock, Expr.optionLiterals, Stock.ofLiterals_append]
  · rw [Variable.stock, Variable.literals_eq]
    simp [declarationsStock, Expr.optionLiterals]

theorem variableOf_keeps (sp : Specifier String) {seen : List Lexeme} :
    Keeps 0 seen (variableOf sp) Variable.stock :=
  .andThen (declarator_keeps _) (fun _ _ => declarator_plain _) fun _ plain =>
    variableAfter_keeps sp plain

theorem localVariables_keeps {seen : List Lexeme} :
    Keeps 0 seen localVariables fun vs => .ofLiterals (vs.flatMap Variable.literals) := by
  refine .skip specifier_keeps fun sp => .bind (.commaSeparated (variableOf_keeps sp)) fun vs => ?_
  refine .skip (.expect _) fun _ => .pure ?_
  rw [zero_add]
  exact (Stock.sum_map_ofLiterals _ _).symm

theorem condition_keeps : Keeps 0 [] condition Expr.stock :=
  .skip (.expect _) fun _ => .follow expression_keeps fun _ => .skip (.expect _) fun _ => .pure rfl

theorem expressionBefore_keeps (m : Punctuator) :
    Keeps 0 [] (expressionBefore m) fun e => .ofLiterals (Expr.optionLiterals e) := by
  refine .ifNext (.pure rfl) (.follow expression_keeps fun e => .pure ?_)
  simp [Expr.optionLiterals, Expr.stock]

theorem loopVariable_keeps :
    Keeps 0 [] loopVariable fun v => .ofLiterals (Variable.optionLiterals v) := by
  refine .ifNext (.pure rfl) (.current fun token => .ite (fun _ => ?_) fun _ => ?_)
  · refine .skip specifier_keeps fun sp => .follow (variableOf_keeps sp) fun v => ?_
    refine .current fun next => .passed (fun _ _ => ⟨_, rfl⟩) fun _ => .pure ?_
    simp [Variable.optionLiterals, Variable.stock]
  · exact .stopped fun _ _ => ⟨_, rfl⟩

section

variable {nested : Parser (Stmt String)} (hn : Keeps 0 [] nested Stmt.stock)
include hn

theorem bodyWith_keeps : Keeps 0 [] (bodyWith nested) Stmt.stock := by
  refine .follow hn fun st => .look (fun _ _ => ⟨_, rfl⟩) fun o => .pure ?_
  split
  · rw [Stmt.stock, Stmt.literals_asBlock]
    rfl
  · rfl

theorem blockItem_keeps (statements : List (Stmt String)) :
    Keeps (.ofLiterals (statements.flatMap Stmt.literals)) [] (blockItem nested statements)
      fun turn => .ofLiterals (turn.value.flatMap Stmt.literals) := by
  refine .current fun token => .look (fun _ _ => ⟨_, rfl⟩) fun _ => .ite (fun _ => .pure rfl) ?_
  refine fun _ => .anywhere (.locatedAt (.ite (fun _ => ?_) fun _ => ?_) _)
  · refine .bind localVariables_keeps fun vs => .pure ?_
    simp [ForInStep.value, List.flatMap_map, Stock.ofLiterals_append]
  · refine .ifAccept rfl (.pure rfl) (.bind hn fun st => .pure ?_)
    simp [ForInStep.value, Stmt.stock, Stock.ofLiterals_append]

theorem blockWith_keeps :
    Keeps 0 [] (blockWith nested) fun statements =>
      .ofLiterals (statements.flatMap Stmt.literals) :=
  .skip (.expect _) fun _ => .follow (.loop (blockItem_keeps hn) []) fun _ =>
    .skip (.expect _) fun _ => .pure rfl

theorem conditionalWith_keeps : Keeps 0 [] (conditionalWith nested) Stmt.stock := by
  refine .follow condition_keeps fun test => .bind (bodyWith_keeps hn) fun thenBranch => ?_
  refine .ifAccept rfl (.bind (bodyWith_keeps hn) fun elseBranch => .pure ?_) (.pure ?_)
  · simp [Expr.stock, Stmt.stock, Stock.ofLiterals_append, add_assoc]
  · simp [Expr.stock, Stmt.stock, Stock.ofLiterals_append]

theorem forLoopWith_keeps : Keeps 0 [] (forLoopWith nested) Stmt.stock := by
  refine .skip (.expect _) fun _ => .follow loopVariable_keeps fun first => ?_
  refine .skip (.expect _) fun _ => .bind (expressionBefore_keeps _) fun test => ?_
  refine .skip (.expect _) fun _ => .bind (expressionBefore_keeps _) fun step => ?_
  refine .skip (.expect _) fun _ => .bind (bodyWith_keeps hn) fun body => .pure ?_
  simp [Stmt.stock, Stock.ofLiterals_append, add_assoc]

theorem statementWith_keeps : Keeps 0 [] (statementWith nested) Stmt.stock := by
  refine .current fun token => .locatedAt ?_ _
  split
  · rename_i word
    rw [word]
    exact .advance (conditionalWith_keeps hn)
  · rename_i word
    rw [word]
    refine .advance (.follow condition_keeps fun test => .bind (bodyWith_keeps hn) fun body => ?_)
    exact .pure (by simp [Expr.stock, Stmt.stock, Stock.ofLiterals_append])
  · rename_i word
    rw [word]
    exact .advance (forLoopWith_keeps hn)
  · rename_i word
    rw [word]
    refine .advance (.follow (expressionBefore_keeps _) fun value => ?_)
    exact .skip (.expectAs _ _) fun _ => .pure (by simp [Stmt.stock])
  · rename_i word
    rw [word]
    exact .advance (.skip (.expectAs _ _) fun _ => .pure rfl)
  · rename_i word
    rw [word]
    exact .advance (.skip (.expectAs _ _) fun _ => .pure rfl)
  · exact .anywhere (.follow (blockWith_keeps hn) fun statements => .pure (by simp [Stmt.stock]))
  · rename_i mark
    rw [mark]
    exact .advance (.pure rfl)
  · refine .anywhere (.ite (fun _ => .stopped fun _ _ => ⟨_, rfl⟩) fun _ => ?_)
    refine .follow expression_keeps fun e => .skip (.expect _) fun _ => .pure rfl

end

theorem statementWithin_keeps (n : Nat) : Keeps 0 [] (statementWithin n) Stmt.stock := by
  induction n with
  | zero => exact .exhausted
  | succ n ih => exact statementWith_keeps ih

/-- **Statements keep what is held.** -/
theorem statement_keeps {seen : List Lexeme} : Keeps 0 seen statement Stmt.stock :=
  .anywhere (.budgeted statementWithin_keeps)

theorem block_keeps : Keeps 0 [] block fun b => .ofLiterals b.literals := by
  refine .follow (blockWith_keeps statement_keeps) fun statements => .pure ?_
  rw [Block.literals_eq]

/-! ### Units -/

theorem structMembers_keeps (struct : String) (members : List (Declaration String)) :
    Keeps (declarationsStock members) [] (structMembers struct members) fun turn =>
      declarationsStock turn.value := by
  refine .current fun start => .look (fun _ _ => ⟨_, rfl⟩) fun _ => .ite (fun _ => .pure rfl) ?_
  refine fun _ => .skip specifier_keeps fun sp => .passed (fun _ _ => ⟨_, rfl⟩) fun _ => ?_
  have member : Keeps 0 [] (declarator false >>= fun d => declarationOf sp d)
      fun d => .ofLiterals d.literals := by
    refine .andThen (declarator_keeps _) (fun _ _ => declarator_plain _) fun d plain => ?_
    refine (declarationOf_keeps sp d).mono fun declaration => ?_
    rw [plain]
    exact add_zero _
  refine .bind (.commaSeparated member) fun more => .skip (.expect _) fun _ => .pure ?_
  rw [Stock.sum_map_ofLiterals]
  simp [ForInStep.value, declarationsStock, Stock.ofLiterals_append]

theorem structDefinition_keeps :
    Keeps 0 [.keyword .structWord] structDefinition Struct.stock := by
  refine .again fun start _ => .advance (.bind (.identifier _) fun name => ?_)
  refine .skip (.expect _) fun _ => .bind (.loop (structMembers_keeps name) []) fun members => ?_
  refine .skip (.expect _) fun _ => .current fun token => ?_
  -- the name is noted behind the members
  have held : 0 + Lexeme.stock (.keyword .structWord) + .ofNames {name} +
      declarationsStock members = declarationsStock members + .ofNames {name} := by
    rw [Lexeme.stock_keyword, add_zero, zero_add, Stock.ofNames_add]
  split
  · exact .stopped fun _ _ => ⟨_, rfl⟩
  · exact .stopped fun _ _ => ⟨_, rfl⟩
  · refine .skip (.expectAs _ _) fun _ => .look (fun _ _ => ⟨_, rfl⟩) fun o => ?_
    exact .passed (fun _ _ => ⟨_, rfl⟩) fun _ => .of_eq held (.note (.pure rfl))

theorem functionAfter_keeps (sp : Specifier String) {d : Declarator} (ident : Token)
    {parameters : List (Declaration String)} (given : d.parameters = some parameters) :
    Keeps d.stock [] (functionAfter sp d ident parameters) Function.stock := by
  refine .follow (declarationOf_keeps sp d) fun declaration => ?_
  rw [given]
  refine .ifNext ?_ ?_
  · refine .anywhere (.skip (x := namedParameters ident parameters) ?_ fun _ => ?_)
    · unfold namedParameters
      split
      · exact .fail _ _
      · exact .pure rfl
    · refine .bind block_keeps fun b => .pure ?_
      simp [Function.stock, declarationsStock, Stock.ofLiterals_append, add_assoc]
  · refine .current fun semicolon => .skip (.expectAs _ _) fun _ => ?_
    refine .look (fun _ _ => ⟨_, rfl⟩) fun o => .ite (fun _ => .pure ?_) fun _ => ?_
    · simp [Function.stock, declarationsStock, Stock.ofLiterals_append]
    · exact .stopped fun _ _ => ⟨_, rfl⟩

/-- In front of the definition of a struct stands its reserved word. -/
theorem Keeps.ifStructDefinition {α : Type} {h : Stock} {seen : List Lexeme} {x y : Parser α}
    {Q : α → Stock} (hx : Keeps h [.keyword .structWord] x Q) (hy : Keeps h seen y Q) :
    Keeps h seen (atStructDefinition >>= fun b => if b then x else y) Q := by
  intro s p hs shows
  have look : ∃ b, atStructDefinition s p = .ok b p ∧ (b → p.front s = .keyword .structWord) := by
    refine ⟨_, rfl, fun isStruct => ?_⟩
    split at isStruct
    · rename_i word _ _
      rw [← word]
      obtain ⟨_ | ⟨t, ts⟩, names⟩ := p <;> rfl
    · cases isStruct
  obtain ⟨b, look, front⟩ := look
  rw [bind_of_ok look]
  cases b with
  | true => exact hx s p hs ⟨front rfl, trivial⟩
  | false => exact hy s p hs shows

/-- **Units keep what is held.** -/
theorem unit_keeps : Keeps 0 [] unit unitsStock := by
  refine .ifStructDefinition (.follow structDefinition_keeps fun u => .pure ?_) ?_
  · simp [unitsStock, Struct.stock, declarationsStock]
  refine .current fun start => .skip specifier_keeps fun sp => ?_
  refine .look (fun _ _ => ⟨_, rfl⟩) fun _ => .passed (fun _ _ => ⟨_, rfl⟩) fun _ => ?_
  refine .andThen topDeclarator_keeps (fun _ hs => topDeclarator_yields hs) fun d fits => ?_
  split
  · rename_i ident parameters found
    refine .follow (functionAfter_keeps sp ident (congrArg Prod.snd found)) fun f => .pure ?_
    simp [unitsStock, Function.stock]
  · rename_i single
    have plain : d.parameters = none := by
      obtain ⟨ident, found⟩ := Option.isSome_iff_exists.1 (Option.isSome_map.symm.trans fits.named)
      refine Option.eq_none_iff_forall_ne_some.2 fun parameters given => single ident parameters ?_
      rw [found, given]
    refine .follow (variableAfter_keeps sp plain) fun first => ?_
    refine .follow (.of_eq ?_ (.moreAfterCommas (variableOf_keeps sp) [first])) fun vs => ?_
    · simp
    · refine .skip (.expect _) fun _ => .pure ?_
      rw [show Variable.stock = fun v => .ofLiterals v.literals from rfl, Stock.sum_map_ofLiterals]
      simp [unitsStock, List.flatMap_map]

end Parser

/-! ### Whole sources -/

/-- The reading of units keeps what is held. -/
theorem unitsWithin_keeps {s : Setting} (hs : s.Closed) (n : Nat) (p : Progress) :
    ((unitsWithin s n p).stop = none →
      unitsStock (unitsWithin s n p).completed + (unitsWithin s n p).progress.stock = p.stock) ∧
    ∀ name ∈ (unitsWithin s n p).progress.names, name ∈ p.stock.names := by
  induction n generalizing p with
  | zero => exact ⟨nofun, fun name noted => Progress.mem_names_stock noted⟩
  | succ n ih =>
      unfold unitsWithin
      split
      · exact ⟨fun _ => zero_add _, fun name noted => Progress.mem_names_stock noted⟩
      have kept := Parser.unit_keeps.locatedAt (p.rest.headD s.ending) s p hs trivial
      cases read : Parser.locatedAt (p.rest.headD s.ending) Parser.unit s p with
      | error stop q =>
          rw [read, zero_add] at kept
          exact ⟨nofun, kept⟩
      | ok us q =>
          rw [read, zero_add] at kept
          obtain ⟨whole, noted⟩ := ih q
          refine ⟨fun none => ?_, fun name member => ?_⟩
          · rw [← kept, ← whole none, ← add_assoc, unitsStock, List.flatMap_append]
            rfl
          · rw [← kept]
            exact Multiset.mem_add.2 (.inr (noted name member))

end PlainC
