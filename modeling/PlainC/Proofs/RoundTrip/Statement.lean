/-
**Statements that are read back.**

What a statement begins with tells it from a declaration and from every other statement, so each is
read back by its own rule.  Only a conditional without an `else` can go on behind its end, and no
statement begins with an `else`.  The budget of a nested statement is bounded by the lexemes that
are left, which the induction carries along.

Main definitions:

* `PlainC.Parser.ReadsBackWithin` — a parser reads a statement back wherever few enough lexemes are
  left.

Main results:

* `PlainC.Parser.takes_expression`, `PlainC.Parser.takes_variableOf` — expressions and variables are
  read back;
* `PlainC.Parser.takes_statement` — **a statement is read back**;
* `PlainC.Parser.takes_block` — a block is read back.
-/

import PlainC.Proofs.RoundTrip.Expression
import PlainC.Proofs.Spelling.Program
import PlainC.Tree.Parser.Statement

set_option relaxedAutoImplicit false
set_option autoImplicit false

namespace PlainC

/-- An expression that can be written begins like one. -/
theorem Expr.startsExpression_front (s : Setting) {e : Expr String} (spelled : e.hasSpelling)
    (ls : List Lexeme) : Parser.startsExpression (s.front (e.spelling ++ ls)) = true := by
  induction e using Expr.induct generalizing ls with
  | blank => cases spelled
  | literal value => cases value <;> rfl
  | unary op operand =>
      change Parser.startsExpression (.punctuator op.mark) = true
      cases op <;> decide
  | postfixed op operand ih | member operand name ih | pointerMember operand name ih =>
      rw [spelling, List.append_assoc]
      exact ih spelled _
  | index target subscript ih =>
      rw [hasSpelling, Bool.and_eq_true] at spelled
      simp only [spelling, List.cons_append, List.append_assoc]
      exact ih spelled.1 _
  | binary op left right ih =>
      simp only [hasSpelling, Bool.and_eq_true] at spelled
      simp only [spelling, List.append_assoc]
      exact ih spelled.1.2 _
  | _ => rfl

namespace Parser

variable {s : Setting} {ls after : List Lexeme}

/-! ### Expressions and variables -/

/-- The lexemes behind an expression that is a part of a statement. -/
def endsExpression (l : Lexeme) : Prop :=
  l = .punctuator .semicolon ∨ l = .punctuator .parenClose ∨ l = .punctuator .comma

theorem takes_expression (hs : s.Closed) {e : Expr String} (he : e.isReadable)
    (stop : endsExpression (s.front after)) :
    Takes s expression (e.spelling ++ after) (· = e) after := by
  rw [Expr.isReadable, Bool.and_eq_true] at he
  have noSuffix : ¬ isSuffixMark (s.front after) := by
    rcases stop with h | h | h <;> rw [h] <;> simp [isSuffixMark] <;> rintro (_ | _) <;> decide
  have noOperator : Operator.ofLexeme? (s.front after) = none := by
    rcases stop with h | h | h <;> rw [h] <;> decide
  intro p hp
  obtain ⟨q, read, hq⟩ := gives_expression he.1 he.2 noSuffix noOperator p hp
  exact ⟨e, q, (expression_eq_ok_iff hs).2 read, rfl, hq⟩

theorem takes_declarationOf {d : Declaration String} (hd : d.isReadable) {read : Declarator}
    (stands : read.Stands d.name d.shape.layers) :
    Takes s (declarationOf d.specifier read) ls (· = d) ls := by
  obtain ⟨sp, shape, _ | name⟩ := d
  · simp [Declaration.isReadable] at hd
  · simp only [Declaration.isReadable, Declaration.hasSpelling, Bool.and_eq_true] at hd
    rw [declarationOf, stands.layers, stands.name]
    refine (takes_shapeOf hd.1.2).bind ?_
    rintro _ rfl
    exact (takes_note name).bind fun _ _ => .pure rfl

/-- The lexemes behind a variable. -/
def endsVariable (l : Lexeme) : Prop := l = .punctuator .semicolon ∨ l = .punctuator .comma

/-- Behind its declarator, a variable is read back with its initial value. -/
theorem takes_variableAfter (hs : s.Closed) {v : Variable String} (hv : v.isReadable)
    {read : Declarator} (stands : read.Stands v.declaration.name v.declaration.shape.layers)
    (stop : endsVariable (s.front after)) :
    Takes s (variableAfter v.declaration.specifier read)
      (v.initialSpelling ++ after) (· = v) after := by
  obtain ⟨d, initializer⟩ := v
  rw [Variable.isReadable, Bool.and_eq_true] at hv
  refine (takes_declarationOf hv.1 stands).bind ?_
  rintro _ rfl
  cases initializer with
  | none =>
      refine (takes_accept_other ?_).bind ?_
      · rcases stop with h | h <;> simp [Variable.initialSpelling, h]
      rintro _ rfl
      exact .pure rfl
  | some e =>
      have he : e.isReadable := hv.2
      refine takes_accept.bind ?_
      rintro _ rfl
      change Takes s _ (e.spelling ++ after) _ after
      refine takes_current.bind fun t ht => ?_
      have noBrace : t.lexeme ≠ .punctuator .braceOpen := by
        intro brace
        rw [Expr.isReadable, Bool.and_eq_true] at he
        have begins := e.startsExpression_front s he.1 after
        rw [← ht, brace] at begins
        revert begins
        decide
      simp only [noBrace, if_false]
      refine (takes_expression hs he (stop.imp_right .inr)).bind ?_
      rintro _ rfl
      exact .pure rfl

/-- What stands behind the declarator of a variable closes its declaration. -/
theorem closesDeclaration_front {v : Variable String} (stop : endsVariable (s.front after)) :
    closesDeclaration (s.front (v.initialSpelling ++ after)) = true := by
  rcases v with ⟨d, _ | e⟩
  · rcases stop with h | h <;> simp [Variable.initialSpelling, h, closesDeclaration]
  · rfl

/-- Behind its specifier, a variable is read back. -/
theorem takes_variableOf (hs : s.Closed) {v : Variable String} (hv : v.isReadable)
    (stop : endsVariable (s.front after)) :
    Takes s (variableOf v.declaration.specifier)
      ((v.declaration.shape.form v.declaration.name).spelling
        ++ (v.initialSpelling ++ after)) (· = v) after := by
  have named : v.declaration.name.isSome := by
    simp only [Variable.isReadable, Declaration.isReadable, Bool.and_eq_true] at hv
    exact hv.1.2
  refine (takes_declarator_of_declaration v.declaration (.inr named)
    (closesDeclaration_front stop)).bind fun read stands => ?_
  exact takes_variableAfter hs hv stands stop

/-- A specifier and a variable are read back. -/
theorem takes_specifier_of_variable {v : Variable String} (hv : v.isReadable)
    (stop : endsVariable (s.front after)) :
    Takes s specifier (v.spelling ++ after) (· = v.declaration.specifier)
      ((v.declaration.shape.form v.declaration.name).spelling
        ++ (v.initialSpelling ++ after)) := by
  simp only [Variable.isReadable, Declaration.isReadable, Bool.and_eq_true] at hv
  rw [Variable.spelling, List.append_assoc]
  exact takes_specifier_of_declaration hv.1.1
    (startsDeclaration_of_closes (closesDeclaration_front stop))

/-- A declaration of one variable is read back. -/
theorem takes_localVariables (hs : s.Closed) {v : Variable String} (hv : v.isReadable) :
    Takes s localVariables (v.spelling ++ .punctuator .semicolon :: ls) (· = [v]) ls := by
  refine (takes_specifier_of_variable hv (.inl rfl)).bind ?_
  rintro _ rfl
  have one : Takes s (commaSeparated (variableOf v.declaration.specifier))
      ((v.declaration.shape.form v.declaration.name).spelling
        ++ (v.initialSpelling ++ .punctuator .semicolon :: ls)) (· = [v])
      (.punctuator .semicolon :: ls) := by
    refine (takes_variableOf hs hv (.inl rfl)).bind ?_
    rintro _ rfl
    exact takes_moreAfterCommas_nil (by simp) _
  refine one.bind ?_
  rintro _ rfl
  exact takes_expect.bind fun _ _ => .pure rfl

/-! ### Parts of statements -/

theorem takes_condition (hs : s.Closed) {test : Expr String} (ht : test.isReadable) :
    Takes s condition (Stmt.conditionSpelling test ++ ls) (· = test) ls := by
  simp only [Stmt.conditionSpelling, List.cons_append, List.append_assoc, List.nil_append]
  refine takes_expect.bind fun _ _ => (takes_expression hs ht (.inr (.inl rfl))).bind ?_
  rintro _ rfl
  exact takes_expect.bind fun _ _ => .pure rfl

theorem takes_expressionBefore (hs : s.Closed) {e : Option (Expr String)}
    (he : Expr.optionIsReadable e) {m : Punctuator} (hm : m = .semicolon ∨ m = .parenClose) :
    Takes s (expressionBefore m) (Expr.optionSpelling e ++ .punctuator m :: ls) (· = e)
      (.punctuator m :: ls) := by
  refine (takes_nextIs m).bind ?_
  rintro _ rfl
  cases e with
  | none =>
      simp only [Expr.optionSpelling, List.nil_append, Setting.front_cons, decide_true, if_true]
      exact .pure rfl
  | some e =>
      have readable : e.isReadable := he
      have other : s.front (Expr.optionSpelling (some e) ++ .punctuator m :: ls)
          ≠ .punctuator m := by
        intro same
        rw [Expr.isReadable, Bool.and_eq_true] at readable
        have begins := e.startsExpression_front s readable.1 (.punctuator m :: ls)
        rw [Expr.optionSpelling] at same
        rw [same] at begins
        rcases hm with rfl | rfl <;> revert begins <;> decide
      simp only [other, decide_false, Bool.false_eq_true, if_false]
      refine (takes_expression hs readable ?_).bind ?_
      · rcases hm with rfl | rfl
        · exact .inl rfl
        · exact .inr (.inl rfl)
      rintro _ rfl
      exact .pure rfl

theorem takes_loopVariable (hs : s.Closed) {v : Option (Variable String)}
    (hv : Variable.optionIsReadable v) :
    Takes s loopVariable (Variable.optionSpelling v ++ .punctuator .semicolon :: ls) (· = v)
      (.punctuator .semicolon :: ls) := by
  refine (takes_nextIs _).bind ?_
  rintro _ rfl
  cases v with
  | none =>
      simp only [Variable.optionSpelling, List.nil_append, Setting.front_cons, decide_true, if_true]
      exact .pure rfl
  | some v =>
      have readable : v.isReadable := hv
      have starts : (s.front (v.spelling ++ .punctuator .semicolon :: ls)).startsDeclaration =
          true := by
        simp only [Variable.isReadable, Declaration.isReadable, Bool.and_eq_true] at readable
        rw [Variable.spelling, List.append_assoc]
        exact startsDeclaration_front readable.1.1 _
      have other : s.front (v.spelling ++ .punctuator .semicolon :: ls) ≠
          .punctuator .semicolon := by
        intro same
        rw [same] at starts
        cases starts
      rw [Variable.optionSpelling]
      simp only [other, decide_false, Bool.false_eq_true, if_false]
      refine takes_current.bind fun t ht => ?_
      rw [← ht] at starts
      simp only [starts, if_true]
      refine (takes_specifier_of_variable readable (.inl rfl)).bind ?_
      rintro _ rfl
      refine (takes_variableOf hs readable (.inl rfl)).bind ?_
      rintro _ rfl
      refine takes_current.bind fun t ht => ?_
      simp only [ht, Setting.front_cons]
      exact .pure rfl

/-! ### Items of a block -/

/-- The lexemes with which a statement that is no declaration can begin. -/
def startsStatement : Lexeme → Bool
  | .keyword .ifWord | .keyword .whileWord | .keyword .forWord | .keyword .returnWord
  | .keyword .breakWord | .keyword .continueWord | .punctuator .braceOpen => true
  | l => startsExpression l

theorem startsStatement_front {st : Stmt String} (readable : st.isReadable)
    (noDeclaration : st.isDeclaration = false) (ls : List Lexeme) :
    startsStatement (s.front (st.spelling ++ ls)) = true := by
  cases st with
  | blank => cases readable
  | declaration v => cases noDeclaration
  | expression value =>
      simp only [Stmt.isReadable, Expr.isReadable, Bool.and_eq_true] at readable
      rw [Stmt.spelling, List.append_assoc]
      have begins := value.startsExpression_front s readable.1 ([.punctuator .semicolon] ++ ls)
      unfold startsStatement
      split <;> first | rfl | exact begins
  | _ => rfl

/-- What begins an item of a block tells a declaration from a statement, and neither ends the block
nor goes on with a conditional. -/
structure BeginsItem (declares : Bool) (l : Lexeme) : Prop where
  startsDeclaration : l.startsDeclaration = declares
  ne_braceClose : l ≠ .punctuator .braceClose
  ne_semicolon : l ≠ .punctuator .semicolon
  ne_else : l ≠ .keyword .elseWord
  ne_ending : l ≠ .ending

theorem beginsItem_of_startsStatement {l : Lexeme} (h : startsStatement l = true) :
    BeginsItem false l := by
  refine ⟨?_, ?_, ?_, ?_, ?_⟩
  · cases l with
    | keyword word => cases word <;> first | rfl | cases h
    | _ => rfl
  all_goals
    rintro rfl
    revert h
    decide

theorem beginsItem_of_startsDeclaration {l : Lexeme} (h : l.startsDeclaration = true) :
    BeginsItem true l := by
  refine ⟨h, ?_, ?_, ?_, ?_⟩
  all_goals
    rintro rfl
    cases h

theorem beginsItem_front {st : Stmt String} (readable : st.isReadable) (ls : List Lexeme) :
    BeginsItem st.isDeclaration (s.front (st.spelling ++ ls)) := by
  cases declares : st.isDeclaration with
  | false => exact beginsItem_of_startsStatement (startsStatement_front readable declares ls)
  | true =>
      cases st with
      | declaration v =>
          simp only [Stmt.isReadable, Variable.isReadable, Declaration.isReadable,
            Bool.and_eq_true] at readable
          simp only [Stmt.spelling, Variable.spelling, List.append_assoc]
          exact beginsItem_of_startsDeclaration (startsDeclaration_front readable.1.1 _)
      | _ => cases declares

/-- A parser reads a statement back wherever at most `bound` lexemes are left; only behind a block
may an `else` stand. -/
def ReadsBackWithin (s : Setting) (nested : Parser (Stmt String)) (bound : Nat)
    (st : Stmt String) : Prop :=
  ∀ ls : List Lexeme, (st.spelling ++ ls).length ≤ bound →
    (st.isBlock = false → s.front ls ≠ .keyword .elseWord) →
    Takes s nested (st.spelling ++ ls) (· = st) ls

theorem length_spelling_statement_pos {st : Stmt String} (readable : st.isReadable) :
    0 < st.spelling.length := by
  -- otherwise the first lexeme could be any
  have begins := beginsItem_front (s := ⟨"", [], {}, ⟨.ending, 1, 1⟩⟩) readable []
  cases empty : st.spelling with
  | nil =>
      rw [empty] at begins
      exact absurd rfl begins.ne_ending
  | cons => simp

/-- Neither an item of a block nor its end goes on with a conditional. -/
theorem front_allSpelling_ne_else {ss : List (Stmt String)} (readable : Stmt.allReadable ss) :
    s.front (Stmt.allSpelling ss ++ .punctuator .braceClose :: after) ≠ .keyword .elseWord := by
  cases ss with
  | nil => simp [Stmt.allSpelling]
  | cons st ss =>
      rw [Stmt.allReadable, Bool.and_eq_true] at readable
      rw [Stmt.allSpelling, List.append_assoc]
      exact (beginsItem_front readable.1 _).ne_else

/-- An item of a block is read back. -/
theorem takes_blockItem (hs : s.Closed) {nested : Parser (Stmt String)} {bound : Nat}
    {st : Stmt String} (readable : st.isReadable)
    (read : st.isDeclaration = false → ReadsBackWithin s nested bound st)
    (found : List (Stmt String)) (hL : (st.spelling ++ ls).length ≤ bound)
    (noElse : s.front ls ≠ .keyword .elseWord) :
    Takes s (blockItem nested found) (st.spelling ++ ls) (· = .yield (found ++ [st])) ls := by
  have begins := beginsItem_front (s := s) readable ls
  refine takes_current.bind fun t ht => takes_atEnd.bind ?_
  rintro _ rfl
  have some : (st.spelling ++ ls).isEmpty = false := by
    cases empty : st.spelling ++ ls with
    | nil =>
        rw [empty] at begins
        exact absurd hs begins.ne_ending
    | cons => rfl
  rw [← ht] at begins
  simp only [begins.ne_braceClose, some, decide_false, Bool.false_or, Bool.false_eq_true, if_false]
  refine Takes.locatedAt ?_ t
  have starts := begins.startsDeclaration
  cases declares : st.isDeclaration with
  | true =>
      cases st with
      | declaration v =>
          simp only [starts, if_true, Stmt.isDeclaration, Stmt.spelling, List.append_assoc,
            List.singleton_append]
          refine (takes_localVariables hs readable).bind ?_
          rintro _ rfl
          exact .pure rfl
      | _ => cases declares
  | false =>
      rw [declares] at starts
      have noSemicolon : s.front (st.spelling ++ ls) ≠ .punctuator .semicolon := by
        rw [← ht]
        exact begins.ne_semicolon
      simp only [starts, Bool.false_eq_true, if_false]
      refine (takes_accept_other noSemicolon).bind ?_
      rintro _ rfl
      refine (read declares _ hL fun _ => noElse).bind ?_
      rintro _ rfl
      exact .pure rfl

/-- The items of a block are read back. -/
theorem takes_blockItems (hs : s.Closed) {nested : Parser (Stmt String)} {bound : Nat}
    {ss : List (Stmt String)} (readable : Stmt.allReadable ss)
    (read : ∀ st ∈ ss, st.isDeclaration = false → ReadsBackWithin s nested bound st)
    (found : List (Stmt String))
    (hL : (Stmt.allSpelling ss ++ .punctuator .braceClose :: after).length ≤ bound) :
    Takes s (loop (blockItem nested) found)
      (Stmt.allSpelling ss ++ .punctuator .braceClose :: after) (· = found ++ ss)
      (.punctuator .braceClose :: after) := by
  induction ss generalizing found with
  | nil =>
      refine Takes.loop_last (c := found) (takes_current.bind fun t ht => takes_atEnd.bind ?_)
        (by simp)
      rintro _ rfl
      simp only [ht, Stmt.allSpelling, List.nil_append, Setting.front_cons, decide_true,
        Bool.true_or, if_true]
      exact .pure rfl
  | cons st ss ih =>
      rw [Stmt.allReadable, Bool.and_eq_true] at readable
      rw [Stmt.allSpelling, List.append_assoc] at hL ⊢
      have begins := beginsItem_front (s := s) readable.1
        (Stmt.allSpelling ss ++ .punctuator .braceClose :: after)
      refine Takes.loop_next _ (takes_blockItem hs readable.1
        (read st (List.mem_cons_self ..)) found hL (front_allSpelling_ne_else readable.2)) ?_ ?_
      · have pos := length_spelling_statement_pos readable.1
        simp only [List.length_append]
        omega
      · have rest := ih readable.2 (fun st' h => read st' (List.mem_cons_of_mem _ h))
          (found ++ [st]) (by simp only [List.length_append] at hL ⊢; omega)
        rwa [List.append_assoc] at rest

/-- A block is read back. -/
theorem takes_blockWith (hs : s.Closed) {nested : Parser (Stmt String)} (bound : Nat)
    {ss : List (Stmt String)} (readable : Stmt.allReadable ss)
    (read : ∀ st ∈ ss, st.isDeclaration = false → ReadsBackWithin s nested bound st)
    (hL : ((Stmt.block ss).spelling ++ ls).length ≤ bound + 1) :
    Takes s (blockWith nested) ((Stmt.block ss).spelling ++ ls) (· = ss) ls := by
  simp only [Stmt.spelling, List.cons_append, List.append_assoc, List.nil_append,
    List.length_cons] at hL ⊢
  refine takes_expect.bind fun _ _ => ?_
  refine (takes_blockItems hs readable read [] (by omega)).bind ?_
  rintro _ rfl
  exact takes_expect.bind fun _ _ => .pure rfl

/-! ### Statements -/

/-- A block is a body as it is, whether bodies are put into blocks or not. -/
theorem takes_bodyWith {nested : Parser (Stmt String)} {body : Stmt String} (isBlock : body.isBlock)
    (read : Takes s nested (body.spelling ++ ls) (· = body) ls) :
    Takes s (bodyWith nested) (body.spelling ++ ls) (· = body) ls := by
  obtain ⟨ss, rfl⟩ : ∃ ss, body = .block ss := by
    cases body <;> first | exact ⟨_, rfl⟩ | cases isBlock
  refine read.bind ?_
  rintro _ rfl
  refine (takes_read.bind fun _ _ => .pure (P := fun _ => True) trivial).bind fun o _ => .pure ?_
  cases o.wrapBodies <;> rfl

theorem isDeclaration_of_isBlock {st : Stmt String} (isBlock : st.isBlock) :
    st.isDeclaration = false := by
  cases st <;> first | rfl | cases isBlock

section

variable {nested : Parser (Stmt String)} {bound : Nat}

/-- A body is a block, so that an `else` behind it does no harm. -/
theorem ReadsBackWithin.asBody {body : Stmt String} (h : ReadsBackWithin s nested bound body)
    (isBlock : body.isBlock) (hn : (body.spelling ++ ls).length ≤ bound) :
    Takes s (bodyWith nested) (body.spelling ++ ls) (· = body) ls := by
  refine takes_bodyWith isBlock (h _ hn ?_)
  intro noBlock
  rw [isBlock] at noBlock
  cases noBlock

theorem ReadsBackWithin.expression (hs : s.Closed) {value : Expr String}
    (readable : value.isReadable) :
    ReadsBackWithin s (statementWith nested) bound (.expression value) := by
  intro ls _ _
  rw [Stmt.spelling, List.append_assoc, List.singleton_append]
  have begins : startsExpression
      (s.front (value.spelling ++ .punctuator .semicolon :: ls)) = true := by
    rw [Expr.isReadable, Bool.and_eq_true] at readable
    exact value.startsExpression_front s readable.1 _
  have whole : Takes s (do
      let value ← Parser.expression
      expect .semicolon
      return Stmt.expression value) (value.spelling ++ .punctuator .semicolon :: ls)
      (· = .expression value) ls := by
    refine (takes_expression hs readable (.inl rfl)).bind ?_
    rintro _ rfl
    exact takes_expect.bind fun _ _ => .pure rfl
  refine takes_current.bind fun t ht => Takes.locatedAt ?_ t
  rw [← ht] at begins
  cases hl : t.lexeme with
  | keyword word =>
      rw [hl] at begins
      cases word <;> first | exact whole | cases begins
  | punctuator m =>
      rw [hl] at begins
      cases m <;> first | exact whole | cases begins
  | _ => exact whole

theorem ReadsBackWithin.ifThen (hs : s.Closed) {test : Expr String} {body : Stmt String}
    (readableTest : test.isReadable) (isBlock : body.isBlock)
    (h : ReadsBackWithin s nested bound body) :
    ReadsBackWithin s (statementWith nested) (bound + 1) (.ifThen test body) := by
  intro ls hn noElse
  simp only [Stmt.spelling, List.cons_append, List.append_assoc, List.length_cons,
    List.length_append] at hn ⊢
  refine takes_current.bind fun t ht => Takes.locatedAt ?_ t
  simp only [ht, Setting.front_cons]
  refine takes_advance.bind fun _ _ => (takes_condition hs readableTest).bind ?_
  rintro _ rfl
  refine (h.asBody isBlock (by rw [List.length_append]; omega)).bind ?_
  rintro _ rfl
  refine (takes_acceptLexeme_other (noElse rfl)).bind ?_
  rintro _ rfl
  exact .pure rfl

theorem ReadsBackWithin.ifElse (hs : s.Closed) {test : Expr String} {body elseBody : Stmt String}
    (readableTest : test.isReadable) (isBlock : body.isBlock) (isBlock' : elseBody.isBlock)
    (h : ReadsBackWithin s nested bound body) (h' : ReadsBackWithin s nested bound elseBody) :
    ReadsBackWithin s (statementWith nested) (bound + 1) (.ifElse test body elseBody) := by
  intro ls hn _
  simp only [Stmt.spelling, List.cons_append, List.append_assoc, List.length_cons,
    List.length_append] at hn ⊢
  refine takes_current.bind fun t ht => Takes.locatedAt ?_ t
  simp only [ht, Setting.front_cons]
  refine takes_advance.bind fun _ _ => (takes_condition hs readableTest).bind ?_
  rintro _ rfl
  refine (h.asBody isBlock ?_).bind ?_
  · simp only [List.length_append, List.length_cons]
    omega
  rintro _ rfl
  refine takes_acceptLexeme.bind ?_
  rintro _ rfl
  refine (h'.asBody isBlock' (by rw [List.length_append]; omega)).bind ?_
  rintro _ rfl
  exact .pure rfl

theorem ReadsBackWithin.whileLoop (hs : s.Closed) {test : Expr String} {body : Stmt String}
    (readableTest : test.isReadable) (isBlock : body.isBlock)
    (h : ReadsBackWithin s nested bound body) :
    ReadsBackWithin s (statementWith nested) (bound + 1) (.whileLoop test body) := by
  intro ls hn _
  simp only [Stmt.spelling, List.cons_append, List.append_assoc, List.length_cons,
    List.length_append] at hn ⊢
  refine takes_current.bind fun t ht => Takes.locatedAt ?_ t
  simp only [ht, Setting.front_cons]
  refine takes_advance.bind fun _ _ => (takes_condition hs readableTest).bind ?_
  rintro _ rfl
  refine (h.asBody isBlock (by rw [List.length_append]; omega)).bind ?_
  rintro _ rfl
  exact .pure rfl

theorem ReadsBackWithin.forLoop (hs : s.Closed) {first : Option (Variable String)}
    {test step : Option (Expr String)} {body : Stmt String}
    (readableFirst : Variable.optionIsReadable first) (readableTest : Expr.optionIsReadable test)
    (readableStep : Expr.optionIsReadable step) (isBlock : body.isBlock)
    (h : ReadsBackWithin s nested bound body) :
    ReadsBackWithin s (statementWith nested) (bound + 1) (.forLoop first test step body) := by
  intro ls hn _
  simp only [Stmt.spelling, List.cons_append, List.append_assoc, List.length_cons,
    List.length_append] at hn ⊢
  refine takes_current.bind fun t ht => Takes.locatedAt ?_ t
  simp only [ht, Setting.front_cons]
  refine takes_advance.bind fun _ _ => takes_expect.bind fun _ _ => ?_
  refine (takes_loopVariable hs readableFirst).bind ?_
  rintro _ rfl
  refine takes_expect.bind fun _ _ => ?_
  refine (takes_expressionBefore hs readableTest (.inl rfl)).bind ?_
  rintro _ rfl
  refine takes_expect.bind fun _ _ => ?_
  refine (takes_expressionBefore hs readableStep (.inr rfl)).bind ?_
  rintro _ rfl
  refine takes_expect.bind fun _ _ => ?_
  refine (h.asBody isBlock (by rw [List.length_append]; omega)).bind ?_
  rintro _ rfl
  exact .pure rfl

theorem ReadsBackWithin.breakLoop :
    ReadsBackWithin s (statementWith nested) bound .breakLoop := by
  intro ls _ _
  refine takes_current.bind fun t ht => Takes.locatedAt ?_ t
  simp only [ht, Stmt.spelling, List.cons_append, List.nil_append, Setting.front_cons]
  exact takes_advance.bind fun _ _ => (takes_expectAs _).bind fun _ _ => .pure rfl

theorem ReadsBackWithin.continueLoop :
    ReadsBackWithin s (statementWith nested) bound .continueLoop := by
  intro ls _ _
  refine takes_current.bind fun t ht => Takes.locatedAt ?_ t
  simp only [ht, Stmt.spelling, List.cons_append, List.nil_append, Setting.front_cons]
  exact takes_advance.bind fun _ _ => (takes_expectAs _).bind fun _ _ => .pure rfl

theorem ReadsBackWithin.returnWith (hs : s.Closed) {value : Option (Expr String)}
    (readable : Expr.optionIsReadable value) :
    ReadsBackWithin s (statementWith nested) bound (.returnWith value) := by
  intro ls _ _
  refine takes_current.bind fun t ht => Takes.locatedAt ?_ t
  simp only [ht, Stmt.spelling, List.cons_append, List.append_assoc, List.nil_append,
    Setting.front_cons]
  refine takes_advance.bind fun _ _ => ?_
  refine (takes_expressionBefore hs readable (.inl rfl)).bind ?_
  rintro _ rfl
  exact (takes_expectAs _).bind fun _ _ => .pure rfl

theorem ReadsBackWithin.block (hs : s.Closed) {ss : List (Stmt String)}
    (readable : Stmt.allReadable ss)
    (h : ∀ st ∈ ss, st.isDeclaration = false → ReadsBackWithin s nested bound st) :
    ReadsBackWithin s (statementWith nested) (bound + 1) (.block ss) := by
  intro ls hn _
  refine takes_current.bind fun t ht => Takes.locatedAt ?_ t
  have brace : t.lexeme = .punctuator .braceOpen := ht
  simp only [brace]
  refine (takes_blockWith hs bound readable h hn).bind ?_
  rintro _ rfl
  exact .pure rfl

end

/-- A budget for one level more is enough, since without any nothing can be left. -/
theorem ReadsBackWithin.of_succ {st : Stmt String} (readable : st.isReadable)
    (h : ∀ m, ReadsBackWithin s (statementWith (statementWithin (m + 1))) (m + 1) st) (n : Nat) :
    ReadsBackWithin s (statementWithin (n + 1)) n st := by
  cases n with
  | zero =>
      intro ls hn _
      have pos := length_spelling_statement_pos readable
      rw [List.length_append] at hn
      omega
  | succ m => exact h m

/-- **A statement is read back** as long as the budget outlasts the lexemes. -/
theorem readsBackWithin (hs : s.Closed) {st : Stmt String} (readable : st.isReadable)
    (noDeclaration : st.isDeclaration = false) (n : Nat) :
    ReadsBackWithin s (statementWithin (n + 1)) n st := by
  induction st using Stmt.induct generalizing n with
  | blank => cases readable
  | declaration v => cases noDeclaration
  | expression value => exact .expression hs readable
  | ifThen test body ih =>
      have parts := readable
      simp only [Stmt.isReadable, Bool.and_eq_true] at parts
      obtain ⟨⟨readableTest, isBlock⟩, readableBody⟩ := parts
      have inner := ih readableBody (isDeclaration_of_isBlock isBlock)
      exact .of_succ readable (fun m => .ifThen hs readableTest isBlock (inner m)) n
  | ifElse test body elseBody ih ih' =>
      have parts := readable
      simp only [Stmt.isReadable, Bool.and_eq_true] at parts
      obtain ⟨⟨⟨⟨readableTest, isBlock⟩, readableBody⟩, isBlock'⟩, readableElse⟩ := parts
      have inner := ih readableBody (isDeclaration_of_isBlock isBlock)
      have inner' := ih' readableElse (isDeclaration_of_isBlock isBlock')
      exact .of_succ readable (fun m => .ifElse hs readableTest isBlock isBlock'
        (inner m) (inner' m)) n
  | whileLoop test body ih =>
      have parts := readable
      simp only [Stmt.isReadable, Bool.and_eq_true] at parts
      obtain ⟨⟨readableTest, isBlock⟩, readableBody⟩ := parts
      have inner := ih readableBody (isDeclaration_of_isBlock isBlock)
      exact .of_succ readable (fun m => .whileLoop hs readableTest isBlock (inner m)) n
  | forLoop first test step body ih =>
      have parts := readable
      simp only [Stmt.isReadable, Bool.and_eq_true] at parts
      obtain ⟨⟨⟨⟨readableFirst, readableTest⟩, readableStep⟩, isBlock⟩, readableBody⟩ := parts
      have inner := ih readableBody (isDeclaration_of_isBlock isBlock)
      exact .of_succ readable (fun m => .forLoop hs readableFirst readableTest readableStep isBlock
        (inner m)) n
  | breakLoop => exact .breakLoop
  | continueLoop => exact .continueLoop
  | returnWith value => exact .returnWith hs readable
  | block ss ih =>
      have each := Stmt.allReadable_iff.1 readable
      refine .of_succ readable (fun m => .block hs readable ?_) n
      intro st hst declares
      exact ih st hst (each st hst) declares m

/-- A statement that is no declaration is read back. -/
theorem takes_statement (hs : s.Closed) {st : Stmt String} (readable : st.isReadable)
    (noDeclaration : st.isDeclaration = false)
    (noElse : st.isBlock = false → s.front ls ≠ .keyword .elseWord) :
    Takes s statement (st.spelling ++ ls) (· = st) ls := by
  refine Takes.budgeted fun n hn => ?_
  obtain ⟨m, rfl⟩ : ∃ m, n = m + 1 := ⟨n - 1, by omega⟩
  exact readsBackWithin hs readable noDeclaration m ls (by omega) noElse

/-- A block is read back. -/
theorem takes_block (hs : s.Closed) {b : Block String} (readable : b.isReadable) :
    Takes s block (b.spelling ++ ls) (· = b) ls := by
  refine (takes_blockWith hs (b.spelling ++ ls).length readable ?_ ?_).bind ?_
  · intro st hst declares _ _ noElse
    exact takes_statement hs (Stmt.allReadable_iff.1 readable st hst) declares noElse
  · exact Nat.le_succ _
  · rintro _ rfl
    exact .pure rfl

end Parser

end PlainC
