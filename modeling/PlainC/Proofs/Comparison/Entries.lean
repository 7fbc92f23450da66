/-
**The entry points agree.**

A whole source can be read as a program, as a statement or as an expression, and the three readings
end at different tokens: a statement in a function ends in front of a closing brace or of another
statement, a whole one at the end of the source; an expression ends there too, or at the semicolon
of its statement.  None of this makes a difference to the tree.  A whole statement is the only one
in a function around it, unless it is a lone semicolon, which is nothing in a block.  A whole
expression is the same as a statement with a semicolon behind it, or behind `return`.

Main definitions:

* `PlainC.Parser.ExpressionLine` — an expression with a semicolon behind it;
* `PlainC.Declaration.void` — the declaration of a function without a result;
* `PlainC.Reader.outcome?` — what reading a row of tokens comes to.

Main results:

* `PlainC.Parser.statement_eq_ok_expression_iff`, `PlainC.Parser.statement_eq_ok_return_iff` — the
  statements that are an expression or return one;
* `PlainC.Parser.expressionLine_iff` — **an expression is read in front of its semicolon exactly as
  in front of the end of the source**;
* `PlainC.Parser.block_of_whole` — **a whole statement in braces is a block of this statement**;
* `PlainC.Parser.unit_of_header` — a block behind the header of a function is the body of it;
* `PlainC.Reader.entries_agree` — **the entry points agree** on every row of tokens.
-/

import PlainC.Proofs.Comparison.Retelling
import PlainC.Proofs.Comparison.Settling
import PlainC.Proofs.Comparison.Shortening
import PlainC.Proofs.Parsing.Yielding
import PlainC.Proofs.RoundTrip.Program

set_option relaxedAutoImplicit false
set_option autoImplicit false

namespace PlainC

/-- The declaration of a function without a result. -/
def Declaration.void (name : String) : Declaration String :=
  ⟨⟨false, false, [.void]⟩, .plain, some name⟩

namespace Parser

variable {s : Setting} {p q : Progress} {e : Expr String} {st : Stmt String}

/-! ### Whole statements and whole expressions -/

theorem wholeExpression_eq_ok_iff_reads (closed : s.Closed) :
    wholeExpression s p = .ok e q ↔
      Reads s (.expression expressionLevel) p e q ∧ q.rest = [] := by
  simp only [wholeExpression, bind_eq_ok_iff, expression_eq_ok_iff closed, finish_eq_ok_iff,
    pure_eq_ok_iff]
  constructor
  · rintro ⟨_, r, read, _, _, ⟨done, rfl⟩, rfl, rfl⟩
    exact ⟨read, done⟩
  · rintro ⟨read, done⟩
    exact ⟨e, q, read, (), q, ⟨done, rfl⟩, rfl, rfl⟩

/-- A whole statement is the declaration of one variable, or it begins like no declaration. -/
theorem wholeStatement_eq_ok_iff :
    wholeStatement s p = .ok st q ↔ q.rest = [] ∧
      (((p.front s).startsDeclaration = true ∧
          ∃ v, localVariables s p = .ok [v] q ∧ .declaration v = st) ∨
        (p.front s).startsDeclaration = false ∧ statement s p = .ok st q) := by
  rw [wholeStatement, current_bind, lexeme_headD]
  by_cases declares : (p.front s).startsDeclaration = true
  · simp only [declares, if_true, bind_eq_ok_iff, locatedAt_eq_ok_iff, finish_eq_ok_iff,
      pure_eq_ok_iff]
    constructor
    · rintro ⟨_, _, ⟨vs, r, read, one⟩, _, _, ⟨done, rfl⟩, rfl, rfl⟩
      split at one
      · obtain ⟨rfl, rfl⟩ := pure_eq_ok_iff.1 one
        exact ⟨done, .inl ⟨trivial, _, read, rfl⟩⟩
      · cases one
    · rintro ⟨done, ⟨-, v, read, rfl⟩ | ⟨not, -⟩⟩
      · exact ⟨_, q, ⟨[v], q, read, rfl⟩, (), q, ⟨done, rfl⟩, rfl, rfl⟩
      · cases not
  · rw [if_neg declares]
    simp only [bind_eq_ok_iff, finish_eq_ok_iff, pure_eq_ok_iff]
    constructor
    · rintro ⟨_, _, read, _, _, ⟨done, rfl⟩, rfl, rfl⟩
      exact ⟨done, .inr ⟨by simpa using declares, read⟩⟩
    · rintro ⟨done, ⟨yes, -⟩ | ⟨-, read⟩⟩
      · exact absurd yes declares
      · exact ⟨st, q, read, (), q, ⟨done, rfl⟩, rfl, rfl⟩

/-! ### Statements with an expression -/

theorem expressionBefore_eq_ok_iff {m : Punctuator} {value : Option (Expr String)} :
    expressionBefore m s p = .ok value q ↔
      (p.front s = .punctuator m ∧ none = value ∧ p = q) ∨
        (p.front s ≠ .punctuator m ∧ ∃ e, expression s p = .ok e q ∧ some e = value) := by
  simp only [expressionBefore, bind_eq_ok_iff, nextIs_eq_ok_iff]
  by_cases here : p.front s = .punctuator m
  · constructor
    · rintro ⟨_, _, ⟨rfl, rfl⟩, read⟩
      simp only [here, decide_true, if_true, pure_eq_ok_iff] at read
      exact .inl ⟨here, read⟩
    · rintro (⟨-, rfl, rfl⟩ | ⟨not, -⟩)
      · exact ⟨_, _, ⟨rfl, rfl⟩, by simp [here, pure_eq_ok_iff]⟩
      · exact absurd here not
  · constructor
    · rintro ⟨_, _, ⟨rfl, rfl⟩, read⟩
      simp only [here, decide_false, Bool.false_eq_true, if_false, bind_eq_ok_iff,
        pure_eq_ok_iff] at read
      obtain ⟨e, _, read, same, rfl⟩ := read
      exact .inr ⟨here, e, read, same⟩
    · rintro (⟨yes, -⟩ | ⟨-, e, read, same⟩)
      · exact absurd yes here
      · refine ⟨_, _, ⟨rfl, rfl⟩, ?_⟩
        simp only [here, decide_false, Bool.false_eq_true, if_false, bind_eq_ok_iff,
          pure_eq_ok_iff]
        exact ⟨e, q, read, same, rfl⟩

/-- The expression `e` is read at `p`, a semicolon stands behind it, and `q` is behind that. -/
def ExpressionLine (s : Setting) (p : Progress) (e : Expr String) (q : Progress) : Prop :=
  ∃ r, Reads s (.expression expressionLevel) p e r ∧ r.front s = .punctuator .semicolon ∧
    r.behind = q

/-- What stands between `p` and `q` if the statement there is an expression or returns one. -/
def HoldsExpression (s : Setting) (p q : Progress) : Stmt String → Prop
  | .expression e => ExpressionLine s p e q
  | .returnWith (some e) => p.front s = .keyword .returnWord ∧ ExpressionLine s p.behind e q
  | _ => True

/-- Read at `p`, a rule for statements reads such expressions only as they are written. -/
def FindsExpressions (s : Setting) (p : Progress) (x : Parser (Stmt String)) : Prop :=
  ∀ st q, x s p = .ok st q → HoldsExpression s p q st

namespace FindsExpressions

theorem of_yields {x : Parser (Stmt String)}
    (h : Yields s x fun st => ∀ p q, HoldsExpression s p q st) : FindsExpressions s p x :=
  fun st q read => h p st q read p q

theorem current {k : Token → Parser (Stmt String)}
    (h : FindsExpressions s p (k (p.rest.headD s.ending))) :
    FindsExpressions s p (current >>= k) :=
  fun st q read => h st q (by rwa [current_bind] at read)

theorem locatedAt {x : Parser (Stmt String)} (t : Token) (h : FindsExpressions s p x) :
    FindsExpressions s p (locatedAt t x) :=
  fun st q read => h st q (locatedAt_eq_ok_iff.1 read)

end FindsExpressions

theorem statementWith_findsExpressions (closed : s.Closed) (nested : Parser (Stmt String)) :
    FindsExpressions s p (statementWith nested) := by
  have body {k : Stmt String → Stmt String} (other : ∀ st p q, HoldsExpression s p q (k st)) :
      Yields s (bodyWith nested >>= fun st => pure (k st)) fun st =>
        ∀ p q, HoldsExpression s p q st :=
    .skip fun st => .pure fun p q => other st p q
  refine .current (.locatedAt _ ?_)
  split
  · refine .of_yields (.skip fun _ => .skip fun _ => .skip fun _ => .skip fun _ => .ite ?_ ?_)
    · exact fun _ => body fun _ _ _ => trivial
    · exact fun _ => .pure fun _ _ => trivial
  · exact .of_yields (.skip fun _ => .skip fun _ => body fun _ _ _ => trivial)
  · refine .of_yields (.skip fun _ => .skip fun _ => .skip fun _ => .skip fun _ => ?_)
    exact .skip fun _ => .skip fun _ => .skip fun _ => .skip fun _ => body fun _ _ _ => trivial
  · rename_i word
    intro st q read
    simp only [bind_eq_ok_iff, advance_eq_ok_iff, expectAs_eq_ok_iff, pure_eq_ok_iff] at read
    obtain ⟨_, _, rfl, value, r, before, _, _, ⟨semicolon, rfl⟩, rfl, rfl⟩ := read
    rcases expressionBefore_eq_ok_iff.1 before with ⟨-, rfl, -⟩ | ⟨-, e, inner, rfl⟩
    · trivial
    · exact ⟨word, r, (expression_eq_ok_iff closed).1 inner, semicolon, rfl⟩
  · exact .of_yields (.skip fun _ => .skip fun _ => .pure fun _ _ => trivial)
  · exact .of_yields (.skip fun _ => .skip fun _ => .pure fun _ _ => trivial)
  · exact .of_yields (.skip fun _ => .pure fun _ _ => trivial)
  · exact .of_yields (.skip fun _ => .pure fun _ _ => trivial)
  · intro st q read
    split at read
    · obtain ⟨_, _, stop, -⟩ := bind_eq_ok_iff.1 read
      simp at stop
    · simp only [bind_eq_ok_iff, expect_eq_ok_iff, pure_eq_ok_iff] at read
      obtain ⟨e, r, inner, _, _, ⟨semicolon, rfl⟩, rfl, rfl⟩ := read
      exact ⟨r, (expression_eq_ok_iff closed).1 inner, semicolon, rfl⟩

/-- A statement that is an expression is this expression with a semicolon behind it. -/
theorem statement_eq_ok_expression_iff (closed : s.Closed) :
    statement s p = .ok (.expression e) q ↔ ExpressionLine s p e q := by
  refine ⟨statementWith_findsExpressions closed _ _ _, ?_⟩
  rintro ⟨r, read, semicolon, rfl⟩
  have begins := read.startsExpression_front
  have whole : (do
      let value ← expression
      expect .semicolon
      return Stmt.expression value : Parser (Stmt String)) s p = .ok (.expression e) r.behind :=
    bind_eq_ok_iff.2 ⟨e, r, (expression_eq_ok_iff closed).2 read,
      bind_eq_ok_iff.2 ⟨(), r.behind, expect_of_front semicolon, rfl⟩⟩
  change statementWith (statementWithin p.rest.length) s p = _
  rw [statementWith, current_bind, locatedAt_eq_ok_iff, lexeme_headD]
  -- none of the words of other statements begins an expression
  cases word : p.front s with
  | keyword k =>
      rw [word] at begins
      cases k <;> first | exact whole | cases begins
  | punctuator m =>
      rw [word] at begins
      cases m <;> first | exact whole | cases begins
  | _ => exact whole

/-- A statement that returns an expression is this expression between `return` and a semicolon. -/
theorem statement_eq_ok_return_iff (closed : s.Closed) :
    statement s p = .ok (.returnWith (some e)) q ↔
      p.front s = .keyword .returnWord ∧ ExpressionLine s p.behind e q := by
  refine ⟨statementWith_findsExpressions closed _ _ _, ?_⟩
  rintro ⟨word, r, read, semicolon, rfl⟩
  have some : p.behind.front s ≠ .punctuator .semicolon := by
    intro same
    have begins := read.startsExpression_front
    rw [same] at begins
    cases begins
  have value : expressionBefore .semicolon s p.behind = .ok (Option.some e) r :=
    expressionBefore_eq_ok_iff.2 (.inr ⟨some, e, (expression_eq_ok_iff closed).2 read, rfl⟩)
  change statementWith (statementWithin p.rest.length) s p = _
  rw [statementWith, current_bind, locatedAt_eq_ok_iff, lexeme_headD, word]
  exact bind_eq_ok_iff.2 ⟨(), p.behind, rfl, bind_eq_ok_iff.2 ⟨_, r, value,
    bind_eq_ok_iff.2 ⟨(), r.behind, expectAs_eq_ok_iff.2 ⟨semicolon, rfl⟩, rfl⟩⟩⟩

theorem wholeStatement_eq_ok_expression_iff (closed : s.Closed) :
    wholeStatement s p = .ok (.expression e) q ↔ ExpressionLine s p e q ∧ q.rest = [] := by
  rw [wholeStatement_eq_ok_iff, statement_eq_ok_expression_iff closed]
  constructor
  · rintro ⟨done, ⟨-, v, -, same⟩ | ⟨-, line⟩⟩
    · cases same
    · exact ⟨line, done⟩
  · rintro ⟨⟨r, read, behind⟩, done⟩
    exact ⟨done, .inr ⟨read.front_startsDeclaration, r, read, behind⟩⟩

theorem wholeStatement_eq_ok_return_iff (closed : s.Closed) :
    wholeStatement s p = .ok (.returnWith (some e)) q ↔
      p.front s = .keyword .returnWord ∧ ExpressionLine s p.behind e q ∧ q.rest = [] := by
  rw [wholeStatement_eq_ok_iff, statement_eq_ok_return_iff closed]
  constructor
  · rintro ⟨done, ⟨-, v, -, same⟩ | ⟨-, word, line⟩⟩
    · cases same
    · exact ⟨word, line, done⟩
  · rintro ⟨word, line, done⟩
    exact ⟨done, .inr ⟨by rw [word]; rfl, word, line⟩⟩

/-- **An expression is read in front of its semicolon exactly as in front of the end of the
source.** -/
theorem expressionLine_iff (closed : s.Closed) {ending semicolon : Token}
    (closed' : ending.lexeme = .ending) (mark : semicolon.lexeme = .punctuator .semicolon)
    {ts : List Token} {names : List String} :
    (∃ q, ExpressionLine (s.endingAt ending) ⟨ts ++ [semicolon], names⟩ e q ∧ q.rest = []) ↔
      ∃ q, Reads s (.expression expressionLevel) ⟨ts, names⟩ e q ∧ q.rest = [] := by
  constructor
  · rintro ⟨_, ⟨⟨left, names'⟩, read, front, rfl⟩, done⟩
    -- only the semicolon is left behind the expression
    obtain ⟨t, rfl⟩ : ∃ t, left = [t] := by
      rcases left with _ | ⟨t, more⟩
      · exact absurd (front.symm.trans closed') Lexeme.noConfusion
      · exact ⟨t, by rw [show more = [] from done]⟩
    obtain ⟨before, whole⟩ := read.rest_suffix
    obtain rfl : t = semicolon := List.singleton_inj.1 (List.append_inj' whole rfl).2
    have stop : StopsExpression (([] : List Token).headD s.ending).lexeme := by
      rw [List.headD_nil, closed]
      exact stopsExpression_ending
    have closedThere : (s.endingAt ending).Closed := closed'
    have same := read.exchange (b := ⟨ts, names⟩) (c := ⟨[], names'⟩) closedThere stop rfl rfl
    rw [Progress.followed, List.append_nil] at same
    exact ⟨_, same, rfl⟩
  · rintro ⟨⟨_, names'⟩, read, rfl⟩
    have stop : StopsExpression (([semicolon].headD ending).lexeme) := by
      rw [List.headD_cons, mark]
      exact stopsExpression_semicolon
    have plain (p : Progress) : p = p.followed [] := by
      rw [Progress.followed, List.append_nil]
    have same := read.exchange closed stop (plain _) (plain _)
    exact ⟨⟨[], names'⟩, ⟨_, same, mark, rfl⟩, rfl⟩

/-! ### A block of one statement -/

/-- No statement begins with a closing brace, and one that begins with a semicolon is nothing
more. -/
theorem statement_front (closed : s.Closed) (read : statement s p = .ok st q) :
    p.front s ≠ .punctuator .braceClose ∧
      (p.front s = .punctuator .semicolon → q = p.behind) := by
  change statementWith (statementWithin p.rest.length) s p = _ at read
  rw [statementWith, current_bind, locatedAt_eq_ok_iff, lexeme_headD] at read
  constructor
  · intro word
    rw [word] at read
    obtain ⟨e, r, inner, -⟩ := bind_eq_ok_iff.1 read
    have begins := ((expression_eq_ok_iff closed).1 inner).startsExpression_front
    rw [word] at begins
    cases begins
  · intro word
    rw [word] at read
    obtain ⟨_, _, past, rest⟩ := bind_eq_ok_iff.1 read
    rw [← (pure_eq_ok_iff.1 rest).2, advance_eq_ok_iff.1 past]

theorem localVariables_closes : Closes localVariables :=
  .bind specifier_alike fun _ => .bind (.commaSeparated (variableOf_alike _)) fun _ =>
    .expectThen rfl _ _

section

variable {nested : Parser (Stmt String)} {statements : List (Stmt String)}

theorem blockItem_of_close (close : p.front s = .punctuator .braceClose) :
    blockItem nested statements s p = .ok (.done statements) p := by
  refine (current_bind _).trans ((atEnd_bind _).trans ?_)
  rw [lexeme_headD, close, decide_eq_true rfl, Bool.true_or, if_pos rfl]
  rfl

/-- Items in braces are a block. -/
theorem block_of_items (brace : p.front s = .punctuator .braceOpen)
    (items : loop (blockItem statement) [] s p.behind = .ok statements q)
    (close : q.front s = .punctuator .braceClose) : block s p = .ok ⟨statements⟩ q.behind := by
  have inside : blockWith statement s p = .ok statements q.behind :=
    (bind_of_ok (expect_of_front brace) _).trans
      ((bind_of_ok items _).trans (bind_of_ok (expect_of_front close) _))
  exact bind_of_ok inside _

/-- Anything else at the front of a block is an item of it. -/
theorem blockItem_of_other (some : p.rest ≠ []) (other : p.front s ≠ .punctuator .braceClose) :
    blockItem nested statements s p = locatedAt (p.rest.headD s.ending) (do
      if (p.front s).startsDeclaration then
        return .yield (statements ++ (← localVariables).map .declaration)
      if ← accept .semicolon then return .yield statements
      return .yield (statements ++ [← nested])) s p := by
  refine (current_bind _).trans ((atEnd_bind _).trans ?_)
  have goesOn : ¬ (decide (p.front s = .punctuator .braceClose) || p.rest.isEmpty) = true := by
    simp [other, some]
  rw [lexeme_headD, if_neg goesOn]

theorem blockItem_of_declaration (some : p.rest ≠ [])
    (declares : (p.front s).startsDeclaration = true) {vs : List (Variable String)}
    (read : localVariables s p = .ok vs q) :
    blockItem nested statements s p = .ok (.yield (statements ++ vs.map .declaration)) q := by
  have notClose : p.front s ≠ .punctuator .braceClose := by
    intro word
    rw [word] at declares
    cases declares
  rw [blockItem_of_other some notClose, locatedAt_eq_ok_iff, if_pos declares]
  exact bind_of_ok read _

theorem blockItem_of_statement (some : p.rest ≠ []) (notClose : p.front s ≠ .punctuator .braceClose)
    (noSemicolon : p.front s ≠ .punctuator .semicolon)
    (noDeclaration : (p.front s).startsDeclaration = false) (read : nested s p = .ok st q) :
    blockItem nested statements s p = .ok (.yield (statements ++ [st])) q := by
  rw [blockItem_of_other some notClose, locatedAt_eq_ok_iff, noDeclaration,
    if_neg Bool.false_ne_true]
  have stays : accept .semicolon s p = .ok false p :=
    accept_eq_ok_iff.2 (.inr ⟨noSemicolon, rfl, rfl⟩)
  exact (bind_of_ok stays _).trans (bind_of_ok read _)

end

/-- A whole statement is at least one token. -/
theorem length_of_wholeStatement (closed : s.Closed) (read : wholeStatement s p = .ok st q) :
    0 < p.rest.length := by
  have cost := wholeStatement_ends (n := 0) s p closed trivial
  rw [read] at cost
  exact Nat.lt_of_lt_of_le (Nat.succ_pos q.rest.length) cost

/-- A whole statement is an item of a block that goes on with other tokens, unless it is a lone
semicolon. -/
theorem blockItem_of_whole (closed : s.Closed) {ending : Token} {tail : List Token}
    (noElse : (tail.headD ending).lexeme ≠ .keyword .elseWord)
    (read : wholeStatement s p = .ok st q) (some : p.lexemes ≠ [.punctuator .semicolon])
    (statements : List (Stmt String)) :
    blockItem statement statements (s.endingAt ending) (p.followed tail) =
      .ok (.yield (statements ++ [st])) (q.followed tail) := by
  have longer := length_of_wholeStatement closed read
  obtain ⟨_ | ⟨t, more⟩, names⟩ := p
  · cases longer
  obtain ⟨done, found⟩ := wholeStatement_eq_ok_iff.1 read
  rcases found with ⟨declares, v, vars, rfl⟩ | ⟨noDeclaration, inner⟩
  · have settles : Settles s ending tail ⟨t :: more, names⟩ _ _ :=
      localVariables_closes.settles closed
    refine blockItem_of_declaration ?_ ?_ (settles.followed vars)
    · exact List.cons_ne_nil _ _
    · exact declares
  · have settles : Settles s ending tail ⟨t :: more, names⟩ _ _ := statement_settles closed noElse
    obtain ⟨notClose, lone⟩ := statement_front closed inner
    have noSemicolon : t.lexeme ≠ .punctuator .semicolon := by
      intro word
      rw [lone word] at done
      obtain rfl : more = [] := done
      exact some (congrArg (· :: []) word)
    refine blockItem_of_statement ?_ ?_ ?_ ?_ (settles.followed inner)
    · exact List.cons_ne_nil _ _
    · exact notClose
    · exact noSemicolon
    · exact noDeclaration

/-- **A whole statement in braces is a block of this statement**, unless it is a lone semicolon. -/
theorem block_of_whole (closed : s.Closed) (ending : Token) {brace close : Token}
    (hb : brace.lexeme = .punctuator .braceOpen) (hc : close.lexeme = .punctuator .braceClose)
    {ts : List Token} (some : ts.map Token.lexeme ≠ [.punctuator .semicolon])
    (read : wholeStatement s ⟨ts, []⟩ = .ok st q) (names : List String) :
    ∃ names', block (s.endingAt ending) ⟨brace :: (ts ++ [close]), names⟩ =
      .ok ⟨[st]⟩ ⟨[], names'⟩ := by
  -- the names that were met before make no difference
  have here : wholeStatement s ⟨ts, names⟩ = .ok st (q.after names) := by
    have told := wholeStatement_alike.retells s names ⟨ts, []⟩
    rw [read, Progress.after, List.append_nil] at told
    exact told
  have noElse : ([close].headD ending).lexeme ≠ .keyword .elseWord := by
    rw [List.headD_cons, hc]
    exact Lexeme.noConfusion
  obtain ⟨done, -⟩ := wholeStatement_eq_ok_iff.1 here
  have item := blockItem_of_whole closed noElse here some []
  have last : ((q.after names).followed [close]).front (s.endingAt ending) =
      .punctuator .braceClose := by
    rw [Progress.followed, done]
    exact hc
  have shorter : ((q.after names).followed [close]).rest.length < (ts ++ [close]).length := by
    have longer := length_of_wholeStatement closed here
    rw [Progress.rest_followed, done]
    simpa using longer
  have items := loop_yield item shorter (loop_done (blockItem_of_close last))
  have whole := block_of_items (p := ⟨brace :: (ts ++ [close]), names⟩) hb items last
  rw [Progress.followed, done] at whole
  exact ⟨_, whole⟩

/-! ### A function around a block -/

section

variable {name left right brace : Token} {f : String} {more : List Token}

theorem specifier_of_void {word : Token} (hw : word.lexeme = .keyword .void)
    (hn : name.lexeme = .identifier f) (names : List String) :
    ∃ names', specifier s ⟨word :: name :: more, names⟩ =
      .ok (Declaration.void f).specifier ⟨name :: more, names'⟩ := by
  have takes : Takes s specifier (([word] ++ name :: more).map Token.lexeme)
      (· = (Declaration.void f).specifier) ((name :: more).map Token.lexeme) := by
    have spelled : (Declaration.void f).specifier.hasSpelling = true := rfl
    rw [List.map_append, List.map_singleton, hw]
    refine takes_specifier spelled ?_ ?_
    · rw [List.map_cons, hn]
      rfl
    · rw [List.map_cons, hn]
      exact Lexeme.noConfusion
  obtain ⟨_, names', read, rfl⟩ := takes.leaves specifier_advances names
  exact ⟨names', read⟩

theorem topDeclarator_of_name (hn : name.lexeme = .identifier f)
    (hl : left.lexeme = .punctuator .parenOpen) (hr : right.lexeme = .punctuator .parenClose)
    (hb : brace.lexeme = .punctuator .braceOpen) (names : List String) :
    ∃ d names', topDeclarator s ⟨name :: left :: right :: brace :: more, names⟩ =
      .ok d ⟨brace :: more, names'⟩ ∧ Declares (.void f) [] d := by
  have takes : Takes s topDeclarator (([name, left, right] ++ brace :: more).map Token.lexeme)
      (Declares (.void f) []) ((brace :: more).map Token.lexeme) := by
    have spelled : ∀ p ∈ ([] : List (Declaration String)), p.hasSpelling := by simp
    have other {m : Punctuator} (h : .braceOpen ≠ m) :
        s.front ((brace :: more).map Token.lexeme) ≠ .punctuator m := by
      rw [List.map_cons, Setting.front_cons, hb]
      simpa using h
    rw [List.map_append]
    change Takes s topDeclarator (name.lexeme :: left.lexeme :: right.lexeme :: _) _ _
    rw [hn, hl, hr]
    exact takes_topDeclarator_function (d := .void f) rfl rfl spelled (by simp) (other (by simp))
      (other (by simp))
  exact takes.leaves (topDeclarator_alike : Alike id False id _ topDeclarator).advances names

/-- Behind the declarator of a function stands its body. -/
theorem functionAfter_of_block {d : Declarator} (declares : Declares (.void f) [] d) (ident : Token)
    (hb : brace.lexeme = .punctuator .braceOpen) {b : Block String} {rest : List Token}
    (body : ∀ names, ∃ names', block s ⟨brace :: more, names⟩ = .ok b ⟨rest, names'⟩)
    (names : List String) :
    ∃ names', functionAfter (Declaration.void f).specifier d ident [] s ⟨brace :: more, names⟩ =
      .ok { declaration := .void f, body := some b } ⟨rest, names'⟩ := by
  have takes : Takes s (declarationOf (Declaration.void f).specifier { d with parameters := none })
      (([] ++ brace :: more).map Token.lexeme) (· = .void f) ((brace :: more).map Token.lexeme) :=
    takes_declarationOf rfl declares.stands
  obtain ⟨_, names₁, read, rfl⟩ := takes.leaves
    (declarationOf_alike _ _ : Alike id False id _ (declarationOf _ _)).advances names
  obtain ⟨names₂, readBody⟩ := body names₁
  refine ⟨names₂, (bind_of_ok read _).trans ?_⟩
  refine (nextIs_bind _ _).trans ?_
  rw [Progress.front_cons, hb, decide_eq_true rfl, if_pos rfl]
  exact bind_of_ok readBody _

/-- Behind the header of a function without result and parameters, a block that is read whatever
names were met is the body of this function. -/
theorem unit_of_header {word : Token} (hw : word.lexeme = .keyword .void)
    (hn : name.lexeme = .identifier f) (hl : left.lexeme = .punctuator .parenOpen)
    (hr : right.lexeme = .punctuator .parenClose) (hb : brace.lexeme = .punctuator .braceOpen)
    {b : Block String} {rest : List Token}
    (body : ∀ names, ∃ names', block s ⟨brace :: more, names⟩ = .ok b ⟨rest, names'⟩)
    (names : List String) :
    ∃ names', unit s ⟨word :: name :: left :: right :: brace :: more, names⟩ =
      .ok [.function { declaration := .void f, body := some b }] ⟨rest, names'⟩ := by
  let p : Progress := ⟨word :: name :: left :: right :: brace :: more, names⟩
  have noStruct : atStructDefinition s p = .ok false p := by
    rw [atStructDefinition_eq]
    change EStateM.Result.ok (opensStruct word.lexeme _ _) p = _
    rw [hw]
    rfl
  obtain ⟨names₁, words⟩ := specifier_of_void (s := s) hw hn names
  obtain ⟨d, names₂, declarator, declares⟩ := topDeclarator_of_name (s := s) hn hl hr hb names₁
  obtain ⟨ident, named⟩ : ∃ ident, d.ident = some ident := by
    have same := declares.stands.ident
    cases found : d.ident with
    | none => rw [found] at same; cases same
    | some ident => exact ⟨ident, rfl⟩
  obtain ⟨names₃, whole⟩ := functionAfter_of_block declares ident hb body names₂
  refine ⟨names₃, ?_⟩
  refine (bind_of_ok noStruct _).trans ((current_bind _).trans ((bind_of_ok words _).trans ?_))
  refine (nextIs_bind _ _).trans ?_
  rw [Progress.front_cons, hn, decide_eq_false (by simp), if_neg Bool.false_ne_true]
  refine (bind_of_ok declarator _).trans ?_
  rw [named, declares.parameters]
  exact bind_of_ok whole _

end

/-- A source of one unit. -/
theorem program_of_unit (closed : s.Closed) {us : List (TopLevel String)}
    (read : unit s p = .ok us q) (done : q.rest = []) : program s p = .ok ⟨us⟩ q := by
  obtain ⟨_, names⟩ := q
  subst done
  have behind : units s ⟨[], names⟩ = ⟨[], none, ⟨[], names⟩⟩ := rfl
  rw [program, units_of_unit closed read, behind, Units.behind, List.append_nil]

end Parser

/-! ### The entry points -/

namespace Reader

/-- What reading a row of tokens comes to, if there is an end in it. -/
def outcome? {α : Type} (file : String) (lines : List String) (options : Options)
    (tokens : List Token) (parser : Parser α) : Option (Except Stop α) :=
  (ofTokens file lines options tokens).map fun r => (r.call parser).1

theorem outcome?_eq_ok_iff {α : Type} {file : String} {lines : List String} {options : Options}
    {ts : List Token} {ending : Token} (inside : ∀ t ∈ ts, t.lexeme ≠ .ending)
    (last : ending.lexeme = .ending) {parser : Parser α} {a : α} :
    outcome? file lines options (ts ++ [ending]) parser = some (.ok a) ↔
      ∃ q, parser ⟨file, lines, options, ending⟩ ⟨ts, []⟩ = .ok a q := by
  rw [outcome?, ofTokens_closed file lines options inside last, Option.map_some,
    Option.some.injEq, call_eq_ok_iff]

/-- **The entry points agree.**  A whole statement is the only statement of a function without
result and parameters around it, unless it is a lone semicolon; and what is read as an expression is
what is read as a statement with a semicolon behind it, also behind `return`. -/
theorem entries_agree (file : String) (lines : List String) (options : Options) {ts : List Token}
    {e₁ e₂ : Token} (inside : ∀ t ∈ ts, t.lexeme ≠ .ending) (last₁ : e₁.lexeme = .ending)
    (last₂ : e₂.lexeme = .ending) :
    (∀ (st : Stmt String) (f : String) (opening : List Token) (close : Token),
      opening.map Token.lexeme = [.keyword .void, .identifier f, .punctuator .parenOpen,
        .punctuator .parenClose, .punctuator .braceOpen] →
      close.lexeme = .punctuator .braceClose →
      ts.map Token.lexeme ≠ [.punctuator .semicolon] →
      outcome? file lines options (ts ++ [e₁]) Parser.wholeStatement = some (.ok st) →
      outcome? file lines options (opening ++ ts ++ [close] ++ [e₂]) Parser.program =
        some (.ok ⟨[.function { declaration := .void f, body := some ⟨[st]⟩ }]⟩)) ∧
    (∀ (e : Expr String) (semicolon : Token), semicolon.lexeme = .punctuator .semicolon →
      (outcome? file lines options (ts ++ [e₁]) Parser.wholeExpression = some (.ok e) ↔
        outcome? file lines options (ts ++ [semicolon] ++ [e₂]) Parser.wholeStatement =
          some (.ok (.expression e)))) ∧
    (∀ (e : Expr String) (word semicolon : Token), word.lexeme = .keyword .returnWord →
      semicolon.lexeme = .punctuator .semicolon →
      (outcome? file lines options (ts ++ [e₁]) Parser.wholeExpression = some (.ok e) ↔
        ts ≠ [] ∧ outcome? file lines options (word :: ts ++ [semicolon] ++ [e₂])
          Parser.wholeStatement = some (.ok (.returnWith (some e))))) := by
  let s : Setting := ⟨file, lines, options, e₁⟩
  have closed : s.Closed := last₁
  have closed' : (s.endingAt e₂).Closed := last₂
  -- the expression in front of the end, and in front of a semicolon
  have line_iff (e : Expr String) {semicolon : Token}
      (mark : semicolon.lexeme = .punctuator .semicolon) :
      (∃ q, Parser.wholeExpression s ⟨ts, []⟩ = .ok e q) ↔
        ∃ q, Parser.ExpressionLine (s.endingAt e₂) ⟨ts ++ [semicolon], []⟩ e q ∧ q.rest = [] := by
    simp only [Parser.wholeExpression_eq_ok_iff_reads closed]
    exact (Parser.expressionLine_iff closed last₂ mark).symm
  refine ⟨fun st f opening close spelled hc some read => ?_, fun e semicolon mark => ?_,
    fun e word semicolon hw mark => ?_⟩
  · obtain ⟨q, read⟩ := (outcome?_eq_ok_iff inside last₁).1 read
    simp only [List.map_eq_cons_iff, List.map_eq_nil_iff] at spelled
    obtain ⟨word, _, rfl, hw, name, _, rfl, hn, left, _, rfl, hl, right, _, rfl, hr, brace, _, rfl,
      hb, rfl⟩ := spelled
    refine (outcome?_eq_ok_iff ?_ last₂).2 ?_
    · simpa [or_imp, forall_and, hw, hn, hl, hr, hb, hc] using inside
    have body := Parser.block_of_whole closed e₂ hb hc some read
    obtain ⟨names, unit⟩ := Parser.unit_of_header hw hn hl hr hb body []
    exact ⟨_, Parser.program_of_unit closed' unit rfl⟩
  · rw [outcome?_eq_ok_iff inside last₁, line_iff e mark, outcome?_eq_ok_iff ?_ last₂]
    · simp only [← Parser.wholeStatement_eq_ok_expression_iff closed']
      rfl
    · simpa [or_imp, forall_and, mark] using inside
  · rw [outcome?_eq_ok_iff inside last₁, line_iff e mark, outcome?_eq_ok_iff ?_ last₂]
    · have returns (q : Progress) := Parser.wholeStatement_eq_ok_return_iff (e := e) (q := q)
        (p := ⟨word :: ts ++ [semicolon], []⟩) closed'
      constructor
      · rintro ⟨q, line, done⟩
        refine ⟨?_, q, (returns q).2 ⟨hw, line, done⟩⟩
        -- a semicolon begins no expression
        rintro rfl
        obtain ⟨r, read, -⟩ := line
        have begins := read.startsExpression_front
        rw [List.nil_append, Progress.front_cons, mark] at begins
        cases begins
      · rintro ⟨-, q, read⟩
        obtain ⟨-, line, done⟩ := (returns q).1 read
        exact ⟨q, line, done⟩
    · simpa [or_imp, forall_and, hw, mark] using inside

/-- The tokens of `if (x) y;` as a statement and in a function `f`, and those of `x + 1` as an
expression and behind `return`. -/
theorem entries_agree_conditional_and_sum :
    (∃ st : Stmt String,
      outcome? "" [] {} (([.keyword .ifWord, .punctuator .parenOpen, .identifier "x",
          .punctuator .parenClose, .identifier "y", .punctuator .semicolon] : List Lexeme).map
          (⟨·, 1, 1⟩) ++ [⟨.ending, 1, 1⟩]) Parser.wholeStatement = some (.ok st) ∧
        outcome? "" [] {} (([.keyword .void, .identifier "f", .punctuator .parenOpen,
            .punctuator .parenClose, .punctuator .braceOpen] : List Lexeme).map (⟨·, 1, 1⟩) ++
          ([.keyword .ifWord, .punctuator .parenOpen, .identifier "x", .punctuator .parenClose,
            .identifier "y", .punctuator .semicolon] : List Lexeme).map (⟨·, 1, 1⟩) ++
          [⟨.punctuator .braceClose, 1, 1⟩] ++ [⟨.ending, 2, 1⟩]) Parser.program =
        some (.ok ⟨[.function { declaration := .void "f", body := some ⟨[st]⟩ }]⟩)) ∧
      outcome? "" [] {} (⟨.keyword .returnWord, 1, 1⟩ :: ([.identifier "x", .punctuator .plus,
          .number 1] : List Lexeme).map (⟨·, 1, 1⟩) ++ [⟨.punctuator .semicolon, 1, 1⟩] ++
          [⟨.ending, 2, 1⟩]) Parser.wholeStatement =
        some (.ok (.returnWith
          (some (.binary (.binary .add) (.var "x") (.literal (.int 1)))))) := by
  have last : (⟨.ending, 1, 1⟩ : Token).lexeme = .ending := rfl
  refine ⟨⟨.ifThen (.var "x") (.block [.expression (.var "y")]), rfl, ?_⟩, ?_⟩
  · exact (entries_agree "" [] {} (by simp) last rfl).1 _ "f" _ _ rfl rfl (by simp) rfl
  · exact (((entries_agree "" [] {} (by simp) last rfl).2.2 _ _ _ rfl rfl).1 rfl).2

end Reader

end PlainC
