/-
**Expressions by rules.**

The parser of expressions is a function with budgets and loops.  The relation of this module says
by rules which tree it reads off which tokens: one rule for each kind of expression, and for each
loop a phrase that carries the tree read so far.  Whatever the parser reads follows the rules, so
what is shown of every derivation holds of every expression that is read.

Main definitions:

* `PlainC.Parser.Phrase` — the parts of an expression that are read on their own;
* `PlainC.Parser.Reads` — the rules.

Main results:

* `PlainC.Parser.expressionWithin_obeys` — **what the parser reads follows the rules**.
-/

import PlainC.Proofs.Parsing.Advance
import PlainC.Proofs.Spelling.Expression

set_option relaxedAutoImplicit false
set_option autoImplicit false

namespace PlainC.Parser

/-- Whether a type in parentheses is at the front. -/
def opensType (s : Setting) (p : Progress) : Prop :=
  p.front s = .punctuator .parenOpen ∧ (p.behind.front s).startsDeclaration = true

/-- The lexemes that continue an operand that stands in front of them. -/
def isSuffixMark (l : Lexeme) : Prop :=
  l = .punctuator .parenOpen ∨ l = .punctuator .bracketOpen ∨ l = .punctuator .dot ∨
    l = .punctuator .arrow ∨ ∃ op : PostfixOp, l = .punctuator op.mark

/-- The parts of an expression that are read on their own.  A loop carries what was read in front
of it: the left operand of further operations, the operand that has further suffixes, the callee and
the arguments in front of further arguments. -/
inductive Phrase where
  | expression (level : Nat)
  | operations (level : Nat) (left : Expr String)
  | operand
  | suffixed
  | suffixes (operand : Expr String)
  | arguments (callee : String)
  | moreArguments (callee : String) (first : Expr String) (found : List (Expr String))
  | primary

/-- The rules by which expressions are read off the tokens that are left. -/
inductive Reads (s : Setting) : Phrase → Progress → Expr String → Progress → Prop
  | expression {level : Nat} {p q r : Progress} {left e : Expr String} :
      Reads s .operand p left q → Reads s (.operations level left) q e r →
      Reads s (.expression level) p e r
  | noOperation {level : Nat} {p : Progress} {left : Expr String} :
      (∀ op, Operator.ofLexeme? (p.front s) = some op → op.precedence < level) →
      Reads s (.operations level left) p left p
  | operation {level : Nat} {p q r : Progress} {op : Operator} {left right e : Expr String} :
      Operator.ofLexeme? (p.front s) = some op → level ≤ op.precedence →
      Reads s (.expression op.rightLevel) p.behind right q →
      Reads s (.operations level (.binary op left right)) q e r →
      Reads s (.operations level left) p e r
  | unary {p q : Progress} {op : UnaryOp} {e : Expr String} :
      UnaryOp.ofLexeme? (p.front s) = some op →
      Reads s (.expression operandLevel) p.behind e q → Reads s .operand p (.unary op e) q
  | sizeofType {p q : Progress} {e : Expr String} :
      p.front s = .keyword .sizeof → opensType s p.behind → sizeofType s p.behind = .ok e q →
      Reads s .operand p e q
  | sizeofExpr {p q : Progress} {e : Expr String} :
      p.front s = .keyword .sizeof → ¬ opensType s p.behind →
      Reads s (.expression operandLevel) p.behind e q → Reads s .operand p (.sizeofExpr e) q
  | cast {p q r : Progress} {word : TypeWord String} {e : Expr String} :
      opensType s p → specifier s p.behind = .ok ⟨false, false, [word]⟩ q →
      q.front s = .punctuator .parenClose →
      Reads s (.expression operandLevel) q.behind e r → Reads s .operand p (.cast word e) r
  | plain {p q : Progress} {e : Expr String} :
      Reads s .suffixed p e q → Reads s .operand p e q
  | suffixed {p q r : Progress} {operand e : Expr String} :
      Reads s .primary p operand q → Reads s (.suffixes operand) q e r → Reads s .suffixed p e r
  | noSuffix {p : Progress} {operand : Expr String} :
      ¬ isSuffixMark (p.front s) → Reads s (.suffixes operand) p operand p
  | call {p q r : Progress} {callee : String} {call e : Expr String} :
      p.front s = .punctuator .parenOpen → Reads s (.arguments callee) p.behind call q →
      Reads s (.suffixes call) q e r → Reads s (.suffixes (.var callee)) p e r
  | index {p q r : Progress} {target subscript e : Expr String} :
      p.front s = .punctuator .bracketOpen →
      Reads s (.expression expressionLevel) p.behind subscript q →
      q.front s = .punctuator .bracketClose →
      Reads s (.suffixes (.index target subscript)) q.behind e r →
      Reads s (.suffixes target) p e r
  | member {p r : Progress} {name : String} {target e : Expr String} :
      p.front s = .punctuator .dot → p.behind.front s = .identifier name →
      Reads s (.suffixes (.member target name)) (p.behind.behind.noting name) e r →
      Reads s (.suffixes target) p e r
  | pointerMember {p r : Progress} {name : String} {target e : Expr String} :
      p.front s = .punctuator .arrow → p.behind.front s = .identifier name →
      Reads s (.suffixes (.pointerMember target name)) (p.behind.behind.noting name) e r →
      Reads s (.suffixes target) p e r
  | postfixed {p r : Progress} {op : PostfixOp} {operand e : Expr String} :
      p.front s = .punctuator op.mark →
      Reads s (.suffixes (.postfixed op operand)) p.behind e r →
      Reads s (.suffixes operand) p e r
  | noArguments {p : Progress} {callee : String} :
      p.front s = .punctuator .parenClose → Reads s (.arguments callee) p (.call callee []) p.behind
  | arguments {p q r : Progress} {callee : String} {first e : Expr String} :
      p.front s ≠ .punctuator .parenClose → Reads s (.expression expressionLevel) p first q →
      Reads s (.moreArguments callee first []) q e r → Reads s (.arguments callee) p e r
  | lastArgument {p : Progress} {callee : String} {first : Expr String}
      {found : List (Expr String)} :
      p.front s = .punctuator .parenClose →
      Reads s (.moreArguments callee first found) p (.call callee (first :: found)) p.behind
  | nextArgument {p q r : Progress} {callee : String} {found : List (Expr String)}
      {first next e : Expr String} :
      p.front s = .punctuator .comma → Reads s (.expression expressionLevel) p.behind next q →
      Reads s (.moreArguments callee first (found ++ [next])) q e r →
      Reads s (.moreArguments callee first found) p e r
  | literal {p : Progress} {value : Literal} :
      Literal.ofLexeme? (p.front s) = some value → Reads s .primary p (.literal value) p.behind
  | var {p : Progress} {name : String} :
      p.front s = .identifier name → Reads s .primary p (.var name) (p.behind.noting name)
  | parenthesized {p q : Progress} {e : Expr String} :
      p.front s = .punctuator .parenOpen →
      Reads s (.expression expressionLevel) p.behind e q →
      q.front s = .punctuator .parenClose → Reads s .primary p (.parenthesized e) q.behind

/-! ### What the parser reads follows the rules -/

section

variable {s : Setting} {p q : Progress} {e : Expr String} {nested : Nat → Parser (Expr String)}

/-- Every success of a parser for nested expressions follows the rules. -/
def Obeys (s : Setting) (nested : Nat → Parser (Expr String)) : Prop :=
  ∀ {level p e q}, nested level s p = .ok e q → Reads s (.expression level) p e q

theorem primaryWith_obeys (hn : Obeys s nested) (h : primaryWith nested s p = .ok e q) :
    Reads s .primary p e q := by
  simp only [primaryWith, bind_eq_ok_iff, current_eq_ok_iff] at h
  obtain ⟨_, _, ⟨rfl, rfl⟩, h⟩ := h
  simp only [lexeme_headD] at h
  cases hl : Literal.ofLexeme? (p.front s) with
  | some value =>
      simp only [hl, bind_eq_ok_iff, advance_eq_ok_iff, pure_eq_ok_iff] at h
      obtain ⟨_, _, rfl, rfl, rfl⟩ := h
      exact .literal hl
  | none =>
      simp only [hl] at h
      cases hf : p.front s with
      | identifier name =>
          simp only [hf, bind_eq_ok_iff, advance_eq_ok_iff, note_eq_ok_iff, pure_eq_ok_iff] at h
          obtain ⟨_, _, rfl, _, _, rfl, rfl, rfl⟩ := h
          exact .var hf
      | punctuator m =>
          simp only [hf, bind_eq_ok_iff, accept_eq_ok_iff] at h
          obtain ⟨_, _, ⟨paren, rfl, rfl⟩ | ⟨-, rfl, rfl⟩, h⟩ := h
          · simp only [if_true, bind_eq_ok_iff, expect_eq_ok_iff, pure_eq_ok_iff] at h
            obtain ⟨inner, r, read, _, _, ⟨close, rfl⟩, rfl, rfl⟩ := h
            exact .parenthesized (hf.trans paren) (hn read) close
          · simp at h
      | _ => simp [hf, bind_eq_ok_iff, accept_eq_ok_iff] at h

/-- Further arguments follow the rules up to their closing parenthesis. -/
theorem AfterCommas.reads (hn : Obeys s nested) (callee : String) {first : Expr String}
    {found all : List (Expr String)}
    (h : AfterCommas (nested expressionLevel) s (first :: found) p all q)
    (close : q.front s = .punctuator .parenClose) :
    Reads s (.moreArguments callee first found) p (.call callee all) q.behind := by
  generalize hf : first :: found = found' at h
  induction h generalizing found with
  | last =>
      subst hf
      exact .lastArgument close
  | next comma read _ ih =>
      subst hf
      exact .nextArgument comma (hn read) (ih close rfl)

theorem argumentsWith_obeys (hn : Obeys s nested) (callee : String) {all : List (Expr String)}
    (h : argumentsWith nested s p = .ok all q) :
    Reads s (.arguments callee) p (.call callee all) q := by
  simp only [argumentsWith, bind_eq_ok_iff, accept_eq_ok_iff] at h
  obtain ⟨_, _, ⟨close, rfl, rfl⟩ | ⟨open', rfl, rfl⟩, h⟩ := h
  · simp only [if_true, pure_eq_ok_iff] at h
    obtain ⟨rfl, rfl⟩ := h
    exact .noArguments close
  · simp only [Bool.false_eq_true, if_false, commaSeparated, bind_eq_ok_iff, expect_eq_ok_iff,
      pure_eq_ok_iff] at h
    obtain ⟨_, r, ⟨first, _, read, more⟩, _, _, ⟨close, rfl⟩, rfl, rfl⟩ := h
    exact .arguments open' (hn read) ((AfterCommas.of_moreAfterCommas more).reads hn callee close)

theorem memberName_eq_ok_iff {name : String} :
    memberName s p = .ok name q ↔
      p.front s = .identifier name ∧ p.behind.noting name = q := by
  simp only [memberName, bind_eq_ok_iff, identifier_eq_ok_iff, note_eq_ok_iff, pure_eq_ok_iff]
  constructor
  · rintro ⟨_, _, ⟨found, rfl⟩, _, _, rfl, rfl, rfl⟩
    exact ⟨found, rfl⟩
  · rintro ⟨found, rfl⟩
    exact ⟨name, _, ⟨found, rfl⟩, (), _, rfl, rfl, rfl⟩

/-- A turn of the loop over suffixes ends it in front of anything but a suffix, or else reads one
suffix. -/
theorem suffixWith_obeys (hn : Obeys s nested) {target : Expr String}
    {turn : ForInStep (Expr String)} (h : suffixWith nested target s p = .ok turn q) :
    (turn = .done target ∧ p = q ∧ ¬ isSuffixMark (p.front s)) ∨
      ∃ more, turn = .yield more ∧
        ∀ {e r}, Reads s (.suffixes more) q e r → Reads s (.suffixes target) p e r := by
  simp only [suffixWith, bind_eq_ok_iff, current_eq_ok_iff, accept_eq_ok_iff] at h
  obtain ⟨_, _, ⟨rfl, rfl⟩, _, _, ⟨paren, rfl, rfl⟩ | ⟨noParen, rfl, rfl⟩, h⟩ := h
  · -- a call, and only a name is called
    cases target with
    | var callee =>
        simp only [if_true, bind_eq_ok_iff, pure_eq_ok_iff] at h
        obtain ⟨all, _, read, rfl, rfl⟩ := h
        exact .inr ⟨_, rfl, .call paren (argumentsWith_obeys hn callee read)⟩
    | _ => simp at h
  simp only [Bool.false_eq_true, if_false, bind_eq_ok_iff, accept_eq_ok_iff] at h
  obtain ⟨_, _, ⟨bracket, rfl, rfl⟩ | ⟨noBracket, rfl, rfl⟩, h⟩ := h
  · simp only [if_true, bind_eq_ok_iff, expect_eq_ok_iff, pure_eq_ok_iff] at h
    obtain ⟨subscript, _, read, _, _, ⟨close, rfl⟩, rfl, rfl⟩ := h
    exact .inr ⟨_, rfl, .index bracket (hn read) close⟩
  simp only [Bool.false_eq_true, if_false, bind_eq_ok_iff, accept_eq_ok_iff] at h
  obtain ⟨_, _, ⟨dot, rfl, rfl⟩ | ⟨noDot, rfl, rfl⟩, h⟩ := h
  · simp only [if_true, bind_eq_ok_iff, memberName_eq_ok_iff, pure_eq_ok_iff] at h
    obtain ⟨name, _, ⟨found, rfl⟩, rfl, rfl⟩ := h
    exact .inr ⟨_, rfl, .member dot found⟩
  simp only [Bool.false_eq_true, if_false, bind_eq_ok_iff, accept_eq_ok_iff] at h
  obtain ⟨_, _, ⟨arrow, rfl, rfl⟩ | ⟨noArrow, rfl, rfl⟩, h⟩ := h
  · simp only [if_true, bind_eq_ok_iff, memberName_eq_ok_iff, pure_eq_ok_iff] at h
    obtain ⟨name, _, ⟨found, rfl⟩, rfl, rfl⟩ := h
    exact .inr ⟨_, rfl, .pointerMember arrow found⟩
  simp only [Bool.false_eq_true, if_false, lexeme_headD] at h
  cases ho : PostfixOp.ofLexeme? (p.front s) with
  | some op =>
      simp only [ho, bind_eq_ok_iff, advance_eq_ok_iff, pure_eq_ok_iff] at h
      obtain ⟨_, _, rfl, rfl, rfl⟩ := h
      exact .inr ⟨_, rfl, .postfixed (PostfixOp.ofLexeme?_eq_some_iff.1 ho)⟩
  | none =>
      simp only [ho, pure_eq_ok_iff] at h
      obtain ⟨rfl, rfl⟩ := h
      refine .inl ⟨rfl, rfl, ?_⟩
      rintro (paren | bracket | dot | arrow | ⟨op, mark⟩)
      · exact noParen paren
      · exact noBracket bracket
      · exact noDot dot
      · exact noArrow arrow
      · rw [mark, PostfixOp.ofLexeme?_mark] at ho
        cases ho

theorem suffixes_obeys (hn : Obeys s nested) {n : Nat} {target : Expr String}
    (h : iterate (suffixWith nested) n target s p = .ok e q) :
    Reads s (.suffixes target) p e q := by
  induction n generalizing target p with
  | zero => simp [iterate] at h
  | succ n ih =>
      rcases iterate_succ_eq_ok_iff.1 h with last | ⟨more, r, turn, rest⟩
      · obtain ⟨same, rfl, stop⟩ | ⟨_, other, -⟩ := suffixWith_obeys hn last
        · cases same
          exact .noSuffix stop
        · cases other
      · obtain ⟨other, -, -⟩ | ⟨_, same, goesOn⟩ := suffixWith_obeys hn turn
        · cases other
        · cases same
          exact goesOn (ih rest)

theorem suffixedWith_obeys (hn : Obeys s nested) (h : suffixedWith nested s p = .ok e q) :
    Reads s .suffixed p e q := by
  obtain ⟨operand, r, primary, rest⟩ := bind_eq_ok_iff.1 h
  exact .suffixed (primaryWith_obeys hn primary) (suffixes_obeys hn rest)

theorem atParenthesizedType_eq_ok_iff {b : Bool} :
    atParenthesizedType s p = .ok b q ↔ (b = true ↔ opensType s p) ∧ p = q := by
  simp only [atParenthesizedType, bind_eq_ok_iff, nextIs_eq_ok_iff, ahead_eq_ok_iff,
    pure_eq_ok_iff]
  constructor
  · rintro ⟨_, _, ⟨rfl, rfl⟩, _, _, ⟨rfl, rfl⟩, rfl, rfl⟩
    rw [lexeme_getD_one]
    simp [opensType]
  · rintro ⟨same, rfl⟩
    refine ⟨_, _, ⟨rfl, rfl⟩, _, _, ⟨rfl, rfl⟩, ?_, rfl⟩
    rw [Bool.eq_iff_iff, same, lexeme_getD_one]
    simp [opensType]

theorem castWith_obeys (hn : Obeys s nested) (type : opensType s p)
    (h : castWith nested s p = .ok e q) : Reads s .operand p e q := by
  simp only [castWith, bind_eq_ok_iff, current_eq_ok_iff, advance_eq_ok_iff] at h
  obtain ⟨_, _, ⟨rfl, rfl⟩, _, _, rfl, sp, r, words, h⟩ := h
  split at h
  · simp only [bind_eq_ok_iff, current_eq_ok_iff] at h
    obtain ⟨_, _, ⟨rfl, rfl⟩, h⟩ := h
    split at h
    · simp [bind_eq_ok_iff] at h
    · simp only [bind_eq_ok_iff, expect_eq_ok_iff, pure_eq_ok_iff] at h
      obtain ⟨_, _, ⟨close, rfl⟩, operand, _, read, rfl, rfl⟩ := h
      exact .cast type words close (hn read)
  · simp at h

theorem operandWith_obeys (hn : Obeys s nested) (h : operandWith nested s p = .ok e q) :
    Reads s .operand p e q := by
  simp only [operandWith, bind_eq_ok_iff, current_eq_ok_iff] at h
  obtain ⟨_, _, ⟨rfl, rfl⟩, h⟩ := h
  simp only [lexeme_headD] at h
  cases hu : UnaryOp.ofLexeme? (p.front s) with
  | some op =>
      simp only [hu, bind_eq_ok_iff, advance_eq_ok_iff, pure_eq_ok_iff] at h
      obtain ⟨_, _, rfl, operand, _, read, rfl, rfl⟩ := h
      exact .unary hu (hn read)
  | none =>
      simp only [hu] at h
      by_cases word : p.front s = .keyword .sizeof
      · rw [if_pos word] at h
        simp only [bind_eq_ok_iff, advance_eq_ok_iff, locatedAt_eq_ok_iff,
          atParenthesizedType_eq_ok_iff] at h
        obtain ⟨_, _, rfl, type, _, ⟨opens, rfl⟩, h⟩ := h
        cases type with
        | true => exact .sizeofType word (opens.1 rfl) h
        | false =>
            simp only [Bool.false_eq_true, if_false, bind_eq_ok_iff, pure_eq_ok_iff] at h
            obtain ⟨operand, _, read, rfl, rfl⟩ := h
            exact .sizeofExpr word (by simpa using opens) (hn read)
      · rw [if_neg word] at h
        simp only [bind_eq_ok_iff, atParenthesizedType_eq_ok_iff] at h
        obtain ⟨type, _, ⟨opens, rfl⟩, h⟩ := h
        cases type with
        | true => exact castWith_obeys hn (opens.1 rfl) h
        | false => exact .plain (suffixedWith_obeys hn h)

/-- A turn of the loop over operations ends it in front of anything but an operator of the level, or
else reads one operation. -/
theorem operationWith_obeys (hn : Obeys s nested) {level : Nat} {left : Expr String}
    {turn : ForInStep (Expr String)} (h : operationWith nested level left s p = .ok turn q) :
    (turn = .done left ∧ p = q ∧
        ∀ op, Operator.ofLexeme? (p.front s) = some op → op.precedence < level) ∨
      ∃ more, turn = .yield more ∧
        ∀ {e r}, Reads s (.operations level more) q e r →
          Reads s (.operations level left) p e r := by
  simp only [operationWith, bind_eq_ok_iff, current_eq_ok_iff] at h
  obtain ⟨_, _, ⟨rfl, rfl⟩, h⟩ := h
  simp only [lexeme_headD] at h
  cases ho : Operator.ofLexeme? (p.front s) with
  | none =>
      simp only [ho, pure_eq_ok_iff] at h
      obtain ⟨rfl, rfl⟩ := h
      exact .inl ⟨rfl, rfl, by simp⟩
  | some op =>
      simp only [ho] at h
      by_cases loose : op.precedence < level
      · simp only [loose, if_true, pure_eq_ok_iff] at h
        obtain ⟨rfl, rfl⟩ := h
        exact .inl ⟨rfl, rfl, by simpa using loose⟩
      · simp only [loose, if_false, bind_eq_ok_iff, advance_eq_ok_iff, pure_eq_ok_iff] at h
        obtain ⟨_, _, rfl, right, _, read, rfl, rfl⟩ := h
        exact .inr ⟨_, rfl, .operation ho (Nat.le_of_not_lt loose) (hn read)⟩

theorem operations_obeys (hn : Obeys s nested) {level n : Nat} {left : Expr String}
    (h : iterate (operationWith nested level) n left s p = .ok e q) :
    Reads s (.operations level left) p e q := by
  induction n generalizing left p with
  | zero => simp [iterate] at h
  | succ n ih =>
      rcases iterate_succ_eq_ok_iff.1 h with last | ⟨more, r, turn, rest⟩
      · obtain ⟨same, rfl, stop⟩ | ⟨_, other, -⟩ := operationWith_obeys hn last
        · cases same
          exact .noOperation stop
        · cases other
      · obtain ⟨other, -, -⟩ | ⟨_, same, goesOn⟩ := operationWith_obeys hn turn
        · cases other
        · cases same
          exact goesOn (ih rest)

theorem expressionWith_obeys (hn : Obeys s nested) {level : Nat}
    (h : expressionWith nested level s p = .ok e q) : Reads s (.expression level) p e q := by
  obtain ⟨operand, r, first, rest⟩ := bind_eq_ok_iff.1 h
  exact .expression (operandWith_obeys hn first) (operations_obeys hn rest)

/-- What the parser reads follows the rules, whatever its budget. -/
theorem expressionWithin_obeys (s : Setting) : ∀ n, Obeys s (expressionWithin n) := by
  intro n
  induction n with
  | zero => exact fun h => by simp [expressionWithin] at h
  | succ n ih => exact fun h => expressionWith_obeys ih h

end

end PlainC.Parser
