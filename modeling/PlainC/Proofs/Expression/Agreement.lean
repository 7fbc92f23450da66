/-
**Every derivation is read.**

A derivation by the rules never leaves more tokens than it found, and reads at least one in every
turn of a loop and in front of every nested expression.  So the budgets of the parser outlast it,
and the parser reads what is derived.

Main definitions:

* `PlainC.Parser.startsExpression` — the lexemes with which an expression can begin;
* `PlainC.Parser.Performs` — what the parser does for each phrase.

Main results:

* `PlainC.Parser.Reads.startsExpression_front` — how an expression begins;
* `PlainC.Parser.Reads.rest_suffix` — what a derivation leaves is a last part of what was there;
* `PlainC.Parser.expressionWithin_eq_ok_iff` — **the parser and the rules agree**.
-/

import PlainC.Proofs.Expression.Derivation

set_option relaxedAutoImplicit false
set_option autoImplicit false

namespace PlainC.Parser

variable {s : Setting} {p q : Progress} {e : Expr String} {φ : Phrase}

/-! ### What an expression begins with -/

/-- An operand with its suffixes begins with a literal, a name or a parenthesis. -/
theorem Reads.front_suffixed (h : Reads s .suffixed p e q) :
    (∃ value : Literal, p.front s = value.lexeme) ∨ (∃ name, p.front s = .identifier name) ∨
      ∃ inner r, p.front s = .punctuator .parenOpen ∧
        Reads s (.expression expressionLevel) p.behind inner r := by
  cases h with
  | suffixed primary _ =>
      cases primary with
      | @literal _ value found => exact .inl ⟨value, Literal.ofLexeme?_eq_some_iff.1 found⟩
      | @var _ name found => exact .inr (.inl ⟨name, found⟩)
      | @parenthesized _ r inner paren read _ => exact .inr (.inr ⟨inner, r, paren, read⟩)

/-- The lexemes with which an expression can begin. -/
def startsExpression : Lexeme → Bool
  | .identifier _ | .keyword .sizeof | .punctuator .parenOpen => true
  | l => (Literal.ofLexeme? l).isSome || (UnaryOp.ofLexeme? l).isSome

theorem startsDeclaration_of_startsExpression {l : Lexeme} (h : startsExpression l = true) :
    l.startsDeclaration = false := by
  cases l with
  | keyword word => cases word <;> first | rfl | cases h
  | _ => rfl

/-- An expression begins with an operator in front of an operand, with `sizeof`, with a literal, a
name or a parenthesis. -/
theorem Reads.startsExpression_front {level : Nat} (h : Reads s (.expression level) p e q) :
    startsExpression (p.front s) = true := by
  cases h with
  | expression operand _ =>
      cases operand with
      | @unary _ _ op _ found =>
          rw [UnaryOp.ofLexeme?_eq_some_iff.1 found]
          cases op <;> decide
      | sizeofType word => rw [word]; rfl
      | sizeofExpr word => rw [word]; rfl
      | cast opens => rw [opens.1]; rfl
      | plain suffixed =>
          obtain ⟨value, found⟩ | ⟨name, found⟩ | ⟨_, _, found, _⟩ := suffixed.front_suffixed
          · rw [found]; cases value <;> rfl
          · rw [found]; rfl
          · rw [found]; rfl

/-- No expression begins like a declaration. -/
theorem Reads.front_startsDeclaration {level : Nat} (h : Reads s (.expression level) p e q) :
    (p.front s).startsDeclaration = false :=
  startsDeclaration_of_startsExpression h.startsExpression_front

/-- No operator stands in front of an operand with its suffixes. -/
theorem Reads.front_noOperator (h : Reads s .suffixed p e q) :
    UnaryOp.ofLexeme? (p.front s) = none ∧ p.front s ≠ .keyword .sizeof := by
  obtain ⟨value, found⟩ | ⟨name, found⟩ | ⟨_, _, found, _⟩ := h.front_suffixed
  · rw [found]
    cases value <;> exact ⟨rfl, by simp [Literal.lexeme]⟩
  · rw [found]
    exact ⟨rfl, by simp⟩
  · rw [found]
    exact ⟨rfl, by simp⟩

/-- An operand with its suffixes is no type in parentheses. -/
theorem Reads.not_opensType (h : Reads s .suffixed p e q) : ¬ opensType s p := by
  rintro ⟨paren, type⟩
  obtain ⟨value, found⟩ | ⟨name, found⟩ | ⟨_, _, -, read⟩ := h.front_suffixed
  · rw [found] at paren; cases value <;> cases paren
  · rw [found] at paren; cases paren
  · rw [read.front_startsDeclaration] at type; cases type

/-- An operand that begins with a type in parentheses is a cast. -/
theorem Reads.isCast_of_opensType (h : Reads s (.expression operandLevel) p e q)
    (type : opensType s p) : e.isCast = true := by
  cases h with
  | expression operand operations =>
      have cast : ∀ {left r}, Reads s .operand p left r → left.isCast = true := by
        intro left r operand
        cases operand with
        | unary found => rw [type.1] at found; cases found
        | sizeofType word => rw [type.1] at word; cases word
        | sizeofExpr word => rw [type.1] at word; cases word
        | cast => rfl
        | plain suffixed => exact absurd type suffixed.not_opensType
      cases operations with
      | noOperation => exact cast operand
      | @operation _ _ _ _ op _ _ _ _ tight =>
          have loose := op.precedence_lt_operandLevel
          omega

/-! ### What an expression leaves -/

/-- What is left behind an expression is a last part of what was there. -/
theorem Reads.rest_suffix (h : Reads s φ p e q) : q.rest <:+ p.rest := by
  induction h with
  | expression _ _ ih ih' => exact ih'.trans ih
  | noOperation => exact List.suffix_refl _
  | operation _ _ _ _ ih ih' => exact (ih'.trans ih).trans (List.tail_suffix _)
  | unary _ _ ih => exact ih.trans (List.tail_suffix _)
  | sizeofType _ _ read => exact (sizeofType_advances.of_ok read).trans (List.tail_suffix _)
  | sizeofExpr _ _ _ ih => exact ih.trans (List.tail_suffix _)
  | cast _ read _ _ ih =>
      exact ((ih.trans (List.tail_suffix _)).trans (specifier_advances.of_ok read)).trans
        (List.tail_suffix _)
  | plain _ ih => exact ih
  | suffixed _ _ ih ih' => exact ih'.trans ih
  | noSuffix => exact List.suffix_refl _
  | call _ _ _ ih ih' => exact (ih'.trans ih).trans (List.tail_suffix _)
  | index _ _ _ _ ih ih' =>
      exact ((ih'.trans (List.tail_suffix _)).trans ih).trans (List.tail_suffix _)
  | member _ _ _ ih => exact (ih.trans (List.tail_suffix _)).trans (List.tail_suffix _)
  | pointerMember _ _ _ ih => exact (ih.trans (List.tail_suffix _)).trans (List.tail_suffix _)
  | postfixed _ _ ih => exact ih.trans (List.tail_suffix _)
  | noArguments => exact List.tail_suffix _
  | arguments _ _ _ ih ih' => exact ih'.trans ih
  | lastArgument => exact List.tail_suffix _
  | nextArgument _ _ _ ih ih' => exact (ih'.trans ih).trans (List.tail_suffix _)
  | literal => exact List.tail_suffix _
  | var => exact List.tail_suffix _
  | parenthesized _ _ _ ih => exact ((List.tail_suffix _).trans ih).trans (List.tail_suffix _)

theorem Reads.length_le (h : Reads s φ p e q) : q.rest.length ≤ p.rest.length :=
  h.rest_suffix.length_le

/-! ### The parser and the rules agree -/

/-- What the parser does for a phrase, whatever its budget, as long as it outlasts the tokens. -/
def Performs (s : Setting) : Phrase → Progress → Expr String → Progress → Prop
  | .expression level, p, e, q =>
      ∀ n, p.rest.length < n → expressionWithin n level s p = .ok e q
  | .operations level left, p, e, q =>
      ∀ n k, p.rest.length ≤ n → p.rest.length < k →
        iterate (operationWith (expressionWithin n) level) k left s p = .ok e q
  | .operand, p, e, q => ∀ n, p.rest.length ≤ n → operandWith (expressionWithin n) s p = .ok e q
  | .suffixed, p, e, q =>
      ∀ n, p.rest.length ≤ n → suffixedWith (expressionWithin n) s p = .ok e q
  | .suffixes operand, p, e, q =>
      ∀ n k, p.rest.length ≤ n → p.rest.length < k →
        iterate (suffixWith (expressionWithin n)) k operand s p = .ok e q
  | .arguments callee, p, e, q =>
      ∀ n, p.rest.length < n →
        ∃ all, e = .call callee all ∧ argumentsWith (expressionWithin n) s p = .ok all q
  | .moreArguments callee first found, p, e, q =>
      ∀ n, p.rest.length < n → ∃ all r, e = .call callee all ∧
        r.front s = .punctuator .parenClose ∧ r.behind = q ∧
        AfterCommas (expressionWithin n expressionLevel) s (first :: found) p all r
  | .primary, p, e, q => ∀ n, p.rest.length ≤ n → primaryWith (expressionWithin n) s p = .ok e q

/-! ### One turn of a loop, or one operand, for each rule -/

/-- What stands behind a mark is shorter. -/
theorem length_behind_lt_of_mark (hs : s.Closed) {mark : Punctuator}
    (h : p.front s = .punctuator mark) : p.behind.rest.length < p.rest.length :=
  Progress.length_behind_lt hs (by simp [h])

theorem ne_ending_of_operator {op : Operator} {l : Lexeme}
    (h : Operator.ofLexeme? l = some op) : l ≠ .ending := by
  rintro rfl
  cases h

section

variable {nested : Nat → Parser (Expr String)} {r : Progress}

theorem operationWith_of_loose {level : Nat} {left : Expr String}
    (h : ∀ op, Operator.ofLexeme? (p.front s) = some op → op.precedence < level) :
    operationWith nested level left s p = .ok (.done left) p := by
  refine bind_eq_ok_iff.2 ⟨_, p, current_eq_ok_iff.2 ⟨rfl, rfl⟩, ?_⟩
  rw [lexeme_headD]
  cases found : Operator.ofLexeme? (p.front s) with
  | none => rfl
  | some op => simp only [if_pos (h op found)]; rfl

theorem operationWith_of_tight {level : Nat} {op : Operator} {left right : Expr String}
    (found : Operator.ofLexeme? (p.front s) = some op) (tight : level ≤ op.precedence)
    (read : nested op.rightLevel s p.behind = .ok right q) :
    operationWith nested level left s p = .ok (.yield (.binary op left right)) q := by
  refine bind_eq_ok_iff.2 ⟨_, p, current_eq_ok_iff.2 ⟨rfl, rfl⟩, ?_⟩
  rw [lexeme_headD, found]
  simp only [if_neg (Nat.not_lt.2 tight)]
  exact bind_eq_ok_iff.2 ⟨(), p.behind, rfl, bind_eq_ok_iff.2 ⟨right, q, read, rfl⟩⟩

theorem operandWith_of_unary {op : UnaryOp} {operand : Expr String}
    (found : UnaryOp.ofLexeme? (p.front s) = some op)
    (read : nested operandLevel s p.behind = .ok operand q) :
    operandWith nested s p = .ok (.unary op operand) q := by
  refine bind_eq_ok_iff.2 ⟨_, p, current_eq_ok_iff.2 ⟨rfl, rfl⟩, ?_⟩
  rw [lexeme_headD, found]
  exact bind_eq_ok_iff.2 ⟨(), p.behind, rfl, bind_eq_ok_iff.2 ⟨operand, q, read, rfl⟩⟩

/-- Behind `sizeof` stands a type in parentheses or an operand. -/
theorem operandWith_of_sizeof (word : p.front s = .keyword .sizeof)
    (read : (opensType s p.behind ∧ sizeofType s p.behind = .ok e q) ∨
      ∃ operand, ¬ opensType s p.behind ∧ nested operandLevel s p.behind = .ok operand q ∧
        .sizeofExpr operand = e) :
    operandWith nested s p = .ok e q := by
  refine bind_eq_ok_iff.2 ⟨_, p, current_eq_ok_iff.2 ⟨rfl, rfl⟩, ?_⟩
  rw [lexeme_headD, word]
  refine bind_eq_ok_iff.2 ⟨(), p.behind, rfl, locatedAt_eq_ok_iff.2 ?_⟩
  rcases read with ⟨type, read⟩ | ⟨operand, noType, read, rfl⟩
  · refine bind_eq_ok_iff.2 ⟨true, p.behind, ?_, read⟩
    exact atParenthesizedType_eq_ok_iff.2 ⟨by simpa using type, rfl⟩
  · refine bind_eq_ok_iff.2 ⟨false, p.behind, ?_, bind_eq_ok_iff.2 ⟨operand, q, read, rfl⟩⟩
    exact atParenthesizedType_eq_ok_iff.2 ⟨by simpa using noType, rfl⟩

/-- Where neither an operator nor `sizeof` is at the front, the parenthesis decides. -/
theorem operandWith_of_other (noOp : UnaryOp.ofLexeme? (p.front s) = none)
    (noWord : p.front s ≠ .keyword .sizeof)
    (read : (opensType s p ∧ castWith nested s p = .ok e q) ∨
      (¬ opensType s p ∧ suffixedWith nested s p = .ok e q)) :
    operandWith nested s p = .ok e q := by
  refine bind_eq_ok_iff.2 ⟨_, p, current_eq_ok_iff.2 ⟨rfl, rfl⟩, ?_⟩
  rw [lexeme_headD, noOp]
  simp only [if_neg noWord]
  rcases read with ⟨type, read⟩ | ⟨noType, read⟩
  · refine bind_eq_ok_iff.2 ⟨true, p, ?_, read⟩
    exact atParenthesizedType_eq_ok_iff.2 ⟨by simpa using type, rfl⟩
  · refine bind_eq_ok_iff.2 ⟨false, p, ?_, read⟩
    exact atParenthesizedType_eq_ok_iff.2 ⟨by simpa using noType, rfl⟩

theorem castWith_of_word {word : TypeWord String} {operand : Expr String}
    (words : specifier s p.behind = .ok ⟨false, false, [word]⟩ r)
    (close : r.front s = .punctuator .parenClose)
    (read : nested operandLevel s r.behind = .ok operand q) :
    castWith nested s p = .ok (.cast word operand) q := by
  refine bind_eq_ok_iff.2 ⟨_, p, current_eq_ok_iff.2 ⟨rfl, rfl⟩, ?_⟩
  refine bind_eq_ok_iff.2 ⟨(), p.behind, rfl, bind_eq_ok_iff.2 ⟨_, r, words, ?_⟩⟩
  refine bind_eq_ok_iff.2 ⟨_, r, current_eq_ok_iff.2 ⟨rfl, rfl⟩, ?_⟩
  rw [lexeme_headD, close]
  refine bind_eq_ok_iff.2 ⟨(), r.behind, expect_of_front close, ?_⟩
  exact bind_eq_ok_iff.2 ⟨operand, q, read, rfl⟩

theorem suffixWith_of_call {callee : String} {all : List (Expr String)}
    (paren : p.front s = .punctuator .parenOpen)
    (read : argumentsWith nested s p.behind = .ok all q) :
    suffixWith nested (.var callee) s p = .ok (.yield (.call callee all)) q := by
  refine bind_eq_ok_iff.2 ⟨_, p, current_eq_ok_iff.2 ⟨rfl, rfl⟩, ?_⟩
  refine bind_eq_ok_iff.2 ⟨true, p.behind, accept_eq_ok_iff.2 (.inl ⟨paren, rfl, rfl⟩), ?_⟩
  exact bind_eq_ok_iff.2 ⟨all, q, read, rfl⟩

theorem suffixWith_of_index {target subscript : Expr String}
    (bracket : p.front s = .punctuator .bracketOpen)
    (read : nested expressionLevel s p.behind = .ok subscript q)
    (close : q.front s = .punctuator .bracketClose) :
    suffixWith nested target s p = .ok (.yield (.index target subscript)) q.behind := by
  simp only [suffixWith, current_bind, accept_bind, bracket, Lexeme.punctuator.injEq, reduceCtorEq,
    if_false, if_true, Bool.false_eq_true, bind_of_ok read]
  exact bind_eq_ok_iff.2 ⟨(), q.behind, expect_of_front close, rfl⟩

theorem suffixWith_of_dot {target : Expr String} {name : String}
    (dot : p.front s = .punctuator .dot) (found : p.behind.front s = .identifier name) :
    suffixWith nested target s p =
      .ok (.yield (.member target name)) (p.behind.behind.noting name) := by
  simp only [suffixWith, current_bind, accept_bind, dot, Lexeme.punctuator.injEq, reduceCtorEq,
    if_false, if_true, Bool.false_eq_true]
  exact bind_eq_ok_iff.2 ⟨name, _, memberName_eq_ok_iff.2 ⟨found, rfl⟩, rfl⟩

theorem suffixWith_of_arrow {target : Expr String} {name : String}
    (arrow : p.front s = .punctuator .arrow) (found : p.behind.front s = .identifier name) :
    suffixWith nested target s p =
      .ok (.yield (.pointerMember target name)) (p.behind.behind.noting name) := by
  simp only [suffixWith, current_bind, accept_bind, arrow, Lexeme.punctuator.injEq, reduceCtorEq,
    if_false, if_true, Bool.false_eq_true]
  exact bind_eq_ok_iff.2 ⟨name, _, memberName_eq_ok_iff.2 ⟨found, rfl⟩, rfl⟩

theorem suffixWith_of_mark {target : Expr String} {op : PostfixOp}
    (mark : p.front s = .punctuator op.mark) :
    suffixWith nested target s p = .ok (.yield (.postfixed op target)) p.behind := by
  have others : op.mark ≠ .parenOpen ∧ op.mark ≠ .bracketOpen ∧ op.mark ≠ .dot ∧
      op.mark ≠ .arrow := by cases op <;> decide
  obtain ⟨noParen, noBracket, noDot, noArrow⟩ := others
  simp only [suffixWith, current_bind, accept_bind, lexeme_headD, mark, Lexeme.punctuator.injEq,
    noParen, noBracket, noDot, noArrow, if_false, Bool.false_eq_true, PostfixOp.ofLexeme?_mark]
  rfl

theorem suffixWith_of_other {target : Expr String} (h : ¬ isSuffixMark (p.front s)) :
    suffixWith nested target s p = .ok (.done target) p := by
  simp only [isSuffixMark, not_or, not_exists] at h
  obtain ⟨noParen, noBracket, noDot, noArrow, noMark⟩ := h
  have noOp : PostfixOp.ofLexeme? (p.front s) = none := by
    cases found : PostfixOp.ofLexeme? (p.front s) with
    | none => rfl
    | some op => exact absurd (PostfixOp.ofLexeme?_eq_some_iff.1 found) (noMark op)
  simp only [suffixWith, current_bind, accept_bind, lexeme_headD, noParen, noBracket, noDot,
    noArrow, if_false, Bool.false_eq_true, noOp]
  rfl

theorem primaryWith_of_literal {value : Literal}
    (found : Literal.ofLexeme? (p.front s) = some value) :
    primaryWith nested s p = .ok (.literal value) p.behind := by
  simp only [primaryWith, current_bind, lexeme_headD, found]
  rfl

theorem primaryWith_of_name {name : String} (found : p.front s = .identifier name) :
    primaryWith nested s p = .ok (.var name) (p.behind.noting name) := by
  simp only [primaryWith, current_bind, lexeme_headD, found]
  rfl

theorem primaryWith_of_paren {inner : Expr String} (paren : p.front s = .punctuator .parenOpen)
    (read : nested expressionLevel s p.behind = .ok inner q)
    (close : q.front s = .punctuator .parenClose) :
    primaryWith nested s p = .ok (.parenthesized inner) q.behind := by
  simp only [primaryWith, current_bind, lexeme_headD, paren, Literal.ofLexeme?, accept_bind,
    if_true, bind_of_ok read]
  exact bind_eq_ok_iff.2 ⟨(), q.behind, expect_of_front close, rfl⟩

end

/-! ### The turns of a loop

Both loops of the parser run with a budget of their own, given to them beside the budget for nested
expressions. -/

section

variable {step : Nat → Expr String → Parser (ForInStep (Expr String))} {left next : Expr String}

/-- A turn that finds nothing to add ends the loop. -/
theorem iterate_of_done (turn : ∀ n, step n left s p = .ok (.done left) p) (n k : Nat)
    (_ : p.rest.length ≤ n) (hk : p.rest.length < k) :
    iterate (step n) k left s p = .ok left p := by
  obtain ⟨m, rfl⟩ : ∃ m, k = m + 1 := ⟨k - 1, by omega⟩
  exact iterate_done (turn n) m

/-- A turn that leaves fewer tokens leaves budget enough for the rest of the loop. -/
theorem iterate_of_yield {r : Progress}
    (turn : ∀ n, p.rest.length ≤ n → step n left s p = .ok (.yield next) r)
    (shorter : r.rest.length < p.rest.length)
    (more : ∀ n k, r.rest.length ≤ n → r.rest.length < k →
      iterate (step n) k next s r = .ok e q) (n k : Nat)
    (hn : p.rest.length ≤ n) (hk : p.rest.length < k) :
    iterate (step n) k left s p = .ok e q := by
  obtain ⟨m, rfl⟩ : ∃ m, k = m + 1 := ⟨k - 1, by omega⟩
  rw [iterate_yield (turn n hn)]
  exact more n m (by omega) (by omega)

end

/-- The parser reads what follows the rules. -/
theorem Reads.performs (hs : s.Closed) (h : Reads s φ p e q) : Performs s φ p e q := by
  induction h with
  | @expression level p q r left e operand operations ih ih' =>
      intro n hn
      obtain ⟨m, rfl⟩ : ∃ m, n = m + 1 := ⟨n - 1, by omega⟩
      have shorter := operand.length_le
      exact bind_eq_ok_iff.2 ⟨left, q, ih m (by omega), ih' m _ (by omega) (by omega)⟩
  | noOperation stop => exact iterate_of_done fun _ => operationWith_of_loose stop
  | operation found tight read _ ih ih' =>
      have ahead := Progress.length_behind_lt hs (ne_ending_of_operator found)
      have shorter := read.length_le
      refine iterate_of_yield (fun n hn => ?_) (by omega) ih'
      exact operationWith_of_tight found tight (ih n (by omega))
  | unary found _ ih =>
      intro n hn
      have ahead := length_behind_lt_of_mark hs (UnaryOp.ofLexeme?_eq_some_iff.1 found)
      exact operandWith_of_unary found (ih n (by omega))
  | sizeofType word type read =>
      intro n _
      exact operandWith_of_sizeof word (.inl ⟨type, read⟩)
  | @sizeofExpr p q e word noType _ ih =>
      intro n hn
      have ahead : p.behind.rest.length < p.rest.length :=
        Progress.length_behind_lt hs (by simp [word])
      exact operandWith_of_sizeof word (.inr ⟨e, noType, ih n (by omega), rfl⟩)
  | cast type words close _ ih =>
      intro n hn
      have ahead := length_behind_lt_of_mark hs type.1
      have behindWord := (specifier_advances.of_ok words).length_le
      have ahead' := length_behind_lt_of_mark hs close
      refine operandWith_of_other ?_ ?_
        (.inl ⟨type, castWith_of_word words close (ih n (by omega))⟩)
      · rw [type.1]; rfl
      · rw [type.1]; simp
  | plain suffixed ih =>
      intro n hn
      obtain ⟨noOp, noWord⟩ := suffixed.front_noOperator
      exact operandWith_of_other noOp noWord (.inr ⟨suffixed.not_opensType, ih n hn⟩)
  | @suffixed p q r operand e primary _ ih ih' =>
      intro n hn
      have shorter := primary.length_le
      exact bind_eq_ok_iff.2 ⟨operand, q, ih n hn, ih' n _ (by omega) (by omega)⟩
  | noSuffix stop => exact iterate_of_done fun _ => suffixWith_of_other stop
  | call paren read _ ih ih' =>
      have ahead := length_behind_lt_of_mark hs paren
      have shorter := read.length_le
      refine iterate_of_yield (fun n hn => ?_) (by omega) ih'
      obtain ⟨all, rfl, arguments⟩ := ih n (by omega)
      exact suffixWith_of_call paren arguments
  | index bracket read close _ ih ih' =>
      have ahead := length_behind_lt_of_mark hs bracket
      have shorter := read.length_le
      have ahead' := length_behind_lt_of_mark hs close
      refine iterate_of_yield (fun n hn => ?_) (by omega) ih'
      exact suffixWith_of_index bracket (ih n (by omega)) close
  | @member p r name target e dot found _ ih =>
      have ahead := length_behind_lt_of_mark hs dot
      have ahead' : p.behind.behind.rest.length < p.behind.rest.length :=
        Progress.length_behind_lt hs (by simp [found])
      exact iterate_of_yield (fun n _ => suffixWith_of_dot dot found)
        (by rw [Progress.rest_noting]; omega) ih
  | @pointerMember p r name target e arrow found _ ih =>
      have ahead := length_behind_lt_of_mark hs arrow
      have ahead' : p.behind.behind.rest.length < p.behind.rest.length :=
        Progress.length_behind_lt hs (by simp [found])
      exact iterate_of_yield (fun n _ => suffixWith_of_arrow arrow found)
        (by rw [Progress.rest_noting]; omega) ih
  | postfixed mark _ ih =>
      exact iterate_of_yield (fun n _ => suffixWith_of_mark mark)
        (length_behind_lt_of_mark hs mark) ih
  | @noArguments p callee close =>
      intro n _
      refine ⟨[], rfl, ?_⟩
      simp only [argumentsWith, accept_bind, close, if_true]
      rfl
  | @arguments p q r callee first e open' read _ ih ih' =>
      intro n hn
      have shorter := read.length_le
      obtain ⟨all, r', rfl, close, rfl, more⟩ := ih' n (by omega)
      refine ⟨all, rfl, ?_⟩
      simp only [argumentsWith, accept_bind, open', if_false, Bool.false_eq_true]
      refine bind_eq_ok_iff.2 ⟨all, r', bind_eq_ok_iff.2 ⟨first, q, ih n hn, ?_⟩, ?_⟩
      · refine (moreAfterCommas_eq_ok_iff hs fun read => ?_).2 more
        exact ((expressionWithin_advances _ _).of_ok read).length_le
      · exact bind_eq_ok_iff.2 ⟨(), r'.behind, expect_of_front close, rfl⟩
  | @lastArgument p callee first found close =>
      intro n _
      exact ⟨first :: found, p, rfl, close, rfl, .last (by simp [close])⟩
  | @nextArgument p q r callee found first next e comma read _ ih ih' =>
      intro n hn
      have ahead := length_behind_lt_of_mark hs comma
      have shorter := read.length_le
      obtain ⟨all, r', rfl, close, rfl, more⟩ := ih' n (by omega)
      exact ⟨all, r', rfl, close, rfl, .next comma (ih n (by omega)) more⟩
  | literal found => exact fun n _ => primaryWith_of_literal found
  | var found => exact fun n _ => primaryWith_of_name found
  | @parenthesized p q e paren _ close ih =>
      intro n hn
      have ahead := length_behind_lt_of_mark hs paren
      exact primaryWith_of_paren paren (ih n (by omega)) close

/-- **The parser and the rules agree**, as long as the budget outlasts the tokens. -/
theorem expressionWithin_eq_ok_iff (hs : s.Closed) {n level : Nat} (hn : p.rest.length < n) :
    expressionWithin n level s p = .ok e q ↔ Reads s (.expression level) p e q :=
  ⟨fun h => expressionWithin_obeys s n h, fun h => h.performs hs n hn⟩

/-- The parser of whole expressions follows the rules, and reads whatever they give. -/
theorem expression_eq_ok_iff (hs : s.Closed) :
    expression s p = .ok e q ↔ Reads s (.expression expressionLevel) p e q :=
  expressionWithin_eq_ok_iff hs (Nat.lt_succ_self _)

end PlainC.Parser
