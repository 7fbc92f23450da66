/-
**Which expression a source is.**

An expression is read from left to right with a level in force: what is read behind an operator
holds together as tightly as the operator asks of its right operand, and what has been read in front
of one as tightly as that operator asks of its left operand.  So every tree that is read is grouped,
and its spelling is what was read.  Conversely a grouped tree is read back from its spelling, so the
two conditions tell exactly which tree a row of tokens is.

Main definitions:

* `PlainC.Parser.Groups` — what each phrase makes of a grouped beginning;
* `PlainC.Parser.Phrase.carried`, `PlainC.Parser.Phrase.holdsType` — what stands in front of a
  phrase.

Main results:

* `PlainC.Parser.Reads.groups` — **every expression that is read is grouped**;
* `PlainC.Parser.Reads.spells` — its spelling is what was read;
* `PlainC.Reader.wholeExpression_iff_spelling` — **a row of tokens is read as the grouped tree that
  spells it**, and as no other.
-/

import PlainC.Proofs.RoundTrip.Expression
import PlainC.Proofs.Soundness.Declaration
import PlainC.Source

set_option relaxedAutoImplicit false
set_option autoImplicit false

namespace PlainC

namespace Parser

variable {s : Setting} {p q : Progress} {e : Expr String} {φ : Phrase}

/-! ### What takes a suffix -/

/-- The arguments of a call end in that call. -/
theorem Reads.eq_call_of_moreArguments {callee : String} {first : Expr String}
    {found : List (Expr String)} (h : Reads s (.moreArguments callee first found) p e q) :
    ∃ all, e = .call callee all := by
  generalize hφ : Phrase.moreArguments callee first found = φ at h
  induction h generalizing found <;> cases hφ
  case lastArgument => exact ⟨_, rfl⟩
  case nextArgument _ ih => exact ih rfl

theorem Reads.eq_call_of_arguments {callee : String} (h : Reads s (.arguments callee) p e q) :
    ∃ all, e = .call callee all := by
  cases h with
  | noArguments => exact ⟨_, rfl⟩
  | arguments _ _ more => exact more.eq_call_of_moreArguments

theorem Reads.takesSuffix_of_suffixes {operand : Expr String} (takes : operand.takesSuffix)
    (h : Reads s (.suffixes operand) p e q) : e.takesSuffix := by
  generalize hφ : Phrase.suffixes operand = φ at h
  induction h generalizing operand <;> cases hφ
  case noSuffix => exact takes
  case call arguments _ _ ih =>
      obtain ⟨_, rfl⟩ := arguments.eq_call_of_arguments
      exact ih rfl rfl
  all_goals
    rename_i ih
    exact ih rfl rfl

/-- An operand with suffixes can take further ones. -/
theorem Reads.takesSuffix (h : Reads s .suffixed p e q) : e.takesSuffix := by
  cases h with
  | suffixed primary suffixes =>
      refine suffixes.takesSuffix_of_suffixes ?_
      cases primary <;> rfl

/-- The size of a type is what is read where one is taken. -/
theorem eq_sizeofType_of_ok (h : sizeofType s p = .ok e q) : ∃ type, e = .sizeofType type := by
  simp only [sizeofType, bind_eq_ok_iff] at h
  obtain ⟨_, _, -, sp, _, -, d, r, -, h⟩ := h
  cases ident : d.ident with
  | some token => simp [ident, bind_eq_ok_iff] at h
  | none =>
      simp only [ident, bind_eq_ok_iff, pure_eq_ok_iff] at h
      obtain ⟨_, _, -, shape, _, -, same, -⟩ := h
      exact ⟨_, same.symm⟩

/-- A cast begins with a type in parentheses. -/
theorem Reads.opensType_of_isCast (h : Reads s (.expression operandLevel) p e q)
    (cast : e.isCast = true) : opensType s p := by
  cases h with
  | expression operand operations =>
      cases operations with
      | noOperation =>
          cases operand with
          | unary | sizeofExpr => cases cast
          | sizeofType _ _ read =>
              obtain ⟨type, rfl⟩ := eq_sizeofType_of_ok read
              cases cast
          | cast type => exact type
          | plain suffixed =>
              have takes := suffixed.takesSuffix
              cases e with
              | cast => cases takes
              | _ => cases cast
      | @operation _ _ _ _ op _ _ _ _ tight =>
          have loose := op.precedence_lt_operandLevel
          omega

/-! ### Every expression that is read is grouped -/

/-- A tree that is read at a level is grouped, holds together as tightly as the level asks, and ends
in front of whatever does not bind that tightly. -/
def GroupsAt (s : Setting) (level : Nat) (e : Expr String) (q : Progress) : Prop :=
  e.isGrouped = true ∧ level ≤ e.level ∧
    ∀ op, Operator.ofLexeme? (q.front s) = some op → op.precedence < level

/-- What each phrase makes of a grouped beginning that fits the operator behind it. -/
def Groups (s : Setting) : Phrase → Progress → Expr String → Progress → Prop
  | .expression level, _, e, q => level ≤ operandLevel → GroupsAt s level e q
  | .operations level left, p, e, q =>
      left.isGrouped = true → level ≤ left.level →
        (∀ op, Operator.ofLexeme? (p.front s) = some op → op.leftLevel ≤ left.level) →
        GroupsAt s level e q
  | .operand, _, e, _ => e.isGrouped = true ∧ e.isBinary = false
  | .suffixes operand, _, e, _ => operand.isGrouped = true → operand.takesSuffix = true →
      e.isGrouped = true
  | .moreArguments _ first found, _, e, _ => Expr.rowIsGrouped (first :: found) = true →
      e.isGrouped = true
  | .suffixed, _, e, _ | .arguments _, _, e, _ | .primary, _, e, _ => e.isGrouped = true

/-- **Every expression that is read is grouped.** -/
theorem Reads.groups (h : Reads s φ p e q) : Groups s φ p e q := by
  induction h with
  | @expression level p q r left e _ _ ih ih' =>
      intro hl
      obtain ⟨grouped, noBinary⟩ := ih
      have tight := left.operandLevel_le_level_iff.2 noBinary
      refine ih' grouped (Nat.le_trans hl tight) ?_
      intro op _
      exact Nat.le_trans op.leftLevel_le_operandLevel tight
  | noOperation stop =>
      intro grouped tight _
      exact ⟨grouped, tight, stop⟩
  | @operation level p q r op left right e found tight _ _ ih ih' =>
      intro grouped _ fits
      obtain ⟨groupedRight, tightRight, stop⟩ := ih op.rightLevel_le_operandLevel
      refine ih' ?_ tight ?_
      · simp only [Expr.isGrouped, Bool.and_eq_true, decide_eq_true_eq]
        exact ⟨⟨⟨fits op found, tightRight⟩, grouped⟩, groupedRight⟩
      · intro op' found'
        exact Operator.leftLevel_le_iff.2 (stop op' found')
  | unary _ _ ih =>
      obtain ⟨grouped, tight, -⟩ := ih (Nat.le_refl _)
      refine ⟨?_, rfl⟩
      simp [Expr.isGrouped, grouped, (Expr.operandLevel_le_level_iff _).1 tight]
  | sizeofType _ _ read =>
      obtain ⟨type, rfl⟩ := eq_sizeofType_of_ok read
      exact ⟨rfl, rfl⟩
  | @sizeofExpr p q e _ noType read ih =>
      obtain ⟨grouped, tight, -⟩ := ih (Nat.le_refl _)
      have noCast : e.isCast = false := by
        rw [Bool.eq_false_iff]
        exact fun cast => noType (read.opensType_of_isCast cast)
      refine ⟨?_, rfl⟩
      simp [Expr.isGrouped, grouped, noCast, (Expr.operandLevel_le_level_iff _).1 tight]
  | cast _ _ _ _ ih =>
      obtain ⟨grouped, tight, -⟩ := ih (Nat.le_refl _)
      refine ⟨?_, rfl⟩
      simp [Expr.isGrouped, grouped, (Expr.operandLevel_le_level_iff _).1 tight]
  | @plain p q e suffixed ih =>
      refine ⟨ih, ?_⟩
      have takes := suffixed.takesSuffix
      cases e with
      | binary => cases takes
      | _ => rfl
  | suffixed primary _ ih ih' =>
      refine ih' ih ?_
      cases primary <;> rfl
  | noSuffix => exact fun grouped _ => grouped
  | call _ read _ ih ih' =>
      intro _ _
      obtain ⟨_, rfl⟩ := read.eq_call_of_arguments
      exact ih' ih rfl
  | index _ _ _ _ ih ih' =>
      intro grouped takes
      obtain ⟨groupedSubscript, -, -⟩ := ih (by decide)
      refine ih' ?_ rfl
      simp [Expr.isGrouped, grouped, takes, groupedSubscript]
  | member _ _ _ ih | pointerMember _ _ _ ih | postfixed _ _ ih =>
      intro grouped takes
      refine ih ?_ rfl
      simp [Expr.isGrouped, grouped, takes]
  | noArguments => rfl
  | arguments _ _ _ ih ih' =>
      obtain ⟨grouped, -, -⟩ := ih (by decide)
      refine ih' ?_
      simp [Expr.rowIsGrouped, grouped]
  | lastArgument => exact fun grouped => grouped
  | nextArgument _ _ _ ih ih' =>
      intro groupedFound
      obtain ⟨grouped, -, -⟩ := ih (by decide)
      refine ih' ?_
      rw [← List.cons_append, Expr.rowIsGrouped_append, groupedFound, Expr.rowIsGrouped, grouped]
      rfl
  | literal | var => rfl
  | parenthesized _ _ _ ih => exact (ih (by decide)).1

/-! ### Every expression that is read spells what was read -/

namespace Phrase

/-- The lexemes in front of what is left to be read of a phrase. -/
def carried : Phrase → List Lexeme
  | .operations _ left => left.spelling
  | .suffixes target => target.spelling
  | .arguments callee => [.identifier callee, .punctuator .parenOpen]
  | .moreArguments callee first found =>
      .identifier callee :: .punctuator .parenOpen :: Expr.rowSpelling (first :: found)
  | .expression _ | .operand | .suffixed | .primary => []

/-- Whether the size of a type is taken in front of what is left to be read of a phrase. -/
def holdsType : Phrase → Bool
  | .operations _ left => left.holdsType
  | .suffixes target => target.holdsType
  | .moreArguments _ first found => Expr.rowHoldsType (first :: found)
  | .expression _ | .operand | .suffixed | .arguments _ | .primary => false

/-- Whether what is in front of a phrase can be written in a source. -/
def hasSpelling : Phrase → Bool
  | .operations _ left => left.hasSpelling
  | .suffixes target => target.hasSpelling
  | .moreArguments _ first found => Expr.rowHasSpelling (first :: found)
  | .expression _ | .operand | .suffixed | .arguments _ | .primary => true

end Phrase

/-- What is in front of a phrase stays a part of the expression. -/
theorem Reads.holdsType_of_carried (h : Reads s φ p e q) (held : φ.holdsType = true) :
    e.holdsType = true := by
  induction h with
  | noOperation | noSuffix | lastArgument => exact held
  | operation _ _ _ _ _ ih | index _ _ _ _ _ ih =>
      refine ih ?_
      simp only [Phrase.holdsType, Expr.holdsType] at held ⊢
      rw [held, Bool.true_or]
  | member _ _ _ ih | pointerMember _ _ _ ih | postfixed _ _ ih => exact ih held
  | nextArgument _ _ _ _ ih =>
      refine ih ?_
      rw [Phrase.holdsType, Expr.rowHoldsType_iff] at held ⊢
      obtain ⟨a, ha, type⟩ := held
      exact ⟨a, List.mem_append_left _ ha, type⟩
  | _ => cases held

theorem Reads.carried_holdsType (h : Reads s φ p e q) (noType : e.holdsType = false) :
    φ.holdsType = false :=
  Bool.eq_false_iff.2 fun held => Bool.eq_false_iff.1 noType (h.holdsType_of_carried held)

/-- Where no size of a type is taken, what was in front of a phrase and what was read spell the
expression. -/
theorem Reads.spells (hs : s.Closed) (h : Reads s φ p e q) (noType : e.holdsType = false) :
    φ.carried ++ p.lexemes = e.spelling ++ q.lexemes := by
  induction h with
  | expression _ more ih ih' => exact (ih (more.carried_holdsType noType)).trans (ih' noType)
  | noOperation | noSuffix => rfl
  | @operation level p q r op left right e found _ _ more ih ih' =>
      have noTypeBoth := more.carried_holdsType noType
      rw [Phrase.holdsType, Expr.holdsType, Bool.or_eq_false_iff] at noTypeBoth
      have ahead := Progress.lexemes_eq_cons hs rfl (ne_ending_of_operator found)
      have right := ih noTypeBoth.2
      rw [← ih' noType, Phrase.carried, Phrase.carried, Expr.spelling,
        Operator.ofLexeme?_eq_some_iff.1 found, ahead]
      simp [← right, Phrase.carried]
  | unary found _ ih =>
      have ahead := Progress.lexemes_eq_cons hs (UnaryOp.ofLexeme?_eq_some_iff.1 found) (by simp)
      rw [Expr.spelling, ahead]
      exact congrArg (List.cons _) (ih noType)
  | sizeofType _ _ read =>
      obtain ⟨type, rfl⟩ := eq_sizeofType_of_ok read
      cases noType
  | sizeofExpr word _ _ ih =>
      rw [Expr.spelling, Progress.lexemes_eq_cons hs word (by simp)]
      exact congrArg (List.cons _) (ih noType)
  | cast type read close _ ih =>
      obtain ⟨-, left⟩ := lexemes_of_castWord hs read
      have operand := ih noType
      rw [Expr.spelling, Progress.lexemes_eq_cons hs type.1 (by simp), left,
        Progress.lexemes_eq_cons hs close (by simp)]
      simp [← operand, Phrase.carried]
  | plain _ ih => exact ih noType
  | suffixed _ more ih ih' => exact (ih (more.carried_holdsType noType)).trans (ih' noType)
  | call paren _ more ih ih' =>
      rw [← ih' noType, Progress.lexemes_eq_cons hs paren (by simp)]
      exact ih (more.carried_holdsType noType)
  | index bracket _ close more ih ih' =>
      have noTypeBoth := more.carried_holdsType noType
      rw [Phrase.holdsType, Expr.holdsType, Bool.or_eq_false_iff] at noTypeBoth
      have subscript := ih noTypeBoth.2
      rw [Phrase.carried, List.nil_append, Progress.lexemes_eq_cons hs close (by simp)]
        at subscript
      rw [← ih' noType, Progress.lexemes_eq_cons hs bracket (by simp), subscript]
      simp [Phrase.carried, Expr.spelling]
  | member mark found _ ih | pointerMember mark found _ ih =>
      rw [← ih noType, Progress.lexemes_eq_cons hs mark (by simp),
        Progress.lexemes_eq_cons hs found (by simp)]
      simp [Phrase.carried, Expr.spelling]
  | postfixed mark _ ih =>
      rw [← ih noType, Progress.lexemes_eq_cons hs mark (by simp)]
      simp [Phrase.carried, Expr.spelling]
  | noArguments close =>
      rw [Progress.lexemes_eq_cons hs close (by simp)]
      rfl
  | arguments _ _ more ih ih' =>
      have noTypeFirst := more.carried_holdsType noType
      rw [Phrase.holdsType, Expr.rowHoldsType, Bool.or_eq_false_iff] at noTypeFirst
      have first := ih noTypeFirst.1
      rw [← ih' noType]
      simpa [Phrase.carried, Expr.rowSpelling, Expr.moreSpelling] using first
  | lastArgument close =>
      rw [Progress.lexemes_eq_cons hs close (by simp)]
      simp [Phrase.carried, Expr.spelling]
  | nextArgument comma _ more ih ih' =>
      have noTypeNext := more.carried_holdsType noType
      simp only [Phrase.holdsType, Expr.rowHoldsType, Expr.rowHoldsType_append,
        Bool.or_eq_false_iff] at noTypeNext
      obtain ⟨-, -, noTypeNext, -⟩ := noTypeNext
      have next := ih noTypeNext
      rw [Phrase.carried, List.nil_append] at next
      rw [← ih' noType, Progress.lexemes_eq_cons hs comma (by simp), next]
      simp [Phrase.carried, Expr.rowSpelling, Expr.moreSpelling, Expr.moreSpelling_append]
  | @literal p value found =>
      have other : value.lexeme ≠ .ending := by cases value <;> simp [Literal.lexeme]
      rw [Progress.lexemes_eq_cons hs (Literal.ofLexeme?_eq_some_iff.1 found) other]
      rfl
  | var found =>
      rw [Progress.lexemes_eq_cons hs found (by simp)]
      rfl
  | parenthesized paren _ close ih =>
      have inner := ih noType
      rw [Phrase.carried, List.nil_append, Progress.lexemes_eq_cons hs close (by simp)] at inner
      rw [Progress.lexemes_eq_cons hs paren (by simp), inner]
      simp [Phrase.carried, Expr.spelling]

/-- What was read can be written in a source. -/
theorem Reads.hasSpelling (h : Reads s φ p e q) (spelled : φ.hasSpelling = true) :
    e.hasSpelling = true := by
  induction h with
  | expression _ _ ih ih' => exact ih' (ih rfl)
  | noOperation | noSuffix | lastArgument => exact spelled
  | operation found _ _ _ ih ih' =>
      refine ih' ?_
      rw [Phrase.hasSpelling] at spelled
      simp [Phrase.hasSpelling, Expr.hasSpelling, spelled, ih rfl,
        Operator.hasSpelling_of_ofLexeme? found]
  | unary _ _ ih | sizeofExpr _ _ _ ih => exact ih rfl
  | sizeofType _ _ read => exact sizeofType_yields _ _ _ read
  | cast _ read _ _ ih =>
      have spelledWords := specifier_yields _ _ _ read
      simp only [Specifier.hasSpelling, List.all_cons, Bool.and_eq_true] at spelledWords
      simp [Expr.hasSpelling, spelledWords, ih rfl]
  | plain _ ih => exact ih rfl
  | suffixed _ _ ih ih' | call _ _ _ ih ih' => exact ih' (ih rfl)
  | index _ _ _ _ ih ih' =>
      refine ih' ?_
      rw [Phrase.hasSpelling] at spelled
      simp [Phrase.hasSpelling, Expr.hasSpelling, spelled, ih rfl]
  | member _ _ _ ih | pointerMember _ _ _ ih | postfixed _ _ ih => exact ih spelled
  | noArguments | literal | var => rfl
  | arguments _ _ _ ih ih' =>
      refine ih' ?_
      simp [Phrase.hasSpelling, Expr.rowHasSpelling, ih rfl]
  | nextArgument _ _ _ ih ih' =>
      refine ih' ?_
      rw [Phrase.hasSpelling] at spelled
      rw [Phrase.hasSpelling, ← List.cons_append, Expr.rowHasSpelling_append, spelled,
        Expr.rowHasSpelling, ih rfl]
      rfl
  | parenthesized _ _ _ ih => exact ih rfl

/-! ### Whole sources -/

/-- A source that spells a grouped expression is read as that expression. -/
theorem wholeExpression_of_spelling (hs : s.Closed) (spelled : e.hasSpelling)
    (grouped : e.isGrouped) (same : e.spelling = p.lexemes) :
    ∃ q, wholeExpression s p = .ok e q := by
  have stop : s.front [] = .ending := hs
  have noSuffix : ¬ isSuffixMark (s.front []) := by rw [stop]; simp [isSuffixMark]
  have noOperator : Operator.ofLexeme? (s.front []) = none := by rw [stop]; rfl
  have gives := gives_expression spelled grouped noSuffix noOperator
  rw [List.append_nil] at gives
  obtain ⟨r, read, last⟩ := gives p same.symm
  refine ⟨r, bind_eq_ok_iff.2 ⟨e, r, (expression_eq_ok_iff hs).2 read, ?_⟩⟩
  exact bind_eq_ok_iff.2 ⟨(), r, finish_eq_ok_iff.2 ⟨List.map_eq_nil_iff.1 last, rfl⟩, rfl⟩

/-- A whole source is read as an expression exactly if the expression can be written, is grouped,
and spells the source. -/
theorem wholeExpression_eq_ok_iff (hs : s.Closed) (noType : e.holdsType = false) :
    (∃ q, wholeExpression s p = .ok e q) ↔
      e.hasSpelling = true ∧ e.isGrouped = true ∧ e.spelling = p.lexemes := by
  constructor
  · rintro ⟨q, h⟩
    simp only [wholeExpression, bind_eq_ok_iff, expression_eq_ok_iff hs, finish_eq_ok_iff,
      pure_eq_ok_iff] at h
    obtain ⟨_, r, read, _, _, ⟨done, rfl⟩, rfl, rfl⟩ := h
    have spells := read.spells hs noType
    have last : r.lexemes = [] := by rw [Progress.lexemes, done, List.map_nil]
    rw [Phrase.carried, last, List.nil_append, List.append_nil] at spells
    exact ⟨read.hasSpelling rfl, (read.groups (by decide)).1, spells.symm⟩
  · rintro ⟨spelled, grouped, same⟩
    exact wholeExpression_of_spelling hs spelled grouped same

end Parser

/-- **A row of tokens is read as the grouped expression that spells it**, and as no other, as long
as the size of no type is taken. -/
theorem Reader.wholeExpression_iff_spelling (file : String) (lines : List String)
    (options : Options) {ts : List Token} {ending : Token}
    (inside : ∀ t ∈ ts, t.lexeme ≠ .ending) (last : ending.lexeme = .ending)
    {e : Expr String} (noType : e.holdsType = false) :
    (Reader.ofTokens file lines options (ts ++ [ending])).map
        (fun r => (r.call Parser.wholeExpression).1) = some (.ok e) ↔
      e.hasSpelling = true ∧ e.isGrouped = true ∧ e.spelling = ts.map Token.lexeme := by
  rw [Reader.ofTokens_closed file lines options inside last, Option.map_some, Option.some.injEq,
    Reader.call_eq_ok_iff]
  exact Parser.wholeExpression_eq_ok_iff last noType

/-- The tokens of `x = y = -a * b[0] + 1`. -/
theorem Reader.wholeExpression_assignments :
    (Reader.ofTokens "" [] {}
        (([.identifier "x", .punctuator .assign, .identifier "y", .punctuator .assign,
            .punctuator .minus, .identifier "a", .punctuator .star, .identifier "b",
            .punctuator .bracketOpen, .number 0, .punctuator .bracketClose, .punctuator .plus,
            .number 1] : List Lexeme).map (⟨·, 1, 1⟩) ++ [⟨.ending, 1, 1⟩])).map
        (fun r => (r.call Parser.wholeExpression).1) =
      some (.ok (.binary (.assign .plain) (.var "x")
        (.binary (.assign .plain) (.var "y")
          (.binary (.binary .add)
            (.binary (.binary .multiply) (.unary .negate (.var "a"))
              (.index (.var "b") (.literal (.int 0))))
            (.literal (.int 1)))))) :=
  (Reader.wholeExpression_iff_spelling "" [] {} (by simp) rfl rfl).2 ⟨rfl, rfl, rfl⟩

end PlainC
