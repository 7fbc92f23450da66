/-
**Expressions that are read back.**

An expression that can be written in a source and needs no parentheses besides those that it holds
is read back from its spelling, whatever stands behind it, as long as that neither continues it nor
binds more tightly than it.  Operators and suffixes are read by loops that carry what stands in
front of them, so the induction goes over what a loop makes of an expression once that is read.

Main definitions:

* `PlainC.Parser.Gives` — a phrase is derived from some lexemes;
* `PlainC.Parser.ReadsBack` — what the induction shows of an expression.

Main results:

* `PlainC.Operator.leftLevel_le_iff` — which operators may stand behind an operation;
* `PlainC.Parser.readsBack` — the induction;
* `PlainC.Parser.gives_expression` — **a grouped expression is derived from its spelling**.
-/

import PlainC.Proofs.Expression.Agreement
import PlainC.Proofs.RoundTrip.Declaration

set_option relaxedAutoImplicit false
set_option autoImplicit false

namespace PlainC.Parser

variable {s : Setting} {ls ls' : List Lexeme}

/-! ### Lexemes that continue an expression -/

/-- No suffix mark is an operator between operands. -/
theorem isSuffixMark.not_operator {l : Lexeme} (h : isSuffixMark l) :
    Operator.ofLexeme? l = none := by
  rcases h with rfl | rfl | rfl | rfl | ⟨op, rfl⟩
  · decide
  · decide
  · decide
  · decide
  · cases op <;> decide

/-! ### Types in expressions -/

/-- A type in parentheses is read back. -/
theorem takes_sizeofType {d : Declaration String} (hd : d.hasSpelling) (noName : d.isAbstract) :
    Takes s sizeofType
      (.punctuator .parenOpen :: d.spelling ++ .punctuator .parenClose :: ls)
      (· = .sizeofType d) ls := by
  obtain ⟨sp, shape, _ | name⟩ := d
  · refine takes_advance.bind fun _ _ => ?_
    refine (takes_specifier_of_declaration hd ⟨rfl, by simp⟩).bind ?_
    rintro _ rfl
    refine (takes_declarator_of_declaration _ (.inl rfl) rfl).bind fun read stands => ?_
    have noIdent : read.ident = none := by simpa using stands.ident
    rw [Declaration.hasSpelling, Bool.and_eq_true] at hd
    simp only [noIdent]
    refine takes_expect.bind fun _ _ => ?_
    rw [stands.layers]
    refine (takes_shapeOf hd.2).bind ?_
    rintro _ rfl
    exact .pure rfl
  · cases noName

/-- The type of a cast is read back. -/
theorem takes_castWord {word : TypeWord String} (hw : word.hasSpelling) :
    Takes s specifier (word.spelling ++ .punctuator .parenClose :: ls)
      (· = ⟨false, false, [word]⟩) (.punctuator .parenClose :: ls) := by
  have resolved : (TypeWord.resolve [word]).isOk := by
    cases word with
    | struct name => rw [TypeWord.resolve_struct]; rfl
    | tagged | foreign => cases hw
    | _ => rfl
  have spelled : (⟨false, false, [word]⟩ : Specifier String).hasSpelling := by
    simp [Specifier.hasSpelling, hw, resolved]
  have behind : s.front (.punctuator .parenClose :: ls) ≠ .punctuator .braceOpen := by simp
  simpa [Specifier.spelling] using takes_specifier spelled rfl behind

/-- A type word begins like a declaration. -/
theorem startsDeclaration_front_word {word : TypeWord String} (hw : word.hasSpelling)
    (ls : List Lexeme) : (s.front (word.spelling ++ ls)).startsDeclaration = true := by
  cases word <;> first | rfl | cases hw

/-! ### Derivations from lexemes -/

/-- Wherever the lexemes `ls` are left, the phrase gives the expression and leaves `ls'`. -/
def Gives (s : Setting) (φ : Phrase) (ls : List Lexeme) (e : Expr String) (ls' : List Lexeme) :
    Prop :=
  ∀ p : Progress, p.lexemes = ls → ∃ q, Reads s φ p e q ∧ q.lexemes = ls'

/-- Whether lexemes cannot continue an expression: no suffix stands in front of them, and no
operator that would take the expression as its left operand otherwise. -/
def Stops (s : Setting) (e : Expr String) (ls : List Lexeme) : Prop :=
  ¬ isSuffixMark (s.front ls) ∧
    ∀ op, Operator.ofLexeme? (s.front ls) = some op → op.leftLevel ≤ e.level

/-- What is shown of an expression by induction: it is read from its spelling, as an operand with
suffixes, as an operand or as an expression, and the loop in force goes on behind it. -/
structure ReadsBack (s : Setting) (e : Expr String) : Prop where
  suffixed : e.takesSuffix → ∀ {ls e' ls'}, Gives s (.suffixes e) ls e' ls' →
    Gives s .suffixed (e.spelling ++ ls) e' ls'
  operand : e.isBinary = false → ∀ {ls}, ¬ isSuffixMark (s.front ls) →
    Gives s .operand (e.spelling ++ ls) e ls
  expression : ∀ {level ls e' ls'}, level ≤ e.level → Stops s e ls →
    Gives s (.operations level e) ls e' ls' → Gives s (.expression level) (e.spelling ++ ls) e' ls'

variable {e : Expr String}

/-- An operand is an expression of any level. -/
theorem ReadsBack.of_operand (noSuffix : e.takesSuffix = false)
    (operand : ∀ {ls}, ¬ isSuffixMark (s.front ls) → Gives s .operand (e.spelling ++ ls) e ls) :
    ReadsBack s e where
  suffixed takes := by rw [noSuffix] at takes; cases takes
  operand _ := operand
  expression := by
    intro level ls e' ls' _ stops more p hp
    obtain ⟨q, first, hq⟩ := operand stops.1 p hp
    obtain ⟨r, rest, hr⟩ := more q hq
    exact ⟨r, .expression first rest, hr⟩

/-- An operand with suffixes is an operand. -/
theorem ReadsBack.of_suffixed
    (suffixed : ∀ {ls e' ls'}, Gives s (.suffixes e) ls e' ls' →
      Gives s .suffixed (e.spelling ++ ls) e' ls') : ReadsBack s e := by
  have operand : ∀ {ls}, ¬ isSuffixMark (s.front ls) →
      Gives s .operand (e.spelling ++ ls) e ls := by
    intro ls stop p hp
    have last : Gives s (.suffixes e) ls e ls := by
      rintro q rfl
      rw [← Progress.front_eq] at stop
      exact ⟨q, .noSuffix stop, rfl⟩
    obtain ⟨q, read, hq⟩ := suffixed last p hp
    exact ⟨q, .plain read, hq⟩
  refine ⟨fun _ => suffixed, fun _ => operand, ?_⟩
  intro level ls e' ls' _ stops more p hp
  obtain ⟨q, first, hq⟩ := operand stops.1 p hp
  obtain ⟨r, rest, hr⟩ := more q hq
  exact ⟨r, .expression first rest, hr⟩

/-- A primary expression is an operand with suffixes. -/
theorem ReadsBack.of_primary
    (primary : ∀ {ls}, Gives s .primary (e.spelling ++ ls) e ls) : ReadsBack s e := by
  refine .of_suffixed ?_
  intro ls e' ls' more p hp
  obtain ⟨q, first, hq⟩ := primary p hp
  obtain ⟨r, rest, hr⟩ := more q hq
  exact ⟨r, .suffixed first rest, hr⟩

/-- Behind a whole expression stands no operator of its level. -/
theorem ReadsBack.whole (h : ReadsBack s e) {level : Nat} (hl : level ≤ e.level)
    (noSuffix : ¬ isSuffixMark (s.front ls))
    (stop : ∀ op, Operator.ofLexeme? (s.front ls) = some op → op.precedence < level) :
    Gives s (.expression level) (e.spelling ++ ls) e ls := by
  refine h.expression hl ⟨noSuffix, ?_⟩ ?_
  · intro op found
    have below := stop op found
    have above := op.leftLevel_le
    omega
  · rintro q rfl
    rw [← Progress.front_eq] at stop
    exact ⟨q, .noOperation stop, rfl⟩

/-- In front of a closing mark any expression is whole. -/
theorem ReadsBack.inside (h : ReadsBack s e) {m : Punctuator}
    (close : m = .parenClose ∨ m = .bracketClose ∨ m = .comma) (ls : List Lexeme) :
    Gives s (.expression expressionLevel) (e.spelling ++ .punctuator m :: ls) e
      (.punctuator m :: ls) := by
  refine h.whole e.expressionLevel_le_level ?_ ?_
  · rcases close with rfl | rfl | rfl <;> simp [isSuffixMark] <;> rintro (_ | _) <;> decide
  · intro op found
    rcases close with rfl | rfl | rfl <;> cases found

/-- Behind an operand stands no operator, since none binds as tightly as an operand. -/
theorem ReadsBack.asOperand (h : ReadsBack s e) (noBinary : e.isBinary = false)
    (noSuffix : ¬ isSuffixMark (s.front ls)) :
    Gives s (.expression operandLevel) (e.spelling ++ ls) e ls := by
  exact h.whole (e.operandLevel_le_level_iff.2 noBinary) noSuffix
    fun op _ => op.precedence_lt_operandLevel

/-! ### Arguments -/

/-- Behind an argument stands a comma or the closing parenthesis. -/
theorem moreSpelling_append_eq_cons (es : List (Expr String)) (ls : List Lexeme) :
    ∃ m ls', (m = .parenClose ∨ m = .bracketClose ∨ m = .comma) ∧
      Expr.moreSpelling es ++ .punctuator .parenClose :: ls = .punctuator m :: ls' := by
  cases es with
  | nil => exact ⟨_, _, .inl rfl, rfl⟩
  | cons e es => exact ⟨_, _, .inr (.inr rfl), rfl⟩

theorem gives_moreArguments (callee : String) (ls : List Lexeme) (first : Expr String)
    (found es : List (Expr String))
    (h : ∀ e ∈ es, ReadsBack s e) :
    Gives s (.moreArguments callee first found)
      (Expr.moreSpelling es ++ .punctuator .parenClose :: ls)
      (.call callee (first :: (found ++ es))) ls := by
  induction es generalizing found with
  | nil =>
      intro p hp
      rw [List.append_nil]
      exact ⟨p.behind, .lastArgument (Progress.front_of_lexemes hp),
        Progress.behind_of_lexemes hp⟩
  | cons e es ih =>
      intro p hp
      simp only [Expr.moreSpelling, List.cons_append, List.append_assoc] at hp
      have more := ih (found ++ [e]) fun e' he' => h e' (List.mem_cons_of_mem _ he')
      obtain ⟨m, ls', close, ahead⟩ := moreSpelling_append_eq_cons es ls
      have next := (h e (List.mem_cons_self ..)).inside close ls'
      rw [ahead] at hp more
      obtain ⟨q, read, hq⟩ := next p.behind (Progress.behind_of_lexemes hp)
      obtain ⟨r, rest, hr⟩ := more q hq
      rw [List.append_assoc, List.singleton_append] at rest
      exact ⟨r, .nextArgument (Progress.front_of_lexemes hp) read rest, hr⟩

theorem gives_arguments (callee : String) (ls : List Lexeme) {es : List (Expr String)}
    (h : ∀ e ∈ es, ReadsBack s e) :
    Gives s (.arguments callee)
      (Expr.rowSpelling es ++ .punctuator .parenClose :: ls) (.call callee es) ls := by
  intro p hp
  cases es with
  | nil =>
      exact ⟨p.behind, .noArguments (Progress.front_of_lexemes hp),
        Progress.behind_of_lexemes hp⟩
  | cons e es =>
      rw [Expr.rowSpelling, List.append_assoc] at hp
      have more := gives_moreArguments callee ls e [] es
        fun e' he' => h e' (List.mem_cons_of_mem _ he')
      obtain ⟨m, ls', close, ahead⟩ := moreSpelling_append_eq_cons es ls
      have first := (h e (List.mem_cons_self ..)).inside close ls'
      rw [ahead] at hp more
      obtain ⟨q, read, hq⟩ := first p hp
      obtain ⟨r, rest, hr⟩ := more q hq
      refine ⟨r, .arguments ?_ read rest, hr⟩
      intro closed
      have begins := read.startsExpression_front
      rw [closed] at begins
      cases begins

/-! ### The forms of expressions -/

namespace ReadsBack

variable {target operand : Expr String}

theorem literal (value : Literal) : ReadsBack s (.literal value) := by
  refine .of_primary ?_
  intro ls p hp
  refine ⟨p.behind, .literal ?_, Progress.behind_of_lexemes hp⟩
  rw [Progress.front_of_lexemes hp]
  exact Literal.ofLexeme?_eq_some_iff.2 rfl

theorem var (name : String) : ReadsBack s (.var name) := by
  refine .of_primary ?_
  intro ls p hp
  exact ⟨p.behind.noting name, .var (Progress.front_of_lexemes hp),
    Progress.behind_of_lexemes hp⟩

theorem parenthesized (h : ReadsBack s e) : ReadsBack s (.parenthesized e) := by
  refine .of_primary ?_
  intro ls p hp
  simp only [Expr.spelling, List.cons_append, List.append_assoc, List.nil_append] at hp
  have behind := Progress.behind_of_lexemes hp
  obtain ⟨q, read, hq⟩ := h.inside (.inl rfl) ls p.behind behind
  exact ⟨q.behind, .parenthesized (Progress.front_of_lexemes hp) read
    (Progress.front_of_lexemes hq), Progress.behind_of_lexemes hq⟩

theorem sizeofType {type : Declaration String} (spelled : type.hasSpelling)
    (noName : type.isAbstract) : ReadsBack s (.sizeofType type) := by
  refine .of_operand rfl ?_
  intro ls _ p hp
  simp only [Expr.spelling, List.cons_append, List.append_assoc, List.nil_append] at hp
  have word := Progress.front_of_lexemes (s := s) hp
  have behind := Progress.behind_of_lexemes hp
  obtain ⟨_, q, read, rfl, hq⟩ := takes_sizeofType spelled noName p.behind behind
  refine ⟨q, .sizeofType word ⟨Progress.front_of_lexemes behind, ?_⟩ read, hq⟩
  rw [Progress.front_eq, Progress.behind_of_lexemes behind]
  exact startsDeclaration_front spelled _

theorem sizeofExpr (h : ReadsBack s operand) (noBinary : operand.isBinary = false)
    (noCast : operand.isCast = false) : ReadsBack s (.sizeofExpr operand) := by
  refine .of_operand rfl ?_
  intro ls stop p hp
  have behind := Progress.behind_of_lexemes hp
  obtain ⟨q, read, hq⟩ := h.asOperand noBinary stop p.behind behind
  refine ⟨q, .sizeofExpr (Progress.front_of_lexemes hp) ?_ read, hq⟩
  intro type
  have cast := read.isCast_of_opensType type
  rw [noCast] at cast
  cases cast

theorem unary (op : UnaryOp) (h : ReadsBack s operand) (noBinary : operand.isBinary = false) :
    ReadsBack s (.unary op operand) := by
  refine .of_operand rfl ?_
  intro ls stop p hp
  have behind := Progress.behind_of_lexemes hp
  obtain ⟨q, read, hq⟩ := h.asOperand noBinary stop p.behind behind
  refine ⟨q, .unary ?_ read, hq⟩
  rw [Progress.front_of_lexemes hp]
  exact UnaryOp.ofLexeme?_mark op

theorem cast {word : TypeWord String} (spelled : word.hasSpelling) (h : ReadsBack s operand)
    (noBinary : operand.isBinary = false) : ReadsBack s (.cast word operand) := by
  refine .of_operand rfl ?_
  intro ls stop p hp
  simp only [Expr.spelling, List.cons_append, List.append_assoc] at hp
  have behind := Progress.behind_of_lexemes hp
  obtain ⟨_, q, words, rfl, hq⟩ := takes_castWord (s := s) spelled p.behind behind
  obtain ⟨r, read, hr⟩ := h.asOperand noBinary stop q.behind (Progress.behind_of_lexemes hq)
  refine ⟨r, .cast ⟨Progress.front_of_lexemes hp, ?_⟩ words (Progress.front_of_lexemes hq) read,
    hr⟩
  rw [Progress.front_eq, behind]
  exact startsDeclaration_front_word spelled _

/-- An expression with one more suffix is read back if the loop over suffixes goes on through it. -/
theorem of_target (h : ReadsBack s target) (takes : target.takesSuffix) {suffix : List Lexeme}
    (same : e.spelling = target.spelling ++ suffix)
    (turn : ∀ {ls e' ls'}, Gives s (.suffixes e) ls e' ls' →
      Gives s (.suffixes target) (suffix ++ ls) e' ls') : ReadsBack s e := by
  refine .of_suffixed ?_
  intro ls e' ls' more
  rw [same, List.append_assoc]
  exact h.suffixed takes (turn more)

theorem postfixed (op : PostfixOp) (h : ReadsBack s target) (takes : target.takesSuffix) :
    ReadsBack s (.postfixed op target) := by
  refine h.of_target takes rfl ?_
  intro ls e' ls' more p hp
  obtain ⟨r, rest, hr⟩ := more p.behind (Progress.behind_of_lexemes hp)
  exact ⟨r, .postfixed (Progress.front_of_lexemes hp) rest, hr⟩

theorem member (name : String) (h : ReadsBack s target) (takes : target.takesSuffix) :
    ReadsBack s (.member target name) := by
  refine h.of_target takes rfl ?_
  intro ls e' ls' more p hp
  have behind := Progress.behind_of_lexemes hp
  obtain ⟨r, rest, hr⟩ := more (p.behind.behind.noting name) (Progress.behind_of_lexemes behind)
  exact ⟨r, .member (Progress.front_of_lexemes hp) (Progress.front_of_lexemes behind) rest, hr⟩

theorem pointerMember (name : String) (h : ReadsBack s target) (takes : target.takesSuffix) :
    ReadsBack s (.pointerMember target name) := by
  refine h.of_target takes rfl ?_
  intro ls e' ls' more p hp
  have behind := Progress.behind_of_lexemes hp
  obtain ⟨r, rest, hr⟩ := more (p.behind.behind.noting name) (Progress.behind_of_lexemes behind)
  exact ⟨r, .pointerMember (Progress.front_of_lexemes hp) (Progress.front_of_lexemes behind) rest,
    hr⟩

theorem index {subscript : Expr String} (h : ReadsBack s target) (takes : target.takesSuffix)
    (h' : ReadsBack s subscript) : ReadsBack s (.index target subscript) := by
  refine h.of_target takes (by rw [Expr.spelling, List.append_assoc]) ?_
  intro ls e' ls' more p hp
  simp only [List.cons_append, List.append_assoc, List.nil_append] at hp
  obtain ⟨q, read, hq⟩ := h'.inside (.inr (.inl rfl)) ls p.behind (Progress.behind_of_lexemes hp)
  obtain ⟨r, rest, hr⟩ := more q.behind (Progress.behind_of_lexemes hq)
  exact ⟨r, .index (Progress.front_of_lexemes hp) read (Progress.front_of_lexemes hq) rest, hr⟩

theorem call (callee : String) {es : List (Expr String)} (h : ∀ a ∈ es, ReadsBack s a) :
    ReadsBack s (.call callee es) := by
  refine .of_suffixed ?_
  intro ls e' ls' more p hp
  simp only [Expr.spelling, List.cons_append, List.append_assoc, List.nil_append] at hp
  have behind := Progress.behind_of_lexemes hp
  have row := gives_arguments callee ls h
  obtain ⟨q, read, hq⟩ := row (p.behind.noting callee).behind (Progress.behind_of_lexemes behind)
  obtain ⟨r, rest, hr⟩ := more q hq
  exact ⟨r, .suffixed (.var (Progress.front_of_lexemes hp))
    (.call (Progress.front_of_lexemes behind) read rest), hr⟩

theorem binary {op : Operator} {left right : Expr String} (known : op.hasSpelling)
    (h : ReadsBack s left) (fits : op.leftLevel ≤ left.level) (h' : ReadsBack s right)
    (fits' : op.rightLevel ≤ right.level) : ReadsBack s (.binary op left right) := by
  obtain ⟨l, mark⟩ := Operator.exists_lexeme known
  have found := Operator.ofLexeme?_eq_some_iff.2 mark
  refine ⟨?_, ?_, ?_⟩
  · intro takes
    cases takes
  · intro noBinary
    cases noBinary
  intro level ls e' ls' tight stops more
  rw [Expr.spelling, mark, Option.toList_some, List.append_assoc, List.append_assoc,
    List.singleton_append]
  have tightLeft : level ≤ left.level :=
    Nat.le_trans tight (Nat.le_trans op.precedence_le_leftLevel fits)
  refine h.expression tightLeft ⟨?_, ?_⟩ ?_
  · intro suffix
    rw [Setting.front_cons] at suffix
    rw [suffix.not_operator] at found
    cases found
  · intro op' found'
    rw [Setting.front_cons, found] at found'
    cases found'
    exact fits
  · intro p hp
    -- the right operand ends where the operation does
    have ends := h'.whole fits' stops.1
      fun op' found' => Operator.leftLevel_le_iff.1 (stops.2 op' found')
    obtain ⟨q, read, hq⟩ := ends p.behind (Progress.behind_of_lexemes hp)
    obtain ⟨r, rest, hr⟩ := more q hq
    rw [← Progress.front_of_lexemes (s := s) hp] at found
    exact ⟨r, .operation found tight read rest, hr⟩

end ReadsBack

/-! ### The induction -/

/-- An expression that can be written in a source and is grouped is read back. -/
theorem readsBack (s : Setting) (e : Expr String) (spelled : e.hasSpelling)
    (grouped : e.isGrouped) : ReadsBack s e := by
  induction e using Expr.induct with
  | blank => cases spelled
  | literal value => exact .literal value
  | var name => exact .var name
  | sizeofType type =>
      rw [Expr.hasSpelling, Bool.and_eq_true] at spelled
      exact .sizeofType spelled.2 spelled.1
  | sizeofExpr operand ih =>
      simp only [Expr.isGrouped, Bool.and_eq_true, Bool.not_eq_true'] at grouped
      obtain ⟨⟨noBinary, noCast⟩, grouped⟩ := grouped
      exact .sizeofExpr (ih spelled grouped) noBinary noCast
  | parenthesized inner ih => exact .parenthesized (ih spelled grouped)
  | postfixed op operand ih =>
      rw [Expr.isGrouped, Bool.and_eq_true] at grouped
      exact .postfixed op (ih spelled grouped.2) grouped.1
  | unary op operand ih =>
      simp only [Expr.isGrouped, Bool.and_eq_true, Bool.not_eq_true'] at grouped
      exact .unary op (ih spelled grouped.2) grouped.1
  | binary op left right ih ih' =>
      simp only [Expr.hasSpelling, Bool.and_eq_true] at spelled
      simp only [Expr.isGrouped, Bool.and_eq_true, decide_eq_true_eq] at grouped
      obtain ⟨⟨known, spelledLeft⟩, spelledRight⟩ := spelled
      obtain ⟨⟨⟨fits, fits'⟩, groupedLeft⟩, groupedRight⟩ := grouped
      exact .binary known (ih spelledLeft groupedLeft) fits (ih' spelledRight groupedRight) fits'
  | call callee arguments ih =>
      rw [Expr.hasSpelling, Expr.rowHasSpelling_iff] at spelled
      rw [Expr.isGrouped, Expr.rowIsGrouped_iff] at grouped
      exact .call callee fun a ha => ih a ha (spelled a ha) (grouped a ha)
  | index target subscript ih ih' =>
      simp only [Expr.hasSpelling, Bool.and_eq_true] at spelled
      simp only [Expr.isGrouped, Bool.and_eq_true] at grouped
      exact .index (ih spelled.1 grouped.1.2) grouped.1.1 (ih' spelled.2 grouped.2)
  | member target name ih =>
      rw [Expr.isGrouped, Bool.and_eq_true] at grouped
      exact .member name (ih spelled grouped.2) grouped.1
  | pointerMember target name ih =>
      rw [Expr.isGrouped, Bool.and_eq_true] at grouped
      exact .pointerMember name (ih spelled grouped.2) grouped.1
  | cast word operand ih =>
      rw [Expr.hasSpelling, Bool.and_eq_true] at spelled
      simp only [Expr.isGrouped, Bool.and_eq_true, Bool.not_eq_true'] at grouped
      exact .cast spelled.1 (ih spelled.2 grouped.2) grouped.1

/-- **A grouped expression is derived from its spelling**, up to the end or to whatever cannot
continue it. -/
theorem gives_expression {e : Expr String} (spelled : e.hasSpelling) (grouped : e.isGrouped)
    (noSuffix : ¬ isSuffixMark (s.front ls)) (noOperator : Operator.ofLexeme? (s.front ls) = none) :
    Gives s (.expression expressionLevel) (e.spelling ++ ls) e ls :=
  (readsBack s e spelled grouped).whole e.expressionLevel_le_level noSuffix
    fun op found => by rw [noOperator] at found; cases found

end PlainC.Parser
