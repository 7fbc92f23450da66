/-
**Other tokens behind a reading.**

Where a reading is over, what stands behind it decides only that it is over.  So a rule that is run
up to a guarded place does the same with any other tokens behind that place, more of them or fewer;
with fewer tokens it has a smaller budget, but the budget lasts in any case.  An expression may also
reach up to the end of the source, where no place is guarded.  What it needs there is that neither
an operator nor a suffix follows, and this is all that it needs.

Main definitions:

* `PlainC.StopsExpression` — the lexemes that cannot go on with an expression.

Main results:

* `PlainC.Parser.Alike.retracts` — rules that are put together alike do the same with fewer tokens
  behind a guarded place, unless a budget is used up;
* `PlainC.Parser.sizeofType_exchange`, `PlainC.Parser.specifier_exchange` — a type is read in the
  same way in front of any tokens;
* `PlainC.Parser.Reads.exchange` — **an expression is read in the same way in front of any tokens
  that cannot go on with it**.
-/

import PlainC.Proofs.Comparison.Extension
import PlainC.Proofs.Expression.Agreement
import PlainC.Proofs.Parsing.Resuming

set_option relaxedAutoImplicit false
set_option autoImplicit false

namespace PlainC

/-! ### Progress in front of other tokens -/

namespace Progress

variable {p q r : Progress} {tail : List Token}

@[simp] theorem rest_followed (tail : List Token) (p : Progress) :
    (p.followed tail).rest = p.rest ++ tail := rfl

theorem followed_inj (h : p.followed tail = q.followed tail) : p = q := by
  obtain ⟨rest, names⟩ := p
  obtain ⟨rest', names'⟩ := q
  obtain ⟨same, names⟩ := Progress.mk.inj h
  rw [Progress.mk.injEq]
  exact ⟨List.append_cancel_right same, names⟩

/-- In front of a place in front of the tail one is in front of the tail as well. -/
theorem exists_followed (suffix : (q.followed tail).rest <:+ r.rest) :
    ∃ p : Progress, r = p.followed tail ∧ q.rest <:+ p.rest := by
  obtain ⟨front, whole⟩ := suffix
  refine ⟨⟨front ++ q.rest, r.names⟩, ?_, List.suffix_append front q.rest⟩
  rw [followed, List.append_assoc, ← rest_followed, whole]

end Progress

namespace Parser

variable {α β : Type} {f : α → β} {s : Setting} {p q : Progress}

/-! ### Up to a guarded place -/

theorem options_eq_ok_iff {o : Options} : options s p = .ok o q ↔ s.options = o ∧ p = q := by
  change EStateM.Result.ok s.options p = .ok o q ↔ _
  simp

/-- Rules that are put together alike do the same with fewer tokens behind a guarded place, unless a
budget is used up. -/
theorem Alike.retracts {x : Parser α} {y : Parser β} (h : Alike id True f x y) {ending : Token}
    {tail : List Token} {b : β}
    (read : y (s.endingAt ending) (p.followed tail) = .ok b (q.followed tail))
    (guarded : q.Guarded) :
    (∃ a, f a = b ∧ x s p = .ok a q) ∨ ∃ r, x s p = .error .exhausted r := by
  induction h generalizing p q with
  | pure same =>
      obtain ⟨rfl, here⟩ := pure_eq_ok_iff.1 read
      exact .inl ⟨_, same, pure_eq_ok_iff.2 ⟨rfl, Progress.followed_inj here⟩⟩
  | @bindMap _ _ _ _ _ _ x y k k' alike second ih ih' =>
      obtain ⟨c, r', first, rest⟩ := bind_eq_ok_iff.1 read
      obtain ⟨a, rfl⟩ := alike.exists_eq first
      -- the place between the two parsers is in front of the tail, and guarded as well
      obtain ⟨r, rfl, suffix⟩ :=
        Progress.exists_followed ((second a).advances_right.of_ok rest)
      rcases ih first (guarded.of_suffix suffix) with ⟨a', same, found⟩ | ⟨r, stop⟩
      · rw [bind_of_ok found]
        rw [← same] at rest
        exact ih' a' rest guarded
      · refine .inr ⟨r, ?_⟩
        change EStateM.bind (x s) (fun a => k a s) p = _
        rw [EStateM.bind, stop]
  | current =>
      obtain ⟨rfl, here⟩ := current_eq_ok_iff.1 read
      obtain rfl := Progress.followed_inj here
      obtain ⟨t, more, rest, -⟩ := guarded
      exact .inl ⟨t, by simp [rest], current_eq_ok_iff.2 ⟨by simp [rest], rfl⟩⟩
  | @beyond _ _ _ k k' alike blind ih =>
      have there : k' ((p.rest ++ tail).getD 0 ending) ((p.rest ++ tail).getD 1 ending)
        (s.endingAt ending) (p.followed tail) = .ok _ (q.followed tail) := read
      change (∃ a, _ ∧ k (p.rest.getD 0 s.ending) (p.rest.getD 1 s.ending) s p = _) ∨
        ∃ r, k (p.rest.getD 0 s.ending) (p.rest.getD 1 s.ending) s p = _
      obtain ⟨r, same, suffix⟩ := Progress.exists_followed ((alike _ _).advances_right.of_ok there)
      obtain rfl := Progress.followed_inj same
      obtain ⟨t, more, rest, other⟩ := guarded.of_suffix suffix
      rw [rest] at there ⊢
      cases more with
      | nil =>
          -- behind the last token nothing is looked at
          rw [List.cons_append, List.getD_cons_zero, blind t _ s.ending (other rfl)] at there
          exact ih _ _ there guarded
      | cons u more => exact ih _ _ there guarded
  | ahead notLonger => exact absurd trivial notLonger
  | atEnd =>
      obtain ⟨rfl, here⟩ := atEnd_eq_ok_iff.1 read
      obtain rfl := Progress.followed_inj here
      obtain ⟨t, more, rest, -⟩ := guarded
      exact .inl ⟨false, by simp [rest], atEnd_eq_ok_iff.2 ⟨by simp [rest], rfl⟩⟩
  | refuse | fail | exhausted => cases read
  | outlasted => exact .inr ⟨p, rfl⟩
  | advance =>
      have here := advance_eq_ok_iff.1 read
      obtain ⟨t, more, rest, -⟩ := guarded
      obtain ⟨_ | ⟨u, us⟩, names⟩ := p
      · -- nothing is left to go past, so that more would be left than there was
        have short := congrArg (fun r => r.rest.length) here
        simp [Progress.followed, rest] at short
        omega
      · exact .inl ⟨(), rfl, advance_eq_ok_iff.2 (Progress.followed_inj here)⟩
  | note name =>
      have here := note_eq_ok_iff.1 read
      exact .inl ⟨(), rfl, note_eq_ok_iff.2 (Progress.followed_inj here)⟩
  | options =>
      obtain ⟨rfl, here⟩ := options_eq_ok_iff.1 read
      exact .inl ⟨_, rfl, options_eq_ok_iff.2 ⟨rfl, Progress.followed_inj here⟩⟩
  | locatedAt t _ ih =>
      rcases ih (locatedAt_eq_ok_iff.1 read) guarded with ⟨a, same, found⟩ | ⟨r, stop⟩
      · exact .inl ⟨a, same, locatedAt_eq_ok_iff.2 found⟩
      · refine .inr ⟨r, ?_⟩
        rw [Parser.locatedAt, stop]
  | budgeted _ ih =>
      refine ih _ _ ?_ (.inl trivial) read guarded
      simp [Progress.followed]

/-- Up to a guarded place a rule does the same whatever stands behind it. -/
theorem Alike.exchange {x : Parser α} (h : Alike id True id x x)
    (lasts : ∀ n, Lasts s n x) {tail : List Token} {a : α}
    (read : x s (p.followed tail) = .ok a (q.followed tail)) (guarded : q.Guarded) (ending : Token)
    (tail' : List Token) :
    x (s.endingAt ending) (p.followed tail') = .ok a (q.followed tail') := by
  have here : x (s.endingAt s.ending) (p.followed tail) = .ok a (q.followed tail) := read
  rcases h.retracts here guarded with ⟨_, rfl, found⟩ | ⟨r, stop⟩
  · exact h.extends found guarded ending tail'
  · obtain ⟨d, fault⟩ := lasts (p.rest.length + 1) p .exhausted r (Nat.lt_succ_self _) stop
    cases fault

/-! ### Types -/

/-- A closing parenthesis is a guard. -/
theorem guarded_of_close {t : Token} {more : List Token} {names : List String}
    (close : t.lexeme = .punctuator .parenClose) : Progress.Guarded ⟨t :: more, names⟩ := by
  refine Progress.guarded_cons ?_
  rw [close]
  rfl

/-- A token is left in front of the tail if there are more tokens than those of the tail. -/
theorem exists_cons_of_length {tail rest : List Token} {names : List String}
    (longer : tail.length < (Progress.followed tail ⟨rest, names⟩).rest.length) :
    ∃ t more, rest = t :: more := by
  rcases rest with _ | ⟨t, more⟩
  · exact absurd longer (Nat.lt_irrefl _)
  · exact ⟨t, more, rfl⟩

/-- A token that was read in front of a place in front of the tail is not of the tail. -/
theorem exists_cons_of_followed (closed : s.Closed) {tail rest : List Token} {names : List String}
    {l : Lexeme} (front : (Progress.followed tail ⟨rest, names⟩).front s = l) (some : l ≠ .ending)
    (suffix : (q.followed tail).rest <:+ (Progress.followed tail ⟨rest, names⟩).behind.rest) :
    ∃ t more, rest = t :: more := by
  have shorter := Progress.length_behind_lt closed (front ▸ some)
  have tailLeft := (List.suffix_append q.rest tail).length_le
  exact exists_cons_of_length (Nat.lt_of_le_of_lt (Nat.le_trans tailLeft suffix.length_le) shorter)

/-- The same for a token behind which that place is. -/
theorem exists_cons_of_behind (closed : s.Closed) {tail rest : List Token} {names : List String}
    {l : Lexeme} (front : (Progress.followed tail ⟨rest, names⟩).front s = l) (some : l ≠ .ending)
    (here : (Progress.followed tail ⟨rest, names⟩).behind.rest = (q.followed tail).rest) :
    ∃ t more, rest = t :: more := by
  exact exists_cons_of_followed closed front some (q := q) (here ▸ List.suffix_refl _)

/-- The words of a type are read in the same way in front of any tokens. -/
theorem specifier_exchange (closed : s.Closed) {tail : List Token} {sp : Specifier String}
    (read : specifier s (p.followed tail) = .ok sp (q.followed tail)) (guarded : q.Guarded)
    (ending : Token) (tail' : List Token) :
    specifier (s.endingAt ending) (p.followed tail') = .ok sp (q.followed tail') :=
  specifier_alike.exchange (fun _ => specifier_ends.lasts closed) read guarded ending tail'

theorem sizeofType_eq_ok_iff {e : Expr String} :
    sizeofType s p = .ok e q ↔ ∃ sp r d r' shape, specifier s p.behind = .ok sp r ∧
      declarator true s r = .ok d r' ∧ d.ident = none ∧ r'.front s = .punctuator .parenClose ∧
      (Shape.ofLayers d.layers).mapError Fault.misfit = .ok shape ∧
      .sizeofType ⟨sp, shape, none⟩ = e ∧ r'.behind = q := by
  simp only [sizeofType, bind_eq_ok_iff, advance_eq_ok_iff]
  constructor
  · rintro ⟨_, _, rfl, sp, r, words, d, r', inner, read⟩
    cases ident : d.ident with
    | some token => simp [ident, bind_eq_ok_iff] at read
    | none =>
        simp only [ident, bind_eq_ok_iff, expect_eq_ok_iff, shapeOf, ofExcept_eq_ok_iff,
          pure_eq_ok_iff] at read
        obtain ⟨_, _, ⟨close, rfl⟩, shape, _, ⟨layers, rfl⟩, rfl, rfl⟩ := read
        exact ⟨sp, r, d, r', shape, words, inner, ident, close, layers, rfl, rfl⟩
  · rintro ⟨sp, r, d, r', shape, words, inner, ident, close, layers, rfl, rfl⟩
    refine ⟨(), _, rfl, sp, r, words, d, r', inner, ?_⟩
    simp only [ident, bind_eq_ok_iff, expect_eq_ok_iff, shapeOf, ofExcept_eq_ok_iff,
      pure_eq_ok_iff]
    exact ⟨(), _, ⟨close, rfl⟩, shape, _, ⟨layers, rfl⟩, rfl, rfl⟩

/-- A type in parentheses is more than one token. -/
theorem length_of_sizeofType (closed : s.Closed) {e : Expr String}
    (read : sizeofType s p = .ok e q) : q.rest.length + 2 ≤ p.rest.length := by
  obtain ⟨sp, r, d, r', shape, words, inner, -, -, -, -, rfl⟩ := sizeofType_eq_ok_iff.1 read
  have first := specifier_ends (n := 0) s p.behind closed trivial
  have second := ((declarator_alike true : Alike id True id _ _).advances.of_ok inner).length_le
  rw [words] at first
  simp only [Progress.rest_behind, List.length_tail] at first ⊢
  omega

/-- A type in parentheses is read in the same way in front of any tokens. -/
theorem sizeofType_exchange (closed : s.Closed) {tail : List Token} {e : Expr String}
    (read : sizeofType s (p.followed tail) = .ok e (q.followed tail)) (ending : Token)
    (tail' : List Token) :
    sizeofType (s.endingAt ending) (p.followed tail') = .ok e (q.followed tail') := by
  obtain ⟨sp, r, d, r', shape, words, inner, nameless, close, layers, rfl, behind⟩ :=
    sizeofType_eq_ok_iff.1 read
  -- all places on the way are in front of the tail, and guarded by the closing parenthesis
  have last : (q.followed tail).rest <:+ r'.behind.rest := behind ▸ List.suffix_refl _
  obtain ⟨⟨_, names⟩, rfl, -⟩ := Progress.exists_followed (last.trans (List.tail_suffix _))
  obtain ⟨t, us, rfl⟩ := exists_cons_of_followed closed close (by simp) last
  have guarded : Progress.Guarded ⟨t :: us, names⟩ := guarded_of_close close
  have nested : Alike id True id (declarator true) (declarator true) := declarator_alike true
  have advances := nested.advances.of_ok inner
  obtain ⟨c, rfl, suffix⟩ := Progress.exists_followed advances
  obtain ⟨_, names'⟩ := p
  have tailLeft := (List.suffix_append q.rest tail).length_le
  have longer := length_of_sizeofType closed read
  obtain ⟨u, vs, rfl⟩ :=
    exists_cons_of_length (Nat.lt_of_le_of_lt tailLeft (Nat.lt_of_lt_of_le (by simp) longer))
  obtain rfl : (⟨us, names⟩ : Progress) = q := Progress.followed_inj behind
  refine sizeofType_eq_ok_iff.2 ⟨sp, c.followed tail', d, Progress.followed tail' ⟨t :: us, names⟩,
    shape, ?_, ?_, nameless, close, layers, rfl, rfl⟩
  · exact specifier_exchange (p := ⟨vs, names'⟩) closed words
      (guarded.of_suffix suffix) ending tail'
  · exact nested.exchange (fun _ => (declarator_ends true).lasts closed) inner guarded ending tail'

end Parser

/-! ### Expressions -/

/-- The lexemes that cannot go on with an expression: no operator between operands, nothing that may
follow an operand, and no word that makes the parenthesis in front of it the start of a type. -/
structure StopsExpression (l : Lexeme) : Prop where
  noOperator : Operator.ofLexeme? l = none
  noSuffix : ¬ Parser.isSuffixMark l
  noType : l.startsDeclaration = false

theorem stopsExpression_ending : StopsExpression .ending :=
  ⟨rfl, by simp [Parser.isSuffixMark], rfl⟩

/-- A semicolon and a comma end an expression. -/
theorem stopsExpression_separator {m : Punctuator} (h : m = .semicolon ∨ m = .comma) :
    StopsExpression (.punctuator m) := by
  rcases h with rfl | rfl
  all_goals
    refine ⟨rfl, ?_, rfl⟩
    simp only [Parser.isSuffixMark, Lexeme.punctuator.injEq, reduceCtorEq, false_or, not_exists]
    intro op
    cases op <;> decide

theorem stopsExpression_semicolon : StopsExpression (.punctuator .semicolon) :=
  stopsExpression_separator (.inl rfl)

namespace Parser

variable {s : Setting} {p q b c : Progress} {e : Expr String} {φ : Phrase} {ending : Token}
  {tail tail' : List Token}

/-- Two tokens decide whether a type in parentheses is at the front. -/
theorem opensType_of_two (two : 2 ≤ p.rest.length) (opens : opensType s (p.followed tail)) :
    opensType (s.endingAt ending) (p.followed tail') := by
  obtain ⟨_ | ⟨t, _ | ⟨u, us⟩⟩, names⟩ := p
  · cases two
  · exact absurd two (by simp)
  · exact opens

/-- Whether a type in parentheses is at the front does not depend on tokens behind that cannot go on
with an expression. -/
theorem opensType_exchange (stop : StopsExpression (tail'.headD ending).lexeme)
    (opens : opensType (s.endingAt ending) (p.followed tail')) : opensType s (p.followed tail) := by
  obtain ⟨_ | ⟨t, _ | ⟨u, us⟩⟩, names⟩ := p
  · exact absurd (.inl opens.1) stop.noSuffix
  · exact absurd opens.2 (Bool.eq_false_iff.1 stop.noType)
  · exact opens

/-- An expression is at least one token. -/
theorem Reads.length_lt (closed : s.Closed) {level : Nat} (h : Reads s (.expression level) p e q) :
    q.rest.length < p.rest.length := by
  have found := (expressionWithin_eq_ok_iff closed (Nat.lt_succ_self _)).2 h
  have cost := expressionWithin_ends (p.rest.length + 1) level s p closed trivial
  rw [found] at cost
  exact cost

/-- **An expression is read in the same way in front of any tokens that cannot go on with it.** -/
theorem Reads.exchange (closed : s.Closed) (stop : StopsExpression (tail'.headD ending).lexeme)
    (h : Reads s φ p e q) (hp : p = b.followed tail) (hq : q = c.followed tail) :
    Reads (s.endingAt ending) φ (b.followed tail') e (c.followed tail') := by
  induction h generalizing b c with
  | expression operand operations ih ih' =>
      subst hq
      obtain ⟨d, rfl, -⟩ := Progress.exists_followed operations.rest_suffix
      exact .expression (ih hp rfl) (ih' rfl rfl)
  | noOperation loose =>
      subst hp
      obtain rfl := Progress.followed_inj hq
      obtain ⟨_ | ⟨t, more⟩, names⟩ := b
      · refine .noOperation fun op found => ?_
        change Operator.ofLexeme? (tail'.headD ending).lexeme = some op at found
        rw [stop.noOperator] at found
        cases found
      · exact .noOperation loose
  | operation found tight read more ih ih' =>
      subst hp hq
      obtain ⟨_, names⟩ := b
      obtain ⟨d, rfl, -⟩ := Progress.exists_followed more.rest_suffix
      obtain ⟨t, us, rfl⟩ :=
        exists_cons_of_followed closed rfl (ne_ending_of_operator found) read.rest_suffix
      exact .operation found tight (ih (b := ⟨us, names⟩) rfl rfl) (ih' rfl rfl)
  | unary found read ih =>
      subst hp hq
      obtain ⟨_, names⟩ := b
      obtain ⟨t, us, rfl⟩ := exists_cons_of_followed closed (UnaryOp.ofLexeme?_eq_some_iff.1 found)
        (by simp) read.rest_suffix
      exact .unary found (ih (b := ⟨us, names⟩) rfl rfl)
  | sizeofType word type read =>
      subst hp hq
      obtain ⟨_, names⟩ := b
      obtain ⟨t, us, rfl⟩ :=
        exists_cons_of_followed closed word (by simp) (sizeofType_advances.of_ok read)
      have longer := length_of_sizeofType closed read
      have two : 2 ≤ us.length := by
        simp only [Progress.followed, Progress.behind_cons, List.cons_append,
          List.length_append] at longer
        omega
      exact .sizeofType word (opensType_of_two (p := ⟨us, names⟩) two type)
        (sizeofType_exchange (p := ⟨us, names⟩) closed read ending tail')
  | sizeofExpr word noType read ih =>
      subst hp hq
      obtain ⟨_, names⟩ := b
      obtain ⟨t, us, rfl⟩ := exists_cons_of_followed closed word (by simp) read.rest_suffix
      refine .sizeofExpr word (fun type => noType ?_) (ih (b := ⟨us, names⟩) rfl rfl)
      exact opensType_exchange (p := ⟨us, names⟩) stop type
  | cast type words close read ih =>
      subst hp hq
      obtain ⟨_, names⟩ := b
      obtain ⟨⟨_, names'⟩, rfl, -⟩ :=
        Progress.exists_followed (read.rest_suffix.trans (List.tail_suffix _))
      obtain ⟨u, vs, rfl⟩ := exists_cons_of_followed closed close (by simp) read.rest_suffix
      have guarded : Progress.Guarded ⟨u :: vs, names'⟩ := guarded_of_close close
      have suffix := specifier_advances.of_ok words
      obtain ⟨t, us, rfl⟩ := exists_cons_of_followed closed type.1 (by simp) suffix
      have two : 2 ≤ (t :: us).length := by
        have longer := suffix.length_le
        simp only [Progress.followed, Progress.behind_cons, List.cons_append, List.length_append,
          List.length_cons] at longer ⊢
        omega
      have words' := specifier_exchange (p := ⟨us, names⟩) closed words guarded ending tail'
      exact .cast (opensType_of_two (p := ⟨t :: us, names⟩) two type) words' close
        (ih (b := ⟨vs, names'⟩) rfl rfl)
  | plain suffixed ih => exact .plain (ih hp hq)
  | suffixed primary suffixes ih ih' =>
      subst hq
      obtain ⟨d, rfl, -⟩ := Progress.exists_followed suffixes.rest_suffix
      exact .suffixed (ih hp rfl) (ih' rfl rfl)
  | noSuffix other =>
      subst hp
      obtain rfl := Progress.followed_inj hq
      obtain ⟨_ | ⟨t, more⟩, names⟩ := b
      · exact .noSuffix stop.noSuffix
      · exact .noSuffix other
  | call paren arguments more ih ih' =>
      subst hp hq
      obtain ⟨_, names⟩ := b
      obtain ⟨d, rfl, -⟩ := Progress.exists_followed more.rest_suffix
      obtain ⟨t, us, rfl⟩ := exists_cons_of_followed closed paren (by simp) arguments.rest_suffix
      exact .call paren (ih (b := ⟨us, names⟩) rfl rfl) (ih' rfl rfl)
  | index bracket read close more ih ih' =>
      subst hp hq
      obtain ⟨_, names⟩ := b
      obtain ⟨⟨_, names'⟩, rfl, -⟩ :=
        Progress.exists_followed (more.rest_suffix.trans (List.tail_suffix _))
      obtain ⟨u, vs, rfl⟩ := exists_cons_of_followed closed close (by simp) more.rest_suffix
      obtain ⟨t, us, rfl⟩ := exists_cons_of_followed closed bracket (by simp) read.rest_suffix
      exact .index bracket (ih (b := ⟨us, names⟩) rfl rfl) close (ih' (b := ⟨vs, names'⟩) rfl rfl)
  | @member p r name target e dot found more ih =>
      subst hp hq
      obtain ⟨_, names⟩ := b
      obtain ⟨t, _, rfl⟩ := exists_cons_of_followed closed dot (by simp)
        (more.rest_suffix.trans (List.tail_suffix _))
      obtain ⟨u, us, rfl⟩ := exists_cons_of_followed closed found (by simp) more.rest_suffix
      exact .member dot found (ih (b := ⟨us, names ++ [name]⟩) rfl rfl)
  | @pointerMember p r name target e arrow found more ih =>
      subst hp hq
      obtain ⟨_, names⟩ := b
      obtain ⟨t, _, rfl⟩ := exists_cons_of_followed closed arrow (by simp)
        (more.rest_suffix.trans (List.tail_suffix _))
      obtain ⟨u, us, rfl⟩ := exists_cons_of_followed closed found (by simp) more.rest_suffix
      exact .pointerMember arrow found (ih (b := ⟨us, names ++ [name]⟩) rfl rfl)
  | postfixed mark more ih =>
      subst hp hq
      obtain ⟨_, names⟩ := b
      obtain ⟨t, us, rfl⟩ := exists_cons_of_followed closed mark (by simp) more.rest_suffix
      exact .postfixed mark (ih (b := ⟨us, names⟩) rfl rfl)
  | noArguments close =>
      subst hp
      obtain ⟨_, names⟩ := b
      obtain ⟨t, us, rfl⟩ :=
        exists_cons_of_behind closed close (by simp) (congrArg Progress.rest hq)
      obtain rfl : ⟨us, names⟩ = c := Progress.followed_inj hq
      exact .noArguments close
  | arguments notClose read more ih ih' =>
      subst hp hq
      obtain ⟨d, rfl, -⟩ := Progress.exists_followed more.rest_suffix
      have longer := read.length_lt closed
      obtain ⟨_ | ⟨t, us⟩, names⟩ := b
      · simp only [Progress.rest_followed, List.length_append, List.nil_append] at longer
        omega
      · exact .arguments notClose (ih rfl rfl) (ih' rfl rfl)
  | lastArgument close =>
      subst hp
      obtain ⟨_, names⟩ := b
      obtain ⟨t, us, rfl⟩ :=
        exists_cons_of_behind closed close (by simp) (congrArg Progress.rest hq)
      obtain rfl : ⟨us, names⟩ = c := Progress.followed_inj hq
      exact .lastArgument close
  | nextArgument comma read more ih ih' =>
      subst hp hq
      obtain ⟨_, names⟩ := b
      obtain ⟨d, rfl, -⟩ := Progress.exists_followed more.rest_suffix
      obtain ⟨t, us, rfl⟩ := exists_cons_of_followed closed comma (by simp) read.rest_suffix
      exact .nextArgument comma (ih (b := ⟨us, names⟩) rfl rfl) (ih' rfl rfl)
  | @literal p value found =>
      subst hp
      obtain ⟨_, names⟩ := b
      have front := Literal.ofLexeme?_eq_some_iff.1 found
      have some : value.lexeme ≠ .ending := by cases value <;> simp [Literal.lexeme]
      obtain ⟨t, us, rfl⟩ := exists_cons_of_behind closed front some (congrArg Progress.rest hq)
      obtain rfl : ⟨us, names⟩ = c := Progress.followed_inj hq
      exact .literal found
  | @var p name found =>
      subst hp
      obtain ⟨rest, names⟩ := b
      have here : (Progress.followed tail ⟨rest, names⟩).behind.rest = (c.followed tail).rest := by
        rw [← hq]
        rfl
      obtain ⟨t, us, rfl⟩ := exists_cons_of_behind closed found (by simp) here
      obtain rfl : ⟨us, names ++ [name]⟩ = c := Progress.followed_inj hq
      exact .var found
  | @parenthesized _ r _ paren read close ih =>
      subst hp
      obtain ⟨_, names⟩ := b
      have last : (c.followed tail).rest <:+ r.rest := by
        rw [← hq]
        exact List.tail_suffix _
      obtain ⟨⟨_, names'⟩, rfl, -⟩ := Progress.exists_followed last
      obtain ⟨u, vs, rfl⟩ :=
        exists_cons_of_behind closed close (by simp) (congrArg Progress.rest hq)
      obtain rfl : ⟨vs, names'⟩ = c := Progress.followed_inj hq
      obtain ⟨t, us, rfl⟩ := exists_cons_of_followed closed paren (by simp) read.rest_suffix
      have inner := ih (b := ⟨us, names⟩) rfl rfl
      exact .parenthesized (q := Progress.followed tail' ⟨u :: vs, names'⟩) paren inner close

end Parser

end PlainC
