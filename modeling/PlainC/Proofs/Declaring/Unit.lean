/-
**The three kinds of unit.**

The first three tokens of a unit tell whether a struct is defined, and its first declarator tells a
function from variables.  Whatever a unit is read as, the rules that read its parts succeeded one
behind the other, and where they do so the unit is read.

Main definitions:

* `PlainC.Parser.UnitRead` — the three ways in which a unit is read.

Main results:

* `PlainC.Parser.structAhead_of_specifier` — where a specifier stands, no struct is defined;
* `PlainC.Parser.structDefinition_of_members`, `PlainC.Parser.unit_of_structDefinition` — a name
  with members in braces is a struct;
* `PlainC.Parser.UnitRead.of_unit` — **a unit is read in one of three ways**;
* `PlainC.Parser.unit_of_declarator` — behind a specifier and a declarator the rest of a unit is
  read;
* `PlainC.Parser.variableAfter_eq_ok_iff` — what stands behind the declarator of a variable.
-/

import PlainC.Proofs.Comparison.Extension
import PlainC.Proofs.Declaring.Form

set_option relaxedAutoImplicit false
set_option autoImplicit false

namespace PlainC.Parser

variable {s : Setting} {p q : Progress} {sp : Specifier String} {d : Declarator}

/-- What is left when only one token is left to read is the last one. -/
theorem rest_eq_singleton (hs : s.Closed) {front : List Token} {t : Token}
    (suffix : p.rest <:+ front ++ [t]) (some : p.front s ≠ .ending) (done : p.behind.rest = []) :
    p.rest = [t] := by
  obtain ⟨u, left, -⟩ := p.exists_cons_of_front hs some
  rw [done] at left
  obtain ⟨before, whole⟩ := suffix
  rw [left] at whole ⊢
  exact (List.append_inj' whole rfl).2

/-! ### Structs -/

/-- Where a specifier stands, no struct is defined. -/
theorem structAhead_of_specifier (read : specifier s p = .ok sp q) :
    structAhead p.rest s.ending = false := by
  unfold structAhead opensStruct
  split
  · rename_i word name brace
    -- the first turn of the loop would stop at the brace
    simp only [specifier, current_bind] at read
    obtain ⟨_, _, words, -⟩ := bind_eq_ok_iff.1 read
    obtain ⟨turn, r, first⟩ : ∃ turn r, specifierWord { words := [] } s p = .ok turn r := by
      rcases iterate_succ_eq_ok_iff.1 words with last | ⟨_, r, turn, -⟩
      · exact ⟨_, _, last⟩
      · exact ⟨_, r, turn⟩
    have front : p.front s = .keyword .structWord := by
      rw [← word]
      obtain ⟨_ | ⟨t, ts⟩, names⟩ := p <;> rfl
    have third : p.behind.behind.front s = .punctuator .braceOpen := by
      rw [← brace]
      obtain ⟨_ | ⟨t, _ | ⟨u, _ | ⟨v, ts⟩⟩⟩, names⟩ := p <;> rfl
    rw [specifierWord, current_bind, lexeme_headD, front] at first
    simp only [bind_eq_ok_iff, advance_eq_ok_iff, identifier_eq_ok_iff, nextIs_eq_ok_iff] at first
    obtain ⟨_, _, rfl, _, _, ⟨-, rfl⟩, _, _, ⟨rfl, rfl⟩, stop⟩ := first
    rw [third, decide_eq_true rfl, if_pos rfl] at stop
    obtain ⟨_, _, stop, -⟩ := bind_eq_ok_iff.1 stop
    exact absurd stop fail_ne_ok
  · rfl

theorem structMembers_of_close {struct : String} {members : List (Declaration String)}
    (close : p.front s = .punctuator .braceClose) :
    structMembers struct members s p = .ok (.done members) p := by
  refine (current_bind _).trans ((atEnd_bind _).trans ?_)
  rw [lexeme_headD, close, decide_eq_true rfl, Bool.true_or, if_pos rfl]
  rfl

/-- A name with members in braces is a struct, if there are any. -/
theorem structDefinition_of_members {tag : String} {members : List (Declaration String)}
    (named : p.behind.front s = .identifier tag)
    (brace : p.behind.behind.front s = .punctuator .braceOpen)
    (inside : loop (structMembers tag) [] s p.behind.behind.behind = .ok members q)
    (close : q.front s = .punctuator .braceClose)
    (semicolon : q.behind.front s = .punctuator .semicolon) (some : members ≠ []) :
    structDefinition s p = .ok ⟨tag, members⟩ (q.behind.behind.noting tag) := by
  have word : advance s p = .ok () p.behind := advance_eq_ok_iff.2 rfl
  have ends : expectAs .semicolon "';' after struct definition" s q.behind =
      .ok () q.behind.behind :=
    expectAs_eq_ok_iff.2 ⟨semicolon, rfl⟩
  have asked : options s q.behind.behind = .ok s.options q.behind.behind := rfl
  rw [structDefinition, current_bind, bind_of_ok word,
    bind_of_ok (identifier_eq_ok_iff.2 ⟨named, rfl⟩), bind_of_ok (expect_of_front brace),
    bind_of_ok inside, bind_of_ok (expect_of_front close), current_bind, lexeme_headD, semicolon]
  dsimp only
  rw [bind_of_ok ends, bind_of_ok asked, List.isEmpty_eq_false_iff.2 some, Bool.false_and,
    if_neg Bool.false_ne_true]
  rfl

/-- Where the definition of a struct is at the front, a unit is this struct. -/
theorem unit_of_structDefinition {u : Struct String} (here : structAhead p.rest s.ending = true)
    (read : structDefinition s p = .ok u q) : unit s p = .ok [.struct u] q := by
  rw [unit, bind_of_ok (atStructDefinition_eq s p), here, if_pos rfl]
  exact bind_of_ok read _

/-! ### Variables -/

theorem declarationOf_advances : Advances (declarationOf sp d) :=
  (declarationOf_alike sp d : Alike id False id (declarationOf sp d) (declarationOf sp d)).advances

theorem variableAfter_advances : Advances (variableAfter sp d) :=
  (variableAfter_alike sp d : Alike id False id (variableAfter sp d) (variableAfter sp d)).advances

theorem variableOf_advances : Advances (variableOf sp) :=
  (variableOf_alike sp : Alike id False id (variableOf sp) (variableOf sp)).advances

theorem shapeOf_eq_ok_iff {layers : List (Layer Int)} {shape : Shape} :
    shapeOf layers s p = .ok shape q ↔ Shape.ofLayers layers = .ok shape ∧ p = q := by
  rw [shapeOf, ofExcept_eq_ok_iff]
  cases Shape.ofLayers layers <;> simp [Except.mapError]

/-- A declarator is joined to its specifier if its layers make up a shape; its name is noted. -/
theorem declarationOf_eq_ok_iff {declaration : Declaration String} :
    declarationOf sp d s p = .ok declaration q ↔ ∃ shape, Shape.ofLayers d.layers = .ok shape ∧
      ⟨sp, shape, d.name⟩ = declaration ∧ d.name.elim p p.noting = q := by
  simp only [declarationOf, bind_eq_ok_iff, shapeOf_eq_ok_iff]
  cases d.name with
  | none =>
      constructor
      · rintro ⟨shape, _, ⟨composed, rfl⟩, read⟩
        obtain ⟨rfl, rfl⟩ := pure_eq_ok_iff.1 read
        exact ⟨shape, composed, rfl, rfl⟩
      · rintro ⟨shape, composed, rfl, rfl⟩
        exact ⟨shape, p, ⟨composed, rfl⟩, rfl⟩
  | some name =>
      constructor
      · rintro ⟨shape, _, ⟨composed, rfl⟩, read⟩
        obtain ⟨_, _, noted, read⟩ := bind_eq_ok_iff.1 read
        obtain ⟨rfl, rfl⟩ := pure_eq_ok_iff.1 read
        exact ⟨shape, composed, rfl, note_eq_ok_iff.1 noted⟩
      · rintro ⟨shape, composed, rfl, rfl⟩
        exact ⟨shape, p, ⟨composed, rfl⟩, bind_eq_ok_iff.2 ⟨(), _, rfl, rfl⟩⟩

/-- Nothing but the declarator is needed for this, so it can be done anywhere. -/
theorem declarationOf_anywhere {declaration : Declaration String}
    (read : declarationOf sp d s p = .ok declaration q) (s' : Setting) (ts : List Token)
    (names : List String) :
    ∃ names', declarationOf sp d s' ⟨ts, names⟩ = .ok declaration ⟨ts, names'⟩ := by
  obtain ⟨shape, composed, same, -⟩ := declarationOf_eq_ok_iff.1 read
  cases hd : d.name with
  | none => exact ⟨_, declarationOf_eq_ok_iff.2 ⟨shape, composed, same, by rw [hd]; rfl⟩⟩
  | some name => exact ⟨_, declarationOf_eq_ok_iff.2 ⟨shape, composed, same, by rw [hd]; rfl⟩⟩

theorem rest_of_declarationOf {declaration : Declaration String}
    (read : declarationOf sp d s p = .ok declaration q) : q.rest = p.rest := by
  obtain ⟨shape, -, -, rfl⟩ := declarationOf_eq_ok_iff.1 read
  cases d.name <;> rfl

/-- Behind the declarator of a variable stands its initial value behind an equals sign, which does
not begin with a brace, or nothing. -/
theorem variableAfter_eq_ok_iff {v : Variable String} :
    variableAfter sp d s p = .ok v q ↔ ∃ r, declarationOf sp d s p = .ok v.declaration r ∧
      ((r.front s = .punctuator .assign ∧ r.behind.front s ≠ .punctuator .braceOpen ∧
          ∃ e, expression s r.behind = .ok e q ∧ v.initializer = some e) ∨
        (r.front s ≠ .punctuator .assign ∧ v.initializer = none ∧ r = q)) := by
  obtain ⟨declaration, initializer⟩ := v
  rw [variableAfter, bind_eq_ok_iff]
  constructor
  · rintro ⟨declaration', r, first, read⟩
    rw [accept_bind] at read
    split at read
    · rename_i assign
      rw [if_pos rfl, current_bind, lexeme_headD] at read
      split at read
      · obtain ⟨_, _, stop, -⟩ := bind_eq_ok_iff.1 read
        exact absurd stop fail_ne_ok
      · rename_i noBrace
        obtain ⟨e, _, value, last⟩ := bind_eq_ok_iff.1 read
        obtain ⟨same, rfl⟩ := pure_eq_ok_iff.1 last
        cases same
        exact ⟨r, first, .inl ⟨assign, noBrace, e, value, rfl⟩⟩
    · rename_i noAssign
      rw [if_neg Bool.false_ne_true] at read
      obtain ⟨same, rfl⟩ := pure_eq_ok_iff.1 read
      cases same
      exact ⟨r, first, .inr ⟨noAssign, rfl, rfl⟩⟩
  · rintro ⟨r, first, ⟨assign, noBrace, e, value, rfl⟩ | ⟨noAssign, rfl, rfl⟩⟩
    · refine ⟨declaration, r, first, ?_⟩
      rw [accept_bind, if_pos assign, if_pos rfl, current_bind, lexeme_headD, if_neg noBrace]
      exact bind_of_ok value _
    · refine ⟨declaration, r, first, ?_⟩
      rw [accept_bind, if_neg noAssign]
      rfl

/-! ### Units -/

/-- No declarator with a name begins with a semicolon. -/
theorem front_ne_semicolon_of_topDeclarator (hs : s.Closed) (read : topDeclarator s p = .ok d q) :
    p.front s ≠ .punctuator .semicolon := by
  intro semicolon
  obtain ⟨outer, r, stars, read⟩ := bind_eq_ok_iff.1 read
  obtain ⟨core, r', inside, -⟩ := bind_eq_ok_iff.1 read
  obtain ⟨_ | n, -, left⟩ := lexemes_of_pointers hs stars
  · rw [Progress.front_eq, left, List.replicate_zero, List.nil_append, ← Progress.front_eq]
      at semicolon
    rcases declaratorCore_eq_ok_named inside with ⟨-, name, -, front, -⟩ | ⟨front, -⟩ <;>
      simp [front] at semicolon
  · rw [Progress.front_eq, left] at semicolon
    cases semicolon

/-- Reads what stands behind the first declarator of a unit. -/
def unitAfter (sp : Specifier String) (d : Declarator) : Parser (List (TopLevel String)) := do
  if let (some ident, some parameters) := (d.ident, d.parameters) then
    return [.function (← functionAfter sp d ident parameters)]
  let found ← moreAfterCommas (variableOf sp) [← variableAfter sp d]
  expect .semicolon
  return found.map .var

/-- Behind a specifier and a declarator the rest of a unit is read. -/
theorem unit_of_declarator (hs : s.Closed) {r r' : Progress} (words : specifier s p = .ok sp r)
    (inside : topDeclarator s r = .ok d r') : unit s p = unitAfter sp d s r' := by
  rw [unit, bind_of_ok (atStructDefinition_eq s p), structAhead_of_specifier words,
    if_neg Bool.false_ne_true, current_bind, bind_of_ok words, nextIs_bind,
    decide_eq_false (front_ne_semicolon_of_topDeclarator hs inside), if_neg Bool.false_ne_true]
  exact bind_of_ok inside _

/-- The three ways in which a unit is read: as a struct, as a function, or as one or more
variables. -/
inductive UnitRead (s : Setting) (p q : Progress) : List (TopLevel String) → Prop
  | struct {u : Struct String} : structDefinition s p = .ok u q → UnitRead s p q [.struct u]
  | function {sp : Specifier String} {d : Declarator} {r r' : Progress} {ident : Token}
      {parameters : List (Declaration String)} {f : Function String} :
      specifier s p = .ok sp r → topDeclarator s r = .ok d r' → d.ident = some ident →
      d.parameters = some parameters → functionAfter sp d ident parameters s r' = .ok f q →
      UnitRead s p q [.function f]
  | vars {sp : Specifier String} {d : Declarator} {r r₁ r₂ r₃ : Progress} {v : Variable String}
      {found : List (Variable String)} :
      specifier s p = .ok sp r → topDeclarator s r = .ok d r₁ → d.parameters = none →
      variableAfter sp d s r₁ = .ok v r₂ → moreAfterCommas (variableOf sp) [v] s r₂ = .ok found r₃ →
      r₃.front s = .punctuator .semicolon → r₃.behind = q → UnitRead s p q (found.map .var)

/-- **A unit is read in one of three ways.** -/
theorem UnitRead.of_unit (hs : s.Closed) {us : List (TopLevel String)}
    (read : unit s p = .ok us q) : UnitRead s p q us := by
  rw [unit, bind_of_ok (atStructDefinition_eq s p)] at read
  split at read
  · obtain ⟨u, _, inside, last⟩ := bind_eq_ok_iff.1 read
    obtain ⟨rfl, rfl⟩ := pure_eq_ok_iff.1 last
    exact .struct inside
  rw [current_bind] at read
  obtain ⟨sp, r, words, read⟩ := bind_eq_ok_iff.1 read
  rw [nextIs_bind] at read
  split at read
  · obtain ⟨_, _, stop, -⟩ := bind_eq_ok_iff.1 read
    exact absurd stop fail_ne_ok
  obtain ⟨d, r', inside, read⟩ := bind_eq_ok_iff.1 read
  have fits : DeclaratorFits d := topDeclarator_yields hs r d r' inside
  obtain ⟨_ | ident, layers, _ | parameters⟩ := d
  · cases fits.named
  · cases fits.named
  · obtain ⟨v, r₂, first, read⟩ := bind_eq_ok_iff.1 read
    obtain ⟨found, r₃, more, read⟩ := bind_eq_ok_iff.1 read
    obtain ⟨_, _, close, last⟩ := bind_eq_ok_iff.1 read
    obtain ⟨rfl, rfl⟩ := pure_eq_ok_iff.1 last
    obtain ⟨semicolon, behind⟩ := expect_eq_ok_iff.1 close
    exact .vars words inside rfl first more semicolon behind
  · obtain ⟨f, _, behind, last⟩ := bind_eq_ok_iff.1 read
    obtain ⟨rfl, rfl⟩ := pure_eq_ok_iff.1 last
    exact .function words inside rfl rfl behind

/-- Behind its declarator a function is read. -/
theorem unitAfter_of_function {ident : Token} {parameters : List (Declaration String)}
    {f : Function String} (hi : d.ident = some ident) (hp : d.parameters = some parameters)
    (behind : functionAfter sp d ident parameters s p = .ok f q) :
    unitAfter sp d s p = .ok [.function f] q := by
  rw [unitAfter, hi, hp]
  exact bind_of_ok behind _

/-- Behind a declarator without parameters variables are read, up to a semicolon. -/
theorem unitAfter_of_vars {v : Variable String} {found : List (Variable String)} {r r' : Progress}
    (plain : d.parameters = none) (first : variableAfter sp d s p = .ok v r)
    (more : moreAfterCommas (variableOf sp) [v] s r = .ok found r')
    (semicolon : r'.front s = .punctuator .semicolon) :
    unitAfter sp d s p = .ok (found.map .var) r'.behind := by
  have rest : (do
      let found ← moreAfterCommas (variableOf sp) [← variableAfter sp d]
      expect .semicolon
      return found.map TopLevel.var) s p = .ok (found.map .var) r'.behind := by
    rw [bind_of_ok first, bind_of_ok more, bind_of_ok (expect_of_front semicolon)]
    rfl
  obtain ⟨_ | ident, layers, parameters⟩ := d
  · exact rest
  · cases plain
    exact rest

/-! ### Programs of one unit -/

/-- Whatever is read as a unit holds at least one. -/
theorem unit_ne_nil (hs : s.Closed) {us : List (TopLevel String)} (read : unit s p = .ok us q) :
    us ≠ [] := by
  cases UnitRead.of_unit hs read with
  | struct | function => exact List.cons_ne_nil _ _
  | @vars _ _ _ _ _ _ v found _ _ _ _ more =>
      obtain ⟨rest, rfl⟩ := (AfterCommas.of_moreAfterCommas more).isPrefix
      exact List.cons_ne_nil _ _

/-- Units that are read up to the end of the source are none, or they begin with those of a first
declaration. -/
theorem units_eq (hs : s.Closed) (whole : (units s p).stop = none) :
    (p.rest = [] ∧ units s p = ⟨[], none, p⟩) ∨
      ∃ us r, unit s p = .ok us r ∧ units s p = (units s r).behind us := by
  by_cases empty : p.rest.isEmpty
  · refine .inl ⟨List.isEmpty_iff.1 empty, ?_⟩
    rw [units, unitsWithin, if_pos empty]
  · rw [units, unitsWithin, if_neg empty] at whole
    cases read : locatedAt (p.rest.headD s.ending) unit s p with
    | error stop r =>
        rw [read] at whole
        cases whole
    | ok us r =>
        have unit := locatedAt_eq_ok_iff.1 read
        exact .inr ⟨us, r, unit, units_of_unit hs unit⟩

/-- A program of one unit is this unit, up to the end of the source. -/
theorem unit_of_program (hs : s.Closed) {u : TopLevel String} (read : program s p = .ok ⟨[u]⟩ q) :
    unit s p = .ok [u] q ∧ q.rest = [] := by
  obtain ⟨whole, all, rfl⟩ : (units s p).stop = none ∧ (units s p).completed = [u] ∧
      (units s p).progress = q := by
    unfold program at read
    dsimp only at read
    split at read
    · rename_i none
      simp only [EStateM.Result.ok.injEq, Program.mk.injEq] at read
      exact ⟨none, read⟩
    · cases read
  rcases units_eq hs whole with ⟨-, same⟩ | ⟨us, r, unit, same⟩
  · rw [same] at all
    cases all
  · rw [same] at whole all ⊢
    -- the first declaration has a unit, and no other is left for those behind it
    rcases units_eq hs whole with ⟨done, same'⟩ | ⟨us', r', unit', same'⟩
    · rw [same', Units.behind, List.append_nil] at all
      obtain rfl : us = [u] := all
      rw [same']
      exact ⟨unit, done⟩
    · have first := List.length_pos_iff.2 (unit_ne_nil hs unit)
      have second := List.length_pos_iff.2 (unit_ne_nil hs unit')
      have one := congrArg List.length all
      simp only [same', Units.behind, List.length_append, List.length_singleton] at one
      omega

end PlainC.Parser
