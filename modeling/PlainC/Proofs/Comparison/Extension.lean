/-
**More tokens behind a unit.**

A unit ends with a semicolon or a closing brace, and what stands behind it is not looked at.  So a
unit that is read from some tokens is read in the same way if more tokens follow.  The rules inside
a unit do look at the token behind, and there may be none in the first run; they are compared up to
a place in front of the last token of the unit, where at least this one is left.

Main definitions:

* `PlainC.Setting.endingAt`, `PlainC.Progress.followed` — the second run, with another end and more
  tokens in front of it;
* `PlainC.Progress.Guarded` — a token is left, and if it is the last one nothing is looked at behind
  it;
* `PlainC.Parser.Still`, `PlainC.Parser.Closes` — the rules that read nothing, and the rules that
  end with a token that ends a unit;
* `PlainC.Parser.Settles` — two rules that do so from one place.

Main results:

* `PlainC.Parser.Alike.extends` — rules that are put together alike do the same up to a guarded
  place;
* `PlainC.Parser.unit_closes` — **a unit ends with a semicolon or a closing brace, and is read in
  the same way in front of more tokens**;
* `PlainC.unitsWithin_extends` — so are the units of a program.
-/

import PlainC.Proofs.Comparison.Recasting
import PlainC.Proofs.Parsing.Advance

set_option relaxedAutoImplicit false
set_option autoImplicit false

namespace PlainC

/-! ### The two runs -/

/-- The setting with another end of the source. -/
def Setting.endingAt (s : Setting) (ending : Token) : Setting := { s with ending := ending }

namespace Progress

/-- The progress with more tokens in front of the end. -/
def followed (tail : List Token) (p : Progress) : Progress := { p with rest := p.rest ++ tail }

/-- A token is left, and if it is the last one nothing is looked at behind it. -/
def Guarded (p : Progress) : Prop :=
  ∃ t more, p.rest = t :: more ∧ (more = [] → t.lexeme.looksPast = false)

variable {p q : Progress}

/-- In front of a guarded place the reading is guarded. -/
theorem Guarded.of_suffix (h : q.Guarded) (suffix : q.rest <:+ p.rest) : p.Guarded := by
  obtain ⟨t, more, rest, other⟩ := h
  obtain ⟨_ | ⟨u, front⟩, whole⟩ := suffix
  · exact ⟨t, more, by rw [← whole, rest, List.nil_append], other⟩
  · exact ⟨u, front ++ q.rest, by rw [← whole, List.cons_append], by simp [rest]⟩

/-- A token behind which nothing is looked at is a guard. -/
theorem guarded_cons {t : Token} {more : List Token} {names : List String}
    (other : t.lexeme.looksPast = false) : Progress.Guarded ⟨t :: more, names⟩ :=
  ⟨t, more, rfl, fun _ => other⟩

/-- In front of a token behind which nothing is looked at the reading is guarded. -/
theorem guarded_of_other {front more : List Token} {t : Token}
    (rest : p.rest = front ++ t :: more) (other : t.lexeme.looksPast = false) : p.Guarded :=
  Guarded.of_suffix (q := ⟨t :: more, p.names⟩) (guarded_cons other) ⟨front, rest.symm⟩

end Progress

namespace Parser

variable {α β γ : Type} {f : α → β}

/-! ### Up to a guarded place -/

/-- Rules that are put together alike do the same up to a guarded place. -/
theorem Alike.extends {x : Parser α} {y : Parser β} (h : Alike id True f x y) {s : Setting}
    {p q : Progress} {a : α} (read : x s p = .ok a q) (guarded : q.Guarded) (ending : Token)
    (tail : List Token) :
    y (s.endingAt ending) (p.followed tail) = .ok (f a) (q.followed tail) := by
  induction h generalizing p q with
  | pure same =>
      obtain ⟨rfl, rfl⟩ := pure_eq_ok_iff.1 read
      exact pure_eq_ok_iff.2 ⟨same.symm, rfl⟩
  | bindMap _ second ih ih' =>
      obtain ⟨a, r, first, rest⟩ := bind_eq_ok_iff.1 read
      -- the second parser only goes on, so the place between the two is guarded as well
      have guardedThere := guarded.of_suffix ((second a).advances.of_ok rest)
      exact bind_eq_ok_iff.2 ⟨_, _, ih first guardedThere, ih' a rest guarded⟩
  | current =>
      obtain ⟨rfl, rfl⟩ := current_eq_ok_iff.1 read
      obtain ⟨t, more, rest, -⟩ := guarded
      exact current_eq_ok_iff.2 ⟨by simp [Progress.followed, rest], rfl⟩
  | @beyond _ _ _ k k' alike blind ih =>
      have here : k (p.rest.getD 0 s.ending) (p.rest.getD 1 s.ending) s p = .ok a q := read
      have there := ih _ _ here guarded
      obtain ⟨t, more, rest, other⟩ := guarded.of_suffix ((alike _ _).advances.of_ok here)
      change k' ((p.rest ++ tail).getD 0 ending) ((p.rest ++ tail).getD 1 ending)
        (s.endingAt ending) (p.followed tail) = _
      rw [rest] at there ⊢
      cases more with
      | nil =>
          -- behind the last token nothing is looked at
          rw [List.cons_append, List.getD_cons_zero] at *
          rw [blind t _ _ (other rfl)]
          exact there
      | cons u more => exact there
  | ahead notLonger => exact absurd trivial notLonger
  | atEnd =>
      obtain ⟨rfl, rfl⟩ := atEnd_eq_ok_iff.1 read
      obtain ⟨t, more, rest, -⟩ := guarded
      exact atEnd_eq_ok_iff.2 ⟨by simp [Progress.followed, rest], rfl⟩
  | refuse | fail | exhausted | outlasted => cases read
  | advance =>
      obtain rfl := advance_eq_ok_iff.1 read
      obtain ⟨t, more, rest, -⟩ := guarded
      obtain ⟨_ | ⟨u, us⟩, names⟩ := p
      · cases rest
      · rfl
  | note name =>
      obtain rfl := note_eq_ok_iff.1 read
      rfl
  | options =>
      cases read
      rfl
  | locatedAt t _ ih => exact locatedAt_eq_ok_iff.2 (ih (locatedAt_eq_ok_iff.1 read) guarded)
  | budgeted _ ih =>
      refine ih _ _ ?_ (.inl trivial) read guarded
      simp [Progress.followed]

/-! ### Up to the end of a unit -/

/-- A rule that reads nothing, and does the same in front of more tokens. -/
structure Still (x : Parser α) : Prop where
  rest : ∀ {s p a q}, x s p = .ok a q → q.rest = p.rest
  followed : ∀ {s p a q}, x s p = .ok a q → ∀ ending tail,
    x (s.endingAt ending) (p.followed tail) = .ok a (q.followed tail)

/-- Read at `p`, the rule `x` ends with a token that ends a unit, and `y` does the same with the
tokens `tail` behind. -/
structure Settles (s : Setting) (ending : Token) (tail : List Token) (p : Progress)
    (x y : Parser α) : Prop where
  last : ∀ {a q}, x s p = .ok a q → ∃ front t, p.rest = front ++ t :: q.rest ∧ t.lexeme.endsUnit
  followed : ∀ {a q}, x s p = .ok a q →
    y (s.endingAt ending) (p.followed tail) = .ok a (q.followed tail)

/-- A rule that ends with a token that ends a unit, and does the same in front of more tokens. -/
structure Closes (x : Parser α) : Prop where
  last : ∀ {s p a q}, s.Closed → x s p = .ok a q →
    ∃ front t, p.rest = front ++ t :: q.rest ∧ t.lexeme.endsUnit
  followed : ∀ {s p a q}, s.Closed → x s p = .ok a q → ∀ ending tail,
    x (s.endingAt ending) (p.followed tail) = .ok a (q.followed tail)

namespace Still

theorem pure (a : α) : Still (pure a : Parser α) where
  rest read := by rw [(pure_eq_ok_iff.1 read).2]
  followed read _ _ := by
    obtain ⟨rfl, rfl⟩ := pure_eq_ok_iff.1 read
    rfl

theorem fail (fault : Fault) (t : Token) : Still (fail fault t : Parser α) where
  rest read := by cases read
  followed read := by cases read

theorem note (name : String) : Still (note name) where
  rest read := by rw [← note_eq_ok_iff.1 read, Progress.rest_noting]
  followed read _ _ := by
    obtain rfl := note_eq_ok_iff.1 read
    rfl

theorem options : Still options where
  rest read := by
    cases read
    rfl
  followed read _ _ := by
    cases read
    rfl

theorem bind {x : Parser α} {k : α → Parser β} (hx : Still x) (hk : ∀ a, Still (k a)) :
    Still (x >>= k) where
  rest read := by
    obtain ⟨a, r, first, rest⟩ := bind_eq_ok_iff.1 read
    exact ((hk a).rest rest).trans (hx.rest first)
  followed read ending tail := by
    obtain ⟨a, r, first, rest⟩ := bind_eq_ok_iff.1 read
    exact bind_eq_ok_iff.2 ⟨a, _, hx.followed first ending tail, (hk a).followed rest ending tail⟩

theorem ite {c : Prop} [Decidable c] {x y : Parser α} (hx : Still x) (hy : Still y) :
    Still (if c then x else y) := by
  split
  · exact hx
  · exact hy

end Still

namespace Settles

variable {s : Setting} {ending : Token} {tail : List Token} {p : Progress} {x y : Parser α}

/-- What is read in front of the end of a unit is read up to a guarded place. -/
theorem bind {k k' : α → Parser β} (hx : Alike id True id x y)
    (hk : ∀ a q, Settles s ending tail q (k a) (k' a)) :
    Settles s ending tail p (x >>= k) (y >>= k') where
  last read := by
    obtain ⟨a, r, first, rest⟩ := bind_eq_ok_iff.1 read
    obtain ⟨front, t, here, ends⟩ := (hk a r).last rest
    obtain ⟨before, whole⟩ := hx.advances.of_ok first
    exact ⟨before ++ front, t, by rw [← whole, here, List.append_assoc], ends⟩
  followed read := by
    obtain ⟨a, r, first, rest⟩ := bind_eq_ok_iff.1 read
    obtain ⟨front, t, here, ends⟩ := (hk a r).last rest
    have guarded := Progress.guarded_of_other here (Lexeme.looksPast_of_endsUnit ends)
    exact bind_eq_ok_iff.2 ⟨a, _, hx.extends first guarded ending tail, (hk a r).followed rest⟩

theorem andThen {k : α → Parser β} (hx : Settles s ending tail p x y) (hk : ∀ a, Still (k a)) :
    Settles s ending tail p (x >>= k) (y >>= k) where
  last read := by
    obtain ⟨a, r, first, rest⟩ := bind_eq_ok_iff.1 read
    rw [(hk a).rest rest]
    exact hx.last first
  followed read := by
    obtain ⟨a, r, first, rest⟩ := bind_eq_ok_iff.1 read
    exact bind_eq_ok_iff.2 ⟨a, _, hx.followed first, (hk a).followed rest ending tail⟩

end Settles

namespace Closes

theorem expectAs {m : Punctuator} (ends : (Lexeme.punctuator m).endsUnit) (expected : String) :
    Closes (expectAs m expected) where
  last {s p _ _} closed read := by
    obtain ⟨here, rfl⟩ := expectAs_eq_ok_iff.1 read
    obtain ⟨t, rest, same⟩ := Progress.exists_cons_of_front closed (p := p) (by simp [here])
    exact ⟨[], t, rest, by rw [same, here]; exact ends⟩
  followed {s p _ _} closed read ending tail := by
    obtain ⟨here, rfl⟩ := expectAs_eq_ok_iff.1 read
    obtain ⟨t, rest, same⟩ := Progress.exists_cons_of_front closed (p := p) (by simp [here])
    obtain ⟨_ | ⟨v, more⟩, names⟩ := p
    · cases rest
    · exact expectAs_eq_ok_iff.2 ⟨here, rfl⟩

theorem settles {x : Parser α} (h : Closes x) {s : Setting} (closed : s.Closed) {ending : Token}
    {tail : List Token} {p : Progress} : Settles s ending tail p x x where
  last := h.last closed
  followed read := h.followed closed read ending tail

/-- A rule that settles wherever it is read. -/
theorem of_settles {x : Parser α}
    (h : ∀ s, s.Closed → ∀ ending tail p, Settles s ending tail p x x) : Closes x where
  last {s p _ _} closed read := (h s closed s.ending [] p).last read
  followed {s p _ _} closed read ending tail := (h s closed ending tail p).followed read

theorem bind {x : Parser α} {k : α → Parser β} (hx : Alike id True id x x)
    (hk : ∀ a, Closes (k a)) : Closes (x >>= k) :=
  of_settles fun _ closed _ _ _ => .bind hx fun a _ => (hk a).settles closed

theorem andThen {x : Parser α} {k : α → Parser β} (hx : Closes x) (hk : ∀ a, Still (k a)) :
    Closes (x >>= k) :=
  of_settles fun _ closed _ _ _ => (hx.settles closed).andThen hk

/-- A rule that ends with a punctuator. -/
theorem expectThen {m : Punctuator} (ends : (Lexeme.punctuator m).endsUnit) (expected : String)
    (a : α) : Closes (Parser.expectAs m expected >>= fun _ => Pure.pure a) :=
  andThen (expectAs ends expected) fun _ => .pure a

theorem ite {c : Prop} [Decidable c] {x y : Parser α} (hx : Closes x) (hy : Closes y) :
    Closes (if c then x else y) := by
  split
  · exact hx
  · exact hy

/-- A rule behind a check that may stop the reading. -/
theorem checked {c : Prop} [Decidable c] {check : Parser Unit} {x : Parser α}
    (hc : Alike id True id check check) (hx : Closes x) :
    Closes (if c then check >>= fun _ => x else x) :=
  ite (bind hc fun _ => hx) hx

end Closes

/-- A block ends with its closing brace, whatever the parser for the statements in it. -/
theorem blockWith_settles {s : Setting} (closed : s.Closed) {ending : Token} {tail : List Token}
    {p : Progress} {nested nested' : Parser (Stmt String)}
    (alike : Alike id True id nested nested') :
    Settles s ending tail p (blockWith nested) (blockWith nested') := by
  refine .bind (.expect _) fun _ _ => .bind ?_ fun _ _ => (Closes.expectThen rfl _ _).settles closed
  have items : Alike id True (List.map id) (loop (blockItem nested) [])
      (loop (blockItem nested') []) := .loopMap (blockItem_alike .same alike) []
  rwa [List.map_id_fun] at items

theorem block_closes : Closes block :=
  .of_settles fun _ closed _ _ _ =>
    (blockWith_settles closed (statement_alike .same)).andThen fun _ => .pure _

theorem structEnd_closes (start : Token) (name : String) (members : List (Declaration String)) :
    Closes (structEnd start name members) := by
  refine .andThen (.expectAs rfl _) fun _ => .bind .options fun o => ?_
  exact .ite (.bind (.fail _ _) fun _ => .bind (.note _) fun _ => .pure _)
    (.bind (.note _) fun _ => .pure _)

theorem structDefinition_closes : Closes structDefinition := by
  refine .bind .current fun start => .bind .advance fun _ => .bind (.identifier _) fun name => ?_
  refine .bind (.expect _) fun _ => .bind (.loop (structMembers_alike _) _) fun members => ?_
  refine .bind (.expect _) fun _ => .bind .current fun token => ?_
  have last := structEnd_closes start name members
  split
  · exact .bind (.fail _ _) fun _ => last
  · exact .bind (.fail _ _) fun _ => last
  · exact last

theorem functionAfter_closes (sp : Specifier String) (d : Declarator) (ident : Token)
    (parameters : List (Declaration String)) : Closes (functionAfter sp d ident parameters) := by
  refine .bind (declarationOf_alike _ _) fun _ => .bind (.nextIs _) fun _ => .ite ?_ ?_
  · exact .bind (namedParameters_alike _ _) fun _ => .andThen block_closes fun _ => .pure _
  · refine .bind .current fun semicolon => .andThen (.expectAs rfl _) fun _ => ?_
    exact .bind .options fun o => .ite (.pure _) (.bind (.fail _ _) fun _ => .pure _)

/-! ### Units -/

/-- Whether three lexemes begin the definition of a struct. -/
def opensStruct (word name brace : Lexeme) : Bool :=
  match word, name, brace with
  | .keyword .structWord, .identifier _, .punctuator .braceOpen => true
  | _, _, _ => false

/-- Whether the definition of a struct begins with the tokens in front of the end of the source. -/
def structAhead (rest : List Token) (ending : Token) : Bool :=
  opensStruct (rest.getD 0 ending).lexeme (rest.getD 1 ending).lexeme (rest.getD 2 ending).lexeme

theorem atStructDefinition_eq (s : Setting) (p : Progress) :
    atStructDefinition s p = .ok (structAhead p.rest s.ending) p := rfl

/-- A unit is a struct, or a declaration that ends with a token that ends a unit. -/
theorem unit_eq : ∃ other, Closes other ∧ unit = (do
    if ← atStructDefinition then return [.struct (← structDefinition)] else other) := by
  refine ⟨_, ?_, rfl⟩
  refine .bind .current fun start => .bind specifier_alike fun sp => ?_
  refine .bind (.nextIs _) fun _ => .checked (.fail _ _) (.bind topDeclarator_alike fun d => ?_)
  split
  · exact .andThen (functionAfter_closes _ _ _ _) fun _ => .pure _
  · refine .bind (variableAfter_alike _ _) fun first => ?_
    refine .bind (.moreAfterCommas (variableOf_alike _) _) fun found => ?_
    exact .expectThen rfl _ _

theorem opensStruct_eq_false {word name brace : Lexeme}
    (h : word.endsUnit ∨ name.endsUnit ∨ brace = .ending) :
    opensStruct word name brace = false := by
  unfold opensStruct
  split
  · rcases h with ends | ends | ends <;> cases ends
  · rfl

/-- Whether a struct is defined does not depend on what stands behind a unit. -/
theorem structAhead_append {rest : List Token} {ending : Token} (closed : ending.lexeme = .ending)
    (ends : structAhead rest ending = false →
      ∃ front t more, rest = front ++ t :: more ∧ t.lexeme.endsUnit)
    (ending' : Token) (tail : List Token) :
    structAhead (rest ++ tail) ending' = structAhead rest ending := by
  by_cases short : rest.length < 3
  · -- the end of the source does not open a struct, and one of the two tokens left ends a unit
    have third : rest.getD 2 ending = ending := by
      rw [List.getD_eq_getElem?_getD, List.getElem?_eq_none (by omega), Option.getD_none]
    have none : structAhead rest ending = false :=
      opensStruct_eq_false (.inr (.inr (by rw [third, closed])))
    obtain ⟨front, t, more, rfl, endsUnit⟩ := ends none
    rw [none]
    rcases front with _ | ⟨u, _ | ⟨v, front⟩⟩
    · exact opensStruct_eq_false (.inl endsUnit)
    · exact opensStruct_eq_false (.inr (.inl endsUnit))
    · simp only [List.length_append, List.length_cons] at short
      omega
  · rcases rest with _ | ⟨t, _ | ⟨u, _ | ⟨v, more⟩⟩⟩
    · exact absurd (by decide) short
    · exact absurd (by simp) short
    · exact absurd (by simp) short
    · rfl

/-- **A unit ends with a semicolon or a closing brace, and is read in the same way in front of more
tokens.** -/
theorem unit_closes : Closes unit := by
  obtain ⟨other, otherCloses, whole⟩ := unit_eq
  have structCloses : Closes (do return [TopLevel.struct (← structDefinition)]) :=
    .andThen structDefinition_closes fun _ => .pure _
  have branch (b : Bool) : Closes (if b then (do
      return [TopLevel.struct (← structDefinition)]) else other) := .ite structCloses otherCloses
  rw [whole]
  refine ⟨fun closed read => ?_, fun {s p us q} closed read ending tail => ?_⟩
  · obtain ⟨b, r, first, rest⟩ := bind_eq_ok_iff.1 read
    cases first
    exact (branch _).last closed rest
  · obtain ⟨b, r, first, rest⟩ := bind_eq_ok_iff.1 read
    cases first
    -- the three tokens that are looked at first may reach beyond the unit
    refine bind_eq_ok_iff.2 ⟨_, p.followed tail, ?_, (branch _).followed closed rest ending tail⟩
    rw [atStructDefinition_eq]
    congr 1
    refine structAhead_append closed (fun _ => ?_) ending tail
    obtain ⟨front, t, here, ends⟩ := (branch _).last closed rest
    exact ⟨front, t, _, here, ends⟩

end Parser

/-! ### Programs -/

variable {s : Setting} {p : Progress}

/-- A unit takes at least one token. -/
theorem Parser.unit_shorter {us : List (TopLevel String)} {q : Progress} (closed : s.Closed)
    (read : unit s p = .ok us q) : q.rest.length < p.rest.length := by
  obtain ⟨front, t, here, -⟩ := unit_closes.last closed read
  rw [here, List.length_append, List.length_cons]
  omega

/-- A budget that is greater than the number of tokens is as good as any other. -/
theorem unitsWithin_eq_units (closed : s.Closed) {n : Nat} (hn : p.rest.length < n) :
    unitsWithin s n p = Parser.units s p := by
  have same (m n : Nat) (p : Progress) (hm : p.rest.length < m) (hn : p.rest.length < n) :
      unitsWithin s m p = unitsWithin s n p := by
    induction m generalizing n p with
    | zero => omega
    | succ m ih =>
        obtain ⟨n, rfl⟩ : ∃ k, n = k + 1 := ⟨n - 1, by omega⟩
        unfold unitsWithin
        cases read : Parser.locatedAt (p.rest.headD s.ending) Parser.unit s p with
        | error stop r => rfl
        | ok us r =>
            have shorter := Parser.unit_shorter closed (Parser.locatedAt_eq_ok_iff.1 read)
            simp only [ih n r (by omega) (by omega)]
  exact same n _ p hn (Nat.lt_succ_self _)

/-- The units with others in front of them. -/
def Units.behind (completed : List (TopLevel String)) (u : Units) : Units :=
  { u with completed := completed ++ u.completed }

/-- The units of a source are those of its first declaration, and those behind it. -/
theorem Parser.units_of_unit {us : List (TopLevel String)} {q : Progress} (closed : s.Closed)
    (read : unit s p = .ok us q) : units s p = (units s q).behind us := by
  have shorter := unit_shorter closed read
  have some : ¬ p.rest.isEmpty := by
    intro none
    rw [List.isEmpty_iff.1 none] at shorter
    cases shorter
  rw [← unitsWithin_eq_units closed shorter, units, unitsWithin, if_neg some,
    locatedAt_eq_ok_iff.2 read]
  rfl

/-- **The units of a source that is read up to its end are read in the same way in front of more
tokens**, and behind them what these tokens hold. -/
theorem unitsWithin_extends (closed : s.Closed) {n : Nat} (whole : (unitsWithin s n p).stop = none)
    {ending : Token} (closed' : ending.lexeme = .ending) (tail : List Token) :
    Parser.units (s.endingAt ending) (p.followed tail) =
      (Parser.units (s.endingAt ending) ⟨tail, (unitsWithin s n p).progress.names⟩).behind
        (unitsWithin s n p).completed := by
  induction n generalizing p with
  | zero => cases whole
  | succ n ih =>
      unfold unitsWithin at whole ⊢
      by_cases none : p.rest.isEmpty
      · obtain ⟨rest, names⟩ := p
        obtain rfl : rest = [] := List.isEmpty_iff.1 none
        rfl
      rw [if_neg none] at whole ⊢
      cases read : Parser.locatedAt (p.rest.headD s.ending) Parser.unit s p with
      | error stop r =>
          rw [read] at whole
          cases whole
      | ok us r =>
          rw [read] at whole
          have unit := Parser.locatedAt_eq_ok_iff.1 read
          have unit' := Parser.unit_closes.followed closed unit ending tail
          have here : Parser.units (s.endingAt ending) (p.followed tail) =
              (Parser.units (s.endingAt ending) (r.followed tail)).behind us :=
            Parser.units_of_unit closed' unit'
          rw [here, ih whole]
          simp [Units.behind]

end PlainC
