/-
**Readings that succeed.**

What a parser does when it succeeds is told by three things: the lexeme at the front, the tree that
is read, and the progress that is left.  This module says so once for every building block of the
parsers, so that later proofs take a rule apart, or put one together, without unfolding the monad.

Main definitions:

* `PlainC.Progress.front`, `PlainC.Progress.behind` — the lexeme that is read next, and the progress
  behind it;
* `PlainC.Setting.Closed` — the source ends in an end marker;
* `PlainC.Parser.AfterCommas` — the items that a row goes on with.

Main results:

* `PlainC.Parser.bind_eq_ok_iff` — two readings in a row succeed when the first one does and the
  second one does behind it;
* `PlainC.Parser.accept_eq_ok_iff`, `PlainC.Parser.expectAs_eq_ok_iff`,
  `PlainC.Parser.identifier_eq_ok_iff` — the same for the reading of one token;
* `PlainC.Parser.loop_done`, `PlainC.Parser.loop_yield` — a loop ends with the turn that says so,
  and goes on behind any other;
* `PlainC.Parser.moreAfterCommas_eq_ok_iff` — a row goes on as long as there are commas.
-/

import PlainC.Tree.Parser

set_option relaxedAutoImplicit false
set_option autoImplicit false

namespace PlainC

/-! ### The front of a progress -/

namespace Progress

/-- The lexeme that is read next. -/
def front (s : Setting) (p : Progress) : Lexeme := (p.rest.headD s.ending).lexeme

/-- The progress behind the token at the front. -/
def behind (p : Progress) : Progress := { p with rest := p.rest.tail }

/-- The progress after one more name was met. -/
def noting (p : Progress) (name : String) : Progress := { p with names := p.names ++ [name] }

@[simp] theorem front_cons (s : Setting) (t : Token) (ts : List Token) (names : List String) :
    front s ⟨t :: ts, names⟩ = t.lexeme := rfl

@[simp] theorem front_nil (s : Setting) (names : List String) :
    front s ⟨[], names⟩ = s.ending.lexeme := rfl

@[simp] theorem front_noting (s : Setting) (p : Progress) (name : String) :
    (p.noting name).front s = p.front s := rfl

@[simp] theorem behind_cons (t : Token) (ts : List Token) (names : List String) :
    behind ⟨t :: ts, names⟩ = ⟨ts, names⟩ := rfl

@[simp] theorem rest_behind (p : Progress) : p.behind.rest = p.rest.tail := rfl

@[simp] theorem rest_noting (p : Progress) (name : String) : (p.noting name).rest = p.rest := rfl

end Progress

/-- The token at which the source ends is an end marker. -/
def Setting.Closed (s : Setting) : Prop := s.ending.lexeme = .ending

/-- In front of anything but the end marker stands a token. -/
theorem Progress.exists_cons_of_front {s : Setting} (hs : s.Closed) {p : Progress}
    (h : p.front s ≠ .ending) :
    ∃ t, p.rest = t :: p.behind.rest ∧ t.lexeme = p.front s := by
  obtain ⟨_ | ⟨t, ts⟩, names⟩ := p
  · exact absurd hs h
  · exact ⟨t, rfl, rfl⟩

/-- What stands behind anything but the end marker is shorter. -/
theorem Progress.length_behind_lt {s : Setting} (hs : s.Closed) {p : Progress}
    (h : p.front s ≠ .ending) : p.behind.rest.length < p.rest.length := by
  obtain ⟨t, cons, -⟩ := exists_cons_of_front hs h
  rw [cons]
  simp

/-- The value with which a turn of a loop ends has a property. -/
def TurnHas {α : Type} (Q : α → Prop) : ForInStep α → Prop
  | .done a | .yield a => Q a

namespace Parser

variable {α β : Type} {s : Setting} {p q : Progress}

/-! ### Sequence -/

/-- Two readings in a row succeed when the first one does and the second one does behind it. -/
theorem bind_eq_ok_iff {x : Parser α} {f : α → Parser β} {b : β} :
    (x >>= f) s p = .ok b q ↔ ∃ a r, x s p = .ok a r ∧ f a s r = .ok b q := by
  change EStateM.bind (x s) (fun a => f a s) p = .ok b q ↔ _
  unfold EStateM.bind
  cases x s p with
  | ok a r =>
      simp only [EStateM.Result.ok.injEq]
      constructor
      · intro h
        exact ⟨a, r, ⟨rfl, rfl⟩, h⟩
      · rintro ⟨_, _, ⟨rfl, rfl⟩, h⟩
        exact h
  | error stop r => simp

theorem bind_of_ok {x : Parser α} {a : α} {r : Progress} (h : x s p = .ok a r)
    (f : α → Parser β) : (x >>= f) s p = f a s r := by
  change EStateM.bind (x s) (fun a => f a s) p = _
  simp [EStateM.bind, h]

theorem pure_eq_ok_iff {a b : α} : (pure a : Parser α) s p = .ok b q ↔ a = b ∧ p = q := by
  change EStateM.Result.ok a p = .ok b q ↔ _
  simp

/-! ### Looking ahead -/

theorem current_eq_ok_iff {t : Token} :
    current s p = .ok t q ↔ p.rest.headD s.ending = t ∧ p = q := by
  obtain ⟨_ | ⟨u, us⟩, names⟩ := p <;> simp [current, ahead]

theorem current_bind (f : Token → Parser α) :
    (current >>= f) s p = f (p.rest.headD s.ending) s p :=
  bind_of_ok (current_eq_ok_iff.2 ⟨rfl, rfl⟩) f

theorem ahead_eq_ok_iff {n : Nat} {t : Token} :
    ahead n s p = .ok t q ↔ p.rest.getD n s.ending = t ∧ p = q := by
  simp [ahead]

-- not by `rfl`: as an equation for `dsimp` it would leave decidability instances behind
theorem lexeme_headD (s : Setting) (p : Progress) :
    (p.rest.headD s.ending).lexeme = p.front s := by rw [Progress.front]

/-- The second lexeme is the front of what stands behind the first token. -/
theorem lexeme_getD_one (s : Setting) (p : Progress) :
    (p.rest.getD 1 s.ending).lexeme = p.behind.front s := by
  obtain ⟨_ | ⟨t, _ | ⟨u, us⟩⟩, names⟩ := p <;> rfl

theorem nextIs_eq_ok_iff {m : Punctuator} {b : Bool} :
    nextIs m s p = .ok b q ↔ decide (p.front s = .punctuator m) = b ∧ p = q := by
  simp only [nextIs, bind_eq_ok_iff, current_eq_ok_iff, pure_eq_ok_iff]
  constructor
  · rintro ⟨_, _, ⟨rfl, rfl⟩, h⟩
    exact h
  · intro h
    exact ⟨_, _, ⟨rfl, rfl⟩, h⟩

theorem atEnd_eq_ok_iff {b : Bool} : atEnd s p = .ok b q ↔ p.rest.isEmpty = b ∧ p = q := by
  simp [atEnd]

theorem nextIs_bind (m : Punctuator) (f : Bool → Parser α) :
    (nextIs m >>= f) s p = f (decide (p.front s = .punctuator m)) s p :=
  bind_of_ok (nextIs_eq_ok_iff.2 ⟨rfl, rfl⟩) f

theorem atEnd_bind (f : Bool → Parser α) : (atEnd >>= f) s p = f p.rest.isEmpty s p :=
  bind_of_ok (atEnd_eq_ok_iff.2 ⟨rfl, rfl⟩) f

/-! ### Faults -/

@[simp] theorem refuse_ne_ok {fault : Fault} {a : α} : refuse fault s p ≠ .ok a q := by
  simp [refuse]

@[simp] theorem fail_ne_ok {fault : Fault} {t : Token} {a : α} : fail fault t s p ≠ .ok a q := by
  simp [fail]

@[simp] theorem exhausted_ne_ok {a : α} : exhausted s p ≠ .ok a q := by
  simp [exhausted]

@[simp] theorem missing_ne_ok {expected : String} {a : α} : missing expected s p ≠ .ok a q := by
  simp [missing, bind_eq_ok_iff]

@[simp] theorem unexpected_ne_ok {expected : String} {a : α} :
    unexpected expected s p ≠ .ok a q := by
  simp [unexpected, bind_eq_ok_iff]

/-- The place that is given to a fault does not matter for a success. -/
theorem locatedAt_eq_ok_iff {t : Token} {x : Parser α} {a : α} :
    locatedAt t x s p = .ok a q ↔ x s p = .ok a q := by
  unfold locatedAt
  cases h : x s p with
  | ok b r => simp
  | error stop r => cases stop <;> simp

theorem ofExcept_eq_ok_iff {result : Except Fault α} {a : α} :
    ofExcept result s p = .ok a q ↔ result = .ok a ∧ p = q := by
  cases result <;> simp [ofExcept, pure_eq_ok_iff]

/-! ### Reading a token -/

theorem advance_eq_ok_iff {u : Unit} : advance s p = .ok u q ↔ p.behind = q := by
  simp [advance, Progress.behind]

theorem note_eq_ok_iff {name : String} {u : Unit} :
    note name s p = .ok u q ↔ p.noting name = q := by
  simp [note, Progress.noting]

theorem acceptLexeme_eq_ok_iff {l : Lexeme} {b : Bool} :
    acceptLexeme l s p = .ok b q ↔
      (p.front s = l ∧ b = true ∧ p.behind = q) ∨ (p.front s ≠ l ∧ b = false ∧ p = q) := by
  simp only [acceptLexeme, bind_eq_ok_iff, current_eq_ok_iff]
  constructor
  · rintro ⟨_, _, ⟨rfl, rfl⟩, h⟩
    split at h
    · rename_i same
      simp only [bind_eq_ok_iff, advance_eq_ok_iff, pure_eq_ok_iff] at h
      obtain ⟨_, _, rfl, rfl, rfl⟩ := h
      exact .inl ⟨same, rfl, rfl⟩
    · rename_i other
      rw [pure_eq_ok_iff] at h
      exact .inr ⟨other, h.1.symm, h.2⟩
  · intro h
    refine ⟨_, _, ⟨rfl, rfl⟩, ?_⟩
    rw [lexeme_headD]
    rcases h with ⟨same, rfl, rfl⟩ | ⟨other, rfl, rfl⟩
    · rw [if_pos same]
      exact bind_eq_ok_iff.2 ⟨(), p.behind, rfl, rfl⟩
    · rw [if_neg other]
      rfl

theorem accept_eq_ok_iff {m : Punctuator} {b : Bool} :
    accept m s p = .ok b q ↔
      (p.front s = .punctuator m ∧ b = true ∧ p.behind = q) ∨
        (p.front s ≠ .punctuator m ∧ b = false ∧ p = q) :=
  acceptLexeme_eq_ok_iff

theorem accept_bind (m : Punctuator) (f : Bool → Parser α) :
    (accept m >>= f) s p =
      if p.front s = .punctuator m then f true s p.behind else f false s p := by
  split
  · rename_i same
    exact bind_of_ok (accept_eq_ok_iff.2 (.inl ⟨same, rfl, rfl⟩)) f
  · rename_i other
    exact bind_of_ok (accept_eq_ok_iff.2 (.inr ⟨other, rfl, rfl⟩)) f

theorem expectAs_eq_ok_iff {m : Punctuator} {expected : String} {u : Unit} :
    expectAs m expected s p = .ok u q ↔ p.front s = .punctuator m ∧ p.behind = q := by
  simp only [expectAs, bind_eq_ok_iff, accept_eq_ok_iff]
  constructor
  · rintro ⟨_, _, ⟨same, rfl, rfl⟩ | ⟨-, rfl, rfl⟩, h⟩
    · rw [if_pos rfl, pure_eq_ok_iff] at h
      exact ⟨same, h.2⟩
    · simp at h
  · rintro ⟨same, rfl⟩
    exact ⟨true, p.behind, .inl ⟨same, rfl, rfl⟩, rfl⟩

theorem expect_eq_ok_iff {m : Punctuator} {u : Unit} :
    expect m s p = .ok u q ↔ p.front s = .punctuator m ∧ p.behind = q :=
  expectAs_eq_ok_iff

theorem expect_of_front {m : Punctuator} (here : p.front s = .punctuator m) :
    expect m s p = .ok () p.behind :=
  expect_eq_ok_iff.2 ⟨here, rfl⟩

theorem identifier_eq_ok_iff {expected name : String} :
    identifier expected s p = .ok name q ↔ p.front s = .identifier name ∧ p.behind = q := by
  simp only [identifier, bind_eq_ok_iff, current_eq_ok_iff]
  constructor
  · rintro ⟨_, _, ⟨rfl, rfl⟩, h⟩
    rw [lexeme_headD] at h
    cases same : p.front s with
    | identifier text =>
        simp only [same, bind_eq_ok_iff, advance_eq_ok_iff, pure_eq_ok_iff] at h
        obtain ⟨_, _, rfl, rfl, rfl⟩ := h
        exact ⟨rfl, rfl⟩
    | _ => simp [same] at h
  · rintro ⟨same, rfl⟩
    refine ⟨_, _, ⟨rfl, rfl⟩, ?_⟩
    rw [lexeme_headD, same]
    exact bind_eq_ok_iff.2 ⟨(), p.behind, rfl, rfl⟩

theorem finish_eq_ok_iff {u : Unit} : finish s p = .ok u q ↔ p.rest = [] ∧ p = q := by
  simp only [finish, bind_eq_ok_iff, atEnd_eq_ok_iff]
  constructor
  · rintro ⟨_, _, ⟨rfl, rfl⟩, h⟩
    split at h
    · rename_i empty
      rw [pure_eq_ok_iff] at h
      exact ⟨List.isEmpty_iff.1 empty, h.2⟩
    · simp at h
  · rintro ⟨empty, rfl⟩
    refine ⟨true, p, ⟨by simp [empty], rfl⟩, rfl⟩

/-! ### Repetition -/

/-- A loop with turns left either ends with its first turn or goes on behind it. -/
theorem iterate_succ_eq_ok_iff {step : β → Parser (ForInStep β)} {n : Nat} {b b' : β} :
    iterate step (n + 1) b s p = .ok b' q ↔
      step b s p = .ok (.done b') q ∨
        ∃ c r, step b s p = .ok (.yield c) r ∧ iterate step n c s r = .ok b' q := by
  simp only [iterate, bind_eq_ok_iff]
  constructor
  · rintro ⟨turn, r, h, rest⟩
    cases turn with
    | done c =>
        obtain ⟨rfl, rfl⟩ := pure_eq_ok_iff.1 rest
        exact .inl h
    | yield c => exact .inr ⟨c, r, h, rest⟩
  · rintro (h | ⟨c, r, h, rest⟩)
    · exact ⟨_, _, h, rfl⟩
    · exact ⟨_, _, h, rest⟩

/-- A greater budget changes nothing about a loop that comes to its end. -/
theorem iterate_mono {step : β → Parser (ForInStep β)} {m n : Nat} (hmn : m ≤ n) {b b' : β}
    (h : iterate step m b s p = .ok b' q) : iterate step n b s p = .ok b' q := by
  induction m generalizing n b p with
  | zero => simp [iterate] at h
  | succ m ih =>
      obtain ⟨n, rfl⟩ : ∃ k, n = k + 1 := ⟨n - 1, by omega⟩
      rcases iterate_succ_eq_ok_iff.1 h with last | ⟨c, r, turn, rest⟩
      · exact iterate_done last n
      · rw [iterate_yield turn]
        exact ih (by omega) rest

/-- A loop ends with the turn that says so. -/
theorem loop_done {step : β → Parser (ForInStep β)} {b b' : β}
    (turn : step b s p = .ok (.done b') q) : loop step b s p = .ok b' q :=
  iterate_done turn _

/-- A loop goes on behind a turn that reads a token. -/
theorem loop_yield {step : β → Parser (ForInStep β)} {b c b' : β} {r : Progress}
    (turn : step b s p = .ok (.yield c) r) (shorter : r.rest.length < p.rest.length)
    (rest : loop step c s r = .ok b' q) : loop step b s p = .ok b' q := by
  have goesOn : iterate step p.rest.length c s r = .ok b' q := iterate_mono shorter rest
  exact (iterate_yield turn p.rest.length).trans goesOn

/-- The items behind commas that a row goes on with, from the items and the progress at its start to
those at its end. -/
inductive AfterCommas (item : Parser α) (s : Setting) :
    List α → Progress → List α → Progress → Prop
  | last {found : List α} {p : Progress} :
      p.front s ≠ .punctuator .comma → AfterCommas item s found p found p
  | next {found all : List α} {a : α} {p r q : Progress} :
      p.front s = .punctuator .comma → item s p.behind = .ok a r →
      AfterCommas item s (found ++ [a]) r all q → AfterCommas item s found p all q

/-- A row only ever grows at its end. -/
theorem AfterCommas.isPrefix {item : Parser α} {found all : List α}
    (h : AfterCommas item s found p all q) : found <+: all := by
  induction h with
  | last => exact List.prefix_rfl
  | next _ _ _ ih => exact (List.prefix_append ..).trans ih

/-- Behind a row of one item stands no comma. -/
theorem AfterCommas.eq_of_singleton {item : Parser α} {a b : α}
    (h : AfterCommas item s [a] p [b] q) : a = b ∧ p = q := by
  cases h with
  | last => exact ⟨rfl, rfl⟩
  | next _ _ more => exact absurd more.isPrefix.length_le (Nat.not_succ_le_self 1)

theorem AfterCommas.of_moreAfterCommas {item : Parser α} {found all : List α}
    (h : moreAfterCommas item found s p = .ok all q) : AfterCommas item s found p all q := by
  unfold moreAfterCommas loop budgeted at h
  generalize p.rest.length + 1 = n at h
  induction n generalizing found p with
  | zero => simp [iterate] at h
  | succ n ih =>
      rcases iterate_succ_eq_ok_iff.1 h with turn | ⟨more, r, turn, rest⟩
      · simp only [itemAfterComma, bind_eq_ok_iff, accept_eq_ok_iff] at turn
        obtain ⟨_, _, ⟨-, rfl, rfl⟩ | ⟨other, rfl, rfl⟩, turn⟩ := turn
        · simp only [if_true, bind_eq_ok_iff, pure_eq_ok_iff, reduceCtorEq, false_and, and_false,
            exists_false] at turn
        · simp only [Bool.false_eq_true, if_false, pure_eq_ok_iff, ForInStep.done.injEq] at turn
          obtain ⟨rfl, rfl⟩ := turn
          exact .last other
      · simp only [itemAfterComma, bind_eq_ok_iff, accept_eq_ok_iff] at turn
        obtain ⟨_, _, ⟨comma, rfl, rfl⟩ | ⟨-, rfl, rfl⟩, turn⟩ := turn
        · simp only [if_true, bind_eq_ok_iff, pure_eq_ok_iff, ForInStep.yield.injEq] at turn
          obtain ⟨a, _, read, rfl, rfl⟩ := turn
          exact .next comma read (ih rest)
        · simp only [Bool.false_eq_true, if_false, pure_eq_ok_iff, reduceCtorEq, false_and] at turn

/-- A row goes on as long as there are commas. -/
theorem moreAfterCommas_eq_ok_iff (hs : s.Closed) {item : Parser α}
    (hi : ∀ {a p q}, item s p = .ok a q → q.rest.length ≤ p.rest.length) {found all : List α} :
    moreAfterCommas item found s p = .ok all q ↔ AfterCommas item s found p all q := by
  refine ⟨AfterCommas.of_moreAfterCommas, fun h => ?_⟩
  induction h with
  | @last found p other =>
      refine loop_done (bind_eq_ok_iff.2 ⟨false, p, ?_, rfl⟩)
      exact accept_eq_ok_iff.2 (.inr ⟨other, rfl, rfl⟩)
  | @next found all a p r q comma read _ ih =>
      have shorter : p.behind.rest.length < p.rest.length :=
        Progress.length_behind_lt hs (by simp [comma])
      refine loop_yield (bind_eq_ok_iff.2 ⟨true, p.behind, ?_, ?_⟩)
        (Nat.lt_of_le_of_lt (hi read) shorter) ih
      · exact accept_eq_ok_iff.2 (.inl ⟨comma, rfl, rfl⟩)
      · exact bind_eq_ok_iff.2 ⟨a, r, read, rfl⟩

end Parser

end PlainC
