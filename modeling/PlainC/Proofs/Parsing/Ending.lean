/-
**Every rule ends before its budget is used up.**

A rule that calls itself, and a loop, are given a budget one greater than the number of tokens left.
The budget lasts because there is a token for every unit of it: a call of a rule inside itself
stands behind a token, and so does the next turn of a loop.  To see this for a rule it is enough to
know, of the rules that it is made of, how many tokens they read at least when they succeed.

What is read can depend on the result: a loop reads a token in every turn but the last one, and
`accept` reads one only if it says so.

Main definitions:

* `PlainC.Stop.IsFault` — a stop that reports a fault;
* `PlainC.Parser.Ends` — a rule that ends with fewer tokens left than its budget, and the number of
  tokens that it reads at least;
* `PlainC.Parser.turnCost` — what a turn of a loop reads.

Main results:

* `PlainC.Parser.Ends.bind`, `PlainC.Parser.Ends.spend` — two rules in a row; behind a token the
  budget may be smaller;
* `PlainC.Parser.Ends.loop` — **a loop ends if every turn but the last reads a token**.
-/

import PlainC.Proofs.Parsing.Success

set_option relaxedAutoImplicit false
set_option autoImplicit false

namespace PlainC

/-- A stop that reports a fault in the source. -/
def Stop.IsFault (stop : Stop) : Prop := ∃ d, stop = .fault d

namespace Parser

variable {α β : Type} {n m : Nat} {pre : Token → Prop} {cost cost' : β → Nat}

/-! ### Rules that stop -/

/-- A rule that always stops with a fault. -/
def Faults (x : Parser β) : Prop := ∀ s p, ∃ d q, x s p = .error (.fault d) q

namespace Faults

theorem fail (fault : Fault) (t : Token) : Faults (fail fault t : Parser β) :=
  fun _ _ => ⟨_, _, rfl⟩

theorem missing (expected : String) : Faults (missing expected : Parser β) :=
  fun _ _ => ⟨_, _, current_bind _⟩

theorem unexpected (expected : String) : Faults (unexpected expected : Parser β) :=
  fun _ _ => ⟨_, _, current_bind _⟩

theorem bind {x : Parser α} (h : Faults x) (k : α → Parser β) : Faults (x >>= k) := by
  intro s p
  obtain ⟨d, q, stopped⟩ := h s p
  refine ⟨d, q, ?_⟩
  change EStateM.bind (x s) (fun a => k a s) p = _
  rw [EStateM.bind, stopped]

end Faults

/-! ### Rules that end -/

/-- Any token. -/
def anyToken (_ : Token) : Prop := True

/-- In front of a token with the property `pre`, a rule that succeeds with `b` has read at least
`cost b` tokens, and with fewer than `n` tokens left it stops with nothing but a fault, so that no
budget is used up. -/
def Ends (pre : Token → Prop) (n : Nat) (x : Parser β) (cost : β → Nat) : Prop :=
  ∀ s p, s.Closed → pre (p.rest.headD s.ending) →
    match x s p with
    | .ok b q => q.rest.length + cost b ≤ p.rest.length
    | .error stop _ => p.rest.length < n → stop.IsFault

/-- What a turn of a loop reads at least: one token, unless it is the last turn. -/
def turnCost : ForInStep β → Nat
  | .done _ => 0
  | .yield _ => 1

/-- The same for a loop that is to read as many tokens as a gauge of its value grows. -/
def gaugedCost (gauge : β → Nat) (b : β) : ForInStep β → Nat
  | .done c => gauge c - gauge b
  | .yield c => max 1 (gauge c - gauge b)

namespace Ends

theorem mono {x : Parser β} (hx : Ends pre n x cost) (less : m ≤ n) (le : ∀ b, cost' b ≤ cost b) :
    Ends pre m x cost' := by
  intro s p hs hp
  have here := hx s p hs hp
  cases found : x s p with
  | ok b q =>
      rw [found] at here
      exact Nat.le_trans (Nat.add_le_add_left (le b) _) here
  | error stop q =>
      rw [found] at here
      exact fun short => here (Nat.lt_of_lt_of_le short less)

/-- Of the token in front nothing need be known. -/
theorem front {x : Parser β} (hx : Ends anyToken n x cost) : Ends pre n x cost :=
  fun s p hs _ => hx s p hs trivial

/-! ### Sequence and choice -/

theorem pure {b : β} (h : cost b = 0) : Ends pre n (pure b) cost := by
  intro s p _ _
  change p.rest.length + cost b ≤ p.rest.length
  omega

/-- Two rules in a row: the second one need only last for the tokens that the first one leaves, and
read those that the first one has left to read. -/
theorem bindWithin {x : Parser α} {k : α → Parser β} {c : α → Nat} (hx : Ends pre n x c)
    (hk : ∀ a, Ends anyToken (n - c a) (k a) fun b => cost b - c a) :
    Ends pre n (x >>= k) cost := by
  intro s p hs hp
  have here := hx s p hs hp
  change match EStateM.bind (x s) (fun a => k a s) p with
    | .ok b q => q.rest.length + cost b ≤ p.rest.length
    | .error stop _ => p.rest.length < n → stop.IsFault
  unfold EStateM.bind
  cases found : x s p with
  | ok a r =>
      rw [found] at here
      dsimp only at here ⊢
      have there := hk a s r hs trivial
      cases last : k a s r with
      | ok b q =>
          rw [last] at there
          dsimp only at there ⊢
          omega
      | error stop q =>
          rw [last] at there
          exact fun short => there (by omega)
  | error stop r =>
      rw [found] at here
      exact here

theorem bind {x : Parser α} {k : α → Parser β} {c : α → Nat} (hx : Ends pre n x c)
    (hk : ∀ a, Ends anyToken n (k a) fun b => cost b - c a) : Ends pre n (x >>= k) cost :=
  bindWithin hx fun a => (hk a).mono (Nat.sub_le ..) fun _ => Nat.le_refl _

/-- Behind a token the budget may be smaller. -/
theorem spend {x : Parser α} {k : α → Parser β} (hx : Ends pre (n + 1) x fun _ => 1)
    (hk : ∀ a, Ends anyToken n (k a) fun b => cost b - 1) : Ends pre (n + 1) (x >>= k) cost :=
  bindWithin hx hk

/-- A rule behind one that only looks at the tokens. -/
theorem look {x : Parser α} {k : α → Parser β} (hx : ∀ s p, ∃ a, x s p = .ok a p)
    (hk : ∀ a, Ends pre n (k a) cost) : Ends pre n (x >>= k) cost := by
  intro s p hs hp
  obtain ⟨a, seen⟩ := hx s p
  rw [bind_of_ok seen]
  exact hk a s p hs hp

/-- The token at the front is known to stand there. -/
theorem current {k : Token → Parser β} (hk : ∀ t, pre t → Ends (· = t) n (k t) cost) :
    Ends pre n (current >>= k) cost := by
  intro s p hs hp
  rw [current_bind]
  exact hk _ hp s p hs rfl

theorem nextIs (m : Punctuator) {k : Bool → Parser β} (hk : ∀ b, Ends pre n (k b) cost) :
    Ends pre n (nextIs m >>= k) cost :=
  look (fun _ _ => ⟨_, nextIs_eq_ok_iff.2 ⟨rfl, rfl⟩⟩) hk

theorem ahead (distance : Nat) {k : Token → Parser β} (hk : ∀ t, Ends pre n (k t) cost) :
    Ends pre n (ahead distance >>= k) cost :=
  look (fun _ _ => ⟨_, rfl⟩) hk

theorem atEnd {k : Bool → Parser β} (hk : ∀ b, Ends pre n (k b) cost) :
    Ends pre n (atEnd >>= k) cost :=
  look (fun _ _ => ⟨_, rfl⟩) hk

theorem ite {c : Prop} [Decidable c] {x y : Parser β} (hx : c → Ends pre n x cost)
    (hy : ¬ c → Ends pre n y cost) : Ends pre n (if c then x else y) cost := by
  split
  · rename_i yes
    exact hx yes
  · rename_i no
    exact hy no

/-! ### Faults -/

theorem never {x : Parser β} (h : Faults x) : Ends pre n x cost := by
  intro s p _ _
  obtain ⟨d, q, stopped⟩ := h s p
  rw [stopped]
  exact fun _ => ⟨d, rfl⟩

theorem fail (fault : Fault) (t : Token) : Ends pre n (fail fault t : Parser β) cost :=
  never (.fail _ _)

theorem missing (expected : String) : Ends pre n (missing expected : Parser β) cost :=
  never (.missing _)

theorem ofExcept (result : Except Fault β) : Ends pre n (ofExcept result) fun _ => 0 := by
  cases result with
  | ok b => exact pure rfl
  | error fault => exact never fun _ _ => ⟨_, _, rfl⟩

theorem locatedAt {x : Parser β} (hx : Ends pre n x cost) (t : Token) :
    Ends pre n (locatedAt t x) cost := by
  intro s p hs hp
  have here := hx s p hs hp
  unfold Parser.locatedAt
  cases found : x s p with
  | ok b q =>
      rw [found] at here
      exact here
  | error stop q =>
      cases stop with
      | fault d => exact fun _ => ⟨_, rfl⟩
      | overlong | exhausted =>
          rw [found] at here
          exact here

/-- A rule behind a check that may stop the reading. -/
theorem checked {c : Prop} [Decidable c] {check : Parser Unit} {x : Parser β} (hc : Faults check)
    (hx : ¬ c → Ends pre n x cost) : Ends pre n (if c then check >>= fun _ => x else x) cost :=
  ite (fun _ => never (hc.bind _)) hx

/-- A rule in front of which something must hold, or the reading stops. -/
theorem required {c : Prop} [Decidable c] {check : Parser Unit} {x : Parser β}
    (hx : c → Ends pre n x cost) (hc : Faults check) :
    Ends pre n (if c then x else check >>= fun _ => x) cost :=
  ite hx fun _ => never (hc.bind _)

/-! ### Reading a token -/

/-- In front of a token that is not the end marker. -/
theorem advance (h : ∀ t, pre t → t.lexeme ≠ .ending) : Ends pre n advance fun _ => 1 := by
  intro s p hs hp
  exact Progress.length_behind_lt hs (h _ hp)

/-- At the end there is no token to go past. -/
theorem advanceAnyhow : Ends pre n Parser.advance fun _ => 0 :=
  fun _ p _ _ => (List.tail_suffix p.rest).length_le

theorem note (name : String) : Ends pre n (note name) fun _ => 0 :=
  fun _ p _ _ => Nat.le_refl p.rest.length

/-- A choice by whether a lexeme is at the front: if so, it has been read, and otherwise the token
at the front is still there. -/
theorem ifAccepts {l : Lexeme} (noEnd : l ≠ .ending) {x y : Parser β}
    (hx : Ends anyToken (n - 1) x fun b => cost b - 1) (hy : Ends pre n y cost) :
    Ends pre n (acceptLexeme l >>= fun b => if b then x else y) cost := by
  intro s p hs hp
  by_cases same : p.front s = l
  · have read := acceptLexeme_eq_ok_iff.2 (.inl ⟨same, rfl, rfl⟩)
    have less : p.behind.rest.length < p.rest.length :=
      Progress.length_behind_lt hs (same ▸ noEnd)
    have there := hx s p.behind hs trivial
    rw [bind_of_ok read, if_pos rfl]
    cases found : x s p.behind with
    | ok b q =>
        rw [found] at there
        dsimp only at there ⊢
        omega
    | error stop q =>
        rw [found] at there
        exact fun short => there (by omega)
  · have read := acceptLexeme_eq_ok_iff.2 (.inr ⟨same, rfl, rfl⟩)
    rw [bind_of_ok read, if_neg Bool.false_ne_true]
    exact hy s p hs hp

theorem expectAs (m : Punctuator) (expected : String) :
    Ends pre n (expectAs m expected) fun _ => 1 :=
  ifAccepts Lexeme.noConfusion (pure rfl) (missing expected)

theorem expect (m : Punctuator) : Ends pre n (expect m) fun _ => 1 := expectAs m _

theorem identifier (expected : String) : Ends pre n (identifier expected) fun _ => 1 := by
  refine current fun t _ => ?_
  split
  · rename_i name same
    exact bind (advance fun u hu => by rw [hu, same]; exact Lexeme.noConfusion) fun _ => pure rfl
  · exact missing expected

/-! ### Recursion and repetition -/

/-- Without a budget there is nothing to show: no fewer tokens than none are left. -/
theorem exhausted : Ends pre 0 (exhausted : Parser β) cost :=
  fun _ _ _ _ short => absurd short (Nat.not_lt_zero _)

/-- A budget that is greater than the number of tokens left is great enough. -/
theorem budgetedWithin {x : Nat → Parser β} (hx : ∀ m, Ends pre (min m n) (x m) cost) :
    Ends pre n (budgeted x) cost := by
  intro s p hs hp
  have here := hx (p.rest.length + 1) s p hs hp
  unfold Parser.budgeted
  cases found : x (p.rest.length + 1) s p with
  | ok b q =>
      rw [found] at here
      exact here
  | error stop q =>
      rw [found] at here
      exact fun short => here (by omega)

theorem budgeted {x : Nat → Parser β} (hx : ∀ m, Ends pre m (x m) cost) :
    Ends pre n (budgeted x) cost :=
  budgetedWithin fun m => (hx m).mono (Nat.min_le_left ..) fun _ => Nat.le_refl _

/-- A loop reads at least as many tokens as a gauge of its value grows. -/
theorem loopGauged (gauge : β → Nat) {step : β → Parser (ForInStep β)}
    (h : ∀ b, Ends anyToken n (step b) (gaugedCost gauge b)) (b : β) :
    Ends pre n (loop step b) fun c => gauge c - gauge b := by
  have all (m : Nat) (b : β) :
      Ends anyToken (min m n) (iterate step m b) fun c => gauge c - gauge b := by
    induction m generalizing b with
    | zero =>
        rw [Nat.zero_min]
        exact exhausted
    | succ m ih =>
        refine bindWithin ((h b).mono (Nat.min_le_right ..) fun _ => Nat.le_refl _) fun turn => ?_
        cases turn with
        | done c => exact pure (Nat.sub_self _)
        | yield c =>
            refine (ih c).mono ?_ fun d => ?_
            · simp only [gaugedCost]
              omega
            · simp only [gaugedCost]
              omega
  exact budgetedWithin fun m => (all m b).front

theorem loop {step : β → Parser (ForInStep β)} (h : ∀ b, Ends anyToken n (step b) turnCost)
    (b : β) : Ends pre n (loop step b) fun _ => 0 := by
  refine loopGauged (fun _ => 0) (fun b => ?_) b
  exact (h b).mono (Nat.le_refl n) fun turn => by cases turn <;> exact Nat.le_refl _

theorem moreAfterCommas {item : Parser β} (h : Ends anyToken n item fun _ => 1) (found : List β) :
    Ends pre n (moreAfterCommas item found) fun _ => 0 := by
  refine loop (fun found => ifAccepts Lexeme.noConfusion ?_ (pure rfl)) found
  exact bind (h.mono (Nat.sub_le ..) fun _ => Nat.le_refl _) fun _ => pure rfl

theorem commaSeparated {item : Parser β} (h : Ends anyToken n item fun _ => 1) :
    Ends anyToken n (commaSeparated item) fun _ => 1 :=
  bind h fun _ => moreAfterCommas h _

end Ends

end Parser

end PlainC
