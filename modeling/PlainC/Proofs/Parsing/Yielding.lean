/-
**What a rule yields.**

Of a rule that succeeds it is often enough to know something about its result, and nothing about the
tokens that it was read off.  What is known of the parts is there when the whole is put together:
the property of the first result is given to the rule behind it, and a check that did not stop the
reading was passed.

Main definitions:

* `PlainC.Parser.Yields` — every result of a rule has a property.

Main results:

* `PlainC.Parser.Yields.bind`, `PlainC.Parser.Yields.passed` — two rules in a row; behind a check
  it is known that nothing was wrong;
* `PlainC.Parser.Yields.loop` — **what every turn of a loop keeps, the loop keeps**.
-/

import PlainC.Proofs.Parsing.Success

set_option relaxedAutoImplicit false
set_option autoImplicit false

namespace PlainC.Parser

variable {α β : Type} {s : Setting} {P : α → Prop} {Q Q' : β → Prop}

/-- Every result of a rule has a property. -/
def Yields (s : Setting) (x : Parser β) (Q : β → Prop) : Prop := ∀ p b q, x s p = .ok b q → Q b

namespace Yields

/-- The result of a reading has the property. -/
theorem holds (Q : β → Prop) {x : Parser β} {p q : Progress} {b : β} (read : x s p = .ok b q)
    (hx : Yields s x Q) : Q b :=
  hx p b q read

theorem mono {x : Parser β} (hx : Yields s x Q) (h : ∀ b, Q b → Q' b) : Yields s x Q' :=
  fun p b q read => h b (hx p b q read)

/-! ### Sequence and choice -/

theorem pure {b : β} (h : Q b) : Yields s (pure b) Q := by
  intro p c q read
  obtain ⟨rfl, -⟩ := pure_eq_ok_iff.1 read
  exact h

theorem bind {x : Parser α} {k : α → Parser β} (hx : Yields s x P)
    (hk : ∀ a, P a → Yields s (k a) Q) : Yields s (x >>= k) Q := by
  intro p b q read
  obtain ⟨a, r, first, rest⟩ := bind_eq_ok_iff.1 read
  exact hk a (hx p a r first) r b q rest

/-- A rule behind one whose result does not matter. -/
theorem skip {x : Parser α} {k : α → Parser β} (hk : ∀ a, Yields s (k a) Q) :
    Yields s (x >>= k) Q :=
  bind (P := fun _ => True) (fun _ _ _ _ => trivial) fun a _ => hk a

theorem ite {c : Prop} [Decidable c] {x y : Parser β} (hx : c → Yields s x Q)
    (hy : ¬ c → Yields s y Q) : Yields s (if c then x else y) Q := by
  split
  · rename_i yes
    exact hx yes
  · rename_i no
    exact hy no

/-! ### Faults -/

theorem fail (fault : Fault) (t : Token) : Yields s (fail fault t) Q :=
  fun _ _ _ read => absurd read fail_ne_ok

theorem missing (expected : String) : Yields s (missing expected) Q :=
  fun _ _ _ read => absurd read missing_ne_ok

theorem unexpected (expected : String) : Yields s (unexpected expected) Q :=
  fun _ _ _ read => absurd read unexpected_ne_ok

theorem ofExcept (result : Except Fault β) : Yields s (ofExcept result) fun b => result = .ok b :=
  fun _ _ _ read => (ofExcept_eq_ok_iff.1 read).1

theorem locatedAt {x : Parser β} (hx : Yields s x Q) (t : Token) : Yields s (locatedAt t x) Q :=
  fun p b q read => hx p b q (locatedAt_eq_ok_iff.1 read)

/-- Behind a check that may stop the reading nothing was wrong. -/
theorem passed {c : Prop} [Decidable c] {check : Parser Unit} {x : Parser β}
    (hc : Yields s check fun _ => False) (hx : ¬ c → Yields s x Q) :
    Yields s (if c then check >>= fun _ => x else x) Q :=
  ite (fun _ => bind hc fun _ => False.elim) hx

/-- A rule in front of which something must hold, or the reading stops. -/
theorem required {c : Prop} [Decidable c] {check : Parser Unit} {x : Parser β}
    (hx : c → Yields s x Q) (hc : Yields s check fun _ => False) :
    Yields s (if c then x else check >>= fun _ => x) Q :=
  ite hx fun _ => bind hc fun _ => False.elim

/-! ### Recursion and repetition -/

theorem exhausted : Yields s exhausted Q := fun _ _ _ read => absurd read exhausted_ne_ok

theorem budgeted {x : Nat → Parser β} (hx : ∀ n, Yields s (x n) Q) : Yields s (budgeted x) Q :=
  fun p b q read => hx _ p b q read

/-- What every turn of a loop keeps, the loop keeps. -/
theorem loop {step : β → Parser (ForInStep β)} (h : ∀ b, Q b → Yields s (step b) (TurnHas Q))
    {b : β} (start : Q b) : Yields s (loop step b) Q := by
  refine budgeted fun n => ?_
  induction n generalizing b with
  | zero => exact exhausted
  | succ n ih =>
      refine bind (h b start) fun turn kept => ?_
      cases turn with
      | done c => exact pure kept
      | yield c => exact ih kept

theorem moreAfterCommas {item : Parser β} (h : Yields s item Q) {found : List β}
    (start : ∀ b ∈ found, Q b) :
    Yields s (moreAfterCommas item found) fun all => ∀ b ∈ all, Q b := by
  refine loop (fun found kept => skip fun more => ite (fun _ => ?_) fun _ => pure kept) start
  exact bind h fun b hb => pure (List.forall_mem_append.2 ⟨kept, List.forall_mem_singleton.2 hb⟩)

theorem commaSeparated {item : Parser β} (h : Yields s item Q) :
    Yields s (commaSeparated item) fun all => ∀ b ∈ all, Q b :=
  bind h fun _ hb => moreAfterCommas h (List.forall_mem_singleton.2 hb)

end Yields

end PlainC.Parser
