/-
**What a reading holds.**

A source holds literals and names.  While it is read the literals go over into trees, in their
order, and the names are noted, some of them long after they were met.  Nothing of this is lost on
the way and nothing comes in from elsewhere: what a rule gives back, together with what is noted and
what is still to be read behind it, is what was held before.

Main definitions:

* `PlainC.Stock` — literals in their order, and names in any order;
* `PlainC.Progress.stock` — what is still to be read, with the names noted so far;
* `PlainC.Parser.Keeps` — a rule that keeps what is held, or stops with no other names.

Main results:

* `PlainC.Parser.Keeps.bind`, `PlainC.Parser.Keeps.advance`, `PlainC.Parser.Keeps.note` — two rules
  in a row, a token that is known, and a name that is noted;
* `PlainC.Parser.Keeps.loop`, `PlainC.Parser.Keeps.commaSeparated` — repetition.
-/

import Mathlib.Algebra.BigOperators.Group.List.Basic
import Mathlib.Algebra.Order.Group.Multiset
import PlainC.Proofs.Parsing.Taking
import PlainC.Proofs.Parsing.Yielding
import PlainC.Tree

set_option relaxedAutoImplicit false
set_option autoImplicit false

namespace PlainC

/-! ### Stocks -/

/-- Literals in their order, and names in any order. -/
@[ext]
structure Stock where
  literals : List Literal
  names : Multiset String

namespace Stock

instance : Zero Stock := ⟨⟨[], 0⟩⟩

instance : Add Stock := ⟨fun a b => ⟨a.literals ++ b.literals, a.names + b.names⟩⟩

instance : AddMonoid Stock where
  add_assoc _ _ _ := Stock.ext (List.append_assoc ..) (add_assoc ..)
  zero_add _ := Stock.ext (List.nil_append _) (zero_add _)
  add_zero _ := Stock.ext (List.append_nil _) (add_zero _)
  nsmul := nsmulRec

@[simp] theorem literals_add (a b : Stock) : (a + b).literals = a.literals ++ b.literals := rfl

@[simp] theorem names_add (a b : Stock) : (a + b).names = a.names + b.names := rfl

@[simp] theorem literals_zero : (0 : Stock).literals = [] := rfl

@[simp] theorem names_zero : (0 : Stock).names = 0 := rfl

/-- Nothing but literals. -/
def ofLiterals (values : List Literal) : Stock := ⟨values, 0⟩

/-- Nothing but names. -/
def ofNames (names : Multiset String) : Stock := ⟨[], names⟩

@[simp] theorem literals_ofLiterals (values : List Literal) :
    (ofLiterals values).literals = values := rfl

@[simp] theorem names_ofLiterals (values : List Literal) : (ofLiterals values).names = 0 := rfl

@[simp] theorem literals_ofNames (names : Multiset String) : (ofNames names).literals = [] := rfl

@[simp] theorem names_ofNames (names : Multiset String) : (ofNames names).names = names := rfl

@[simp] theorem ofLiterals_nil : ofLiterals [] = 0 := rfl

@[simp] theorem ofNames_zero : ofNames 0 = 0 := rfl

theorem ofLiterals_append (values values' : List Literal) :
    ofLiterals (values ++ values') = ofLiterals values + ofLiterals values' := rfl

/-- Names have no place among the literals. -/
theorem ofNames_add (names : Multiset String) (a : Stock) : ofNames names + a = a + ofNames names :=
  Stock.ext (by simp) (add_comm ..)

theorem sum_map_ofLiterals {α : Type} (f : α → List Literal) (as : List α) :
    (as.map fun a => ofLiterals (f a)).sum = ofLiterals (as.flatMap f) := by
  induction as with
  | nil => rfl
  | cons a as ih => rw [List.map_cons, List.sum_cons, ih, List.flatMap_cons, ofLiterals_append]

end Stock

/-! ### What is held -/

/-- What a lexeme holds: its literal or its name, if it is one. -/
def Lexeme.stock : Lexeme → Stock
  | .identifier name => .ofNames {name}
  | l => .ofLiterals (Literal.ofLexeme? l).toList

@[simp] theorem Lexeme.stock_identifier (name : String) :
    (Lexeme.identifier name).stock = .ofNames {name} := rfl

@[simp] theorem Lexeme.stock_punctuator (m : Punctuator) : (Lexeme.punctuator m).stock = 0 := rfl

@[simp] theorem Lexeme.stock_keyword (k : Keyword) : (Lexeme.keyword k).stock = 0 := rfl

@[simp] theorem Lexeme.stock_ending : Lexeme.ending.stock = 0 := rfl

theorem Lexeme.stock_of_literal {l : Lexeme} {value : Literal}
    (h : Literal.ofLexeme? l = some value) : l.stock = .ofLiterals [value] := by
  cases l <;> cases h <;> rfl

/-- What is still to be read, with the names noted so far. -/
def Progress.stock (p : Progress) : Stock :=
  .ofNames (p.names : Multiset String) + (p.lexemes.map Lexeme.stock).sum

/-- The first lexemes that are left, or the end, are the given ones. -/
def Progress.Shows (s : Setting) : List Lexeme → Progress → Prop
  | [], _ => True
  | l :: ls, p => p.front s = l ∧ Shows s ls p.behind

/-- What is held is held by the lexeme at the front or behind it. -/
theorem Progress.stock_eq_front_add {s : Setting} (hs : s.Closed) (p : Progress) :
    p.stock = (p.front s).stock + p.behind.stock := by
  by_cases ends : p.front s = .ending
  · rw [ends, Lexeme.stock_ending, zero_add]
    obtain ⟨_ | ⟨t, ts⟩, names⟩ := p
    · rfl
    · rw [Progress.front_cons] at ends
      simp [stock, lexemes, ends]
  · rw [stock, Progress.lexemes_eq_cons hs rfl ends, List.map_cons, List.sum_cons, ← add_assoc,
      Stock.ofNames_add, add_assoc]
    rfl

theorem Progress.stock_noting (p : Progress) (name : String) :
    (p.noting name).stock = .ofNames {name} + p.stock := by
  refine Stock.ext rfl ?_
  simp only [stock, noting, Stock.names_add, Stock.names_ofNames, ← Multiset.coe_add,
    Multiset.coe_singleton]
  rw [add_comm (p.names : Multiset String), add_assoc]
  rfl

theorem Progress.mem_names_stock {p : Progress} {name : String} (h : name ∈ p.names) :
    name ∈ p.stock.names :=
  Multiset.mem_add.2 (.inl h)

namespace Parser

variable {α β : Type} {h h' : Stock} {seen : List Lexeme} {P : α → Stock} {Q : β → Stock}

/-! ### Rules that keep what is held -/

/-- Where the lexemes `seen` are at the front and `held` has been taken off the tokens before, the
rule keeps all that is held: its result gives it back with what is left.  Where it stops, no other
names have been noted. -/
def Keeps (held : Stock) (seen : List Lexeme) (x : Parser β) (gives : β → Stock) : Prop :=
  ∀ s p, s.Closed → p.Shows s seen →
    match x s p with
    | .ok b q => gives b + q.stock = held + p.stock
    | .error _ q => ∀ name ∈ q.names, name ∈ (held + p.stock).names

namespace Keeps

theorem pure {b : β} (same : Q b = h) : Keeps h seen (pure b) Q := by
  intro s p _ _
  change Q b + p.stock = h + p.stock
  rw [same]

/-- More may be known of what is at the front. -/
theorem anywhere {x : Parser β} (hx : Keeps h [] x Q) : Keeps h seen x Q :=
  fun s p hs _ => hx s p hs trivial

theorem of_eq {x : Parser β} (same : h = h') (hx : Keeps h' seen x Q) : Keeps h seen x Q :=
  same ▸ hx

theorem mono {x : Parser β} {Q' : β → Stock} (hx : Keeps h seen x Q) (same : ∀ b, Q b = Q' b) :
    Keeps h seen x Q' :=
  funext same ▸ hx

/-- What is held besides is held through a rule. -/
theorem framed {x : Parser β} (hx : Keeps h seen x Q) :
    Keeps (h' + h) seen x fun b => h' + Q b := by
  intro s p hs shows
  have inner := hx s p hs shows
  cases found : x s p with
  | ok b q =>
      simp only [found] at inner ⊢
      rw [add_assoc, inner, add_assoc]
  | error stop q =>
      simp only [found] at inner ⊢
      rw [add_assoc]
      exact fun name noted => Multiset.mem_add.2 (.inr (inner name noted))

/-- Two rules in a row; the second one begins with what the first one gives. -/
theorem andThen {x : Parser α} {k : α → Parser β} {R : α → Prop} (hx : Keeps h seen x P)
    (known : ∀ s, s.Closed → Yields s x R) (hk : ∀ a, R a → Keeps (P a) [] (k a) Q) :
    Keeps h seen (x >>= k) Q := by
  intro s p hs shows
  have first := hx s p hs shows
  change match EStateM.bind (x s) (fun a => k a s) p with
    | .ok b q => Q b + q.stock = h + p.stock
    | .error _ q => ∀ name ∈ q.names, name ∈ (h + p.stock).names
  unfold EStateM.bind
  cases found : x s p with
  | ok a r =>
      rw [found] at first
      rw [← first]
      exact hk a (known s hs p a r found) s r hs trivial
  | error stop r =>
      rw [found] at first
      exact first

theorem follow {x : Parser α} {k : α → Parser β} (hx : Keeps h seen x P)
    (hk : ∀ a, Keeps (P a) [] (k a) Q) : Keeps h seen (x >>= k) Q :=
  andThen (R := fun _ => True) hx (fun _ _ _ _ _ _ => trivial) fun a _ => hk a

/-- Two rules in a row, with what is known of the first result; what is held in front of the first
rule is held through it. -/
theorem bindWith {x : Parser α} {k : α → Parser β} {R : α → Prop} (hx : Keeps 0 seen x P)
    (known : ∀ s, s.Closed → Yields s x R) (hk : ∀ a, R a → Keeps (h + P a) [] (k a) Q) :
    Keeps h seen (x >>= k) Q :=
  andThen (.of_eq (add_zero h).symm hx.framed) known hk

theorem bind {x : Parser α} {k : α → Parser β} (hx : Keeps 0 seen x P)
    (hk : ∀ a, Keeps (h + P a) [] (k a) Q) : Keeps h seen (x >>= k) Q :=
  bindWith (R := fun _ => True) hx (fun _ _ _ _ _ _ => trivial) fun a _ => hk a

/-- A rule that takes nothing. -/
theorem skip {x : Parser α} {k : α → Parser β} (hx : Keeps 0 seen x fun _ => 0)
    (hk : ∀ a, Keeps h [] (k a) Q) : Keeps h seen (x >>= k) Q :=
  bind hx fun a => .of_eq (add_zero h) (hk a)

theorem ite {c : Prop} [Decidable c] {x y : Parser β} (hx : c → Keeps h seen x Q)
    (hy : ¬ c → Keeps h seen y Q) : Keeps h seen (if c then x else y) Q := by
  split
  · rename_i yes
    exact hx yes
  · rename_i no
    exact hy no

/-! ### Faults -/

/-- A rule that only ever stops where it is. -/
theorem stops {x : Parser β} (stays : ∀ s p, ∃ stop, x s p = .error stop p) : Keeps h seen x Q := by
  intro s p _ _
  obtain ⟨stop, found⟩ := stays s p
  rw [found]
  exact fun name noted => Multiset.mem_add.2 (.inr (Progress.mem_names_stock noted))

theorem fail (fault : Fault) (t : Token) : Keeps h seen (fail fault t) Q :=
  stops fun _ _ => ⟨_, rfl⟩

theorem missing (expected : String) : Keeps h seen (missing expected) Q :=
  stops fun _ _ => ⟨_, rfl⟩

theorem unexpected (expected : String) : Keeps h seen (unexpected expected) Q :=
  stops fun _ _ => ⟨_, rfl⟩

theorem exhausted : Keeps h seen exhausted Q := stops fun _ _ => ⟨_, rfl⟩

theorem locatedAt {x : Parser β} (hx : Keeps h seen x Q) (t : Token) :
    Keeps h seen (locatedAt t x) Q := by
  intro s p hs shows
  have inner := hx s p hs shows
  unfold Parser.locatedAt
  cases found : x s p with
  | ok a r => simpa [found] using inner
  | error stop r => cases stop <;> simpa [found] using inner

/-- Behind a check that stops the reading there is nothing to keep. -/
theorem stopped {check : Parser α} {k : α → Parser β}
    (stays : ∀ s p, ∃ stop, check s p = .error stop p) : Keeps h seen (check >>= k) Q := by
  refine stops fun s p => ?_
  obtain ⟨stop, found⟩ := stays s p
  refine ⟨stop, ?_⟩
  change EStateM.bind (check s) (fun a => k a s) p = _
  rw [EStateM.bind, found]

/-- Behind a check that may stop the reading nothing was wrong. -/
theorem passed {c : Prop} [Decidable c] {check : Parser Unit} {x : Parser β}
    (stays : ∀ s p, ∃ stop, check s p = .error stop p) (hx : ¬ c → Keeps h seen x Q) :
    Keeps h seen (if c then check >>= fun _ => x else x) Q :=
  ite (fun _ => stopped stays) hx

/-! ### Looking ahead -/

/-- A look at what is ahead. -/
theorem look {x : Parser α} {k : α → Parser β} (stays : ∀ s p, ∃ a, x s p = .ok a p)
    (hk : ∀ a, Keeps h seen (k a) Q) : Keeps h seen (x >>= k) Q := by
  intro s p hs shows
  obtain ⟨a, found⟩ := stays s p
  rw [bind_of_ok found]
  exact hk a s p hs shows

/-- Behind a look at the token at the front its lexeme is known. -/
theorem current {k : Token → Parser β} (hk : ∀ t, Keeps h [t.lexeme] (k t) Q) :
    Keeps h [] (current >>= k) Q := by
  intro s p hs _
  rw [current_bind]
  exact hk _ s p hs ⟨rfl, trivial⟩

/-- A look at a token whose lexeme is known. -/
theorem again {l : Lexeme} {k : Token → Parser β}
    (hk : ∀ t, t.lexeme = l → Keeps h (l :: seen) (k t) Q) :
    Keeps h (l :: seen) (Parser.current >>= k) Q := by
  intro s p hs shows
  rw [current_bind]
  exact hk _ shows.1 s p hs shows

/-- Behind a look at the second token its lexeme is known, too. -/
theorem second {l : Lexeme} {k : Token → Parser β} (hk : ∀ u, Keeps h [l, u.lexeme] (k u) Q) :
    Keeps h [l] (ahead 1 >>= k) Q := by
  intro s p hs shows
  rw [bind_of_ok (ahead_eq_ok_iff.2 ⟨rfl, rfl⟩)]
  exact hk _ s p hs ⟨shows.1, (lexeme_getD_one s p).symm, trivial⟩

/-- A choice that depends on the punctuator at the front. -/
theorem ifNext {m : Punctuator} {x y : Parser β} (hx : Keeps h [.punctuator m] x Q)
    (hy : Keeps h seen y Q) : Keeps h seen (nextIs m >>= fun b => if b then x else y) Q := by
  intro s p hs shows
  rw [nextIs_bind]
  by_cases same : p.front s = .punctuator m
  · simpa [same] using hx s p hs ⟨same, trivial⟩
  · simpa [same] using hy s p hs shows

/-! ### Reading a token -/

/-- What a token holds is held behind it. -/
theorem advance {l : Lexeme} {k : Unit → Parser β} (hk : Keeps (h + l.stock) seen (k ()) Q) :
    Keeps h (l :: seen) (advance >>= k) Q := by
  intro s p hs shows
  have rest := hk s p.behind hs shows.2
  rw [bind_of_ok (advance_eq_ok_iff.2 rfl)]
  rwa [add_assoc, ← shows.1, ← Progress.stock_eq_front_add hs] at rest

/-- A name that is noted is no longer held. -/
theorem note {name : String} {k : Unit → Parser β} (hk : Keeps h [] (k ()) Q) :
    Keeps (h + .ofNames {name}) seen (note name >>= k) Q := by
  intro s p hs _
  have rest := hk s (p.noting name) hs trivial
  rw [bind_of_ok (note_eq_ok_iff.2 rfl)]
  rwa [Progress.stock_noting, ← add_assoc] at rest

/-- A choice that depends on whether a lexeme is read, which holds nothing. -/
theorem ifAccept {l : Lexeme} {x y : Parser β} (nothing : l.stock = 0) (hx : Keeps h [] x Q)
    (hy : Keeps h seen y Q) :
    Keeps h seen (acceptLexeme l >>= fun b => if b then x else y) Q := by
  intro s p hs shows
  by_cases same : p.front s = l
  · rw [bind_of_ok (acceptLexeme_eq_ok_iff.2 (.inl ⟨same, rfl, rfl⟩)), if_pos rfl,
      Progress.stock_eq_front_add hs p, same, nothing, zero_add]
    exact hx s p.behind hs trivial
  · rw [bind_of_ok (acceptLexeme_eq_ok_iff.2 (.inr ⟨same, rfl, rfl⟩)), if_neg Bool.false_ne_true]
    exact hy s p hs shows

theorem expectAs (m : Punctuator) (expected : String) :
    Keeps 0 seen (expectAs m expected) fun _ => 0 :=
  ifAccept rfl (pure rfl) (missing expected)

theorem expect (m : Punctuator) : Keeps 0 seen (expect m) fun _ => 0 := expectAs m _

theorem identifier (expected : String) :
    Keeps 0 [] (identifier expected) fun name => .ofNames {name} := by
  refine current fun t => ?_
  split
  · rename_i found
    rw [found]
    exact advance (pure (zero_add _).symm)
  · exact missing expected

theorem ofExcept (result : Except Fault α) : Keeps 0 seen (ofExcept result) fun _ => 0 := by
  cases result with
  | ok a => exact pure rfl
  | error fault => exact stops fun _ _ => ⟨_, rfl⟩

/-! ### Recursion and repetition -/

theorem budgeted {x : Nat → Parser β} (hx : ∀ n, Keeps h seen (x n) Q) :
    Keeps h seen (budgeted x) Q :=
  fun s p hs shows => hx _ s p hs shows

/-- What every turn of a loop keeps, the loop keeps. -/
theorem loop {step : β → Parser (ForInStep β)}
    (turn : ∀ b, Keeps (Q b) [] (step b) fun turn => Q turn.value) (b : β) :
    Keeps (Q b) [] (loop step b) Q := by
  refine budgeted fun n => ?_
  induction n generalizing b with
  | zero => exact exhausted
  | succ n ih =>
      refine follow (turn b) fun turn => ?_
      cases turn with
      | done c => exact pure rfl
      | yield c => exact ih c

theorem moreAfterCommas {item : Parser β} (hi : Keeps 0 [] item Q) (first : List β) :
    Keeps (first.map Q).sum [] (moreAfterCommas item first) fun all => (all.map Q).sum := by
  refine loop (Q := fun found => (found.map Q).sum) (fun found => ?_) first
  refine ifAccept rfl (bind hi fun b => pure ?_) (pure rfl)
  change ((found ++ [b]).map Q).sum = _
  rw [List.map_append, List.sum_append, List.map_singleton, List.sum_singleton]

theorem commaSeparated {item : Parser β} (hi : Keeps 0 [] item Q) :
    Keeps 0 [] (commaSeparated item) fun all => (all.map Q).sum := by
  refine bind hi fun b => of_eq ?_ (moreAfterCommas hi [b])
  rw [zero_add, List.map_singleton, List.sum_singleton]

end Keeps

end Parser

end PlainC
