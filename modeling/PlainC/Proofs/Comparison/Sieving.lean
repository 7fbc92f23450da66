/-
**Options that refuse units.**

Two of the options refuse a unit that is complete: a function without a body, and a struct without
members.  Each is asked for behind the semicolon of the unit, when everything else about it has been
checked.  So a program is read under them as it is read when everything is accepted, up to the first
unit that they refuse, and there the reading stops.  Nothing is refused that was not completed, and
no fault in front of it is lost.

Main definitions:

* `PlainC.Options.lenient`, `PlainC.Options.refuses` — the options under which everything is
  accepted, and what a unit is refused as;
* `PlainC.TopLevel.refusedAt` — the token at which a unit is refused;
* `PlainC.Parser.Sieves` — a rule that does the same under both options unless its result is
  refused;
* `PlainC.UnitsUpTo` — units that are read one declaration after another.

Main results:

* `PlainC.Parser.unit_sieves` — the rule for units is of that sort;
* `PlainC.unitsWithin_of_accepted`, `PlainC.unitsWithin_of_refused` — what the options do to the
  units of a source;
* `PlainC.NameTable.program?_lenient` — **a program is refused at the first unit that the options
  refuse, and otherwise it is read as if they accepted everything**.
-/

import PlainC.Proofs.Comparison.Continuation

set_option relaxedAutoImplicit false
set_option autoImplicit false

namespace PlainC

variable {ν : Type}

/-! ### What the options refuse -/

namespace Options

/-- The options, but with every unit accepted. -/
def lenient (o : Options) : Options := { o with allowPrototypes := true, allowEmptyStructs := true }

/-- What a unit is refused as, if it is: a function without a body or a struct without members. -/
def refuses (o : Options) : TopLevel ν → Option Construct
  | .function f => if f.isPrototype && !o.allowPrototypes then some .functionPrototype else none
  | .struct u => if u.members.isEmpty && !o.allowEmptyStructs then some .emptyStruct else none
  | .blank | .var _ => none

end Options

/-- The token at which a unit is refused, where `own` are the tokens of the unit: a struct is
refused at its first token, and a function at its last one. -/
def TopLevel.refusedAt (own : List Token) : TopLevel ν → Option Token
  | .function _ => own.getLast?
  | .blank | .var _ | .struct _ => own.head?

/-- The fault of a construct that is refused at a token. -/
def Setting.refusal (s : Setting) (c : Construct) (t : Token) : Diagnostic :=
  .placed (.unsupported c) ⟨s.file, t.line, t.column⟩ (s.quote t.line)

namespace Parser

variable {α β : Type}

/-! ### The two runs -/

/-- Two readings in a row stop when the first one does, or the second one behind it. -/
theorem bind_eq_error_iff {x : Parser α} {k : α → Parser β} {s : Setting} {p q : Progress}
    {stop : Stop} :
    (x >>= k) s p = .error stop q ↔
      x s p = .error stop q ∨ ∃ a r, x s p = .ok a r ∧ k a s r = .error stop q := by
  change EStateM.bind (x s) (fun a => k a s) p = _ ↔ _
  unfold EStateM.bind
  cases x s p with
  | ok a r =>
      constructor
      · intro h
        exact .inr ⟨a, r, rfl, h⟩
      · rintro (h | ⟨_, _, same, h⟩)
        · cases h
        · cases same
          exact h
  | error stop r => simp

/-- A rule that does under the options what it does when everything is accepted, unless they refuse
its result.  In that case it stops, at a token that `spot` allows for the result and its tokens. -/
structure Sieves (refuses : Options → α → Option Construct) (spot : α → List Token → Token → Prop)
    (x : Parser α) : Prop where
  stops : ∀ {s p stop q}, x (s.adjusted .lenient) p = .error stop q → x s p = .error stop q
  accepted : ∀ {s p a q}, x (s.adjusted .lenient) p = .ok a q → refuses s.options a = none →
    x s p = .ok a q
  refused : ∀ {s p a q c}, s.Closed → x (s.adjusted .lenient) p = .ok a q →
    refuses s.options a = some c →
    ∃ own t q', p.rest = own ++ q.rest ∧ spot a own t ∧
      x s p = .error (.fault (s.refusal c t)) q'

/-- A rule that does not ask for the refusing options does the same under both. -/
theorem Alike.lenient_eq {x : Parser α} (h : Alike Options.lenient False id x x) (s : Setting)
    (p : Progress) : x (s.adjusted .lenient) p = x s p := by
  have told := h.retells s [] p
  rw [Progress.after, List.nil_append] at told
  rw [told]
  cases x s p <;> rfl

namespace Sieves

variable {refuses : Options → α → Option Construct} {spot spot' : α → List Token → Token → Prop}
  {refuses' : Options → β → Option Construct} {late : β → List Token → Token → Prop}

/-- A rule that does the same under both options, and whose results are never refused. -/
theorem of_alike {x : Parser α} (h : Alike Options.lenient False id x x)
    (free : ∀ s p a q, x s p = .ok a q → refuses s.options a = none) : Sieves refuses spot x where
  stops read := by rwa [h.lenient_eq] at read
  accepted read _ := by rwa [h.lenient_eq] at read
  refused _ read no := by
    rw [h.lenient_eq] at read
    rw [free _ _ _ _ read] at no
    cases no

theorem mono {x : Parser α} (h : Sieves refuses spot x)
    (le : ∀ a own t, spot a own t → spot' a own t) : Sieves refuses spot' x where
  stops := h.stops
  accepted := h.accepted
  refused closed read no := by
    obtain ⟨own, t, q', rest, here, stop⟩ := h.refused closed read no
    exact ⟨own, t, q', rest, le _ _ _ here, stop⟩

/-- A result that is wrapped up is refused as it was before. -/
theorem map {x : Parser α} (h : Sieves refuses spot x) (g : α → β)
    (same : ∀ o a, refuses' o (g a) = refuses o a)
    (le : ∀ a own t, spot a own t → late (g a) own t) :
    Sieves refuses' late (x >>= fun a => pure (g a)) where
  stops read := by
    rcases bind_eq_error_iff.1 read with first | ⟨a, r, -, second⟩
    · exact bind_eq_error_iff.2 (.inl (h.stops first))
    · cases second
  accepted read yes := by
    obtain ⟨a, r, first, second⟩ := bind_eq_ok_iff.1 read
    obtain ⟨rfl, rfl⟩ := pure_eq_ok_iff.1 second
    rw [same] at yes
    exact bind_eq_ok_iff.2 ⟨a, r, h.accepted first yes, rfl⟩
  refused closed read no := by
    obtain ⟨a, r, first, second⟩ := bind_eq_ok_iff.1 read
    obtain ⟨rfl, rfl⟩ := pure_eq_ok_iff.1 second
    rw [same] at no
    obtain ⟨own, t, q', rest, here, stop⟩ := h.refused closed first no
    exact ⟨own, t, q', rest, le _ _ _ here, bind_eq_error_iff.2 (.inl stop)⟩

/-- What stands in front of the rule belongs to the tokens of the result. -/
theorem bind {x : Parser α} {k : α → Parser β} (hx : Alike Options.lenient False id x x)
    (hk : ∀ a, Sieves refuses' late (k a))
    (grows : ∀ b before own t, late b own t → late b (before ++ own) t) :
    Sieves refuses' late (x >>= k) where
  stops read := by
    rcases bind_eq_error_iff.1 read with first | ⟨a, r, first, second⟩
    · rw [hx.lenient_eq] at first
      exact bind_eq_error_iff.2 (.inl first)
    · rw [hx.lenient_eq] at first
      exact bind_eq_error_iff.2 (.inr ⟨a, r, first, (hk a).stops second⟩)
  accepted read yes := by
    obtain ⟨a, r, first, second⟩ := bind_eq_ok_iff.1 read
    rw [hx.lenient_eq] at first
    exact bind_eq_ok_iff.2 ⟨a, r, first, (hk a).accepted second yes⟩
  refused closed read no := by
    obtain ⟨a, r, first, second⟩ := bind_eq_ok_iff.1 read
    rw [hx.lenient_eq] at first
    obtain ⟨own, t, q', rest, here, stop⟩ := (hk a).refused closed second no
    obtain ⟨before, whole⟩ := hx.advances.of_ok first
    refine ⟨before ++ own, t, q', ?_, grows _ _ _ _ here, ?_⟩
    · rw [← whole, rest, List.append_assoc]
    · exact bind_eq_error_iff.2 (.inr ⟨a, r, first, stop⟩)

/-- The same for a result that is refused at a token that was read before. -/
theorem bindAt {t : Token} {x : Parser α} {k : α → Parser β}
    (hx : Alike Options.lenient False id x x)
    (hk : ∀ a, Sieves refuses' (fun _ _ u => u = t) (k a)) :
    Sieves refuses' (fun _ _ u => u = t) (x >>= k) :=
  bind hx hk fun _ _ _ _ same => same

/-- A result that is refused at the token in front of the rule is refused at its first token. -/
theorem first {k : Token → Parser α} (hk : ∀ t, Sieves refuses (fun _ _ u => u = t) (k t))
    (closes : Closes (current >>= k)) :
    Sieves refuses (fun _ own t => own.head? = some t) (current >>= k) where
  stops read := by
    rw [current_bind] at read ⊢
    exact (hk _).stops read
  accepted read yes := by
    rw [current_bind] at read ⊢
    exact (hk _).accepted read yes
  refused {s p _ _ _} closed read no := by
    obtain ⟨front, last, whole, -⟩ := closes.last (s := s.adjusted .lenient) closed read
    rw [current_bind] at read ⊢
    obtain ⟨own, t, q', rest, same, stop⟩ := (hk _).refused closed read no
    refine ⟨own, t, q', rest, ?_, stop⟩
    -- the tokens of the result are at least one, so that the first of them is the one in front
    have all : own = front ++ [last] := by
      rw [rest, List.append_cons] at whole
      exact List.append_cancel_right whole
    rw [same, rest, all]
    cases front <;> rfl

theorem ite {c : Prop} [Decidable c] {x y : Parser α} (hx : Sieves refuses spot x)
    (hy : Sieves refuses spot y) : Sieves refuses spot (if c then x else y) := by
  split
  · exact hx
  · exact hy

/-- A rule behind a check that may stop the reading. -/
theorem checked {c : Prop} [Decidable c] {check : Parser Unit} {x : Parser α}
    (hc : Alike Options.lenient False id check check) (hx : Sieves refuses spot x)
    (grows : ∀ a before own t, spot a own t → spot a (before ++ own) t) :
    Sieves refuses spot (if c then check >>= fun _ => x else x) :=
  ite (bind hc (fun _ => hx) grows) hx

/-- The place where an option is asked for: the reading stops there with the fault of a construct if
the option is switched off, and is done otherwise. -/
theorem asked {k : Options → Parser α} {a : α} {c : Construct} {t : Token}
    {after : Progress → Progress} (rest : ∀ p, (after p).rest = p.rest) (off : Options → Bool)
    (on : ∀ o : Options, off o.lenient = false)
    (stop : ∀ {o}, off o → ∀ s p, k o s p = .error (.fault (s.refusal c t)) p)
    (done : ∀ {o}, off o = false → ∀ s p, k o s p = .ok a (after p))
    (same : ∀ o, refuses o a = if off o then some c else none) :
    Sieves refuses (fun _ _ u => u = t) (options >>= k) := by
  have run (s : Setting) (p : Progress) : (options >>= k) s p = k s.options s p := rfl
  have lenient (s : Setting) (p : Progress) :
      (options >>= k) (s.adjusted .lenient) p = .ok a (after p) := done (on s.options) _ p
  refine ⟨fun read => ?_, fun {s p b q} read yes => ?_, fun {s p b q d} _ read no => ?_⟩
  · rw [lenient] at read
    cases read
  · rw [lenient] at read
    cases read
    rw [same] at yes
    rw [run, done (by simpa using yes)]
  · rw [lenient] at read
    cases read
    rw [same] at no
    split at no
    · rename_i refused
      cases no
      exact ⟨[], t, p, (rest p).symm, rfl, (run s p).trans (stop refused s p)⟩
    · cases no

/-- A refusal has its place already. -/
theorem locatedAt {x : Parser α} (h : Sieves refuses spot x) (start : Token) :
    Sieves refuses spot (locatedAt start x) where
  stops {s p stop q} read := by
    cases first : x (s.adjusted .lenient) p with
    | ok a r =>
        rw [Parser.locatedAt, first] at read
        cases read
    | error stop' r =>
        rw [Parser.locatedAt, first] at read
        rw [Parser.locatedAt, h.stops first]
        exact read
  accepted read yes := locatedAt_eq_ok_iff.2 (h.accepted (locatedAt_eq_ok_iff.1 read) yes)
  refused closed read no := by
    obtain ⟨own, t, q', rest, here, stop⟩ := h.refused closed (locatedAt_eq_ok_iff.1 read) no
    refine ⟨own, t, q', rest, here, ?_⟩
    rw [Parser.locatedAt, stop]
    dsimp only
    rw [Diagnostic.locate_of_isSome rfl]

end Sieves

/-! ### Structs -/

/-- A struct without members is refused behind its semicolon. -/
theorem structEnd_sieves (start : Token) (name : String) (members : List (Declaration String)) :
    Sieves (fun o u => o.refuses (.struct u)) (fun _ _ t => t = start)
      (structEnd start name members) := by
  refine .bindAt (.expectAs _ _) fun _ => ?_
  let off (o : Options) : Bool := members.isEmpty && !o.allowEmptyStructs
  refine .asked (a := ⟨name, members⟩) (fun p => p.rest_noting name) off ?_ ?_ ?_ fun _ => rfl
  · intro o
    simp [off, Options.lenient]
  · intro o refused s p
    rw [if_pos refused]
    rfl
  · intro o accepted s p
    rw [if_neg (by simpa [off] using accepted)]
    rfl

/-- A struct without members is refused at its first token. -/
theorem structDefinition_sieves :
    Sieves (fun o u => o.refuses (.struct u)) (fun _ own t => own.head? = some t)
      structDefinition := by
  refine .first (fun start => ?_) structDefinition_closes
  refine .bindAt .advance fun _ => .bindAt (.identifier _) fun name => ?_
  refine .bindAt (.expect _) fun _ => .bindAt (.loop (structMembers_alike _) _) fun members => ?_
  refine .bindAt (.expect _) fun _ => .bindAt .current fun token => ?_
  have last := structEnd_sieves start name members
  split
  · exact .bindAt (.fail _ _) fun _ => last
  · exact .bindAt (.fail _ _) fun _ => last
  · exact last

/-! ### Functions -/

/-- Reads the semicolon of a prototype. -/
def prototypeEnd (f : Function String) : Parser (Function String) := do
  let semicolon ← current
  expectAs .semicolon "';' or function body"
  unless (← options).allowPrototypes do fail (.unsupported .functionPrototype) semicolon
  return f

/-- A prototype is refused at its semicolon. -/
theorem prototypeEnd_sieves {f : Function String} (bare : f.isPrototype) :
    Sieves (fun o g => o.refuses (.function g)) (fun _ own t => own.getLast? = some t)
      (prototypeEnd f) := by
  have closes : Closes (prototypeEnd f) := by
    refine .bind .current fun semicolon => .andThen (.expectAs rfl _) fun _ => ?_
    exact .bind .options fun o => .ite (.pure _) (.bind (.fail _ _) fun _ => .pure _)
  have first : Sieves (fun o g => o.refuses (.function g)) (fun _ own t => own.head? = some t)
      (prototypeEnd f) := by
    refine .first (fun semicolon => .bindAt (.expectAs _ _) fun _ => ?_) closes
    refine .asked (a := f) (c := .functionPrototype) (fun _ => rfl) (fun o => !o.allowPrototypes)
      (fun _ => rfl) ?_ ?_ ?_
    · intro o refused s p
      rw [if_neg (by simpa using refused)]
      rfl
    · intro o accepted s p
      rw [if_pos (by simpa using accepted)]
      rfl
    · intro o
      rw [Options.refuses, bare, Bool.true_and]
  refine ⟨first.stops, first.accepted, fun {s p g q c} closed read no => ?_⟩
  obtain ⟨own, t, q', rest, head, stop⟩ := first.refused closed read no
  refine ⟨own, t, q', rest, ?_, stop⟩
  -- the semicolon is all that is read
  have one : q.rest = p.rest.tail := by
    obtain ⟨_, r, look, read⟩ := bind_eq_ok_iff.1 read
    obtain ⟨_, r', past, read⟩ := bind_eq_ok_iff.1 read
    obtain ⟨-, rfl⟩ := current_eq_ok_iff.1 look
    obtain ⟨-, rfl⟩ := expectAs_eq_ok_iff.1 past
    cases read
    rfl
  rcases own with _ | ⟨u, more⟩
  · cases head
  · rw [rest, List.cons_append, List.tail_cons] at one
    have none : more = [] := List.append_left_eq_self.1 one.symm
    rw [none] at head ⊢
    exact head

theorem functionAfter_sieves (sp : Specifier String) (d : Declarator) (ident : Token)
    (parameters : List (Declaration String)) :
    Sieves (fun o f => o.refuses (.function f)) (fun _ own t => own.getLast? = some t)
      (functionAfter sp d ident parameters) := by
  have grows : ∀ (f : Function String) (before own : List Token) (t : Token),
      own.getLast? = some t → (before ++ own).getLast? = some t := by
    intro f before own t last
    rw [List.getLast?_append, last]
    rfl
  refine .bind (declarationOf_alike _ _) (fun declaration => ?_) grows
  refine .bind (.nextIs _) (fun brace => .ite ?_ (prototypeEnd_sieves rfl)) grows
  refine .bind (namedParameters_alike _ _) (fun _ => ?_) grows
  have body : Alike Options.lenient False (Block.mapStmts id) block block :=
    block_alike (.keeping .lenient fun _ => rfl)
  rw [Block.mapStmts_id] at body
  refine .bind body (fun b => .of_alike (.pure rfl) ?_) grows
  intro s p f q read
  cases read
  rfl

/-! ### Units -/

/-- The tokens at which units are refused that stand alone in their declaration. -/
def AloneAt (us : List (TopLevel String)) (own : List Token) (t : Token) : Prop :=
  ∃ u, us = [u] ∧ u.refusedAt own = some t

theorem atStructDefinition_bind (k : Bool → Parser α) (s : Setting) (p : Progress) :
    (atStructDefinition >>= k) s p = k (structAhead p.rest s.ending) s p :=
  bind_of_ok (atStructDefinition_eq s p) k

/-- A choice that reads nothing. -/
theorem Sieves.choose {refuses : Options → α → Option Construct}
    {spot : α → List Token → Token → Prop} {k : Bool → Parser α}
    (hk : ∀ b, Sieves refuses spot (k b)) : Sieves refuses spot (atStructDefinition >>= k) where
  stops read := by
    rw [atStructDefinition_bind] at read ⊢
    exact (hk _).stops read
  accepted read yes := by
    rw [atStructDefinition_bind] at read ⊢
    exact (hk _).accepted read yes
  refused closed read no := by
    rw [atStructDefinition_bind] at read ⊢
    exact (hk _).refused closed read no

/-- **A unit is read as if everything was accepted, unless it is refused**: then the reading stops
at the first token of a struct, and at the last one of a function. -/
theorem unit_sieves : Sieves (fun o us => us.findSome? o.refuses) AloneAt unit := by
  refine .choose fun b => .ite ?_ ?_
  · refine structDefinition_sieves.map _ (fun o u => ?_) fun u own t here => ⟨_, rfl, here⟩
    rw [List.findSome?_singleton]
  -- a function is refused at its last token, wherever the declaration begins
  let last (us : List (TopLevel String)) (own : List Token) (t : Token) : Prop :=
    (∃ f, us = [.function f]) ∧ own.getLast? = some t
  have grows : ∀ us before own t, last us own t → last us (before ++ own) t := by
    rintro us before own t ⟨alone, here⟩
    refine ⟨alone, ?_⟩
    rw [List.getLast?_append, here]
    rfl
  have alone : ∀ us own t, last us own t → AloneAt us own t := by
    rintro us own t ⟨⟨f, rfl⟩, here⟩
    exact ⟨_, rfl, here⟩
  refine Sieves.mono ?_ alone
  refine .bind .current (fun start => .bind specifier_alike (fun sp => ?_) grows) grows
  refine .bind (.nextIs _) (fun empty => .checked (.fail _ _) ?_ grows) grows
  refine .bind topDeclarator_alike (fun d => ?_) grows
  split
  · refine (functionAfter_sieves _ _ _ _).map _ (fun o f => ?_) fun f own t here => ⟨⟨f, rfl⟩, here⟩
    rw [List.findSome?_singleton]
  · refine .bind (variableAfter_alike _ _) (fun first => ?_) grows
    refine .bind (.moreAfterCommas (variableOf_alike _) _) (fun found => ?_) grows
    refine .bind (.expect _) (fun _ => .of_alike (.pure rfl) ?_) grows
    -- variables are never refused
    intro s p us q read
    cases read
    rw [List.findSome?_eq_none_iff]
    intro u member
    obtain ⟨v, -, rfl⟩ := List.mem_map.1 member
    rfl

end Parser

/-! ### Programs -/

/-- The units are read from `p` up to `q`, one declaration after another. -/
inductive UnitsUpTo (s : Setting) : Progress → List (TopLevel String) → Progress → Prop
  | none (p : Progress) : UnitsUpTo s p [] p
  | more {p q r : Progress} {us vs : List (TopLevel String)} (read : Parser.unit s p = .ok us q)
      (behind : UnitsUpTo s q vs r) : UnitsUpTo s p (us ++ vs) r

variable {s : Setting} {p : Progress}

/-- Units none of which is refused are read as if everything was accepted. -/
theorem unitsWithin_of_accepted {n : Nat}
    (all : ∀ u ∈ (unitsWithin (s.adjusted .lenient) n p).completed, s.options.refuses u = none) :
    unitsWithin s n p = unitsWithin (s.adjusted .lenient) n p := by
  induction n generalizing p with
  | zero => rfl
  | succ n ih =>
      unfold unitsWithin at all ⊢
      by_cases empty : p.rest.isEmpty
      · rw [if_pos empty, if_pos empty]
      rw [if_neg empty] at all
      rw [if_neg empty, if_neg empty]
      have sieve := Parser.unit_sieves.locatedAt (p.rest.headD s.ending)
      have same : (s.adjusted Options.lenient).ending = s.ending := rfl
      rw [same] at all ⊢
      cases read : Parser.locatedAt (p.rest.headD s.ending) Parser.unit (s.adjusted .lenient) p with
      | error stop q => rw [sieve.stops read]
      | ok us q =>
          rw [read] at all
          obtain ⟨here, behind⟩ := List.forall_mem_append.1 all
          rw [sieve.accepted read (List.findSome?_eq_none_iff.2 here)]
          simp only [ih behind]

/-- What does not occur in the first part of a row stands behind it. -/
theorem exists_between {α : Type} {a : α} {front rest before after : List α} (other : a ∉ front)
    (whole : front ++ rest = before ++ a :: after) :
    ∃ between, before = front ++ between ∧ rest = between ++ a :: after := by
  obtain ⟨between, first, last⟩ | ⟨between, first, last⟩ := List.append_eq_append_iff.1 whole
  · exact ⟨between, first, last⟩
  · rcases between with _ | ⟨b, between⟩
    · exact ⟨[], by simpa using first.symm, by simpa using last.symm⟩
    · obtain ⟨rfl, -⟩ := List.cons.inj last
      exact absurd (by simp [first]) other

/-- At the first unit that is refused the reading stops. -/
theorem unitsWithin_of_refused (closed : s.Closed) {n : Nat} {before after : List (TopLevel String)}
    {u : TopLevel String} {c : Construct}
    (completed : (unitsWithin (s.adjusted .lenient) n p).completed = before ++ u :: after)
    (accepted : ∀ v ∈ before, s.options.refuses v = none) (refused : s.options.refuses u = some c) :
    ∃ q r own t r', UnitsUpTo (s.adjusted .lenient) p before q ∧
      Parser.unit (s.adjusted .lenient) q = .ok [u] r ∧ q.rest = own ++ r.rest ∧
      u.refusedAt own = some t ∧
      unitsWithin s n p = ⟨before, some (.fault (s.refusal c t)), r'⟩ := by
  induction n generalizing p before with
  | zero => exact absurd completed (by simp [unitsWithin])
  | succ n ih =>
      unfold unitsWithin at completed ⊢
      by_cases empty : p.rest.isEmpty
      · rw [if_pos empty] at completed
        exact absurd completed (by simp)
      rw [if_neg empty] at completed
      rw [if_neg empty]
      have sieve := Parser.unit_sieves.locatedAt (p.rest.headD s.ending)
      have same : (s.adjusted Options.lenient).ending = s.ending := rfl
      rw [same] at completed
      cases read : Parser.locatedAt (p.rest.headD s.ending) Parser.unit (s.adjusted .lenient) p with
      | error stop q =>
          rw [read] at completed
          exact absurd completed (by simp)
      | ok us q =>
          rw [read] at completed
          cases found : us.findSome? s.options.refuses with
          | some d =>
              -- the declaration holds the refused unit, and nothing else
              obtain ⟨own, t, r', rest, ⟨v, rfl, place⟩, stop⟩ := sieve.refused closed read found
              rw [List.findSome?_singleton] at found
              rcases before with _ | ⟨w, before⟩
              · obtain ⟨rfl, -⟩ := List.cons.inj completed
                rw [refused, Option.some.injEq] at found
                rw [found]
                refine ⟨p, q, own, t, r', .none p, Parser.locatedAt_eq_ok_iff.1 read, rest, place,
                  ?_⟩
                rw [stop]
              · obtain ⟨rfl, -⟩ := List.cons.inj completed
                rw [accepted v (List.mem_cons_self ..)] at found
                cases found
          | none =>
              have other : u ∉ us := by
                intro member
                have none := List.findSome?_eq_none_iff.1 found u member
                rw [refused] at none
                cases none
              -- all units of the declaration stand in front of the refused one
              obtain ⟨between, rfl, behind⟩ := exists_between other completed
              have accepted' : ∀ v ∈ between, s.options.refuses v = none :=
                fun v member => accepted v (List.mem_append_right _ member)
              obtain ⟨q', r, own, t, r', first, unit, rest, place, stop⟩ := ih behind accepted'
              refine ⟨q', r, own, t, r', .more (Parser.locatedAt_eq_ok_iff.1 read) first, unit,
                rest, place, ?_⟩
              rw [sieve.accepted read found]
              simp only [stop]

/-! ### Reading into a table -/

/-- **A program is refused at the first unit that the options refuse, and otherwise it is read as if
they accepted everything.**  Let `found` be the units that are completed in front of the end or of
the first fault when everything is accepted.  If the options refuse none of them, reading comes to
the same, be it a program or a fault, and leaves the same table.  Otherwise the reading stops with
the fault of the first of them that is refused, at the first token of a struct and at the semicolon
of a prototype. -/
theorem NameTable.program?_lenient {file : String} {lines : List String} {o : Options}
    {tokens : List Token} {r : Reader} (opened : Reader.ofTokens file lines o tokens = some r)
    (t : NameTable) :
    let lenient := r.setting.adjusted Options.lenient
    let found := Parser.units lenient r.progress
    t.program? file lines o.lenient tokens = some (found.interned t) ∧
    ((∀ u ∈ found.completed, o.refuses u = none) →
      t.program? file lines o tokens = some (found.interned t)) ∧
    ∀ before u after c, found.completed = before ++ u :: after →
      (∀ v ∈ before, o.refuses v = none) → o.refuses u = some c →
      ∃ p q own token t', UnitsUpTo lenient r.progress before p ∧
        Parser.unit lenient p = .ok [u] q ∧ p.rest = own ++ q.rest ∧
        u.refusedAt own = some token ∧
        t.program? file lines o tokens =
          some (t', .error (.fault (r.setting.refusal c token))) := by
  obtain ⟨ending, last, rfl⟩ := Option.map_eq_some_iff.1 opened
  have opened' : Reader.ofTokens file lines o.lenient tokens =
      some ⟨⟨file, lines, o.lenient, ending⟩, ⟨tokens.takeWhile (!Reader.isEnding ·), []⟩⟩ := by
    rw [Reader.ofTokens, last]
    rfl
  refine ⟨t.program?_of_opened opened', fun all => ?_, ?_⟩
  · rw [t.program?_of_opened opened, Parser.units, unitsWithin_of_accepted all]
    rfl
  · intro before u after c completed accepted refused
    have closed : Setting.Closed ⟨file, lines, o, ending⟩ := by
      simpa [Setting.Closed, Reader.isEnding] using List.find?_some last
    obtain ⟨p, q, own, token, r', first, unit, rest, place, stop⟩ :=
      unitsWithin_of_refused closed completed accepted refused
    refine ⟨p, q, own, token, t.internAll r'.names, first, unit, rest, place, ?_⟩
    rw [t.program?_of_opened opened, Parser.units, stop, Units.interned]

/-- The tokens of `int f(); struct s { }; int;`: the last declaration has a fault, but without empty
structs the struct in front of it is refused, and the prototype is not. -/
theorem NameTable.program?_lenient_struct :
    let tokens : List Token := ([.keyword .int, .identifier "f", .punctuator .parenOpen,
      .punctuator .parenClose, .punctuator .semicolon, .keyword .structWord, .identifier "s",
      .punctuator .braceOpen, .punctuator .braceClose, .punctuator .semicolon, .keyword .int,
      .punctuator .semicolon, .ending] : List Lexeme).zipIdx.map fun (l, i) => ⟨l, 1, i + 1⟩
    let o : Options := { allowEmptyStructs := false }
    let s : Setting := ⟨"", [], o, ⟨.ending, 1, 13⟩⟩
    let read := fun o => (NameTable.empty 0).program? "" [] o tokens
    (read o.lenient).map Prod.snd =
        some (.error (.fault (s.refusal .emptyDeclaration ⟨.keyword .int, 1, 11⟩))) ∧
      (read o).map Prod.snd =
        some (.error (.fault (s.refusal .emptyStruct ⟨.keyword .structWord, 1, 6⟩))) ∧
      ∃ token t', read o = some (t', .error (.fault (s.refusal .emptyStruct token))) := by
  intro tokens o s read
  refine ⟨by decide +kernel, by decide +kernel, ?_⟩
  have opened : Reader.ofTokens "" [] o tokens = some ⟨s, ⟨tokens.take 12, []⟩⟩ := rfl
  let prototype : Function String := { declaration := ⟨⟨false, false, [.int]⟩, .plain, some "f"⟩ }
  have found : (Parser.units (s.adjusted .lenient) ⟨tokens.take 12, []⟩).completed =
      [.function prototype] ++ .struct ⟨"s", []⟩ :: [] := by decide +kernel
  have accepted : ∀ v ∈ [.function prototype], o.refuses v = none :=
    List.forall_mem_singleton.2 rfl
  obtain ⟨-, -, refused⟩ := NameTable.program?_lenient opened (.empty 0)
  obtain ⟨-, -, -, token, t', -, -, -, -, stop⟩ := refused _ _ _ .emptyStruct found accepted rfl
  exact ⟨token, t', stop⟩

end PlainC
