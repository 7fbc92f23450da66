/-
**Faults are put at tokens that were looked at.**

A rule that stops puts its fault at a token that it or a rule around it has looked at, or it leaves
the place to the rules around it.  To see this for a rule it is enough to know which tokens are
known when it begins, and which ones it hands on with its result: a token that was looked at stays
known, since no rule goes back.

Main definitions:

* `PlainC.Setting.blame` — the diagnostic of a fault at a token;
* `PlainC.Setting.Seen` — a token of the row that is not behind the one that is read next;
* `PlainC.Parser.Blames` — a rule that puts its faults at tokens that were seen, or nowhere.

Main results:

* `PlainC.Parser.Blames.bind`, `PlainC.Parser.Blames.current` — two rules in a row; the token at the
  front is seen;
* `PlainC.Parser.Blames.loop` — a loop, whatever tokens its value hands on;
* `PlainC.Parser.Blames.placed` — **in a rule that is given a place every fault has one**.
-/

import PlainC.Proofs.Parsing.Success

set_option relaxedAutoImplicit false
set_option autoImplicit false

namespace PlainC

variable {s : Setting} {row : List Token} {p q : Progress} {t : Token}

/-! ### Tokens that were looked at -/

/-- The diagnostic of a fault at a token. -/
def Setting.blame (s : Setting) (fault : Fault) (t : Token) : Diagnostic :=
  .placed fault ⟨s.file, t.line, t.column⟩ (s.quote t.line)

/-- A fault that has no place yet is put at a token. -/
theorem Setting.locate_ofFault (s : Setting) (fault : Fault) (t : Token) :
    (Diagnostic.ofFault fault).locate (some ⟨s.file, t.line, t.column⟩) (s.quote t.line) =
      s.blame fault t := rfl

/-- A token of a row, or the end behind it, that is not behind the token that is read next. -/
def Setting.Seen (s : Setting) (row : List Token) (p : Progress) (t : Token) : Prop :=
  ∃ i : Nat, (row ++ [s.ending])[i]? = some t ∧ i + p.rest.length ≤ row.length

/-- What was seen stays seen. -/
theorem Setting.Seen.mono (h : s.Seen row p t) (goesOn : q.rest <:+ p.rest) : s.Seen row q t := by
  obtain ⟨i, found, before⟩ := h
  exact ⟨i, found, Nat.le_trans (Nat.add_le_add_left goesOn.length_le i) before⟩

/-- The token that is read next is seen. -/
theorem Setting.seen_front (hp : p.rest <:+ row) : s.Seen row p (p.rest.headD s.ending) := by
  obtain ⟨past, rfl⟩ := hp
  refine ⟨past.length, ?_, Nat.le_of_eq List.length_append.symm⟩
  rw [List.append_assoc, List.getElem?_append_right (Nat.le_refl _), Nat.sub_self]
  cases p.rest <;> rfl

namespace Parser

variable {α β : Type} {known known' : List Token} {marks marks' : β → List Token}

/-! ### Rules that put their faults at tokens -/

/-- No tokens are handed on. -/
def noTokens (_ : β) : List Token := []

/-- When the tokens `known` were seen, a rule that succeeds with `b` has seen the tokens `marks b`,
and one that stops with a fault puts it at a token that was seen, or gives it no place.  In either
case it has not gone back. -/
def Blames (s : Setting) (row known : List Token) (x : Parser β) (marks : β → List Token) : Prop :=
  ∀ p, p.rest <:+ row → (∀ t ∈ known, s.Seen row p t) →
    match x s p with
    | .ok b q => q.rest <:+ p.rest ∧ ∀ t ∈ marks b, s.Seen row q t
    | .error (.fault d) q =>
        q.rest <:+ p.rest ∧ (d = .ofFault d.fault ∨ ∃ t, s.Seen row q t ∧ d = s.blame d.fault t)
    | .error _ _ => True

namespace Blames

theorem mono {x : Parser β} (hx : Blames s row known x marks) (more : known ⊆ known')
    (fewer : ∀ b, marks' b ⊆ marks b) : Blames s row known' x marks' := by
  intro p hp seen
  have here := hx p hp fun t ht => seen t (more ht)
  cases found : x s p with
  | ok b q =>
      rw [found] at here
      exact ⟨here.1, fun t ht => here.2 t (fewer b ht)⟩
  | error stop q =>
      rw [found] at here
      cases stop <;> exact here

/-- Nothing need be handed on. -/
theorem forget {x : Parser β} (hx : Blames s row known x marks) :
    Blames s row known x noTokens :=
  hx.mono (List.Subset.refl known) fun _ => List.nil_subset _

/-- A rule that reads nothing and does not stop. -/
theorem of_stays {x : Parser β} (h : ∀ p, ∃ b, x s p = .ok b p ∧ marks b ⊆ known) :
    Blames s row known x marks := by
  intro p _ seen
  obtain ⟨b, same, handed⟩ := h p
  rw [same]
  exact ⟨List.suffix_refl _, fun t ht => seen t (handed ht)⟩

theorem pure {b : β} (h : marks b ⊆ known) : Blames s row known (pure b) marks :=
  of_stays fun _ => ⟨b, rfl, h⟩

theorem done {b : β} : Blames s row known (Pure.pure b) noTokens := pure (List.nil_subset known)

/-- Two rules in a row, of which the first one hands tokens on. -/
theorem bindHanding {x : Parser α} {k : α → Parser β} {handed : α → List Token}
    (hx : Blames s row known x handed)
    (hk : ∀ a, Blames s row (handed a ++ known) (k a) marks) :
    Blames s row known (x >>= k) marks := by
  intro p hp seen
  have here := hx p hp seen
  change match EStateM.bind (x s) (fun a => k a s) p with
    | .ok b q => q.rest <:+ p.rest ∧ ∀ t ∈ marks b, s.Seen row q t
    | .error (.fault d) q =>
        q.rest <:+ p.rest ∧ (d = .ofFault d.fault ∨ ∃ t, s.Seen row q t ∧ d = s.blame d.fault t)
    | .error _ _ => True
  unfold EStateM.bind
  cases found : x s p with
  | ok a r =>
      rw [found] at here
      have more : ∀ t ∈ handed a ++ known, s.Seen row r t := by
        intro t ht
        rcases List.mem_append.1 ht with ht | ht
        · exact here.2 t ht
        · exact (seen t ht).mono here.1
      have there := hk a r (here.1.trans hp) more
      dsimp only
      cases last : k a s r with
      | ok b q =>
          rw [last] at there
          exact ⟨there.1.trans here.1, there.2⟩
      | error stop q =>
          rw [last] at there
          cases stop with
          | fault d => exact ⟨there.1.trans here.1, there.2⟩
          | overlong | exhausted => trivial
  | error stop r =>
      rw [found] at here
      cases stop <;> exact here

theorem bind {x : Parser α} {k : α → Parser β} (hx : Blames s row known x noTokens)
    (hk : ∀ a, Blames s row known (k a) marks) : Blames s row known (x >>= k) marks :=
  bindHanding hx hk

/-- A rule behind one that only looks at the tokens. -/
theorem look {x : Parser α} {k : α → Parser β} (hx : ∀ p, ∃ a, x s p = .ok a p)
    (hk : ∀ a, Blames s row known (k a) marks) : Blames s row known (x >>= k) marks := by
  refine bind (of_stays fun p => ?_) hk
  obtain ⟨a, seen⟩ := hx p
  exact ⟨a, seen, List.nil_subset known⟩

/-- The token at the front is seen. -/
theorem current {k : Token → Parser β} (hk : ∀ t, Blames s row (t :: known) (k t) marks) :
    Blames s row known (current >>= k) marks := by
  intro p hp seen
  rw [current_bind]
  refine hk _ p hp fun t ht => ?_
  rcases List.mem_cons.1 ht with rfl | ht
  · exact Setting.seen_front hp
  · exact seen t ht

theorem nextIs (m : Punctuator) {k : Bool → Parser β} (hk : ∀ b, Blames s row known (k b) marks) :
    Blames s row known (nextIs m >>= k) marks :=
  look (fun _ => ⟨_, nextIs_eq_ok_iff.2 ⟨rfl, rfl⟩⟩) hk

theorem ahead (distance : Nat) {k : Token → Parser β}
    (hk : ∀ t, Blames s row known (k t) marks) :
    Blames s row known (ahead distance >>= k) marks :=
  look (fun _ => ⟨_, rfl⟩) hk

theorem atEnd {k : Bool → Parser β} (hk : ∀ b, Blames s row known (k b) marks) :
    Blames s row known (atEnd >>= k) marks :=
  look (fun _ => ⟨_, rfl⟩) hk

theorem ite {c : Prop} [Decidable c] {x y : Parser β} (hx : Blames s row known x marks)
    (hy : Blames s row known y marks) : Blames s row known (if c then x else y) marks := by
  split
  · exact hx
  · exact hy

/-! ### Faults -/

/-- A fault at a token that is known. -/
theorem fail (fault : Fault) (h : t ∈ known) :
    Blames s row known (fail fault t : Parser β) marks :=
  fun p _ seen => ⟨List.suffix_refl p.rest, .inr ⟨t, seen t h, rfl⟩⟩

/-- Behind a fault nothing is read. -/
theorem failBind (fault : Fault) (h : t ∈ known) (k : α → Parser β) :
    Blames s row known (Parser.fail fault t >>= k) marks :=
  fun p _ seen => ⟨List.suffix_refl p.rest, .inr ⟨t, seen t h, rfl⟩⟩

theorem missing (expected : String) :
    Blames s row known (missing expected : Parser β) marks :=
  current fun _ => fail _ (List.mem_cons_self ..)

theorem unexpected (expected : String) :
    Blames s row known (unexpected expected : Parser β) marks :=
  current fun _ => fail _ (List.mem_cons_self ..)

/-- A fault that has no place is left to the rules around it. -/
theorem ofExcept (result : Except Fault β) : Blames s row known (ofExcept result) noTokens := by
  cases result with
  | ok b => exact done
  | error fault => exact fun p _ _ => ⟨List.suffix_refl p.rest, .inl rfl⟩

/-- **In a rule that is given a place every fault has one.** -/
theorem placed {x : Parser β} (hx : Blames s row known x marks) (h : t ∈ known)
    (hp : p.rest <:+ row) (seen : ∀ t ∈ known, s.Seen row p t) {d : Diagnostic}
    (stopped : locatedAt t x s p = .error (.fault d) q) :
    q.rest <:+ p.rest ∧ ∃ u, s.Seen row q u ∧ d = s.blame d.fault u := by
  have here := hx p hp seen
  unfold Parser.locatedAt at stopped
  cases found : x s p with
  | ok b r => simp [found] at stopped
  | error stop r =>
      rw [found] at here stopped
      cases stop with
      | overlong | exhausted => cases stopped
      | fault e =>
          cases stopped
          obtain ⟨goesOn, none | ⟨u, known', same⟩⟩ := here
          · rw [none, Setting.locate_ofFault]
            exact ⟨goesOn, t, (seen t h).mono goesOn, rfl⟩
          · rw [same, Diagnostic.locate_of_isSome rfl]
            exact ⟨goesOn, u, known', rfl⟩

theorem locatedAt {x : Parser β} (hx : Blames s row known x marks) (h : t ∈ known) :
    Blames s row known (locatedAt t x) marks := by
  intro p hp seen
  have here := hx p hp seen
  cases found : Parser.locatedAt t x s p with
  | ok b q =>
      rw [locatedAt_eq_ok_iff.1 found] at here
      exact here
  | error stop q =>
      cases stop with
      | fault d =>
          obtain ⟨goesOn, put⟩ := hx.placed h hp seen found
          exact ⟨goesOn, .inr put⟩
      | overlong | exhausted => trivial

/-- A rule behind a check that may stop the reading. -/
theorem checked {c : Prop} [Decidable c] {check : Parser Unit} {x : Parser β}
    (hc : Blames s row known check noTokens) (hx : Blames s row known x marks) :
    Blames s row known (if c then check >>= fun _ => x else x) marks :=
  ite (bind hc fun _ => hx) hx

/-- A rule in front of which something must hold, or the reading stops. -/
theorem required {c : Prop} [Decidable c] {check : Parser Unit} {x : Parser β}
    (hx : Blames s row known x marks) (hc : Blames s row known check noTokens) :
    Blames s row known (if c then x else check >>= fun _ => x) marks :=
  ite hx (bind hc fun _ => hx)

/-! ### Reading a token -/

theorem advance : Blames s row known advance noTokens :=
  fun p _ _ => ⟨List.tail_suffix p.rest, fun _ none => absurd none List.not_mem_nil⟩

theorem note (name : String) : Blames s row known (note name) noTokens :=
  fun p _ _ => ⟨List.suffix_refl p.rest, fun _ none => absurd none List.not_mem_nil⟩

theorem acceptLexeme (l : Lexeme) : Blames s row known (acceptLexeme l) noTokens :=
  current fun _ => ite (bind advance fun _ => done) done

theorem accept (m : Punctuator) : Blames s row known (accept m) noTokens := acceptLexeme _

theorem expectAs (m : Punctuator) (expected : String) :
    Blames s row known (expectAs m expected) noTokens :=
  bind (accept m) fun _ => ite done (missing expected)

theorem expect (m : Punctuator) : Blames s row known (expect m) noTokens := expectAs m _

theorem identifier (expected : String) : Blames s row known (identifier expected) noTokens := by
  refine current fun t => ?_
  split
  · exact bind advance fun _ => done
  · exact missing expected

/-! ### Recursion and repetition -/

theorem exhausted : Blames s row known (exhausted : Parser β) marks := fun _ _ _ => trivial

theorem budgeted {x : Nat → Parser β} (hx : ∀ n, Blames s row known (x n) marks) :
    Blames s row known (budgeted x) marks :=
  fun p => hx (p.rest.length + 1) p

/-- The tokens that a turn of a loop hands on with its value. -/
def turnMarks (marks : β → List Token) : ForInStep β → List Token
  | .done b | .yield b => marks b

/-- A loop whose value hands on tokens, those of its start being known. -/
theorem loop {step : β → Parser (ForInStep β)} {marks : β → List Token}
    (h : ∀ b, Blames s row (marks b ++ known) (step b) (turnMarks marks)) {b : β}
    (start : marks b ⊆ known) : Blames s row known (loop step b) marks := by
  refine budgeted fun n => ?_
  have all (n : Nat) (b : β) : Blames s row (marks b ++ known) (iterate step n b) marks := by
    induction n generalizing b with
    | zero => exact exhausted
    | succ n ih =>
        refine bindHanding (h b) fun turn => ?_
        cases turn with
        | done c => exact pure fun t ht => List.mem_append_left _ ht
        | yield c =>
            refine (ih c).mono ?_ fun _ => List.Subset.refl _
            exact List.append_subset.2 ⟨List.subset_append_left ..,
              List.subset_append_of_subset_right _ (List.subset_append_right ..)⟩
  exact (all n b).mono (List.append_subset.2 ⟨start, List.Subset.refl _⟩) fun _ =>
    List.Subset.refl _

/-- A loop whose value hands on no tokens. -/
theorem loopPlain {step : β → Parser (ForInStep β)}
    (h : ∀ b, Blames s row known (step b) noTokens) (b : β) :
    Blames s row known (Parser.loop step b) noTokens := by
  refine loop (fun b => (h b).mono (List.subset_append_right ..) fun turn => ?_)
    (List.nil_subset known)
  cases turn <;> exact List.nil_subset _

theorem moreAfterCommas {item : Parser β} (h : Blames s row known item noTokens)
    (found : List β) : Blames s row known (moreAfterCommas item found) noTokens := by
  refine loopPlain (fun found => bind (accept _) fun more => ite ?_ done) found
  exact bind h fun _ => done

theorem commaSeparated {item : Parser β} (h : Blames s row known item noTokens) :
    Blames s row known (commaSeparated item) noTokens :=
  bind h fun _ => moreAfterCommas h _

end Blames

end Parser

end PlainC
