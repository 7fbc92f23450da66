/-
**The same run under other options and behind other names.**

A rule may be run again from the same tokens, with other options in force and with further names met
before.  Step for step the second run does what the first one does: it stops with the same fault or
comes to the recast result, it leaves the same tokens, and it notes the same names behind those that
were met before.

Main definitions:

* `PlainC.Progress.after` — a progress with further names met before;
* `PlainC.Parser.retell` — what the second run comes to;
* `PlainC.NameTable.program?` — what reading a row of tokens as a program comes to, together with
  the name table that it leaves.

Main results:

* `PlainC.Parser.Alike.retells` — **rules that are put together alike do the same**;
* `PlainC.Parser.program_retells` — a whole program is read as it was, and recast.
-/

import PlainC.Proofs.Comparison.Recasting
import PlainC.Source
import PlainC.Tree.Equality

set_option relaxedAutoImplicit false
set_option autoImplicit false

namespace PlainC

/-! ### The two runs -/

/-- The setting with other options. -/
def Setting.adjusted (s : Setting) (adjust : Options → Options) : Setting :=
  { s with options := adjust s.options }

/-- The progress of a run before which further names were met. -/
def Progress.after (first : List String) (p : Progress) : Progress :=
  { p with names := first ++ p.names }

@[simp] theorem Progress.rest_after (first : List String) (p : Progress) :
    (p.after first).rest = p.rest := rfl

namespace Parser

variable {α β γ δ : Type} {f : α → β} {g : γ → δ} {adjust : Options → Options}

/-- What a run comes to if its result is recast and further names were met before. -/
def retell (f : α → β) (first : List String) :
    EStateM.Result Stop Progress α → EStateM.Result Stop Progress β
  | .ok a p => .ok (f a) (p.after first)
  | .error stop p => .error stop (p.after first)

/-! ### The building blocks -/

theorem retell_bind {s : Setting} {first : List String} {x : Parser α} {y : Parser β}
    {k : α → Parser γ} {k' : β → Parser δ}
    (hx : ∀ p, y (s.adjusted adjust) (p.after first) = retell f first (x s p))
    (hk : ∀ a p, k' (f a) (s.adjusted adjust) (p.after first) = retell g first (k a s p))
    (p : Progress) :
    (y >>= k') (s.adjusted adjust) (p.after first) = retell g first ((x >>= k) s p) := by
  change EStateM.bind (y (s.adjusted adjust)) (fun b => k' b (s.adjusted adjust)) (p.after first) =
    retell g first (EStateM.bind (x s) (fun a => k a s) p)
  unfold EStateM.bind
  rw [hx]
  cases x s p with
  | ok a r => exact hk a r
  | error stop r => rfl

theorem retell_locatedAt {s : Setting} {first : List String} {x : Parser α} {y : Parser β}
    (hx : ∀ p, y (s.adjusted adjust) (p.after first) = retell f first (x s p)) (t : Token)
    (p : Progress) :
    locatedAt t y (s.adjusted adjust) (p.after first) = retell f first (locatedAt t x s p) := by
  unfold locatedAt
  rw [hx]
  cases x s p with
  | ok a r => rfl
  | error stop r => cases stop <;> rfl

/-- **Rules that are put together alike do the same.** -/
theorem Alike.retells {x : Parser α} {y : Parser β} (h : Alike adjust False f x y) (s : Setting)
    (first : List String) (p : Progress) :
    y (s.adjusted adjust) (p.after first) = retell f first (x s p) := by
  induction h generalizing p with
  | pure same => exact same ▸ rfl
  | bindMap _ _ first second => exact retell_bind first second p
  | beyond _ _ ih => exact ih _ _ p
  | outlasted more => cases more
  | note name => simp [Parser.note, retell, Progress.after]
  | locatedAt t _ ih => exact retell_locatedAt ih t p
  | budgeted _ ih => exact ih _ _ (Nat.le_refl _) (.inr rfl) p
  | _ => rfl

/-- What is read does not depend on the names that were met before. -/
theorem Alike.reads_after {x : Parser α} (h : Alike id False id x x) {s : Setting} {a : α}
    {ts rest : List Token} {names names' : List String}
    (read : x s ⟨ts, names⟩ = .ok a ⟨rest, names'⟩) (names₁ : List String) :
    ∃ names₂, x s ⟨ts, names₁⟩ = .ok a ⟨rest, names₂⟩ := by
  have told (names : List String) : x s ⟨ts, names⟩ = retell id names (x s ⟨ts, []⟩) := by
    have same := h.retells s names ⟨ts, []⟩
    rwa [Progress.after, List.append_nil] at same
  -- both runs are told by the one in front of which no names were met
  rw [told names] at read
  cases first : x s ⟨ts, []⟩ with
  | error stop q =>
      rw [first] at read
      cases read
  | ok b q =>
      rw [first] at read
      cases read
      exact ⟨_, by rw [told names₁, first]; rfl⟩

end Parser

/-! ### Programs -/

/-- The units with each statement in them recast, for a run before which further names were met. -/
def Units.retold (f : Stmt String → Stmt String) (first : List String) (u : Units) : Units :=
  ⟨u.completed.map (TopLevel.mapStmts f), u.stop, u.progress.after first⟩

/-- Units are read as they were, and recast. -/
theorem unitsWithin_retells (c : Recasting) (s : Setting) (first : List String) (n : Nat)
    (p : Progress) :
    unitsWithin (s.adjusted c.options) n (p.after first) =
      (unitsWithin s n p).retold c.stmt first := by
  induction n generalizing p with
  | zero => rfl
  | succ n ih =>
      have unit := ((Parser.unit_alike c id).locatedAt (p.rest.headD s.ending)).retells s first p
      unfold unitsWithin
      rw [Progress.rest_after, show (s.adjusted c.options).ending = s.ending from rfl, unit]
      by_cases empty : p.rest.isEmpty
      · rw [if_pos empty, if_pos empty]
        rfl
      rw [if_neg empty, if_neg empty]
      cases Parser.locatedAt (p.rest.headD s.ending) Parser.unit s p with
      | error stop r => rfl
      | ok units r =>
          simp only [Parser.retell, ih]
          simp [Units.retold]

/-- A whole program is read as it was, and recast. -/
theorem Parser.program_retells (c : Recasting) (s : Setting) (first : List String) (p : Progress) :
    program (s.adjusted c.options) (p.after first) =
      retell (Program.mapStmts c.stmt) first (program s p) := by
  unfold program units
  rw [Progress.rest_after, unitsWithin_retells]
  generalize unitsWithin s _ p = found
  rcases found with ⟨completed, _ | stop, progress⟩ <;> rfl

/-! ### Reading into a table -/

/-- What reading comes to can be compared. -/
instance decidableEqResult {ε α : Type} [DecidableEq ε] [DecidableEq α] : DecidableEq (Except ε α)
  | .ok a, .ok b => decidable_of_iff (a = b) (by simp)
  | .error e, .error d => decidable_of_iff (e = d) (by simp)
  | .ok _, .error _ => isFalse (by simp)
  | .error _, .ok _ => isFalse (by simp)

/-- What reading a row of tokens as a program comes to: the table that has taken in the names met,
and the program with the symbols of the table or the reason to stop.  The row must hold an end. -/
def NameTable.program? (t : NameTable) (file : String) (lines : List String) (options : Options)
    (tokens : List Token) : Option (NameTable × Except Stop (Program Symbol)) :=
  (Reader.ofTokens file lines options tokens).map fun r =>
    let (result, r') := r.call Parser.program
    Outcome.interned Program.map t ⟨result, r'.progress.names⟩

end PlainC
