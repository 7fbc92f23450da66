/-
**Checks of slots.**

An operation looks at what it is given slot by slot.  If everything fits, it gives a value; if not,
it fails, and blames something that does not fit.  Both are said of an operation at once, so that
they can be proved check by check: a check is about one slot, and a check in front of the rest of an
operation puts its slot in front of the other slots.

Main definitions:

* `PlainC.Reads`, `PlainC.Decides` — how a value is read as a part of a sort, and a check that does
  so;
* `PlainC.Checks` — a check of one slot;
* `PlainC.Meets` — an operation that gives a value exactly if its slots are filled.

Main results:

* `PlainC.Meets.bind` — a check in front of the rest of an operation;
* `PlainC.Reads.require`, `PlainC.Reads.requireOptional`, `PlainC.Reads.requireAll` — the checks of
  one part, of a part that may be absent, and of a row of parts.
-/

import PlainC.Proofs.Composing.Slot
import PlainC.Proofs.Failing

set_option relaxedAutoImplicit false
set_option autoImplicit false

namespace PlainC

variable {α : Type} {given : Value} {slot : Slot} {slots : List Slot} {rest : List Value}
variable {whole : Value → Prop} {sort : PartSort} {as : Value → Option α}

/-! ### Checks and operations -/

/-- A check of a slot: if it succeeds, what is given fits and `found` holds of what it gives; if
not, the slot refuses what is given. -/
structure Checks (slot : Slot) (given : Value) (found : α → Prop) (x : Except Flaw α) : Prop where
  ok : ∀ a, x = .ok a → slot.Fits given ∧ found a
  error : ∀ flaw, x = .error flaw → slot.Refuses given flaw

theorem Checks.of_ok {found : α → Prop} {x : Except Flaw α} {a : α} (same : x = .ok a)
    (fits : slot.Fits given) (h : found a) : Checks slot given found x := by
  subst same
  exact ⟨by rintro b ⟨⟩; exact ⟨fits, h⟩, by rintro flaw ⟨⟩⟩

theorem Checks.of_error {found : α → Prop} {x : Except Flaw α} {flaw : Flaw}
    (same : x = .error flaw) (refuses : slot.Refuses given flaw) : Checks slot given found x := by
  subst same
  exact ⟨by rintro b ⟨⟩, by rintro flaw ⟨⟩; exact refuses⟩

/-- An operation on what is given for some slots: if it gives a value, everything fits and `whole`
holds of the value; if not, some slot refuses what is given for it. -/
structure Meets (slots : List Slot) (given : List Value) (whole : Value → Prop)
    (x : Except Flaw Value) : Prop where
  ok : ∀ v, x = .ok v → List.Forall₂ Slot.Fits slots given ∧ whole v
  error : ∀ flaw, x = .error flaw → ∃ p ∈ slots.zip given, p.1.Refuses p.2 flaw

namespace Meets

/-- An operation without slots gives its value. -/
theorem done {v : Value} (h : whole v) : Meets [] [] whole (.ok v) where
  ok := by
    rintro w ⟨⟩
    exact ⟨.nil, h⟩
  error := by rintro flaw ⟨⟩

/-- A slot that refuses what is given. -/
theorem refused {flaw : Flaw} (h : slot.Refuses given flaw) :
    Meets (slot :: slots) (given :: rest) whole (.error flaw) where
  ok := by rintro v ⟨⟩
  error := by
    rintro flaw ⟨⟩
    exact ⟨(slot, given), List.mem_cons_self .., h⟩

/-- A slot further on that refuses what is given. -/
theorem refused_later {flaw : Flaw} (h : Meets slots rest whole (.error flaw)) :
    Meets (slot :: slots) (given :: rest) whole (.error flaw) where
  ok := by rintro v ⟨⟩
  error := fun flaw same => by
    obtain ⟨p, hp, refuses⟩ := h.error flaw same
    exact ⟨p, List.mem_cons_of_mem _ hp, refuses⟩

/-- A slot that is filled leaves the other slots. -/
theorem filled {x : Except Flaw Value} (h : slot.Fits given) (others : Meets slots rest whole x) :
    Meets (slot :: slots) (given :: rest) whole x := by
  cases x with
  | error flaw => exact refused_later others
  | ok v =>
      obtain ⟨fits, made⟩ := others.ok v rfl
      exact ⟨by rintro w ⟨⟩; exact ⟨.cons h fits, made⟩, by rintro flaw ⟨⟩⟩

/-- A check in front of the rest of an operation. -/
theorem bind {found : α → Prop} {x : Except Flaw α} {f : α → Except Flaw Value}
    (check : Checks slot given found x) (next : ∀ a, found a → Meets slots rest whole (f a)) :
    Meets (slot :: slots) (given :: rest) whole (x >>= f) := by
  cases same : x with
  | error flaw => exact refused (check.error flaw same)
  | ok a =>
      obtain ⟨fits, h⟩ := check.ok a same
      exact filled fits (next a h)

end Meets

/-! ### Parts of a sort -/

/-- Values are read as the parts of a sort: exactly the values of the sort can be read, and `found`
holds of what is read and the value. -/
def Reads (sort : PartSort) (as : Value → Option α) (found : α → Value → Prop) : Prop :=
  ∀ v, match as v with
    | some a => sort.holds v ∧ found a v
    | none => sort.holds v = false

/-- A check of single values that accepts exactly those of a sort; the others are misfits. -/
def Decides (sort : PartSort) (found : α → Value → Prop) (check : Value → Except Flaw α) : Prop :=
  ∀ v, (∃ a, check v = .ok a ∧ sort.holds v ∧ found a v) ∨
    ∃ misfit, check v = .error (.fault (.misfit misfit)) ∧ sort.holds v = false

/-- The check of a single value is the check of a slot for one part. -/
theorem Decides.checks {found : α → Value → Prop} {check : Value → Except Flaw α}
    (decides : Decides sort found check) (given : Value) :
    Checks (.one sort) given (found · given) (check given) := by
  obtain ⟨a, same, holds, read⟩ | ⟨misfit, same, holds⟩ := decides given
  · exact .of_ok same (Slot.fits_one.2 holds) read
  · exact .of_error same (.of_not_holds holds)

/-- Values in a row are accepted if all are of the sort; otherwise one of them is a misfit. -/
theorem Decides.mapM {found : α → Value → Prop} {check : Value → Except Flaw α}
    (decides : Decides sort found check) (vs : List Value) :
    (∃ as, vs.mapM check = .ok as ∧ (∀ v ∈ vs, sort.holds v) ∧
        List.Forall₂ (fun v a => found a v) vs as) ∨
      ∃ misfit, vs.mapM check = .error (.fault (.misfit misfit)) ∧ vs.all sort.holds = false := by
  induction vs with
  | nil => exact .inl ⟨[], rfl, by simp, .nil⟩
  | cons v vs ih =>
      rw [List.mapM_cons]
      obtain ⟨a, first, holds, read⟩ | ⟨misfit, first, holds⟩ := decides v
      · obtain ⟨as, more, all, each⟩ | ⟨misfit, more, some'⟩ := ih
        · exact .inl ⟨a :: as, by rw [first, more]; rfl, List.forall_mem_cons.2 ⟨holds, all⟩,
            .cons read each⟩
        · exact .inr ⟨misfit, by rw [first, more]; rfl, by simp [some']⟩
      · exact .inr ⟨misfit, by rw [first]; rfl, by simp [holds]⟩

theorem eq_map_of_forall₂ {embed : α → Value} {vs : List Value} {found : List α}
    (each : List.Forall₂ (fun v a => v = embed a) vs found) : vs = found.map embed := by
  rwa [← List.forall₂_eq_eq_eq, List.forall₂_map_right_iff]

namespace Reads

variable {found : α → Value → Prop} {embed : α → Value}

/-- A check that reads a value as a part, and gives a misfit where it cannot. -/
theorem decides (reads : Reads sort as found) {check : Value → Except Flaw α}
    (read : ∀ v a, as v = some a → check v = .ok a)
    (unread : ∀ v, as v = none → ∃ misfit, check v = .error (.fault (.misfit misfit))) :
    Decides sort found check := by
  intro v
  have h := reads v
  cases same : as v with
  | some a =>
      rw [same] at h
      exact .inl ⟨a, read v a same, h⟩
  | none =>
      rw [same] at h
      obtain ⟨misfit, failed⟩ := unread v same
      exact .inr ⟨misfit, failed, h⟩

theorem decides_require (reads : Reads sort as found) (role : String) :
    Decides sort found (Value.require as role) :=
  reads.decides (fun v a h => by simp [Value.require, h])
    (fun v h => ⟨.kindOfPart role v.kindName, by simp [Value.require, h, misfit]⟩)

theorem decides_group (reads : Reads sort as found) (role : String) (vs : List Value) :
    (∃ as', Compose.group as role vs = .ok as' ∧ (∀ v ∈ vs, sort.holds v) ∧
        List.Forall₂ (fun v a => found a v) vs as') ∨
      ∃ misfit, Compose.group as role vs = .error (.fault (.misfit misfit)) ∧
        vs.all sort.holds = false :=
  Decides.mapM (reads.decides (fun v a h => by simp [h])
    (fun v h => ⟨.groupMember role v.kindName, by simp [h, misfit]⟩)) vs

/-- The check of the members of a set. -/
theorem group (reads : Reads sort as found) (role : String) {vs : List Value}
    (members : given.setMembers = .ok vs) :
    Checks (.group sort) given (List.Forall₂ (fun v a => found a v) vs)
      (Compose.group as role vs) := by
  obtain ⟨found, same, all, each⟩ | ⟨misfit, same, some'⟩ := reads.decides_group role vs
  · exact .of_ok same (Slot.fits_group.2 ⟨vs, members, all⟩) each
  · exact .of_error same (.of_take (Slot.take_group members) some')

/-- The check of the members of a row that is not empty. -/
theorem filledGroup (reads : Reads sort as found) (role : String) {vs : List Value}
    (members : given.members = .ok vs) (filled : vs ≠ []) :
    Checks (.filledRow sort) given (List.Forall₂ (fun v a => found a v) vs)
      (Compose.group as role vs) := by
  obtain ⟨found, same, all, each⟩ | ⟨misfit, same, some'⟩ := reads.decides_group role vs
  · exact .of_ok same (Slot.fits_filledRow.2 ⟨vs, members, filled, all⟩) each
  · exact .of_error same (.of_take (Slot.take_filledRow members) (by simp [Slot.admits, some']))

/-- The check of one part. -/
theorem require (reads : Reads sort as found) (role : String) (given : Value) :
    Checks (.one sort) given (found · given) (given.require as role) :=
  (reads.decides_require role).checks given

/-- The check of a part that may be absent. -/
theorem requireOptional (reads : Reads sort as fun a v => v = embed a) (role : String)
    (given : Value) :
    Checks (.optional sort) given (fun a => given = .ofOption embed a)
      (given.requireOptional as role) := by
  by_cases absent : given = .nothing
  · subst absent
    exact .of_ok (a := none) rfl (Slot.fits_optional.2 (.inl rfl)) rfl
  · have present : given.requireOptional as role = (given.require as role).map some := by
      cases given <;> first | rfl | exact absurd rfl absent
    rw [present]
    obtain ⟨a, same, holds, read⟩ | ⟨misfit, same, holds⟩ := reads.decides_require role given
    · rw [same]
      exact .of_ok rfl (Slot.fits_optional.2 (.inr holds)) read
    · rw [same]
      refine .of_error rfl (.of_take rfl ?_)
      cases given <;> simp_all [Slot.admits, Value.isNothing]

/-- The check of a row of parts. -/
theorem requireAll (reads : Reads sort as fun a v => v = embed a) (role : String)
    (given : Value) :
    Checks (.row sort) given (fun found => given.members = .ok (found.map embed))
      (given.requireAll as role) := by
  cases members : given.members with
  | error flaw =>
      have same : given.requireAll as role = .error flaw := by
        simp [Value.requireAll, members, error_bind]
      exact .of_error same (.inl (by simp [Slot.take, members, Except.map]))
  | ok vs =>
      have same : given.requireAll as role = vs.mapM (Value.require as role) := by
        simp [Value.requireAll, members, ok_bind]
      rw [same]
      obtain ⟨found, same, all, each⟩ | ⟨misfit, same, some'⟩ :=
        (reads.decides_require role).mapM vs
      · exact .of_ok same (Slot.fits_row.2 ⟨vs, members, all⟩)
          (congrArg Except.ok (eq_map_of_forall₂ each))
      · exact .of_error same (.of_take (Slot.take_row members) some')

end Reads

end PlainC
