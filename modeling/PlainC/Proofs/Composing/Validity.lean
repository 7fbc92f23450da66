/-
**Compositions are valid at every depth.**

If a composition is evaluated and none of its operations fails, everything in the value stands in a
slot that admits it, however deep it is.  An operation makes its value of what it is given and of
nothing else, so it is enough that each one checks its own slots.  Conversely, an operation fails
only because of something that does not fit one of its slots.

Main definitions:

* `PlainC.Maker.Makes` — what an operation makes of what it is given;
* `PlainC.Composition.Over` — a composition over given values of some sort.

Main results:

* `PlainC.Value.Valid.words_ne_nil`, `PlainC.Value.Valid.variable_named`,
  `PlainC.Value.Valid.function_named`, `PlainC.Value.Valid.members_named` — some of what validity
  asks for;
* `PlainC.Meets.exists_ok_iff` — an operation gives a value exactly if everything fits;
* `PlainC.Value.IsMade.valid`, `PlainC.Maker.valid_of_make` — what an operation makes of valid
  values is valid;
* `PlainC.Composition.Over.valid` — **what a composition over valid values gives is valid**;
* `PlainC.Composition.evaluate_valid` — **compositions are valid at every depth, and fail only by
  what does not fit**.
-/

import PlainC.Proofs.Composing.Making

set_option relaxedAutoImplicit false
set_option autoImplicit false

namespace PlainC

variable {v w : Value} {m : Maker} {slots : List Slot} {parts : List Part} {given : List Value}

/-! ### Valid values -/

namespace Value

theorem valid_iff : v.Valid ↔ v.IsWellMade ∧ ∀ w ∈ v.inner, w.Valid :=
  ⟨fun ⟨made, inner⟩ => ⟨made, inner⟩, fun ⟨made, inner⟩ => ⟨made, inner⟩⟩

/-- A value without parts that is just given is valid. -/
theorem valid_of_given (given : v.maker? = none) (inner : v.inner = []) : v.Valid := by
  refine valid_iff.2 ⟨?_, by simp [inner]⟩
  cases v with
  | shape s => cases s <;> cases given
  | node | typeWord | specifier | layer | resolved | assignment => cases given
  | _ => exact .nil

theorem valid_list {vs : List Value} (all : ∀ v ∈ vs, v.Valid) : (list vs).Valid :=
  valid_iff.2 ⟨.nil, all⟩

/-- Every shape is valid, since no size is negative. -/
theorem valid_shape (s : Shape) : (shape s).Valid := by
  induction s with
  | plain | unspecified => exact valid_iff.2 ⟨.nil, by simp [inner, parts, Shape.parts]⟩
  | pointer target ih =>
      refine valid_iff.2 ⟨.cons rfl .nil, ?_⟩
      simpa [inner, parts, Shape.parts, Part.values] using ih
  | array element size ih =>
      have valid : (ofOption ofCount size).Valid := by
        cases size <;> exact valid_of_given rfl rfl
      refine valid_iff.2 ⟨.cons rfl (.cons ?_ .nil), ?_⟩
      · cases size <;> simp [ofOption, ofCount, Slot.admits, isNothing, PartSort.holds]
      · simpa [inner, parts, Shape.parts, Part.values] using ⟨ih, valid⟩

/-! ### What validity asks for -/

/-- A valid specifier has a type word. -/
theorem Valid.words_ne_nil {s : Specifier String} (h : (specifier s).Valid) : s.words ≠ [] := by
  obtain ⟨_ | ⟨-, _ | ⟨-, _ | ⟨words, -⟩⟩⟩, -⟩ := valid_iff.1 h
  simpa [Slot.admits, PartSort.holds] using words

/-- A valid variable has a name. -/
theorem Valid.variable_named {u : Variable String} (h : (ofVariable u).Valid) :
    u.declaration.isAbstract = false := by
  obtain ⟨_ | ⟨named, -⟩, -⟩ := valid_iff.1 h
  simpa [Slot.admits, PartSort.holds, ofDeclaration] using named

/-- A valid function has a name. -/
theorem Valid.function_named {f : Function String} (h : (ofUnit (.function f)).Valid) :
    f.declaration.isAbstract = false := by
  obtain ⟨_ | ⟨named, -⟩, -⟩ := valid_iff.1 h
  simpa [Slot.admits, PartSort.holds, ofDeclaration] using named

/-- Every member of a valid struct has a name. -/
theorem Valid.members_named {u : Struct String} (h : (ofUnit (.struct u)).Valid) :
    ∀ d ∈ u.members, d.isAbstract = false := by
  obtain ⟨_ | ⟨-, _ | ⟨named, -⟩⟩, -⟩ := valid_iff.1 h
  simpa [Slot.admits, PartSort.holds, ofDeclaration] using named

/-! ### What is kept is valid -/

/-- What is kept of a valid value holds valid values only. -/
theorem valid_of_keeps {part : Part} {g : Value} (kept : part.Keeps g) (valid : g.Valid) :
    ∀ w ∈ part.values, w.Valid := by
  have members : ∀ vs, g.members = .ok vs → ∀ w ∈ vs, w.Valid := by
    intro vs same
    cases g with
    | list ws =>
        cases same
        exact (valid_iff.1 valid).2
    | text s =>
        cases same
        simp only [List.mem_map]
        rintro w ⟨c, -, rfl⟩
        exact valid_of_given rfl rfl
    | _ => cases same
  cases part with
  | value v =>
      obtain rfl : g = v := kept
      simpa [Part.values] using valid
  | row vs => exact members vs kept
  | set vs =>
      obtain ⟨ws, same, mem_iff⟩ := kept
      obtain ⟨us, row, kept⟩ := except_bind_eq_ok_iff.1 same
      obtain rfl : us = ws := by
        split at kept <;> cases kept
        rfl
      exact fun w hw => members us row w ((mem_iff w).2 hw)
  | foreign | assignment | mark => simp [Part.values]

theorem exists_keeps (kept : List.Forall₂ Part.Keeps parts given) :
    ∀ part ∈ parts, ∃ g ∈ given, part.Keeps g := by
  induction kept with
  | nil => simp
  | cons kept _ ih =>
      refine List.forall_mem_cons.2 ⟨⟨_, List.mem_cons_self .., kept⟩, fun part hp => ?_⟩
      obtain ⟨g, hg, kept⟩ := ih part hp
      exact ⟨g, List.mem_cons_of_mem _ hg, kept⟩

/-- What is in a value that an operation makes is in something that it was given. -/
theorem IsMade.valid_of_mem_inner (made : v.IsMade m given) (all : ∀ g ∈ given, g.Valid) :
    ∀ w ∈ v.inner, w.Valid := by
  intro w hw
  have inner : v.inner = v.parts.flatMap Part.values := by
    cases v with
    | list vs => cases made.maker
    | _ => rfl
  rw [inner] at hw
  obtain ⟨part, hp, hw⟩ := List.mem_flatMap.1 hw
  obtain ⟨g, hg, kept⟩ := exists_keeps made.keeps part hp
  exact valid_of_keeps kept (all g hg) w hw

/-- What is kept of what fits the slots is admitted by them. -/
theorem admits_of_keeps (suited : List.Forall₂ (fun s p => s.suits p) slots parts)
    (kept : List.Forall₂ Part.Keeps parts given) (fits : List.Forall₂ Slot.Fits slots given) :
    List.Forall₂ (fun s p => s.admits p) slots parts := by
  induction suited generalizing given with
  | nil => exact .nil
  | cons suited _ ih =>
      cases kept with
      | cons kept keptRest =>
          cases fits with
          | cons fits fitsRest =>
              exact .cons (Slot.admits_of_keeps suited kept fits) (ih keptRest fitsRest)

/-- What an operation makes of valid values that fit its slots is valid. -/
theorem IsMade.valid (made : v.IsMade m given) (all : ∀ g ∈ given, g.Valid)
    (fits : List.Forall₂ Slot.Fits (m.slotsFor given) given) : v.Valid := by
  refine valid_iff.2 ⟨?_, made.valid_of_mem_inner all⟩
  have suited := suits_parts v
  unfold IsWellMade
  rw [made.slots] at suited ⊢
  exact admits_of_keeps suited made.keeps fits

/-- The size of a valid type or expression is valid. -/
theorem IsSizeOf.valid {declaration expression : Value} (sized : v.IsSizeOf declaration expression)
    (hd : declaration.Valid) (he : expression.Valid) : v.Valid := by
  obtain ⟨d, rfl, -, rfl⟩ | ⟨e, -, rfl, rfl⟩ := sized
  · have operand : (node (.operand (.type d))).Valid :=
      valid_iff.2 ⟨.cons rfl .nil, by simpa [inner, parts, Node.parts, Part.values] using hd⟩
    exact valid_iff.2 ⟨.cons rfl .nil,
      by simpa [ofExpr, inner, parts, Node.parts, Expr.parts, ofSize, Part.values] using operand⟩
  · have operand : (node (.operand (.expression e))).Valid :=
      valid_iff.2 ⟨.cons rfl .nil, by simpa [inner, parts, Node.parts, Part.values] using he⟩
    exact valid_iff.2 ⟨.cons rfl .nil,
      by simpa [ofExpr, inner, parts, Node.parts, Expr.parts, ofSize, Part.values] using operand⟩

end Value

/-! ### Operations -/

/-- An operation gives a value exactly if everything fits. -/
theorem Meets.exists_ok_iff {whole : Value → Prop} {x : Except Flaw Value}
    (meets : Meets slots given whole x) :
    (∃ v, x = .ok v) ↔ List.Forall₂ Slot.Fits slots given := by
  constructor
  · rintro ⟨v, same⟩
    exact (meets.ok v same).1
  · intro fits
    cases same : x with
    | ok v => exact ⟨v, rfl⟩
    | error flaw =>
        obtain ⟨p, hp, refuses⟩ := meets.error flaw same
        exact absurd ((List.forall₂_iff_zip.1 fits).2 hp) refuses.not_fits

/-- What is put together from a row of layers is a shape. -/
theorem Compose.exists_of_shapeOfRow {row : Value} (same : shapeOfRow row = .ok v) :
    ∃ s, v = .shape s := by
  obtain ⟨vs, -, same⟩ := except_bind_eq_ok_iff.1 same
  obtain ⟨s, -, same⟩ := except_bind_eq_ok_iff.1 same
  cases same
  exact ⟨s, rfl⟩

namespace Maker

/-- What stands for a field that is not given is valid. -/
theorem valid_of_mem_defaults (m : Maker) : ∀ d ∈ m.defaults, d.Valid := by
  have nothing : Value.nothing.Valid := Value.valid_of_given rfl rfl
  have falsehood : (Value.bool false).Valid := Value.valid_of_given rfl rfl
  have assign : (Value.member (.assignOp .plain)).Valid := Value.valid_of_given rfl rfl
  have empty : (Value.list []).Valid := Value.valid_of_given rfl rfl
  have plain := Value.valid_shape .plain
  cases m with
  | tree kind => cases kind <;> simp [defaults, treeDefaults, treeFields, *]
  | _ => simp [defaults, *]

/-- An operation that is given valid values has valid values for its slots. -/
theorem valid_of_mem_arguments (m : Maker) {fields : List (String × Value)}
    (all : ∀ p ∈ fields, p.2.Valid) : ∀ g ∈ m.arguments fields, g.Valid := by
  intro g hg
  rw [arguments, ← List.map_uncurry_zip_eq_zipWith] at hg
  obtain ⟨⟨name, d⟩, hd, rfl⟩ := List.mem_map.1 hg
  have absent := m.valid_of_mem_defaults d (List.of_mem_zip hd).2
  show (field fields name d).Valid
  unfold field
  cases found : fields.lookup name with
  | none => exact absent
  | some v =>
      obtain ⟨before, after, rfl, -⟩ := List.lookup_eq_some_iff.1 found
      exact all (name, v) (by simp)

/-- What an operation makes of valid values is valid. -/
theorem valid_of_make (m : Maker) {fields : List (String × Value)}
    (all : ∀ p ∈ fields, p.2.Valid) (same : m.make fields = .ok v) : v.Valid := by
  have arguments := m.valid_of_mem_arguments all
  by_cases single : m = .sizeOfEither
  · subst single
    obtain ⟨-, sized⟩ := (Compose.sizeOfEither_meets _ _).ok v same
    exact sized.valid (arguments _ (by simp [Maker.arguments, Maker.fields, defaults]))
      (arguments _ (by simp [Maker.arguments, Maker.fields, defaults]))
  by_cases noRow : m = .shapeOfRow
  · subst noRow
    obtain ⟨s, rfl⟩ := Compose.exists_of_shapeOfRow same
    exact Value.valid_shape s
  · have meets := m.make_meets fields single noRow
    obtain ⟨fits, made⟩ := meets.ok v same
    exact made.valid arguments fits

/-- What an operation makes of what it is given for its slots: a value with the given parts, or the
size of what is given. -/
def Makes (m : Maker) (given : List Value) (v : Value) : Prop :=
  match m, given with
  | sizeOfEither, [declaration, expression] => v.IsSizeOf declaration expression
  | _, _ => v.IsMade m given

/-- An operation meets its slots. -/
theorem meets (m : Maker) (fields : List (String × Value)) (noRow : m ≠ .shapeOfRow) :
    Meets (m.slotsFor (m.arguments fields)) (m.arguments fields) (m.Makes (m.arguments fields))
      (m.make fields) := by
  by_cases single : m = .sizeOfEither
  · subst single
    exact Compose.sizeOfEither_meets ..
  · have makes : m.Makes (m.arguments fields) = (·.IsMade m (m.arguments fields)) := by
      cases m <;> first | rfl | exact absurd rfl single
    rw [makes]
    exact m.make_meets fields single noRow

end Maker

/-! ### Compositions -/

namespace Composition

/-- A composition over given values of some sort. -/
inductive Over (given : Value → Prop) : Composition → Prop
  | value {v : Value} : given v → Over given (.value v)
  | list {cs : List Composition} : (∀ c ∈ cs, Over given c) → Over given (.list cs)
  | make {m : Maker} {fields : List String} {cs : List Composition} :
      (∀ c ∈ cs, Over given c) → Over given (.make m fields cs)

/-- What some compositions give comes from one of them each. -/
theorem exists_of_mem_evaluateAll {cs : List Composition} {vs : List Value}
    (same : evaluateAll cs = .ok vs) : ∀ v ∈ vs, ∃ c ∈ cs, c.evaluate = .ok v := by
  induction cs generalizing vs with
  | nil =>
      cases same
      simp
  | cons c cs ih =>
      obtain ⟨w, first, same⟩ := except_bind_eq_ok_iff.1 same
      obtain ⟨ws, more, same⟩ := except_bind_eq_ok_iff.1 same
      cases same
      refine List.forall_mem_cons.2 ⟨⟨c, List.mem_cons_self .., first⟩, fun v hv => ?_⟩
      obtain ⟨c', hc, gives⟩ := ih more v hv
      exact ⟨c', List.mem_cons_of_mem _ hc, gives⟩

/-- **What a composition over valid values gives is valid.** -/
theorem Over.valid {c : Composition} (built : c.Over Value.Valid) (same : c.evaluate = .ok v) :
    v.Valid := by
  induction built generalizing v with
  | value valid =>
      cases same
      exact valid
  | @list cs _ ih =>
      unfold evaluate at same
      obtain ⟨vs, given, same⟩ := except_bind_eq_ok_iff.1 same
      cases same
      refine Value.valid_list fun w hw => ?_
      obtain ⟨c, hc, gives⟩ := exists_of_mem_evaluateAll given w hw
      exact ih c hc gives
  | @make m fields cs _ ih =>
      unfold evaluate at same
      obtain ⟨vs, given, same⟩ := except_bind_eq_ok_iff.1 same
      refine m.valid_of_make (fun p hp => ?_) same
      obtain ⟨c, hc, gives⟩ := exists_of_mem_evaluateAll given p.2 (List.of_mem_zip hp).2
      exact ih c hc gives

/-- **Compositions are valid at every depth.**  Whatever is given is put together to a valid value
or not at all.  A single operation gives a value exactly if everything that it is given fits its
slots, and the value keeps all of it; if it fails, it is because of something that a slot
refuses. -/
theorem evaluate_valid :
    (∀ (c : Composition) (v : Value), c.Over Value.Valid → c.evaluate = .ok v → v.Valid) ∧
      ∀ (m : Maker) (fields : List (String × Value)), m ≠ .shapeOfRow →
        ((∃ v, m.make fields = .ok v) ↔
            List.Forall₂ Slot.Fits (m.slotsFor (m.arguments fields)) (m.arguments fields)) ∧
          (∀ v, m.make fields = .ok v → m.Makes (m.arguments fields) v) ∧
          ∀ flaw, m.make fields = .error flaw →
            ∃ p ∈ (m.slotsFor (m.arguments fields)).zip (m.arguments fields),
              p.1.Refuses p.2 flaw := by
  refine ⟨fun c v built same => built.valid same, fun m fields noRow => ?_⟩
  have meets := m.meets fields noRow
  exact ⟨meets.exists_ok_iff, fun v same => (meets.ok v same).2, meets.error⟩

/-- How `return -1;` is put together from an operator, a kind of literal and a number. -/
def returnNegative : Composition :=
  .apply (.tree .returnWith)
    [.apply (.tree .unary)
      [.value (.member (.unaryOp .negate)),
       .apply (.tree .literal) [.value (.member (.literal .int)), .value (.int 1)] []] []] []

/-- `return -1;` is valid at every depth, and a truth value is no literal of a number. -/
theorem evaluate_valid_returnNegative :
    returnNegative.evaluate
        = .ok (.ofStmt (.returnWith (some (.unary .negate (.literal (.int 1)))))) ∧
      (Value.ofStmt (.returnWith (some (.unary .negate (.literal (.int 1)))))).Valid ∧
      ¬ ∃ v, (Maker.tree .literal).make
        [("kind", .member (.literal .int)), ("value", .bool true)] = .ok v := by
  have atom : ∀ {v : Value}, v.maker? = none → v.inner = [] → Over Value.Valid (.value v) :=
    fun plain empty => .value (Value.valid_of_given plain empty)
  have built : returnNegative.Over Value.Valid := by
    refine .make (List.forall_mem_singleton.2 (.make (List.forall_mem_cons.2 ⟨atom rfl rfl, ?_⟩)))
    refine List.forall_mem_singleton.2 (.make (List.forall_mem_cons.2 ⟨atom rfl rfl, ?_⟩))
    exact List.forall_mem_singleton.2 (atom rfl rfl)
  refine ⟨rfl, evaluate_valid.1 returnNegative _ built rfl, fun made => ?_⟩
  obtain _ | ⟨-, _ | ⟨value, -⟩⟩ := ((evaluate_valid.2 _ _ (by simp)).1).1 made
  exact absurd (Slot.fits_one.1 value) (by decide)

end Composition

end PlainC
