/-
**Slots and their parts.**

Every operation that puts a value together has slots, and each slot says what may stand in it: a
part of one sort, one that may be absent, a row or a set of such parts, or anything.  The value that
comes out has its parts in the same slots.  So what it takes to be a valid value can be said once,
by a table of the slots of every operation, and for every depth at once.

A few slots accept what the language does not know, and a value then keeps of its part only what is
needed to list it; a set keeps its members without their order.

Main definitions:

* `PlainC.PartSort`, `PlainC.PartSort.holds` — the sorts of part, and which values are of a sort;
* `PlainC.Part`, `PlainC.Part.Keeps` — a part of a value, and what it was made from;
* `PlainC.Slot`, `PlainC.Slot.admits`, `PlainC.Slot.take`, `PlainC.Slot.Fits`,
  `PlainC.Slot.Refuses` — a slot, the parts that may stand in it, and how it takes what is given for
  it;
* `PlainC.Maker.slots`, `PlainC.Maker.arguments` — the slots of an operation, and what it is given
  for them;
* `PlainC.Value.maker?`, `PlainC.Value.parts` — the operation by which a value comes about, and its
  parts;
* `PlainC.Value.IsWellMade`, `PlainC.Value.Valid` — every part stands in a slot that admits it; and
  this at every depth.

Main results:

* `PlainC.Value.suits_parts` — the parts of a value are laid out as its slots are;
* `PlainC.Slot.admits_of_keeps` — what is kept of something that fits is admitted.
-/

import Mathlib.Data.List.Forall2
import PlainC.Composition

set_option relaxedAutoImplicit false
set_option autoImplicit false

namespace PlainC

/-! ### Sorts of part -/

/-- The sorts of part that a slot can ask for. -/
inductive PartSort where
  | expression | statement | block | unit | var | declaration | namedDeclaration | size
  | name | postfixOp | unaryOp | operator
  | literalKind | literalValue (kind : LiteralKind)
  | typeWord | storage | qualifier | specifier | shape | count
deriving Repr, DecidableEq

/-- Whether a value is of a sort.  A truth value is no number, and a count is not negative. -/
def PartSort.holds : PartSort → Value → Bool
  | expression => fun | .node (.expression _) => true | _ => false
  | statement => fun | .node (.statement _) => true | _ => false
  | block => fun | .node (.block _) => true | _ => false
  | unit => fun | .node (.unit _) => true | _ => false
  | var => fun | .node (.unit (.var _)) => true | _ => false
  | declaration => fun | .node (.declaration _) => true | _ => false
  | namedDeclaration => fun | .node (.declaration d) => !d.isAbstract | _ => false
  | size => fun | .node (.operand (.type _)) | .node (.operand (.expression _)) => true | _ => false
  | name => fun | .name _ => true | _ => false
  | postfixOp => fun | .member (.postfixOp _) => true | _ => false
  | unaryOp => fun | .member (.unaryOp _) => true | _ => false
  | operator => fun | .member (.binaryOp _) | .assignment _ => true | _ => false
  | literalKind => fun | .member (.literal _) => true | _ => false
  | literalValue .int | literalValue .char => fun | .int _ => true | _ => false
  | literalValue .double => fun | .double _ => true | _ => false
  | literalValue .string => fun | .text _ => true | _ => false
  | typeWord => fun | .typeWord _ => true | _ => false
  | storage => fun | .member .storage => true | _ => false
  | qualifier => fun | .member .qualifier => true | _ => false
  | specifier => fun | .specifier _ => true | _ => false
  | shape => fun | .shape _ => true | _ => false
  | count => fun | .int n => decide (0 ≤ n) | _ => false

/-- A declaration with a name is a declaration. -/
theorem PartSort.holds_declaration {v : Value} (h : namedDeclaration.holds v) :
    declaration.holds v := by
  cases v with
  | node tree => cases tree <;> simp_all [holds]
  | _ => cases h

/-! ### Parts -/

namespace Value

/-- Whether the value is nothing. -/
def isNothing : Value → Bool
  | nothing => true
  | _ => false

theorem isNothing_iff {v : Value} : v.isNothing ↔ v = nothing := by
  cases v <;> simp [isNothing]

/-- An expression as a value. -/
def ofExpr (e : Expr String) : Value := node (.expression e)

/-- A statement as a value. -/
def ofStmt (s : Stmt String) : Value := node (.statement s)

/-- A block as a value. -/
def ofBlock (b : Block String) : Value := node (.block b)

/-- A unit as a value. -/
def ofUnit (u : TopLevel String) : Value := node (.unit u)

/-- A variable as a value. -/
def ofVariable (v : Variable String) : Value := node (.unit (.var v))

/-- A declaration as a value. -/
def ofDeclaration (d : Declaration String) : Value := node (.declaration d)

/-- The operand of an expression that takes a size. -/
def ofSize : Expr String → Value
  | .sizeofType d => node (.operand (.type d))
  | .sizeofExpr e => node (.operand (.expression e))
  | _ => nothing

/-- A number that is not negative as a value. -/
def ofCount (n : Nat) : Value := int n

/-- The value of what may be absent. -/
def ofOption {α : Type} (embed : α → Value) : Option α → Value
  | none => nothing
  | some a => embed a

end Value

/-- A part of a value: a value, a row or a set of values, or what is kept of a part from outside the
language. -/
inductive Part where
  | value (v : Value)
  | row (vs : List Value)
  | set (vs : List Value)
  | foreign (part : Foreign)
  | assignment (part : Foreign)
  | mark (falsity : Falsity)

namespace Part

/-- A part keeps what it is made from: a value is itself, a row has the members that were given in
the given order, and a set has the members that were given. -/
def Keeps : Part → Value → Prop
  | value v, given => given = v
  | row vs, given => given.members = .ok vs
  | set vs, given => ∃ ws, given.setMembers = .ok ws ∧ ∀ w, w ∈ ws ↔ w ∈ vs
  | foreign part, given => given.asForeign = part
  | assignment part, given => ∃ op, given = .assignment op ∧ op.asForeign = part
  | mark falsity, given => given.falsity? = some falsity

/-- The values in a part. -/
def values : Part → List Value
  | value v => [v]
  | row vs | set vs => vs
  | foreign _ | assignment _ | mark _ => []

/-- The operator between two operands as a part. -/
def ofOperator : Operator → Part
  | .binary op => value (.member (.binaryOp op))
  | .assign op => value (.assignment (.member (.assignOp op)))
  | .foreign part => assignment part

end Part

/-- The kind of a type word and the name of a struct. -/
def TypeWord.parts : TypeWord String → List Part
  | .foreign part => [.foreign part, .value .nothing]
  | .struct tag => [.value (.member (.typeWord .struct)), .value (.name tag)]
  | .tagged tag => [.value (.member (.typeWord .struct)), .foreign tag]
  | .void => [.value (.member (.typeWord .void)), .value .nothing]
  | .char => [.value (.member (.typeWord .char)), .value .nothing]
  | .int => [.value (.member (.typeWord .int)), .value .nothing]
  | .long => [.value (.member (.typeWord .long)), .value .nothing]
  | .double => [.value (.member (.typeWord .double)), .value .nothing]
  | .signed => [.value (.member (.typeWord .signed)), .value .nothing]
  | .unsigned => [.value (.member (.typeWord .unsigned)), .value .nothing]

/-- The storage, the qualifiers and the type words. -/
def Specifier.parts (s : Specifier String) : List Part :=
  [.set (if s.isStatic then [.member .storage] else []),
   .set (if s.isConst then [.member .qualifier] else []),
   .row (s.words.map .typeWord)]

/-- What a shape is put around, and the size of an array. -/
def Shape.parts : Shape → List Part
  | .plain | .unspecified => []
  | .pointer target => [.value (.shape target)]
  | .array element size =>
      [.value (.shape element), .value (.ofOption .ofCount size)]

/-- The kind and the value of a literal. -/
def Literal.parts : Literal → List Part
  | .int n => [.value (.member (.literal .int)), .value (.int n)]
  | .double x => [.value (.member (.literal .double)), .value (.double x)]
  | .char code => [.value (.member (.literal .char)), .value (.int code)]
  | .string s => [.value (.member (.literal .string)), .value (.text s)]

/-- The parts of an expression. -/
def Expr.parts : Expr String → List Part
  | .blank => []
  | .literal l => l.parts
  | .var name => [.value (.name name)]
  | .sizeofType d => [.value (.ofSize (.sizeofType d))]
  | .sizeofExpr e => [.value (.ofSize (.sizeofExpr e))]
  | .parenthesized e => [.value (.ofExpr e)]
  | .postfixed op e => [.value (.member (.postfixOp op)), .value (.ofExpr e)]
  | .unary op e => [.value (.member (.unaryOp op)), .value (.ofExpr e)]
  | .binary op l r => [.ofOperator op, .value (.ofExpr l), .value (.ofExpr r)]
  | .call callee es => [.value (.name callee), .row (es.map .ofExpr)]
  | .index t i => [.value (.ofExpr t), .value (.ofExpr i)]
  | .member t name | .pointerMember t name => [.value (.ofExpr t), .value (.name name)]
  | .cast word e => [.value (.typeWord word), .value (.ofExpr e)]

/-- The parts of a statement. -/
def Stmt.parts : Stmt String → List Part
  | .blank | .breakLoop | .continueLoop => []
  | .expression e => [.value (.ofExpr e)]
  | .declaration v => [.value (.ofVariable v)]
  | .ifThen c t => [.value (.ofExpr c), .value (.ofStmt t), .value .nothing]
  | .ifElse c t e => [.value (.ofExpr c), .value (.ofStmt t), .value (.ofStmt e)]
  | .whileLoop c b => [.value (.ofExpr c), .value (.ofStmt b)]
  | .forLoop v c s b =>
      [.value (.ofOption .ofVariable v), .value (.ofOption .ofExpr c),
       .value (.ofOption .ofExpr s), .value (.ofStmt b)]
  | .returnWith e => [.value (.ofOption .ofExpr e)]
  | .block ss => [.value (.ofBlock ⟨ss⟩)]

/-- The parts of a unit. -/
def TopLevel.parts : TopLevel String → List Part
  | .blank => []
  | .var v => [.value (.ofDeclaration v.declaration), .value (.ofOption .ofExpr v.initializer)]
  | .function f =>
      [.value (.ofDeclaration f.declaration), .row (f.parameters.map .ofDeclaration),
       .mark f.variadic, .value (.ofOption .ofBlock f.body)]
  | .struct u => [.value (.name u.name), .row (u.members.map .ofDeclaration)]

/-- The parts of a tree. -/
def Node.parts : Node String → List Part
  | .blank | .operand .blank => []
  | .program p => [.row (p.units.map .ofUnit)]
  | .unit u => u.parts
  | .declaration d =>
      [.value (.specifier d.specifier), .value (.shape d.shape), .value (.ofOption .name d.name)]
  | .block b => [.row (b.statements.map .ofStmt)]
  | .statement s => s.parts
  | .operand (.type d) => [.value (.ofDeclaration d)]
  | .operand (.expression e) => [.value (.ofExpr e)]
  | .expression e => e.parts

namespace Value

/-- The operation by which a value comes about; `none` for one that is just given. -/
def maker? : Value → Option Maker
  | node tree => some (.tree tree.kind)
  | typeWord _ => some .typeWord
  | specifier _ => some .specifier
  | shape .plain => some .plainShape
  | shape .unspecified => some .unspecifiedShape
  | shape (.pointer _) => some .pointer
  | shape (.array _ _) => some .array
  | layer _ _ => some .layer
  | resolved _ _ _ _ => some .resolved
  | assignment _ => some .assignment
  | _ => none

/-- The parts of a value, in the order of the fields that they are for. -/
def parts : Value → List Part
  | node tree => tree.parts
  | typeWord word => word.parts
  | specifier s => s.parts
  | shape s => s.parts
  | layer kind size => [.value kind, .value size]
  | resolved base isUnsigned isSigned struct =>
      [.value base, .value isUnsigned, .value isSigned, .value struct]
  | assignment op => [.value op]
  | _ => []

/-- The values in a value: the members of a list, or what is in the parts. -/
def inner : Value → List Value
  | list vs => vs
  | v => v.parts.flatMap Part.values

end Value

/-! ### Slots -/

/-- What may stand in a slot. -/
inductive Slot where
  | any
  | absent
  | present
  | one (sort : PartSort)
  | optional (sort : PartSort)
  | row (sort : PartSort)
  | filledRow (sort : PartSort)
  | group (sort : PartSort)
  | unset

namespace Slot

/-- Whether a part may stand in a slot. -/
def admits : Slot → Part → Bool
  | any => fun _ => true
  | absent => fun | .value v => v.isNothing | _ => false
  | present => fun | .value v => !v.isNothing | .foreign _ => true | _ => false
  | one sort => fun
      | .value v => sort.holds v
      | .assignment _ => sort == .operator
      | _ => false
  | optional sort => fun | .value v => v.isNothing || sort.holds v | _ => false
  | row sort => fun | .row vs => vs.all sort.holds | _ => false
  | filledRow sort => fun | .row vs => !vs.isEmpty && vs.all sort.holds | _ => false
  | group sort => fun | .set vs => vs.all sort.holds | _ => false
  | unset => fun | .mark _ => true | _ => false

/-- What is given, as a part for the slot: the members of a row or of a set, or the way in which a
flag counts as false. -/
def take (slot : Slot) (given : Value) : Except Flaw Part :=
  match slot with
  | row _ | filledRow _ => given.members.map .row
  | group _ => given.setMembers.map .set
  | unset =>
      match given.falsity? with
      | some mark => .ok (.mark mark)
      | none => .error (.fault (.unsupported .variadicFunction))
  | _ => .ok (.value given)

/-- What is given fits the slot. -/
def Fits (slot : Slot) (given : Value) : Prop :=
  ∃ part, slot.take given = .ok part ∧ slot.admits part

/-- How a slot refuses what does not fit: it cannot be taken at all, or it is a misfit. -/
def Refuses (slot : Slot) (given : Value) (flaw : Flaw) : Prop :=
  slot.take given = .error flaw ∨
    ∃ part misfit, slot.take given = .ok part ∧ slot.admits part = false ∧
      flaw = .fault (.misfit misfit)

/-- Whether a part is laid out as a slot is. -/
def suits : Slot → Part → Bool
  | any | present => fun | .value _ | .foreign _ => true | _ => false
  | absent | optional _ => fun | .value _ => true | _ => false
  | one sort => fun | .value _ => true | .assignment _ => sort == .operator | _ => false
  | row _ | filledRow _ => fun | .row _ => true | _ => false
  | group _ => fun | .set _ => true | _ => false
  | unset => fun | .mark _ => true | _ => false

variable {slot : Slot} {part : Part} {given : Value} {flaw : Flaw}

/-- What can be taken fits exactly if it is admitted. -/
theorem fits_iff_of_take (taken : slot.take given = .ok part) :
    slot.Fits given ↔ slot.admits part := by
  constructor
  · rintro ⟨found, same, admitted⟩
    rw [taken] at same
    cases same
    exact admitted
  · exact fun admitted => ⟨part, taken, admitted⟩

/-- A row fits exactly if it has members and they are admitted. -/
theorem fits_iff_of_members {members : Except Flaw (List Value)} {pack : List Value → Part}
    (taken : slot.take given = members.map pack) :
    slot.Fits given ↔ ∃ vs, members = .ok vs ∧ slot.admits (pack vs) := by
  cases members with
  | error flaw =>
      refine ⟨fun ⟨part, same, _⟩ => ?_, fun ⟨_, same, _⟩ => by cases same⟩
      rw [taken] at same
      cases same
  | ok vs => simpa using fits_iff_of_take taken

@[simp] theorem fits_any : any.Fits given := ⟨.value given, rfl, rfl⟩

@[simp] theorem fits_absent : absent.Fits given ↔ given = .nothing :=
  (@fits_iff_of_take absent (.value given) given rfl).trans Value.isNothing_iff

@[simp] theorem fits_present : present.Fits given ↔ given ≠ .nothing := by
  refine (@fits_iff_of_take present (.value given) given rfl).trans ?_
  rw [Ne, ← Value.isNothing_iff, Bool.not_eq_true]
  exact iff_of_eq (Bool.not_eq_true' given.isNothing)

@[simp] theorem fits_one {sort : PartSort} : (one sort).Fits given ↔ sort.holds given :=
  @fits_iff_of_take (one sort) (.value given) given rfl

@[simp] theorem fits_optional {sort : PartSort} :
    (optional sort).Fits given ↔ given = .nothing ∨ sort.holds given := by
  refine (@fits_iff_of_take (optional sort) (.value given) given rfl).trans ?_
  rw [← Value.isNothing_iff]
  exact Bool.or_eq_true_iff

@[simp] theorem fits_row {sort : PartSort} :
    (row sort).Fits given ↔ ∃ vs, given.members = .ok vs ∧ ∀ v ∈ vs, sort.holds v :=
  (@fits_iff_of_members (row sort) given given.members .row rfl).trans
    (exists_congr fun _ => and_congr_right fun _ => List.all_eq_true)

@[simp] theorem fits_filledRow {sort : PartSort} :
    (filledRow sort).Fits given ↔
      ∃ vs, given.members = .ok vs ∧ vs ≠ [] ∧ ∀ v ∈ vs, sort.holds v := by
  refine (@fits_iff_of_members (filledRow sort) given given.members .row rfl).trans
    (exists_congr fun vs => and_congr_right fun _ => ?_)
  cases vs with
  | nil => exact ⟨fun admitted => (by cases admitted), fun ⟨filled, _⟩ => absurd rfl filled⟩
  | cons v vs => exact List.all_eq_true.trans (by simp)

@[simp] theorem fits_group {sort : PartSort} :
    (group sort).Fits given ↔ ∃ vs, given.setMembers = .ok vs ∧ ∀ v ∈ vs, sort.holds v :=
  (@fits_iff_of_members (group sort) given given.setMembers .set rfl).trans
    (exists_congr fun _ => and_congr_right fun _ => List.all_eq_true)

@[simp] theorem fits_unset : unset.Fits given ↔ given.isTrue = false := by
  cases mark : given.falsity? <;> simp [Fits, take, mark, admits, Value.isTrue]

theorem take_row {sort : PartSort} {vs : List Value} (members : given.members = .ok vs) :
    (row sort).take given = .ok (.row vs) := congrArg (Except.map Part.row) members

theorem take_filledRow {sort : PartSort} {vs : List Value} (members : given.members = .ok vs) :
    (filledRow sort).take given = .ok (.row vs) := congrArg (Except.map Part.row) members

theorem take_group {sort : PartSort} {vs : List Value} (members : given.setMembers = .ok vs) :
    (group sort).take given = .ok (.set vs) := congrArg (Except.map Part.set) members

/-- What is taken but not admitted is refused as a misfit. -/
theorem Refuses.of_take {misfit : Misfit} (taken : slot.take given = .ok part)
    (refused : slot.admits part = false) : slot.Refuses given (.fault (.misfit misfit)) :=
  .inr ⟨part, misfit, taken, refused, rfl⟩

/-- A single value that is not of the sort is a misfit. -/
theorem Refuses.of_not_holds {sort : PartSort} {misfit : Misfit}
    (holds : sort.holds given = false) : (one sort).Refuses given (.fault (.misfit misfit)) :=
  .of_take rfl holds

/-- A row that is refused is refused wherever less is accepted. -/
theorem Refuses.of_holds {sort sort' : PartSort} (narrower : ∀ v, sort'.holds v → sort.holds v)
    (h : (row sort).Refuses given flaw) : (row sort').Refuses given flaw := by
  obtain failed | ⟨part, misfit, taken, refused, rfl⟩ := h
  · exact .inl failed
  · refine .of_take taken ?_
    cases part with
    | row vs =>
        obtain ⟨v, hv, other⟩ := List.all_eq_false.1 refused
        exact List.all_eq_false.2 ⟨v, hv, fun holds => other (narrower v holds)⟩
    | _ => rfl

/-- What is refused does not fit. -/
theorem Refuses.not_fits (h : slot.Refuses given flaw) : ¬ slot.Fits given := by
  rintro ⟨taken, same, admitted⟩
  obtain failed | ⟨part, misfit, found, refused, -⟩ := h
  · rw [failed] at same
    cases same
  · rw [found] at same
    cases same
    simp [refused] at admitted

/-- What is kept of something that fits is admitted. -/
theorem admits_of_keeps (suited : slot.suits part) (kept : part.Keeps given)
    (fits : slot.Fits given) : slot.admits part := by
  obtain ⟨taken, same, admitted⟩ := fits
  cases part with
  | value v =>
      obtain rfl : given = v := kept
      cases slot <;> simp_all [suits, take]
  | row vs =>
      have members : given.members = .ok vs := kept
      cases slot <;> simp_all [suits, take, Except.map]
  | set vs =>
      obtain ⟨ws, members, mem_iff⟩ := kept
      cases slot with
      | group sort =>
          simp only [take, members, Except.map, Except.ok.injEq] at same
          subst same
          simpa [admits, mem_iff] using admitted
      | _ => simp [suits] at suited
  | foreign part => cases slot <;> simp_all [suits, admits]
  | assignment part => cases slot <;> simp_all [suits, admits]
  | mark falsity => cases slot <;> simp_all [suits, admits]

end Slot

/-! ### The slots of the operations -/

namespace Maker

/-- The slots of the fields of a tree; `kind` is what is given for the first one. -/
def treeSlots (tree : NodeKind) (kind : Value) : List Slot :=
  match tree with
  | .program => [.row .unit]
  | .declaration => [.one .specifier, .one .shape, .optional .name]
  | .variable => [.one .namedDeclaration, .optional .expression]
  | .function => [.one .namedDeclaration, .row .declaration, .unset, .optional .block]
  | .struct => [.one .name, .row .namedDeclaration]
  | .block => [.row .statement]
  | .expressionStatement | .sizeofExpression | .parenthesized => [.one .expression]
  | .declarationStatement => [.one .var]
  | .sizeofType => [.one .declaration]
  | .conditional => [.one .expression, .one .statement, .optional .statement]
  | .whileLoop => [.one .expression, .one .statement]
  | .forLoop =>
      [.optional .var, .optional .expression, .optional .expression, .one .statement]
  | .returnWith => [.optional .expression]
  | .blockStatement => [.one .block]
  | .literal =>
      [.one .literalKind,
       match kind with
       | .member (.literal k) => .one (.literalValue k)
       | _ => .any]
  | .var => [.one .name]
  | .sizeof => [.one .size]
  | .postfixed => [.one .postfixOp, .one .expression]
  | .unary => [.one .unaryOp, .one .expression]
  | .binary => [.one .operator, .one .expression, .one .expression]
  | .call => [.one .name, .row .expression]
  | .index => [.one .expression, .one .expression]
  | .member | .pointerMember => [.one .expression, .one .name]
  | .cast => [.one .typeWord, .one .expression]
  | .node | .unit | .statement | .breakLoop | .continueLoop | .operand | .expression => []

/-- The slots of the fields of an operation; `first` is what is given for the first one.  A type
word has the name of a struct exactly if it is `struct`, and the size of a type or of an expression
is taken of exactly one of them. -/
def slots (m : Maker) (first : Value) : List Slot :=
  match m with
  | tree kind => treeSlots kind first
  | typeWord =>
      [.any,
       match first with
       | .member (.typeWord .struct) => .present
       | _ => .absent]
  | specifier => [.group .storage, .group .qualifier, .filledRow .typeWord]
  | plainShape | unspecifiedShape => []
  | pointer => [.one .shape]
  | array => [.one .shape, .optional .count]
  | layer => [.any, .any]
  | shapeOfRow => [.any]
  | resolved => [.any, .any, .any, .any]
  | assignment => [.any]
  | sizeOfEither =>
      if first.isNothing then [.absent, .one .expression] else [.one .declaration, .absent]

/-- The slots for what is given for the fields. -/
def slotsFor (m : Maker) (given : List Value) : List Slot := m.slots (given.headD .nothing)

/-- What stands for the fields of a tree that are not given. -/
def treeDefaults : NodeKind → List Value
  | .program | .block => [.list []]
  | .declaration => [.nothing, .shape .plain, .nothing]
  | .function => [.nothing, .list [], .bool false, .nothing]
  | .struct | .call => [.nothing, .list []]
  | kind => (treeFields kind).map fun _ => .nothing

/-- What stands for the fields of an operation that are not given. -/
def defaults : Maker → List Value
  | tree kind => treeDefaults kind
  | typeWord | layer | sizeOfEither => [.nothing, .nothing]
  | specifier => [.list [], .list [], .list []]
  | plainShape | unspecifiedShape => []
  | pointer => [.shape .plain]
  | array => [.shape .plain, .nothing]
  | shapeOfRow => [.list []]
  | resolved => [.nothing, .bool false, .bool false, .nothing]
  | assignment => [.member (.assignOp .plain)]

/-- What an operation is given for its slots. -/
def arguments (m : Maker) (given : List (String × Value)) : List Value :=
  List.zipWith (field given) m.fields m.defaults

end Maker

/-! ### Valid values -/

namespace Value

/-- The slots of the parts of a value. -/
def slots (v : Value) : List Slot :=
  match v.maker?, v.parts with
  | some m, .value kind :: _ => m.slots kind
  | some m, _ => m.slots nothing
  | none, _ => []

/-- Every part of the value stands in a slot that admits it. -/
def IsWellMade (v : Value) : Prop := List.Forall₂ (fun s p => s.admits p) v.slots v.parts

/-- The value is well made, and so is everything in it, at every depth. -/
inductive Valid : Value → Prop
  | intro {v : Value} : v.IsWellMade → (∀ w ∈ v.inner, Valid w) → Valid v

/-- The parts of a value are laid out as its slots are. -/
theorem suits_parts (v : Value) : List.Forall₂ (fun s p => s.suits p) v.slots v.parts := by
  cases v with
  | node tree =>
      cases tree with
      | unit u => cases u <;> repeat' constructor
      | operand o => cases o <;> repeat' constructor
      | statement s => cases s <;> repeat' constructor
      | expression e =>
          cases e with
          | literal l => cases l <;> repeat' constructor
          | binary op l r => cases op <;> repeat' constructor
          | _ => repeat' constructor
      | _ => repeat' constructor
  | typeWord word => cases word <;> repeat' constructor
  | shape s => cases s <;> repeat' constructor
  | _ => repeat' constructor

end Value

end PlainC
