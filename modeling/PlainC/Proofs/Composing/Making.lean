/-
**Every operation checks its slots.**

Almost every operation is a row of checks, one for each slot, and a value with the parts that were
read.  It gives a value exactly if its slots are filled, and the value keeps what they are filled
with.

Main definitions:

* `PlainC.Value.IsMade` — a value that an operation makes of what it is given;
* `PlainC.Value.IsSizeOf` — the size of a type or of an expression.

Main results:

* `PlainC.Compose.specifier_meets`, `PlainC.Compose.sizeOfEither_meets` — the operations whose
  checks are not made slot by slot;
* `PlainC.Maker.make_meets` — **an operation gives a value exactly if its slots are filled**.
-/

import PlainC.Proofs.Composing.Checking

set_option relaxedAutoImplicit false
set_option autoImplicit false

namespace PlainC

/-! ### Reading the parts of each sort -/

theorem reads_expression : Reads .expression Value.asExpr fun e v => v = .ofExpr e := fun v => by
  fun_cases Value.asExpr v <;> simp_all [PartSort.holds, Value.ofExpr]

theorem reads_statement : Reads .statement Value.asStmt fun s v => v = .ofStmt s := fun v => by
  fun_cases Value.asStmt v <;> simp_all [PartSort.holds, Value.ofStmt]

theorem reads_block : Reads .block Value.asBlock fun b v => v = .ofBlock b := fun v => by
  fun_cases Value.asBlock v <;> simp_all [PartSort.holds, Value.ofBlock]

theorem reads_unit : Reads .unit Value.asUnit fun u v => v = .ofUnit u := fun v => by
  fun_cases Value.asUnit v <;> simp_all [PartSort.holds, Value.ofUnit]

theorem reads_var : Reads .var Value.asVariable fun u v => v = .ofVariable u := fun v => by
  fun_cases Value.asVariable v <;> simp_all [PartSort.holds, Value.ofVariable]

theorem reads_declaration :
    Reads .declaration Value.asDeclaration fun d v => v = .ofDeclaration d := fun v => by
  fun_cases Value.asDeclaration v <;> simp_all [PartSort.holds, Value.ofDeclaration]

theorem reads_size :
    Reads .size Value.asSize fun e v => v = .ofSize e ∧ e.kind = .sizeof := fun v => by
  fun_cases Value.asSize v <;> simp_all [PartSort.holds, Value.ofSize, Expr.kind]

theorem reads_name : Reads .name Value.asName fun n v => v = .name n := fun v => by
  fun_cases Value.asName v <;> simp_all [PartSort.holds]

theorem reads_postfixOp :
    Reads .postfixOp Value.asPostfixOp fun op v => v = .member (.postfixOp op) := fun v => by
  fun_cases Value.asPostfixOp v <;> simp_all [PartSort.holds]

theorem reads_unaryOp :
    Reads .unaryOp Value.asUnaryOp fun op v => v = .member (.unaryOp op) := fun v => by
  fun_cases Value.asUnaryOp v <;> simp_all [PartSort.holds]

theorem reads_operator :
    Reads .operator Value.asOperator fun op v => (Part.ofOperator op).Keeps v := fun v => by
  fun_cases Value.asOperator v <;> simp_all [PartSort.holds, Part.ofOperator, Part.Keeps]

theorem reads_literalKind :
    Reads .literalKind Value.asLiteralKind fun k v => v = .member (.literal k) := fun v => by
  fun_cases Value.asLiteralKind v <;> simp_all [PartSort.holds]

theorem reads_typeWord : Reads .typeWord Value.asTypeWord fun w v => v = .typeWord w := fun v => by
  fun_cases Value.asTypeWord v <;> simp_all [PartSort.holds]

theorem reads_specifier :
    Reads .specifier Value.asSpecifier fun s v => v = .specifier s := fun v => by
  fun_cases Value.asSpecifier v <;> simp_all [PartSort.holds]

theorem reads_shape : Reads .shape Value.asShape fun s v => v = .shape s := fun v => by
  fun_cases Value.asShape v <;> simp_all [PartSort.holds]

/-! ### What an operation makes -/

/-- A value that an operation makes of what it is given for its slots: it has a part for each, and
keeps in it what was given. -/
structure Value.IsMade (v : Value) (m : Maker) (given : List Value) : Prop where
  maker : v.maker? = some m
  slots : v.slots = m.slotsFor given
  keeps : List.Forall₂ Part.Keeps v.parts given

/-- An operation meets its slots if it gives a value exactly if they are filled, and the value is
made of what they are filled with. -/
def Maker.MeetsSlots (m : Maker) (given : List Value) (x : Except Flaw Value) : Prop :=
  Meets (m.slotsFor given) given (·.IsMade m given) x

/-- A value that is the size of a type or of an expression, and keeps the one that is given. -/
def Value.IsSizeOf (v declaration expression : Value) : Prop :=
  (∃ d, declaration = .ofDeclaration d ∧ expression = .nothing ∧ v = .ofExpr (.sizeofType d)) ∨
    ∃ e, declaration = .nothing ∧ expression = .ofExpr e ∧ v = .ofExpr (.sizeofExpr e)

namespace Compose

/-! ### Statements -/

theorem blockStatement_meets (block : Value) :
    (Maker.tree .blockStatement).MeetsSlots [block] (blockStatement block) := by
  refine .bind (reads_block.require _ block) fun b hb => ?_
  exact .done ⟨rfl, rfl, .cons hb .nil⟩

theorem block_meets (statements : Value) :
    (Maker.tree .block).MeetsSlots [statements] (block statements) := by
  refine .bind (reads_statement.requireAll _ statements) fun ss hss => ?_
  exact .done ⟨rfl, rfl, .cons hss .nil⟩

theorem expressionStatement_meets (expression : Value) :
    (Maker.tree .expressionStatement).MeetsSlots [expression] (expressionStatement expression) := by
  refine .bind (reads_expression.require _ expression) fun e he => ?_
  exact .done ⟨rfl, rfl, .cons he .nil⟩

theorem declarationStatement_meets (declaration : Value) :
    (Maker.tree .declarationStatement).MeetsSlots [declaration]
      (declarationStatement declaration) := by
  refine .bind (reads_var.require _ declaration) fun v hv => ?_
  exact .done ⟨rfl, rfl, .cons hv .nil⟩

theorem conditional_meets (condition thenBranch elseBranch : Value) :
    (Maker.tree .conditional).MeetsSlots [condition, thenBranch, elseBranch]
      (conditional condition thenBranch elseBranch) := by
  refine .bind (reads_expression.require _ condition) fun c hc => ?_
  refine .bind (reads_statement.require _ thenBranch) fun t ht => ?_
  refine .bind (reads_statement.requireOptional _ elseBranch) fun e he => ?_
  cases e with
  | none => exact .done ⟨rfl, rfl, .cons hc (.cons ht (.cons he .nil))⟩
  | some e => exact .done ⟨rfl, rfl, .cons hc (.cons ht (.cons he .nil))⟩

theorem whileLoop_meets (condition body : Value) :
    (Maker.tree .whileLoop).MeetsSlots [condition, body] (whileLoop condition body) := by
  refine .bind (reads_expression.require _ condition) fun c hc => ?_
  refine .bind (reads_statement.require _ body) fun b hb => ?_
  exact .done ⟨rfl, rfl, .cons hc (.cons hb .nil)⟩

theorem forLoop_meets (first condition step body : Value) :
    (Maker.tree .forLoop).MeetsSlots [first, condition, step, body]
      (forLoop first condition step body) := by
  refine .bind (reads_var.requireOptional _ first) fun v hv => ?_
  refine .bind (reads_expression.requireOptional _ condition) fun c hc => ?_
  refine .bind (reads_expression.requireOptional _ step) fun s hs => ?_
  refine .bind (reads_statement.require _ body) fun b hb => ?_
  exact .done ⟨rfl, rfl, .cons hv (.cons hc (.cons hs (.cons hb .nil)))⟩

theorem returnWith_meets (value : Value) :
    (Maker.tree .returnWith).MeetsSlots [value] (returnWith value) := by
  refine .bind (reads_expression.requireOptional _ value) fun e he => ?_
  exact .done ⟨rfl, rfl, .cons he .nil⟩

/-! ### Expressions -/

theorem var_meets (name : Value) : (Maker.tree .var).MeetsSlots [name] (var name) := by
  refine .bind (reads_name.require _ name) fun n hn => ?_
  exact .done ⟨rfl, rfl, .cons hn .nil⟩

theorem sizeofType_meets (declaration : Value) :
    (Maker.tree .sizeofType).MeetsSlots [declaration] (sizeofType declaration) := by
  refine .bind (reads_declaration.require _ declaration) fun d hd => ?_
  exact .done ⟨rfl, rfl, .cons hd .nil⟩

theorem sizeofExpression_meets (expression : Value) :
    (Maker.tree .sizeofExpression).MeetsSlots [expression] (sizeofExpression expression) := by
  refine .bind (reads_expression.require _ expression) fun e he => ?_
  exact .done ⟨rfl, rfl, .cons he .nil⟩

theorem sizeof_meets (operand : Value) :
    (Maker.tree .sizeof).MeetsSlots [operand] (sizeof operand) := by
  refine .bind (reads_size.require _ operand) fun e he => ?_
  obtain ⟨he, kind⟩ := he
  cases e with
  | sizeofType d => exact .done ⟨rfl, rfl, .cons he .nil⟩
  | sizeofExpr e => exact .done ⟨rfl, rfl, .cons he .nil⟩
  | _ => cases kind

theorem parenthesized_meets (inner : Value) :
    (Maker.tree .parenthesized).MeetsSlots [inner] (parenthesized inner) := by
  refine .bind (reads_expression.require _ inner) fun e he => ?_
  exact .done ⟨rfl, rfl, .cons he .nil⟩

theorem postfixed_meets (op operand : Value) :
    (Maker.tree .postfixed).MeetsSlots [op, operand] (postfixed op operand) := by
  refine .bind (reads_postfixOp.require _ op) fun o ho => ?_
  refine .bind (reads_expression.require _ operand) fun e he => ?_
  exact .done ⟨rfl, rfl, .cons ho (.cons he .nil)⟩

theorem unary_meets (op operand : Value) :
    (Maker.tree .unary).MeetsSlots [op, operand] (unary op operand) := by
  refine .bind (reads_unaryOp.require _ op) fun o ho => ?_
  refine .bind (reads_expression.require _ operand) fun e he => ?_
  exact .done ⟨rfl, rfl, .cons ho (.cons he .nil)⟩

theorem binary_meets (op left right : Value) :
    (Maker.tree .binary).MeetsSlots [op, left, right] (binary op left right) := by
  refine .bind (reads_operator.require _ op) fun o ho => ?_
  refine .bind (reads_expression.require _ left) fun l hl => ?_
  refine .bind (reads_expression.require _ right) fun r hr => ?_
  refine .done ⟨rfl, ?_, .cons ho (.cons hl (.cons hr .nil))⟩
  cases o <;> rfl

theorem call_meets (callee arguments : Value) :
    (Maker.tree .call).MeetsSlots [callee, arguments] (call callee arguments) := by
  refine .bind (reads_name.require _ callee) fun f hf => ?_
  refine .bind (reads_expression.requireAll _ arguments) fun es hes => ?_
  exact .done ⟨rfl, rfl, .cons hf (.cons hes .nil)⟩

theorem index_meets (target subscript : Value) :
    (Maker.tree .index).MeetsSlots [target, subscript] (index target subscript) := by
  refine .bind (reads_expression.require _ target) fun t ht => ?_
  refine .bind (reads_expression.require _ subscript) fun i hi => ?_
  exact .done ⟨rfl, rfl, .cons ht (.cons hi .nil)⟩

theorem member_meets (target name : Value) :
    (Maker.tree .member).MeetsSlots [target, name] (member target name) := by
  refine .bind (reads_expression.require _ target) fun t ht => ?_
  refine .bind (reads_name.require _ name) fun n hn => ?_
  exact .done ⟨rfl, rfl, .cons ht (.cons hn .nil)⟩

theorem pointerMember_meets (target name : Value) :
    (Maker.tree .pointerMember).MeetsSlots [target, name] (pointerMember target name) := by
  refine .bind (reads_expression.require _ target) fun t ht => ?_
  refine .bind (reads_name.require _ name) fun n hn => ?_
  exact .done ⟨rfl, rfl, .cons ht (.cons hn .nil)⟩

theorem cast_meets (word operand : Value) :
    (Maker.tree .cast).MeetsSlots [word, operand] (cast word operand) := by
  refine .bind (reads_typeWord.require _ word) fun w hw => ?_
  refine .bind (reads_expression.require _ operand) fun e he => ?_
  exact .done ⟨rfl, rfl, .cons hw (.cons he .nil)⟩

theorem literal_meets (kind value : Value) :
    (Maker.tree .literal).MeetsSlots [kind, value] (literal kind value) := by
  refine .bind (reads_literalKind.require _ kind) fun k hk => ?_
  subst hk
  cases k <;> cases value <;>
    first
      | exact .filled (Slot.fits_one.2 rfl) (.done ⟨rfl, rfl, .cons rfl (.cons rfl .nil)⟩)
      | exact .refused (.of_not_holds rfl)

/-! ### Declarations and programs -/

theorem declaration_meets (specifier shape name : Value) :
    (Maker.tree .declaration).MeetsSlots [specifier, shape, name]
      (declaration specifier shape name) := by
  refine .bind (reads_specifier.require _ specifier) fun s hs => ?_
  refine .bind (reads_shape.require _ shape) fun d hd => ?_
  refine .bind (reads_name.requireOptional _ name) fun n hn => ?_
  exact .done ⟨rfl, rfl, .cons hs (.cons hd (.cons hn .nil))⟩

theorem program_meets (units : Value) :
    (Maker.tree .program).MeetsSlots [units] (program units) := by
  refine .bind (reads_unit.requireAll _ units) fun us hus => ?_
  exact .done ⟨rfl, rfl, .cons hus .nil⟩

/-- The check of a declaration that must have a name. -/
theorem namedDeclaration_decides (role : String) :
    Decides .namedDeclaration (fun d v => v = .ofDeclaration d) (namedDeclaration role) := by
  intro v
  obtain ⟨d, same, -, rfl⟩ | ⟨misfit, same, other⟩ := reads_declaration.decides_require role v
  · cases nameless : d.isAbstract with
    | false =>
        refine .inl ⟨d, ?_, by simp [PartSort.holds, Value.ofDeclaration, nameless], rfl⟩
        simp [namedDeclaration, same, nameless, ok_bind, pure, Except.pure]
    | true =>
        refine .inr ⟨.nameless role, ?_, by simp [PartSort.holds, Value.ofDeclaration, nameless]⟩
        simp [namedDeclaration, same, nameless, ok_bind, misfit]
  · refine .inr ⟨misfit, by simp [namedDeclaration, same, error_bind], ?_⟩
    exact Bool.eq_false_iff.2 fun named => by simp [PartSort.holds_declaration named] at other

theorem variableUnit_meets (declaration initializer : Value) :
    (Maker.tree .variable).MeetsSlots [declaration, initializer]
      (variableUnit declaration initializer) := by
  refine .bind ((namedDeclaration_decides _).checks declaration) fun d hd => ?_
  refine .bind (reads_expression.requireOptional _ initializer) fun e he => ?_
  exact .done ⟨rfl, rfl, .cons hd (.cons he .nil)⟩

theorem functionUnit_meets (declaration parameters variadic body : Value) :
    (Maker.tree .function).MeetsSlots [declaration, parameters, variadic, body]
      (functionUnit declaration parameters variadic body) := by
  refine .bind ((namedDeclaration_decides _).checks declaration) fun d hd => ?_
  refine .bind (reads_declaration.requireAll _ parameters) fun ps hps => ?_
  cases flag : variadic.falsity? with
  | none => exact .refused (.inl (by simp [Slot.take, flag]))
  | some mark =>
      refine .filled (Slot.fits_unset.2 (by simp [Value.isTrue, flag])) ?_
      refine .bind (reads_block.requireOptional _ body) fun b hb => ?_
      exact .done ⟨rfl, rfl, .cons hd (.cons hps (.cons flag (.cons hb .nil)))⟩

theorem admits_named_map (ds : List (Declaration String)) :
    (Slot.row .namedDeclaration).admits (.row (ds.map .ofDeclaration))
      = !ds.any Declaration.isAbstract := by
  simp [Slot.admits, List.all_map, List.not_any_eq_all_not, Function.comp_def, PartSort.holds,
    Value.ofDeclaration]

theorem structUnit_meets (name members : Value) :
    (Maker.tree .struct).MeetsSlots [name, members] (structUnit name members) := by
  refine .bind (reads_name.require _ name) fun n hn => ?_
  have check := reads_declaration.requireAll "struct member" members
  cases same : members.requireAll Value.asDeclaration "struct member" with
  | error flaw =>
      exact .refused ((check.error flaw same).of_holds fun _ => PartSort.holds_declaration)
  | ok ds =>
      have row := (check.ok ds same).2
      have named := admits_named_map ds
      cases nameless : ds.any Declaration.isAbstract with
      | true =>
          rw [ok_bind, if_pos nameless]
          exact .refused (.of_take (Slot.take_row row) (by rw [named, nameless]; rfl))
      | false =>
          rw [ok_bind, if_neg (by simp [nameless])]
          refine .filled ⟨_, Slot.take_row row, by rw [named, nameless]; rfl⟩ ?_
          exact .done ⟨rfl, rfl, .cons hn (.cons row .nil)⟩

/-! ### Types -/

/-- The check of a part of a shape. -/
theorem shapePart_decides (role : String) :
    Decides .shape (fun s v => v = .shape s) (shapePart role) :=
  reads_shape.decides (fun v s h => by simp [shapePart, h])
    (fun v h => ⟨.shapePart role v.kindName, by simp [shapePart, h, misfit]⟩)

theorem pointer_meets (target : Value) : Maker.pointer.MeetsSlots [target] (pointer target) := by
  refine .bind ((shapePart_decides _).checks target) fun s hs => ?_
  exact .done ⟨rfl, rfl, .cons hs .nil⟩

/-- The check of the size of an array. -/
theorem arraySize_checks (size : Value) (inner : Shape) :
    Checks (.optional .count) size
      (fun s => ∃ n, s = .array inner n ∧ size = .ofOption .ofCount n)
      ((Shape.wrap arraySize (layerOf .array size) inner).mapError (.fault ∘ .misfit)) := by
  cases size with
  | nothing => exact .of_ok rfl (by simp) ⟨none, rfl, rfl⟩
  | int n =>
      by_cases negative : n < 0
      · have failed : (Shape.wrap arraySize (layerOf .array (.int n)) inner).mapError
            (Flaw.fault ∘ Fault.misfit) = .error (.fault (.misfit (.negativeSize n))) := by
          simp [Shape.wrap, layerOf, arraySize, Shape.sizeOfInt, negative, Except.map,
            Except.mapError]
        refine .of_error failed (.of_take rfl ?_)
        simp [Slot.admits, Value.isNothing, PartSort.holds, negative]
      · have made : (Shape.wrap arraySize (layerOf .array (.int n)) inner).mapError
            (Flaw.fault ∘ Fault.misfit) = .ok (.array inner (some n.toNat)) := by
          simp [Shape.wrap, layerOf, arraySize, Shape.sizeOfInt, negative, Except.map,
            Except.mapError]
        have count : PartSort.count.holds (.int n) := by
          simpa [PartSort.holds] using negative
        have same : Value.int n = .ofOption .ofCount (some n.toNat) := by
          simp only [Value.ofOption, Value.ofCount, Value.int.injEq]
          omega
        exact .of_ok made (Slot.fits_optional.2 (.inr count)) ⟨_, rfl, same⟩
  | _ => exact .of_error rfl (.of_take rfl rfl)

theorem array_meets (element size : Value) :
    Maker.array.MeetsSlots [element, size] (array element size) := by
  refine .bind ((shapePart_decides _).checks element) fun s hs => ?_
  refine .bind (arraySize_checks size s) fun t ht => ?_
  obtain ⟨n, rfl, hn⟩ := ht
  exact .done ⟨rfl, rfl, .cons hs (.cons hn .nil)⟩

/-- Any word but `struct` goes without the name of a struct. -/
theorem slots_typeWord {kind : Value} (other : kind ≠ .member (.typeWord .struct)) :
    Maker.typeWord.slots kind = [.any, .absent] := by
  unfold Maker.slots
  split <;> simp_all

theorem typeWord_meets (kind struct : Value) :
    Maker.typeWord.MeetsSlots [kind, struct] (typeWord kind struct) := by
  unfold typeWord
  split
  · exact .refused_later (.refused (.of_take rfl rfl))
  · exact .filled Slot.fits_any (.filled (by simp) (.done ⟨rfl, rfl, .cons rfl (.cons rfl .nil)⟩))
  · rename_i tag present _
    exact .filled Slot.fits_any (.filled (Slot.fits_present.2 present)
      (.done ⟨rfl, rfl, .cons rfl (.cons rfl .nil)⟩))
  · rename_i k other
    cases k with
    | struct => exact absurd rfl other
    | _ =>
        exact .filled Slot.fits_any (.filled (by simp)
          (.done ⟨rfl, rfl, .cons rfl (.cons rfl .nil)⟩))
  · rename_i other _
    have slots := slots_typeWord other
    unfold Maker.MeetsSlots Maker.slotsFor
    rw [List.headD_cons, slots]
    exact .filled Slot.fits_any (.filled (by simp)
      (.done ⟨rfl, slots.symm, .cons rfl (.cons rfl .nil)⟩))
  · rename_i other present _ _ _
    unfold Maker.MeetsSlots Maker.slotsFor
    rw [List.headD_cons, slots_typeWord other]
    refine .refused_later (.refused (.of_take rfl ?_))
    cases struct <;> first | rfl | exact absurd rfl present

/-- With a type that is given, no expression may be. -/
theorem slots_sizeOfEither {declaration : Value} (present : declaration ≠ .nothing) :
    Maker.sizeOfEither.slots declaration = [.one .declaration, .absent] := by
  cases declaration <;> first | rfl | exact absurd rfl present

theorem sizeOfEither_meets (declaration expression : Value) :
    Meets (Maker.sizeOfEither.slotsFor [declaration, expression]) [declaration, expression]
      (·.IsSizeOf declaration expression) (sizeOfEither declaration expression) := by
  unfold sizeOfEither
  split
  · exact .refused_later (.refused (.of_not_holds rfl))
  · simp only [sizeofExpression, bind_assoc, pure_bind]
    refine .filled (by simp) ?_
    refine .bind (reads_expression.require _ expression) fun e he => ?_
    exact .done (.inr ⟨e, rfl, he, rfl⟩)
  · rename_i present
    simp only [sizeofType, bind_assoc, pure_bind]
    rw [Maker.slotsFor, List.headD_cons, slots_sizeOfEither present]
    refine .bind (reads_declaration.require _ declaration) fun d hd => ?_
    exact .filled (by simp) (.done (.inl ⟨d, hd, rfl, rfl⟩))
  · rename_i present second _
    rw [Maker.slotsFor, List.headD_cons, slots_sizeOfEither present]
    refine .refused_later (.refused (.of_take rfl ?_))
    cases expression <;> first | rfl | exact absurd rfl second

theorem reads_storage : Reads .storage (fun | .member .storage => some () | _ => none)
    fun _ v => v = .member .storage := fun v => by
  by_cases same : v = .member .storage <;> simp_all [PartSort.holds]

theorem reads_qualifier : Reads .qualifier (fun | .member .qualifier => some () | _ => none)
    fun _ v => v = .member .qualifier := fun v => by
  by_cases same : v = .member .qualifier <;> simp_all [PartSort.holds]

/-- A set of one mark holds it exactly if it is not empty. -/
theorem keeps_mark {given mark : Value} {vs : List Value} {found : List Unit}
    (members : given.setMembers = .ok vs) (each : List.Forall₂ (fun v _ => v = mark) vs found) :
    (Part.set (if !found.isEmpty then [mark] else [])).Keeps given := by
  refine ⟨vs, members, fun w => ?_⟩
  have all := eq_map_of_forall₂ each
  cases found <;> simp [all]

theorem specifier_meets (storage qualifiers words : Value) :
    Maker.specifier.MeetsSlots [storage, qualifiers, words]
      (specifier storage qualifiers words) := by
  unfold specifier
  cases hs : storage.setMembers with
  | error flaw => exact .refused (.inl (by simp [Slot.take, hs, Except.map]))
  | ok ss =>
  cases hq : qualifiers.setMembers with
  | error flaw => exact .refused_later (.refused (.inl (by simp [Slot.take, hq, Except.map])))
  | ok qs =>
  cases hw : words.members with
  | error flaw =>
      exact .refused_later (.refused_later (.refused (.inl (by simp [Slot.take, hw, Except.map]))))
  | ok ws =>
  cases ws with
  | nil =>
      exact .refused_later (.refused_later (.refused (.of_take (Slot.take_filledRow hw) rfl)))
  | cons w ws =>
      rw [ok_bind, ok_bind, ok_bind]
      refine .bind (reads_storage.group _ hs) fun st hst => ?_
      refine .bind (reads_qualifier.group _ hq) fun qu hqu => ?_
      refine .bind (reads_typeWord.filledGroup _ hw (by simp)) fun ts hts => ?_
      have row := hw.trans (congrArg Except.ok (eq_map_of_forall₂ hts))
      exact .done ⟨rfl, rfl, .cons (keeps_mark hs hst) (.cons (keeps_mark hq hqu)
        (.cons row .nil))⟩

end Compose

namespace Maker

/-- An operation without checks gives a value. -/
theorem MeetsSlots.of_ok {m : Maker} {given : List Value} {v : Value}
    (fits : List.Forall₂ Slot.Fits (m.slotsFor given) given)
    (made : v.IsMade m given) : m.MeetsSlots given (.ok v) :=
  ⟨by rintro w ⟨⟩; exact ⟨fits, made⟩, by rintro flaw ⟨⟩⟩

theorem makeTree_meets (kind : NodeKind) (given : List (String × Value)) :
    (tree kind).MeetsSlots ((tree kind).arguments given) (makeTree kind given) := by
  cases kind with
  | program => exact Compose.program_meets _
  | declaration => exact Compose.declaration_meets ..
  | «variable» => exact Compose.variableUnit_meets ..
  | function => exact Compose.functionUnit_meets ..
  | struct => exact Compose.structUnit_meets ..
  | block => exact Compose.block_meets ..
  | expressionStatement => exact Compose.expressionStatement_meets ..
  | declarationStatement => exact Compose.declarationStatement_meets ..
  | conditional => exact Compose.conditional_meets ..
  | whileLoop => exact Compose.whileLoop_meets ..
  | forLoop => exact Compose.forLoop_meets ..
  | returnWith => exact Compose.returnWith_meets ..
  | blockStatement => exact Compose.blockStatement_meets ..
  | literal => exact Compose.literal_meets ..
  | var => exact Compose.var_meets ..
  | sizeofType => exact Compose.sizeofType_meets ..
  | sizeofExpression => exact Compose.sizeofExpression_meets ..
  | sizeof => exact Compose.sizeof_meets ..
  | parenthesized => exact Compose.parenthesized_meets ..
  | postfixed => exact Compose.postfixed_meets ..
  | unary => exact Compose.unary_meets ..
  | binary => exact Compose.binary_meets ..
  | call => exact Compose.call_meets ..
  | index => exact Compose.index_meets ..
  | member => exact Compose.member_meets ..
  | pointerMember => exact Compose.pointerMember_meets ..
  | cast => exact Compose.cast_meets ..
  | node | unit | statement | breakLoop | continueLoop | operand | expression =>
      exact .of_ok .nil ⟨rfl, rfl, .nil⟩

/-- **An operation gives a value exactly if its slots are filled**, and the value keeps what they
are filled with. -/
theorem make_meets (m : Maker) (given : List (String × Value)) (single : m ≠ .sizeOfEither)
    (noRow : m ≠ .shapeOfRow) : m.MeetsSlots (m.arguments given) (m.make given) := by
  cases m with
  | tree kind => exact makeTree_meets kind given
  | typeWord => exact Compose.typeWord_meets ..
  | specifier => exact Compose.specifier_meets ..
  | pointer => exact Compose.pointer_meets ..
  | array => exact Compose.array_meets ..
  | plainShape | unspecifiedShape => exact .of_ok .nil ⟨rfl, rfl, .nil⟩
  | layer =>
      exact .of_ok (.cons Slot.fits_any (.cons Slot.fits_any .nil))
        ⟨rfl, rfl, .cons rfl (.cons rfl .nil)⟩
  | resolved =>
      exact .of_ok (.cons Slot.fits_any (.cons Slot.fits_any (.cons Slot.fits_any
        (.cons Slot.fits_any .nil)))) ⟨rfl, rfl, .cons rfl (.cons rfl (.cons rfl (.cons rfl .nil)))⟩
  | assignment => exact .of_ok (.cons Slot.fits_any .nil) ⟨rfl, rfl, .cons rfl .nil⟩
  | sizeOfEither => exact absurd rfl single
  | shapeOfRow => exact absurd rfl noRow

end Maker

end PlainC
