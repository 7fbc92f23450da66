/-
**Sound trees.**

A tree that is put together by hand can hold anything: a variable without a name, a function that
returns an array, a product of sums without parentheses.  What later work on a program relies on is
said here tree by tree, of each tree and its direct parts, so that a whole program is sound if every
tree is that is met on a walk over it.

Main definitions:

* `PlainC.Declaration.IsSound`, `PlainC.Function.IsSound`, `PlainC.Struct.IsSound`,
  `PlainC.Expr.IsSound` — what is relied on, for each sort of tree;
* `PlainC.Node.IsSound`, `PlainC.Node.AllSound` — the same for a tree of any sort, and for all trees
  that were met.

Main results:

* `PlainC.Expr.allSound_walk` — **an expression that can be written and needs no further parentheses
  is sound in every part**;
* `PlainC.TopLevel.allSound_walk_function`, `PlainC.TopLevel.allSound_walk_struct` — what makes a
  function and a struct sound in every part.
-/

import PlainC.Proofs.Spelling.Program
import PlainC.Tree.Walk

set_option relaxedAutoImplicit false
set_option autoImplicit false

namespace PlainC

/-! ### What is relied on -/

/-- The words of the specifier name a type, and no part of the shape is missing; sizes that are
given are not negative. -/
structure Declaration.IsSound (d : Declaration String) : Prop where
  resolves : (TypeWord.resolve d.specifier.words).isOk
  known : d.shape.isKnown
  sizes : ∀ layer ∈ d.shape.layers, ∀ size ∈ layer.size, (0 : Int) ≤ size

/-- A function has a name and only pointers around it, has no further parameters, and names its
parameters if it has a body; a lone `void` is no parameter. -/
structure Function.IsSound (f : Function String) : Prop where
  named : f.declaration.name.isSome
  pointers : ∀ layer ∈ f.declaration.shape.layers, layer.kind = .pointer
  fixed : f.variadic = .no
  noMark : f.parameters ≠ [⟨{ words := [.void] }, .plain, none⟩]
  parameters : f.body.isSome → ∀ d ∈ f.parameters, d.name.isSome

/-- The members of a struct have names and are not static. -/
structure Struct.IsSound (u : Struct String) : Prop where
  named : ∀ d ∈ u.members, d.name.isSome
  automatic : ∀ d ∈ u.members, d.specifier.isStatic = false

/-- A unit is sound as the sort of unit that it is. -/
def TopLevel.IsSound : TopLevel String → Prop
  | blank => False
  | var unit => unit.declaration.name.isSome
  | function unit => unit.IsSound
  | struct unit => unit.IsSound

/-- A type whose size is taken has no name; an expression whose size is taken is neither an
operation on two operands nor a cast. -/
def Operand.IsSound : Operand String → Prop
  | blank => False
  | type declaration => declaration.name = none
  | expression value => value.kind ≠ .binary ∧ value.kind ≠ .cast

/-- The kinds of expression that a suffix can stand behind. -/
def NodeKind.targets : List NodeKind :=
  [.literal, .var, .parenthesized, .call, .index, .member, .pointerMember, .postfixed]

namespace Expr

/-- An operand on the left of an operator binds more tightly, or as tightly if the operator groups
to the left. -/
def FitsLeft (op : Operator) (left : Expr String) : Prop :=
  ∀ op' a b, left = .binary op' a b →
    op.precedence < op'.precedence ∨ op.precedence = op'.precedence ∧ op.groupsRight = false

/-- An operand on the right of an operator binds more tightly, or as tightly if the operator groups
to the right. -/
def FitsRight (op : Operator) (right : Expr String) : Prop :=
  ∀ op' a b, right = .binary op' a b →
    op.precedence < op'.precedence ∨ op.precedence = op'.precedence ∧ op.groupsRight = true

/-- An expression is the one that its operator and the operands beside it make up without
parentheses; the word of a cast names a type. -/
def IsSound : Expr String → Prop
  | blank => False
  | literal _ | var _ | sizeofType _ | sizeofExpr _ | parenthesized _ | call _ _ => True
  | unary _ operand => operand.kind ≠ .binary
  | cast word operand => operand.kind ≠ .binary ∧ (TypeWord.resolve [word]).isOk
  | postfixed _ target | index target _ | member target _ | pointerMember target _ =>
      target.kind ∈ NodeKind.targets
  | binary op left right => FitsLeft op left ∧ FitsRight op right

end Expr

namespace Node

/-- A tree is sound as the sort of tree that it is. -/
def IsSound : Node String → Prop
  | blank => False
  | program _ | block _ => True
  | unit tree => tree.IsSound
  | declaration tree => tree.IsSound
  | statement tree => tree.kind ≠ .statement
  | operand tree => tree.IsSound
  | expression tree => tree.IsSound

/-- Every tree that was met is sound. -/
def AllSound (met : List (Node String)) : Prop := ∀ node ∈ met, node.IsSound

variable {met met' : List (Node String)}

theorem allSound_append (h : AllSound met) (h' : AllSound met') : AllSound (met ++ met') :=
  List.forall_mem_append.2 ⟨h, h'⟩

theorem allSound_flatMap {α : Type} {walk : α → List (Node String)} {trees : List α}
    (h : ∀ t ∈ trees, AllSound (walk t)) : AllSound (trees.flatMap walk) := by
  intro node met
  obtain ⟨t, ht, inside⟩ := List.mem_flatMap.1 met
  exact h t ht node inside

/-- A tree with parts is sound in every part if it and its parts are. -/
theorem allSound_over {tree : Node String} (h : tree.IsSound) (parts : AllSound met) :
    AllSound (Node.over (fun _ => true) tree met) :=
  List.forall_mem_cons.2 ⟨h, parts⟩

end Node

open Node

/-! ### Declarations -/

namespace Declaration

theorem isSound_of_hasSpelling {d : Declaration String} (h : d.hasSpelling) : d.IsSound := by
  simp only [hasSpelling, Specifier.hasSpelling, Bool.and_eq_true] at h
  exact ⟨h.1.2, h.2, fun _ _ size _ => Int.natCast_nonneg size⟩

theorem allSound_walk {d : Declaration String} (h : d.hasSpelling) : AllSound d.walk :=
  List.forall_mem_singleton.2 (isSound_of_hasSpelling h)

end Declaration

/-! ### Expressions -/

namespace Expr

variable {e operand : Expr String}

theorem kind_ne_binary (h : e.isBinary = false) : e.kind ≠ .binary := by
  cases e with
  | binary => cases h
  | _ => exact NodeKind.noConfusion

theorem kind_ne_cast (h : e.isCast = false) : e.kind ≠ .cast := by
  cases e with
  | cast => cases h
  | _ => exact NodeKind.noConfusion

theorem kind_mem_targets (spelled : e.hasSpelling) (h : e.takesSuffix) :
    e.kind ∈ NodeKind.targets := by
  cases e with
  | blank => cases spelled
  | binary | unary | cast | sizeofType | sizeofExpr => cases h
  | _ => simp [kind, NodeKind.targets]

theorem fitsLeft_of_level {op : Operator} (h : op.leftLevel ≤ operand.level) :
    FitsLeft op operand := by
  rintro op' a b rfl
  rw [level, Operator.leftLevel] at h
  split at h
  · exact .inl h
  · rename_i left
    exact (Nat.lt_or_eq_of_le h).imp_right fun same => ⟨same, Bool.eq_false_iff.2 left⟩

theorem fitsRight_of_level {op : Operator} (h : op.rightLevel ≤ operand.level) :
    FitsRight op operand := by
  rintro op' a b rfl
  rw [level, Operator.rightLevel] at h
  split at h
  · rename_i right
    exact (Nat.lt_or_eq_of_le h).imp_right fun same => ⟨same, right⟩
  · exact .inl h

/-- An expression that can be written and needs no further parentheses is sound in every part. -/
theorem allSound_walk (h : e.isReadable) : AllSound (e.walk fun _ => true) := by
  rw [isReadable, Bool.and_eq_true] at h
  obtain ⟨spelled, grouped⟩ := h
  induction e using induct with
  | blank => cases spelled
  | literal | var => exact List.forall_mem_singleton.2 trivial
  | sizeofType type =>
      rw [hasSpelling, Bool.and_eq_true] at spelled
      refine allSound_over trivial (allSound_over ?_ (Declaration.allSound_walk spelled.2))
      exact Option.isNone_iff_eq_none.1 spelled.1
  | sizeofExpr operand ih =>
      simp only [isGrouped, Bool.and_eq_true, Bool.not_eq_true'] at grouped
      refine allSound_over trivial (allSound_over ?_ (ih spelled grouped.2))
      exact ⟨kind_ne_binary grouped.1.1, kind_ne_cast grouped.1.2⟩
  | parenthesized inner ih => exact allSound_over trivial (ih spelled grouped)
  | postfixed _ target ih | member target _ ih | pointerMember target _ ih =>
      rw [isGrouped, Bool.and_eq_true] at grouped
      exact allSound_over (kind_mem_targets spelled grouped.1) (ih spelled grouped.2)
  | unary op operand ih =>
      simp only [isGrouped, Bool.and_eq_true, Bool.not_eq_true'] at grouped
      exact allSound_over (kind_ne_binary grouped.1) (ih spelled grouped.2)
  | binary op left right ihl ihr =>
      simp only [isGrouped, Bool.and_eq_true, decide_eq_true_eq] at grouped
      simp only [hasSpelling, Bool.and_eq_true] at spelled
      obtain ⟨⟨⟨fitsLeft, fitsRight⟩, groupedLeft⟩, groupedRight⟩ := grouped
      refine allSound_over ⟨fitsLeft_of_level fitsLeft, fitsRight_of_level fitsRight⟩ ?_
      exact allSound_append (ihl spelled.1.2 groupedLeft) (ihr spelled.2 groupedRight)
  | call callee arguments ih =>
      refine allSound_over trivial ?_
      rw [walkAll_eq_flatMap]
      exact allSound_flatMap fun a ha =>
        ih a ha (rowHasSpelling_iff.1 spelled a ha) (rowIsGrouped_iff.1 grouped a ha)
  | index target subscript iht ihs =>
      simp only [isGrouped, Bool.and_eq_true] at grouped
      simp only [hasSpelling, Bool.and_eq_true] at spelled
      obtain ⟨⟨takes, groupedTarget⟩, groupedSubscript⟩ := grouped
      refine allSound_over (kind_mem_targets spelled.1 takes) ?_
      exact allSound_append (iht spelled.1 groupedTarget) (ihs spelled.2 groupedSubscript)
  | cast word operand ih =>
      simp only [isGrouped, Bool.and_eq_true, Bool.not_eq_true'] at grouped
      simp only [hasSpelling, Bool.and_eq_true] at spelled
      refine allSound_over ⟨kind_ne_binary grouped.1, ?_⟩ (ih spelled.2 grouped.2)
      cases word with
      | tagged | foreign => cases spelled.1
      | _ => rfl

/-- An expression that is left out, or can be read back, is sound in every part. -/
theorem allSound_walkOption {e : Option (Expr String)} (h : optionIsReadable e) :
    AllSound (walkOption (fun _ => true) e) := by
  refine allSound_flatMap fun a ha => allSound_walk ?_
  obtain rfl := Option.mem_toList.1 ha
  exact h

end Expr

/-! ### Variables and statements -/

namespace Variable

theorem allSound_walk {v : Variable String} (h : v.isReadable) :
    AllSound (v.walk fun _ => true) := by
  simp only [isReadable, Declaration.isReadable, Bool.and_eq_true] at h
  refine allSound_over h.1.2 (allSound_append ?_ ?_)
  · exact Declaration.allSound_walk h.1.1
  · exact Expr.allSound_walkOption h.2

theorem allSound_walkOption {v : Option (Variable String)} (h : optionIsReadable v) :
    AllSound (v.toList.flatMap (walk fun _ => true)) := by
  refine allSound_flatMap fun w hw => allSound_walk ?_
  obtain rfl := Option.mem_toList.1 hw
  exact h

end Variable

namespace Stmt

/-- Every tree met on the walk over a statement is sound. -/
def AllSound (st : Stmt String) : Prop := Node.AllSound (st.walk fun _ => true)

theorem allSound_block {ss : List (Stmt String)} (h : ∀ st ∈ ss, st.AllSound) :
    (block ss).AllSound := by
  refine allSound_over NodeKind.noConfusion (allSound_over trivial ?_)
  rw [walkAll_eq_flatMap]
  exact allSound_flatMap h

end Stmt

/-! ### Units -/

namespace TopLevel

/-- A function is sound in every part if its declarations can be written and its body is sound. -/
theorem allSound_walk_function {f : Function String} (sound : f.IsSound)
    (declared : f.declaration.hasSpelling) (parameters : ∀ d ∈ f.parameters, d.hasSpelling)
    (body : ∀ b ∈ f.body, ∀ st ∈ b.statements, st.AllSound) :
    AllSound ((function f).walk fun _ => true) := by
  refine allSound_over sound (allSound_append (allSound_append ?_ ?_) ?_)
  · exact Declaration.allSound_walk declared
  · exact allSound_flatMap fun d hd => Declaration.allSound_walk (parameters d hd)
  · refine allSound_flatMap fun b hb => allSound_over trivial (allSound_flatMap ?_)
    exact body b (Option.mem_toList.1 hb)

theorem allSound_walk_struct {u : Struct String} (sound : u.IsSound)
    (members : ∀ d ∈ u.members, d.hasSpelling) : AllSound ((struct u).walk fun _ => true) :=
  allSound_over sound (allSound_flatMap fun d hd => Declaration.allSound_walk (members d hd))

end TopLevel

end PlainC
