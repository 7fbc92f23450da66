/-
**Where the printing fails.**

The printing of a tree can fail at two kinds of part: at an expression of which nothing is known,
and at a literal that has no text.  It prints the parts in the order in which the walk over the tree
meets them, whatever the names are printed as.  So it fails for the cause of the first tree met that
has one, and where none has one, there is a text.  In a tree whose expressions are known and whose
character literals are characters, only an integer with too many digits is left to fail at.

Main definitions:

* `PlainC.Node.cause?`, `PlainC.Node.firstCause?` — why the printing fails at a tree, and at the
  first of the trees met at which it fails;
* `PlainC.Literal.IsPrintable`, `PlainC.Node.AllPrintable` — the literals and the trees met at which
  it fails for too many digits only;
* `PlainC.Node.integersMet`, `PlainC.Expr.integers` — the integers among the trees met.

Main results:

* `PlainC.Expr.failure?_text`, `PlainC.Stmt.failure?_lines`, `PlainC.Program.failure?_listing` —
  **the printing fails for the cause of the first tree met that has one**;
* `PlainC.Node.AllPrintable.exists_eq_ok`, `PlainC.Node.AllPrintable.eq_overlong` — with at most too
  many digits against it, it fails exactly if an integer met has too many;
* `PlainC.Node.allPrintable_of_allSound` — sound trees with printable literals are printable.
-/

import PlainC.Proofs.Conservation.Program
import PlainC.Proofs.Failing
import PlainC.Proofs.Soundness.Nodes
import PlainC.Tree.Listing

set_option relaxedAutoImplicit false
set_option autoImplicit false

namespace PlainC

variable {ν μ : Type} (nameText : ν → String)

/-! ### Trees at which the printing fails -/

/-- Why the printing fails at this very tree. -/
def Node.cause? : Node ν → Option Unprintable
  | expression .blank => some .unknownExpression
  | expression (.literal value) => failure? value.text
  | _ => none

/-- Why it fails at the first of the trees met at which it fails. -/
def Node.firstCause? (met : List (Node ν)) : Option Unprintable := met.findSome? Node.cause?

namespace Node

theorem firstCause?_append (met met' : List (Node ν)) :
    firstCause? (met ++ met') = (firstCause? met).or (firstCause? met') := List.findSome?_append

/-- At a tree that is entered, the printing fails at one of its parts. -/
theorem firstCause?_over {tree : Node ν} (parts : List (Node ν)) (none : tree.cause? = none) :
    firstCause? (Node.over (fun _ => true) tree parts) = firstCause? parts := by
  rw [firstCause?, Node.over, if_pos rfl, List.findSome?_cons, none, firstCause?]

theorem firstCause?_flatMap {α : Type} (walk : α → List (Node ν)) (trees : List α) :
    firstCause? (trees.flatMap walk) = trees.findSome? fun tree => firstCause? (walk tree) := by
  induction trees with
  | nil => rfl
  | cons tree trees ih =>
      rw [List.flatMap_cons, firstCause?_append, ih, List.findSome?_cons]
      cases firstCause? (walk tree) <;> rfl

theorem firstCause?_toList {α : Type} (walk : α → List (Node ν)) (tree : α) :
    firstCause? ((some tree).toList.flatMap walk) = firstCause? (walk tree) :=
  congrArg firstCause? (List.append_nil _)

end Node

/-- A row of trees is printed one by one, each as it is walked. -/
theorem failure?_mapM_eq_firstCause? {α β : Type} {print : α → Except Unprintable β}
    {walk : α → List (Node ν)} {trees : List α}
    (each : ∀ tree ∈ trees, failure? (print tree) = Node.firstCause? (walk tree)) :
    failure? (trees.mapM print) = Node.firstCause? (trees.flatMap walk) := by
  rw [failure?_mapM, Node.firstCause?_flatMap]
  induction trees with
  | nil => rfl
  | cons tree trees ih =>
      obtain ⟨here, more⟩ := List.forall_mem_cons.1 each
      rw [List.findSome?_cons, List.findSome?_cons, here, ih more]

/-! ### Expressions -/

namespace Expr

/-- **The text of an expression fails for the cause of the first tree met that has one.** -/
theorem failure?_text (e : Expr ν) :
    failure? (e.text nameText) = Node.firstCause? (e.walk fun _ => true) := by
  induction e using induct with
  | blank | var name | sizeofType type => rfl
  | literal value => simp [text, walk, Node.firstCause?, Node.cause?]
  | sizeofExpr operand ih =>
      rw [text, walk, Node.firstCause?_over _ rfl, Node.firstCause?_over _ rfl, ← ih]
      exact failure?_andPure _
  | parenthesized operand ih | postfixed op operand ih | unary op operand ih
  | member operand name ih | pointerMember operand name ih | cast word operand ih =>
      rw [text, walk, Node.firstCause?_over _ rfl, ← ih]
      exact failure?_andPure _
  | binary op left right ihLeft ihRight | index left right ihLeft ihRight =>
      rw [text, walk, Node.firstCause?_over _ rfl, Node.firstCause?_append, ← ihLeft, ← ihRight]
      exact failure?_bind fun _ => failure?_andPure _
  | call callee arguments ih =>
      rw [text, walk, Node.firstCause?_over _ rfl, walkAll_eq_flatMap, texts_eq_mapM,
        ← failure?_mapM_eq_firstCause? ih]
      exact failure?_andPure _

theorem failure?_optionText (e : Option (Expr ν)) :
    failure? (optionText nameText e) = Node.firstCause? (walkOption (fun _ => true) e) := by
  cases e with
  | none => rfl
  | some e => rw [walkOption, Node.firstCause?_toList, ← failure?_text nameText, optionText]

end Expr

/-! ### Statements -/

theorem Variable.failure?_text (v : Variable ν) :
    failure? (v.text nameText) = Node.firstCause? (v.walk fun _ => true) := by
  obtain ⟨declaration, value⟩ := v
  have noCause : Node.firstCause? declaration.walk = none := rfl
  rw [walk, Node.firstCause?_over _ rfl, Node.firstCause?_append, noCause, Option.none_or]
  cases value with
  | none => rfl
  | some e =>
      rw [Expr.walkOption, Node.firstCause?_toList, ← Expr.failure?_text nameText]
      exact failure?_andPure _

theorem Variable.failure?_optionText (v : Option (Variable ν)) :
    failure? (optionText nameText v) =
      Node.firstCause? (v.toList.flatMap (Variable.walk fun _ => true)) := by
  cases v with
  | none => rfl
  | some v => rw [Node.firstCause?_toList, ← failure?_text nameText, optionText]

namespace Stmt

/-- **The listing of a statement fails for the cause of the first tree met that has one.** -/
theorem failure?_lines (st : Stmt ν) :
    failure? (st.lines nameText) = Node.firstCause? (st.walk fun _ => true) := by
  induction st using induct with
  | blank | breakLoop | continueLoop => rfl
  | expression value =>
      rw [lines, walk, Node.firstCause?_over _ rfl, ← Expr.failure?_text nameText]
      exact failure?_andPure _
  | declaration v =>
      rw [lines, walk, Node.firstCause?_over _ rfl, ← Variable.failure?_text nameText]
      exact failure?_andPure _
  | ifThen condition body ih | whileLoop condition body ih =>
      rw [lines, walk, Node.firstCause?_over _ rfl, Node.firstCause?_append, ← ih,
        ← Expr.failure?_text nameText]
      exact failure?_bind fun _ => failure?_andPure _
  | ifElse condition thenBranch elseBranch ihThen ihElse =>
      rw [lines, walk, Node.firstCause?_over _ rfl, Node.firstCause?_append,
        Node.firstCause?_append, ← ihThen, ← ihElse, ← Expr.failure?_text nameText, Option.or_assoc]
      exact failure?_bind fun _ => failure?_bind fun _ => failure?_andPure _
  | forLoop first condition step body ih =>
      rw [lines, walk, Node.firstCause?_over _ rfl, Node.firstCause?_append,
        Node.firstCause?_append, Node.firstCause?_append, ← ih,
        ← Expr.failure?_optionText nameText step, ← Expr.failure?_optionText nameText condition,
        ← Variable.failure?_optionText nameText, Option.or_assoc, Option.or_assoc]
      exact failure?_bind fun _ => failure?_bind fun _ => failure?_bind fun _ => failure?_andPure _
  | returnWith value =>
      rw [walk, Node.firstCause?_over _ rfl]
      cases value with
      | none => rfl
      | some e =>
          rw [Expr.walkOption, Node.firstCause?_toList, ← Expr.failure?_text nameText, lines]
          exact failure?_andPure _
  | block statements ih =>
      rw [lines, walk, Node.firstCause?_over _ rfl, Node.firstCause?_over _ rfl,
        walkAll_eq_flatMap, linesAll_eq_mapM, ← failure?_mapM_eq_firstCause? ih]
      exact (failure?_andPure _).trans (failure?_map _)

end Stmt

theorem Block.failure?_lines (b : Block ν) :
    failure? (b.lines nameText) = Node.firstCause? (b.walk fun _ => true) := by
  rw [lines, Stmt.failure?_lines, Stmt.walk, Node.firstCause?_over _ rfl,
    Stmt.walkAll_eq_flatMap, walk]

/-! ### Programs -/

theorem Node.firstCause?_declarations (ds : List (Declaration ν)) :
    firstCause? (ds.flatMap Declaration.walk) = none := by
  rw [firstCause?_flatMap]
  exact List.findSome?_eq_none_iff.2 fun _ _ => rfl

theorem TopLevel.failure?_lines (u : TopLevel ν) :
    failure? (u.lines nameText) = Node.firstCause? (u.walk fun _ => true) := by
  cases u with
  | blank => rfl
  | var v => exact (failure?_andPure _).trans (v.failure?_text nameText)
  | struct u => rw [walk, Node.firstCause?_over _ rfl, Node.firstCause?_declarations]; rfl
  | function f =>
      obtain ⟨declaration, parameters, variadic, body⟩ := f
      have noCause : Node.firstCause? declaration.walk = none := rfl
      rw [walk, Node.firstCause?_over _ rfl, Node.firstCause?_append, Node.firstCause?_append,
        noCause, Node.firstCause?_declarations, Option.none_or, Option.none_or]
      cases body with
      | none => rfl
      | some b =>
          rw [Node.firstCause?_toList, ← b.failure?_lines nameText]
          exact failure?_andPure _

/-- **The listing of a program fails for the cause of the first tree met that has one.** -/
theorem Program.failure?_listing (P : Program ν) :
    failure? ((Node.program P).listing nameText) =
      Node.firstCause? ((Node.program P).walk fun _ => true) := by
  rw [Node.walk, walk, Node.firstCause?_over _ rfl,
    ← failure?_mapM_eq_firstCause? fun u _ => u.failure?_lines nameText]
  exact (failure?_map _).trans (failure?_andPure _)

/-! ### Printable trees -/

/-- The code of a character literal is a code point. -/
def Literal.IsPrintable : Literal → Prop
  | char code => 0 ≤ code ∧ code < 0x110000
  | int _ | double _ | string _ => True

/-- Something is known of an expression, and a character literal is a character. -/
def Node.IsPrintable : Node ν → Prop
  | expression .blank => False
  | expression (.literal value) => value.IsPrintable
  | _ => True

/-- The same of all trees met. -/
def Node.AllPrintable (met : List (Node ν)) : Prop := ∀ node ∈ met, node.IsPrintable

/-- The integer that a tree is. -/
def Node.integer? : Node ν → Option Int
  | expression (.literal (.int n)) => some n
  | _ => none

/-- The integers among the trees met, in order. -/
def Node.integersMet (met : List (Node ν)) : List Int := met.filterMap Node.integer?

/-- The integers of an expression, in order. -/
def Expr.integers (e : Expr ν) : List Int := Node.integersMet (e.walk fun _ => true)

/-- An integer met is one of the literals. -/
theorem Node.int_mem_literals {tree : Node ν} {n : Int}
    (h : n ∈ integersMet (tree.walk fun _ => true)) : .int n ∈ tree.literals := by
  obtain ⟨node, met, integer⟩ := List.mem_filterMap.1 h
  have own : .int n ∈ node.ownLiterals := by
    unfold integer? at integer
    split at integer
    · cases integer
      exact List.mem_singleton.2 rfl
    · cases integer
  exact List.mem_flatMap.2 ⟨node, met, own⟩

/-- A printable literal has a text unless it is an integer with too many digits. -/
theorem Literal.IsPrintable.failure?_text {value : Literal} (h : value.IsPrintable)
    {cause : Unprintable} : failure? value.text = some cause ↔
      cause = .overlong ∧ ∃ n, value = .int n ∧ ¬ isConvertible n := by
  cases value with
  | int n =>
      by_cases fits : isConvertible n
      · simp [text_int fits, failure?, fits]
      · rw [text_int_overlong fits, failure?, Option.some.injEq, eq_comm]
        exact ⟨fun same => ⟨same, n, rfl, fits⟩, And.left⟩
  | char code => simp [text_char h, failure?]
  | _ => simp [text, failure?]

namespace Node

variable {met : List (Node ν)}

/-- At a printable tree the printing fails exactly if it is an integer with too many digits. -/
theorem IsPrintable.cause?_eq_some_iff {tree : Node ν} (h : tree.IsPrintable)
    {cause : Unprintable} : tree.cause? = some cause ↔
      cause = .overlong ∧ ∃ n, tree.integer? = some n ∧ ¬ isConvertible n := by
  cases tree with
  | expression e =>
      cases e with
      | blank => exact h.elim
      | literal value =>
          rw [cause?, Literal.IsPrintable.failure?_text h]
          cases value <;> simp [integer?]
      | _ => simp [cause?, integer?]
  | _ => simp [cause?, integer?]

/-- Where all trees met are printable, the printing fails for too many digits only. -/
theorem AllPrintable.firstCause?_eq_some_iff (h : AllPrintable met) {cause : Unprintable} :
    firstCause? met = some cause ↔
      cause = .overlong ∧ ∃ n ∈ integersMet met, ¬ isConvertible n := by
  have only {cause : Unprintable} (first : firstCause? met = some cause) :
      cause = .overlong ∧ ∃ n ∈ integersMet met, ¬ isConvertible n := by
    obtain ⟨tree, member, failed⟩ := List.exists_of_findSome?_eq_some first
    obtain ⟨rfl, n, integer, long⟩ := (h tree member).cause?_eq_some_iff.1 failed
    exact ⟨rfl, n, List.mem_filterMap.2 ⟨tree, member, integer⟩, long⟩
  refine ⟨only, fun ⟨overlong, n, member, long⟩ => ?_⟩
  obtain ⟨tree, met, integer⟩ := List.mem_filterMap.1 member
  have failed := (h tree met).cause?_eq_some_iff.2 ⟨rfl, n, integer, long⟩
  obtain ⟨cause', first⟩ := Option.isSome_iff_exists.1
    (List.findSome?_isSome_iff.2 ⟨tree, met, Option.isSome_iff_exists.2 ⟨_, failed⟩⟩)
  rw [overlong, ← (only first).1]
  exact first

/-- Where the integers met do not have too many digits either, there is a text. -/
theorem AllPrintable.exists_eq_ok {α : Type} {x : Except Unprintable α} (h : AllPrintable met)
    (printed : failure? x = firstCause? met)
    (convertible : ∀ n ∈ integersMet met, isConvertible n) : ∃ a, x = .ok a := by
  refine failure?_eq_none_iff.1 (printed.trans (Option.eq_none_iff_forall_ne_some.2 ?_))
  intro cause first
  obtain ⟨-, n, member, long⟩ := h.firstCause?_eq_some_iff.1 first
  exact long (convertible n member)

/-- Where one of them does, there is none. -/
theorem AllPrintable.eq_overlong {α : Type} {x : Except Unprintable α} (h : AllPrintable met)
    (printed : failure? x = firstCause? met)
    (overlong : ∃ n ∈ integersMet met, ¬ isConvertible n) : x = .error .overlong :=
  failure?_eq_some_iff.1 (printed.trans (h.firstCause?_eq_some_iff.2 ⟨rfl, overlong⟩))

/-- A tree that is entered is printable in every part if it is itself, and its parts are. -/
theorem AllPrintable.entered {tree : Node ν} (here : tree.IsPrintable) (parts : AllPrintable met) :
    AllPrintable (Node.over (fun _ => true) tree met) := List.forall_mem_cons.2 ⟨here, parts⟩

theorem AllPrintable.append {met' : List (Node ν)} (h : AllPrintable met) (h' : AllPrintable met') :
    AllPrintable (met ++ met') := List.forall_mem_append.2 ⟨h, h'⟩

/-- The names do not matter. -/
theorem isPrintable_map (f : ν → μ) (tree : Node ν) :
    (tree.map f).IsPrintable ↔ tree.IsPrintable := by
  cases tree with
  | expression e => cases e <;> exact Iff.rfl
  | _ => exact Iff.rfl

theorem allPrintable_walk_map {f : ν → μ} {tree : Node ν} :
    AllPrintable ((tree.map f).walk fun _ => true) ↔ AllPrintable (tree.walk fun _ => true) := by
  rw [walk_map, AllPrintable, List.forall_mem_map]
  exact forall₂_congr fun node _ => isPrintable_map f node

/-- A sound tree whose own literals are printable is printable. -/
theorem isPrintable_of_isSound {tree : Node String} (sound : tree.IsSound)
    (printable : ∀ l ∈ tree.ownLiterals, l.IsPrintable) : tree.IsPrintable := by
  cases tree with
  | expression e =>
      cases e with
      | blank => exact sound
      | literal value => exact printable value (List.mem_singleton.2 rfl)
      | _ => trivial
  | _ => trivial

/-- Sound trees whose literals are printable are printable. -/
theorem allPrintable_of_allSound {met : List (Node String)} (sound : AllSound met)
    (printable : ∀ l ∈ literalsMet met, l.IsPrintable) : AllPrintable met :=
  fun node member => isPrintable_of_isSound (sound node member) fun l own =>
    printable l (List.mem_flatMap.2 ⟨node, member, own⟩)

end Node

end PlainC
