/-
**The names of a tree.**

The names of a tree are those of the trees that are met on a walk over it: the names of variables,
functions, members and structs, and the tags among the type words.  A walk meets all of them.  Two
ways to replace names turn a tree into the same one exactly when they agree on its names.

Main definitions:

* `PlainC.Node.ownNames` — the names that a tree has itself, and not in one of its parts;
* `PlainC.Node.names` — the names met on a walk.

Main results:

* `PlainC.Node.walk_map` — a tree with its names replaced is walked in the same order;
* `PlainC.Node.names_map` — it has the names that replace those of the tree;
* `PlainC.Program.map_map` — replacing names twice is replacing them once;
* `PlainC.Node.map_eq_map_iff` — **the names of a tree are all that a renaming of it depends on**.
-/

import Mathlib.Data.List.Basic
import PlainC.Tree.Walk

set_option relaxedAutoImplicit false
set_option autoImplicit false

namespace PlainC

variable {ν μ : Type}

/-! ### Walks over renamed trees -/

@[simp] theorem Expr.kind_map (f : ν → μ) (e : Expr ν) : (e.map f).kind = e.kind := by
  cases e <;> rfl

@[simp] theorem Stmt.kind_map (f : ν → μ) (st : Stmt ν) : (st.map f).kind = st.kind := by
  cases st <;> rfl

@[simp] theorem TopLevel.kind_map (f : ν → μ) (u : TopLevel ν) : (u.map f).kind = u.kind := by
  cases u <;> rfl

@[simp] theorem Operand.kind_map (f : ν → μ) (o : Operand ν) : (o.map f).kind = o.kind := by
  cases o <;> rfl

/-- A tree keeps its kind when its names are replaced. -/
@[simp] theorem Node.kind_map (f : ν → μ) (tree : Node ν) : (tree.map f).kind = tree.kind := by
  cases tree with
  | blank | program | declaration | block => rfl
  | unit u => exact u.kind_map f
  | statement st => exact st.kind_map f
  | operand o => exact o.kind_map f
  | expression e => exact e.kind_map f

theorem Node.map_over (f : ν → μ) (enter : NodeKind → Bool) (tree : Node ν)
    (parts : List (Node ν)) :
    (Node.over enter tree parts).map (Node.map f) =
      Node.over enter (tree.map f) (parts.map (Node.map f)) := by
  rw [Node.over, Node.over, List.map_cons, kind_map]
  split <;> rfl

theorem Declaration.walk_map (f : ν → μ) (d : Declaration ν) :
    (d.map f).walk = d.walk.map (Node.map f) := rfl

theorem Expr.walk_map (f : ν → μ) (enter : NodeKind → Bool) (e : Expr ν) :
    (e.map f).walk enter = (e.walk enter).map (Node.map f) := by
  induction e using Expr.induct with
  | call callee arguments ih =>
      simp only [map, walk, Node.map_over, walkAll_eq_flatMap, mapAll_eq_map, List.flatMap_map,
        List.map_flatMap, Node.map]
      rw [List.flatMap_congr ih]
  | _ => simp_all [map, walk, Node.map_over, Node.map, Operand.map, Declaration.walk_map]

theorem Expr.walkOption_map (f : ν → μ) (enter : NodeKind → Bool) (e : Option (Expr ν)) :
    walkOption enter (e.map (Expr.map f)) = (walkOption enter e).map (Node.map f) := by
  cases e <;> simp [walkOption, walk_map]

theorem Variable.walk_map (f : ν → μ) (enter : NodeKind → Bool) (v : Variable ν) :
    (v.map f).walk enter = (v.walk enter).map (Node.map f) := by
  rw [walk, walk, Node.map_over, List.map_append, ← Declaration.walk_map, ← Expr.walkOption_map]
  rfl

theorem Stmt.walk_map (f : ν → μ) (enter : NodeKind → Bool) (st : Stmt ν) :
    (st.map f).walk enter = (st.walk enter).map (Node.map f) := by
  induction st using Stmt.induct with
  | forLoop first condition step body ih =>
      cases first <;>
        simp [map, walk, Node.map_over, Node.map, Variable.walk_map, Expr.walkOption_map, ih]
  | block statements ih =>
      simp only [map, walk, Node.map_over, walkAll_eq_flatMap, mapAll_eq_map, List.flatMap_map,
        List.map_flatMap, Node.map, Block.map]
      rw [List.flatMap_congr ih]
  | _ =>
      simp_all [map, walk, Node.map_over, Node.map, Expr.walk_map, Variable.walk_map,
        Expr.walkOption_map]

theorem Block.walk_map (f : ν → μ) (enter : NodeKind → Bool) (b : Block ν) :
    (b.map f).walk enter = (b.walk enter).map (Node.map f) := by
  rw [walk, walk, Node.map_over, List.map_flatMap, map, List.flatMap_map]
  exact congrArg (Node.over enter _) (List.flatMap_congr fun st _ => st.walk_map f enter)

theorem TopLevel.walk_map (f : ν → μ) (enter : NodeKind → Bool) (u : TopLevel ν) :
    (u.map f).walk enter = (u.walk enter).map (Node.map f) := by
  cases u with
  | blank => rfl
  | var v => exact v.walk_map f enter
  | function g =>
      cases body : g.body <;>
        simp [walk, map, Function.map, Node.map_over, Node.map, List.flatMap_map,
          List.map_flatMap, Declaration.walk_map, Block.walk_map, body]
  | struct u =>
      simp [walk, map, Struct.map, Node.map_over, Node.map, List.flatMap_map, List.map_flatMap,
        Declaration.walk_map]

theorem Program.walk_map (f : ν → μ) (enter : NodeKind → Bool) (p : Program ν) :
    (p.map f).walk enter = (p.walk enter).map (Node.map f) := by
  rw [walk, walk, Node.map_over, List.map_flatMap, map, List.flatMap_map]
  exact congrArg (Node.over enter _) (List.flatMap_congr fun u _ => u.walk_map f enter)

theorem Operand.walk_map (f : ν → μ) (enter : NodeKind → Bool) (o : Operand ν) :
    (o.map f).walk enter = (o.walk enter).map (Node.map f) := by
  cases o <;> simp [walk, map, Node.map_over, Node.map, Declaration.walk_map, Expr.walk_map]

/-- A tree with its names replaced is walked in the same order. -/
theorem Node.walk_map (f : ν → μ) (enter : NodeKind → Bool) (tree : Node ν) :
    (tree.map f).walk enter = (tree.walk enter).map (Node.map f) := by
  cases tree with
  | blank => rfl
  | program tree => exact tree.walk_map f enter
  | unit tree => exact tree.walk_map f enter
  | declaration tree => exact tree.walk_map f
  | block tree => exact tree.walk_map f enter
  | statement tree => exact tree.walk_map f enter
  | operand tree => exact tree.walk_map f enter
  | expression tree => exact tree.walk_map f enter

/-! ### Names met on a walk -/

/-- The tag of a type word, if it is a struct. -/
def TypeWord.names : TypeWord ν → List ν
  | struct name => [name]
  | _ => []

/-- The names that a tree has itself, and not in one of its parts. -/
def Node.ownNames : Node ν → List ν
  | .declaration d => d.specifier.words.flatMap TypeWord.names ++ d.name.toList
  | .unit (.struct u) => [u.name]
  | .expression (.var name) | .expression (.call name _) | .expression (.member _ name)
  | .expression (.pointerMember _ name) => [name]
  | .expression (.cast word _) => word.names
  | _ => []

/-- The names of the trees met on a walk, in order. -/
def namesMet (met : List (Node ν)) : List ν := met.flatMap Node.ownNames

/-- The names of a tree: those met on a walk through all of it. -/
def Node.names (tree : Node ν) : List ν := namesMet (tree.walk fun _ => true)

theorem TypeWord.names_map (f : ν → μ) (w : TypeWord ν) : (w.map f).names = w.names.map f := by
  cases w <;> rfl

theorem Node.ownNames_map (f : ν → μ) (tree : Node ν) :
    (tree.map f).ownNames = tree.ownNames.map f := by
  cases tree with
  | declaration d =>
      cases name : d.name <;>
        simp [map, Declaration.map, Specifier.map, ownNames, List.flatMap_map, List.map_flatMap,
          TypeWord.names_map, name]
  | unit u => cases u <;> rfl
  | expression e => cases e <;> first | rfl | exact TypeWord.names_map f _
  | _ => rfl

/-- A tree with its names replaced has the names that replace those of the tree. -/
theorem Node.names_map (f : ν → μ) (tree : Node ν) : (tree.map f).names = tree.names.map f := by
  rw [names, namesMet, walk_map, List.flatMap_map, List.flatMap_congr fun t _ => ownNames_map f t,
    ← List.map_flatMap]
  rfl

/-! ### Names replaced twice -/

section

variable {ν μ κ : Type} (f : ν → μ) (g : μ → κ)

theorem TypeWord.map_map (w : TypeWord ν) : (w.map f).map g = w.map (g ∘ f) := by
  cases w <;> rfl

theorem Declaration.map_map (d : Declaration ν) : (d.map f).map g = d.map (g ∘ f) := by
  simp [map, Specifier.map, TypeWord.map_map]

theorem Expr.map_map (e : Expr ν) : (e.map f).map g = e.map (g ∘ f) := by
  induction e using Expr.induct with
  | call callee arguments ih =>
      have each : arguments.map (map g ∘ map f) = arguments.map (map (g ∘ f)) :=
        List.map_congr_left ih
      simp [map, mapAll_eq_map, each]
  | _ => simp_all [map, Declaration.map_map, TypeWord.map_map]

theorem Expr.map_comp_map : Expr.map g ∘ Expr.map f = Expr.map (g ∘ f) :=
  funext (Expr.map_map f g)

theorem Variable.map_map (v : Variable ν) : (v.map f).map g = v.map (g ∘ f) := by
  simp [map, Declaration.map_map, Expr.map_comp_map]

theorem Stmt.map_map (st : Stmt ν) : (st.map f).map g = st.map (g ∘ f) := by
  induction st using Stmt.induct with
  | forLoop first condition step body ih =>
      cases first <;> simp [map, Variable.map_map, Expr.map_comp_map, ih]
  | block statements ih =>
      have each : statements.map (map g ∘ map f) = statements.map (map (g ∘ f)) :=
        List.map_congr_left ih
      simp [map, mapAll_eq_map, each]
  | _ => simp_all [map, Variable.map_map, Expr.map_map, Expr.map_comp_map]

theorem Block.map_map (b : Block ν) : (b.map f).map g = b.map (g ∘ f) := by
  simp [map, Stmt.map_map]

theorem TopLevel.map_map (u : TopLevel ν) : (u.map f).map g = u.map (g ∘ f) := by
  cases u with
  | blank => rfl
  | var v => exact congrArg var (v.map_map f g)
  | function h =>
      cases body : h.body <;>
        simp [map, Function.map, Declaration.map_map, Block.map_map, body]
  | struct u => simp [map, Struct.map, Declaration.map_map]

/-- Replacing the names of a program twice is replacing them by both ways at one go. -/
theorem Program.map_map (p : Program ν) : (p.map f).map g = p.map (g ∘ f) := by
  simp [map, TopLevel.map_map]

end

/-! ### Trees with the same names replaced -/

section

variable {f g : ν → μ}

theorem TypeWord.map_congr {w : TypeWord ν} (same : ∀ x ∈ w.names, f x = g x) :
    w.map f = w.map g := by
  cases w with
  | struct name => exact congrArg struct (same name (List.mem_singleton_self name))
  | _ => rfl

theorem Declaration.map_congr {d : Declaration ν} (same : ∀ x ∈ namesMet d.walk, f x = g x) :
    d.map f = d.map g := by
  simp only [namesMet, walk, List.flatMap_singleton, Node.ownNames] at same
  have words : d.specifier.words.map (TypeWord.map f) = d.specifier.words.map (TypeWord.map g) :=
    List.map_congr_left fun w hw => TypeWord.map_congr fun x hx =>
      same x (List.mem_append_left _ (List.mem_flatMap.2 ⟨w, hw, hx⟩))
  have own : d.name.map f = d.name.map g := Option.map_congr fun x hx =>
    same x (List.mem_append_right _ (Option.mem_toList.2 hx))
  rw [map, map, Specifier.map, Specifier.map, words, own]

/-- The names met on the walk from a tree: its own, and those of its parts. -/
theorem forall_mem_namesMet_over {P : ν → Prop} {tree : Node ν} {parts : List (Node ν)} :
    (∀ x ∈ namesMet (Node.over (fun _ => true) tree parts), P x) ↔
      (∀ x ∈ tree.ownNames, P x) ∧ ∀ x ∈ namesMet parts, P x :=
  List.forall_mem_append

theorem forall_mem_namesMet_append {P : ν → Prop} {met more : List (Node ν)} :
    (∀ x ∈ namesMet (met ++ more), P x) ↔
      (∀ x ∈ namesMet met, P x) ∧ ∀ x ∈ namesMet more, P x := by
  rw [namesMet, List.flatMap_append]
  exact List.forall_mem_append

/-- Trees in a row, walked one by one. -/
theorem map_congr_of_walks {α β : Type} {map : (ν → μ) → α → β} {walk : α → List (Node ν)}
    {as : List α} (each : ∀ a ∈ as, (∀ x ∈ namesMet (walk a), f x = g x) → map f a = map g a)
    (same : ∀ x ∈ namesMet (as.flatMap walk), f x = g x) : as.map (map f) = as.map (map g) := by
  refine List.map_congr_left fun a ha => each a ha fun x hx => same x ?_
  rw [namesMet, List.flatMap_assoc]
  exact List.mem_flatMap.2 ⟨a, ha, hx⟩

theorem Expr.map_congr {e : Expr ν} (same : ∀ x ∈ namesMet (e.walk fun _ => true), f x = g x) :
    e.map f = e.map g := by
  induction e using Expr.induct with
  | call callee arguments ih =>
      rw [walk, forall_mem_namesMet_over, walkAll_eq_flatMap] at same
      rw [map, map, mapAll_eq_map, mapAll_eq_map, map_congr_of_walks ih same.2,
        same.1 callee (List.mem_singleton_self _)]
  | sizeofType type =>
      rw [walk, forall_mem_namesMet_over, forall_mem_namesMet_over] at same
      exact congrArg sizeofType (Declaration.map_congr same.2.2)
  | cast word operand ih =>
      rw [walk, forall_mem_namesMet_over] at same
      rw [map, map, TypeWord.map_congr same.1, ih same.2]
  | sizeofExpr operand ih =>
      rw [walk, forall_mem_namesMet_over, forall_mem_namesMet_over] at same
      rw [map, map, ih same.2.2]
  | parenthesized inner ih | postfixed op inner ih | unary op inner ih =>
      rw [walk, forall_mem_namesMet_over] at same
      rw [map, map, ih same.2]
  | binary op left right ihLeft ihRight | index left right ihLeft ihRight =>
      rw [walk, forall_mem_namesMet_over, forall_mem_namesMet_append] at same
      rw [map, map, ihLeft same.2.1, ihRight same.2.2]
  | member target name ih | pointerMember target name ih =>
      rw [walk, forall_mem_namesMet_over] at same
      rw [map, map, ih same.2, same.1 name (List.mem_singleton_self _)]
  | var name => exact congrArg var (same name (List.mem_singleton_self _))
  | blank | literal => rfl

theorem Expr.optionMap_congr {e : Option (Expr ν)}
    (same : ∀ x ∈ namesMet (walkOption (fun _ => true) e), f x = g x) :
    e.map (Expr.map f) = e.map (Expr.map g) := by
  cases e with
  | none => rfl
  | some e => exact congrArg some (map_congr (by simpa [walkOption] using same))

theorem Variable.map_congr {v : Variable ν}
    (same : ∀ x ∈ namesMet (v.walk fun _ => true), f x = g x) : v.map f = v.map g := by
  rw [walk, forall_mem_namesMet_over, forall_mem_namesMet_append] at same
  rw [map, map, Declaration.map_congr same.2.1, Expr.optionMap_congr same.2.2]

theorem Stmt.map_congr {st : Stmt ν} (same : ∀ x ∈ namesMet (st.walk fun _ => true), f x = g x) :
    st.map f = st.map g := by
  induction st using Stmt.induct with
  | expression value =>
      rw [walk, forall_mem_namesMet_over] at same
      exact congrArg expression (Expr.map_congr same.2)
  | declaration v =>
      rw [walk, forall_mem_namesMet_over] at same
      exact congrArg declaration (Variable.map_congr same.2)
  | ifThen condition thenBranch ih =>
      rw [walk, forall_mem_namesMet_over, forall_mem_namesMet_append] at same
      rw [map, map, Expr.map_congr same.2.1, ih same.2.2]
  | ifElse condition thenBranch elseBranch ih ih' =>
      rw [walk, forall_mem_namesMet_over, forall_mem_namesMet_append,
        forall_mem_namesMet_append] at same
      rw [map, map, Expr.map_congr same.2.1.1, ih same.2.1.2, ih' same.2.2]
  | whileLoop condition body ih =>
      rw [walk, forall_mem_namesMet_over, forall_mem_namesMet_append] at same
      rw [map, map, Expr.map_congr same.2.1, ih same.2.2]
  | forLoop first condition step body ih =>
      rw [walk, forall_mem_namesMet_over, forall_mem_namesMet_append, forall_mem_namesMet_append,
        forall_mem_namesMet_append] at same
      have declared : first.map (Variable.map f) = first.map (Variable.map g) := by
        refine Option.map_congr fun v hv => Variable.map_congr fun x hx => same.2.1.1.1 x ?_
        simpa [Option.mem_def.1 hv] using hx
      rw [map, map, declared, Expr.optionMap_congr same.2.1.1.2, Expr.optionMap_congr same.2.1.2,
        ih same.2.2]
  | returnWith value =>
      rw [walk, forall_mem_namesMet_over] at same
      exact congrArg returnWith (Expr.optionMap_congr same.2)
  | block statements ih =>
      rw [walk, forall_mem_namesMet_over, forall_mem_namesMet_over, walkAll_eq_flatMap] at same
      rw [map, map, mapAll_eq_map, mapAll_eq_map, map_congr_of_walks ih same.2.2]
  | blank | breakLoop | continueLoop => rfl

theorem Block.map_congr {b : Block ν} (same : ∀ x ∈ namesMet (b.walk fun _ => true), f x = g x) :
    b.map f = b.map g := by
  rw [walk, forall_mem_namesMet_over] at same
  rw [map, map, map_congr_of_walks (fun _ _ => Stmt.map_congr) same.2]

theorem TopLevel.map_congr {u : TopLevel ν}
    (same : ∀ x ∈ namesMet (u.walk fun _ => true), f x = g x) : u.map f = u.map g := by
  cases u with
  | blank => rfl
  | var v => exact congrArg var (Variable.map_congr same)
  | function h =>
      rw [walk, forall_mem_namesMet_over, forall_mem_namesMet_append,
        forall_mem_namesMet_append] at same
      have body : h.body.map (Block.map f) = h.body.map (Block.map g) := by
        refine Option.map_congr fun b hb => Block.map_congr fun x hx => same.2.2 x ?_
        simpa [Option.mem_def.1 hb] using hx
      rw [map, map, Function.map, Function.map, Declaration.map_congr same.2.1.1, body,
        map_congr_of_walks (fun _ _ => Declaration.map_congr) same.2.1.2]
  | struct u =>
      rw [walk, forall_mem_namesMet_over] at same
      rw [map, map, Struct.map, Struct.map, same.1 u.name (List.mem_singleton_self _),
        map_congr_of_walks (fun _ _ => Declaration.map_congr) same.2]

theorem Program.map_congr {p : Program ν}
    (same : ∀ x ∈ namesMet (p.walk fun _ => true), f x = g x) : p.map f = p.map g := by
  rw [walk, forall_mem_namesMet_over] at same
  rw [map, map, map_congr_of_walks (fun _ _ => TopLevel.map_congr) same.2]

theorem Operand.map_congr {o : Operand ν}
    (same : ∀ x ∈ namesMet (o.walk fun _ => true), f x = g x) : o.map f = o.map g := by
  cases o with
  | blank => rfl
  | type d =>
      rw [walk, forall_mem_namesMet_over] at same
      exact congrArg type (Declaration.map_congr same.2)
  | expression e =>
      rw [walk, forall_mem_namesMet_over] at same
      exact congrArg expression (Expr.map_congr same.2)

/-- **Two ways to replace names turn a tree into the same one exactly when they agree on its
names.** -/
theorem Node.map_eq_map_iff {tree : Node ν} :
    tree.map f = tree.map g ↔ ∀ x ∈ tree.names, f x = g x := by
  constructor
  · intro same x hx
    have names : tree.names.map f = tree.names.map g := by rw [← names_map, ← names_map, same]
    exact List.map_inj_left.1 names x hx
  · intro same
    cases tree with
    | blank => rfl
    | program tree => exact congrArg program (Program.map_congr same)
    | unit tree => exact congrArg unit (TopLevel.map_congr same)
    | declaration tree => exact congrArg declaration (Declaration.map_congr same)
    | block tree => exact congrArg block (Block.map_congr same)
    | statement tree => exact congrArg statement (Stmt.map_congr same)
    | operand tree => exact congrArg operand (Operand.map_congr same)
    | expression tree => exact congrArg expression (Expr.map_congr same)

end

end PlainC
