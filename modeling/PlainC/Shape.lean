/-
**Declarator shapes.**

A declarator turns the type of a specifier into the type of a name by pointers and arrays.  Its
shape lists them from the outside in: the outermost one applies to the name first, so `*x[3]` is an
array of three pointers.  A shape is also a row of layers, and can be put together from one.

Main definitions:

* `PlainC.Shape` — the pointers and arrays around a name;
* `PlainC.Layer` — one pointer or array, with the size of an array if one is given;
* `PlainC.Shape.layers` — the layers of a shape, outermost first;
* `PlainC.Shape.compose` — the shape with given layers, if every one of them is sound;
* `PlainC.Shape.text` — a shape in words.

Main results:

* `PlainC.Shape.compose_layers` — a shape is recovered from its layers.
-/

import PlainC.Diagnostic

set_option relaxedAutoImplicit false
set_option autoImplicit false

namespace PlainC

/-! ### Shapes and layers -/

/-- The pointers and arrays around a name.  A `plain` name has the type of the specifier;
`unspecified` stands for a shape that is not known. -/
inductive Shape where
  | plain
  | unspecified
  | pointer (target : Shape)
  | array (element : Shape) (size : Option Nat)
deriving Repr, DecidableEq

/-- The two kinds of layer. -/
inductive LayerKind where
  | pointer | array
deriving Repr, DecidableEq

/-- The kinds of layer, in the order of their declaration. -/
def LayerKind.all : List LayerKind := [.pointer, .array]

/-- The name of a kind of layer in listings. -/
def LayerKind.name : LayerKind → String
  | .pointer => "POINTER"
  | .array => "ARRAY"

/-- One layer of a declarator, with the size that was given, if any.  Sizes are of an arbitrary
type `σ`, since a size that is given need not be sound. -/
structure Layer (σ : Type) where
  kind : LayerKind
  size : Option σ := none
deriving Repr, DecidableEq

namespace Shape

/-- The layers of a shape, outermost first. -/
def layers : Shape → List (Layer Nat)
  | plain | unspecified => []
  | pointer target => ⟨.pointer, none⟩ :: target.layers
  | array element size => ⟨.array, size⟩ :: element.layers

/-- The number of layers. -/
def depth (s : Shape) : Nat := s.layers.length

/-- Whether the name has the type of the specifier itself. -/
def isPlain : Shape → Bool
  | plain => true
  | _ => false

/-- The name of the sort of a shape in listings. -/
def kindName : Shape → String
  | plain => "TerminalDeclarator"
  | unspecified => "DeclaratorType"
  | pointer _ => "PointerDeclarator"
  | array _ _ => "ArrayDeclarator"

/-! ### Composition -/

/-- A sound array size is a natural number. -/
def sizeOfInt (size : Int) : Except Misfit Nat :=
  if size < 0 then .error (.negativeSize size) else .ok size.toNat

/-- Puts one layer around a shape.  A pointer carries no size; the size of an array, if there is
one, is checked by `check`. -/
def wrap {σ : Type} (check : σ → Except Misfit Nat) (layer : Layer σ) (inner : Shape) :
    Except Misfit Shape :=
  match layer.kind, layer.size with
  | .pointer, none => .ok (.pointer inner)
  | .pointer, some _ => .error .sizeOnPointer
  | .array, none => .ok (.array inner none)
  | .array, some size => (check size).map fun n => .array inner (some n)

/-- The shape with the given layers, outermost first; the innermost one is put on first. -/
def compose {σ : Type} (check : σ → Except Misfit Nat) : List (Layer σ) → Except Misfit Shape
  | [] => .ok .plain
  | layer :: layers => (compose check layers).bind (wrap check layer)

/-- The shape with the given layers, whose sizes are integers. -/
def ofLayers (layers : List (Layer Int)) : Except Misfit Shape := compose sizeOfInt layers

/-- Whether every part of a shape is known. -/
def isKnown : Shape → Bool
  | plain => true
  | unspecified => false
  | pointer target => target.isKnown
  | array element _ => element.isKnown

/-- A shape is recovered from its layers. -/
theorem compose_layers (s : Shape) (h : s.isKnown) : compose .ok s.layers = .ok s := by
  induction s with
  | plain => rfl
  | unspecified => cases h
  | pointer target ih =>
      have inner := ih h
      simp [layers, compose, inner, Except.bind, wrap]
  | array element size ih =>
      have inner := ih h
      cases size <;> simp [layers, compose, inner, Except.bind, wrap, Except.map]

/-! ### Words -/

/-- One layer in words. -/
def layerText (layer : Layer Nat) : String :=
  match layer.kind, layer.size with
  | .pointer, _ => "pointer to"
  | .array, none => "array of"
  | .array, some size => "array[" ++ toString size ++ "] of"

/-- A shape in words, outermost layer first. -/
def text (s : Shape) : String := " ".intercalate (s.layers.map layerText)

end Shape

end PlainC
