/-
**Values in the place of words, names and operators.**

A few places of a tree accept any value: the kind of a type word, the tag of a struct, and what
assigns.  The tree keeps of such a value how it is listed, what it is equal to, and whether it holds
a list, since values that hold lists cannot be members of sets.

Main definitions:

* `PlainC.Value.identity` — what a value has in common with the values equal to it;
* `PlainC.Node.holdsList`, `PlainC.Value.holdsList` — whether a list is anywhere among the parts;
* `PlainC.Value.asForeign` — what a tree keeps of a value.

Main results:

* `PlainC.Value.identity_bool` — a truth value is equal to a number.
-/

import PlainC.Composition.Written
import PlainC.Tree.Walk

set_option relaxedAutoImplicit false
set_option autoImplicit false

namespace PlainC

/-! ### Equal values -/

namespace Value

/-- What a value has in common with the values equal to it: numbers are equal if they have the same
value, whatever their sort, and truth values are the numbers zero and one.  A double that is no
number is equal to nothing, not even to itself, and so is what is put together from it. -/
def identity : Value → Option String
  | bool value => some (if value then "1" else "0")
  | int value => some (toString value)
  | double .nan => none
  | double value => some ((value.toInt?.map toString).getD value.text)
  | assignment op => do return Written.record "Assign" [("op", ← op.identity)]
  | layer kind size => do
      return Written.record "DeclaratorLayer" [("kind", ← kind.identity), ("size", ← size.identity)]
  | resolved base isUnsigned isSigned struct => do
      return Written.record "ResolvedType"
        [("base_type", ← base.identity), ("is_unsigned", ← isUnsigned.identity),
         ("is_signed_explicit", ← isSigned.identity), ("struct_name", ← struct.identity)]
  | v => some v.written

/-- A truth value is equal to a number. -/
theorem identity_bool (value : Bool) :
    (bool value).identity = (int (if value then 1 else 0)).identity := by
  cases value <;> rfl

end Value

/-! ### Lists among the parts -/

/-- Whether a word is written with a list, as its kind or as the tag of a struct. -/
def TypeWord.holdsList {ν : Type} : TypeWord ν → Bool
  | tagged part | foreign part => part.holdsList
  | _ => false

/-- Whether a tree holds a list itself, apart from its parts. -/
def Node.holdsOwnList : Node String → Bool
  | declaration tree => tree.specifier.words.any TypeWord.holdsList
  | expression (.cast word _) => word.holdsList
  | expression (.binary (.foreign part) _ _) => part.holdsList
  | unit (.function tree) => tree.variadic == .emptyRow
  | _ => false

/-- Whether a tree holds a list anywhere. -/
def Node.holdsList (tree : Node String) : Bool := (tree.walk fun _ => true).any holdsOwnList

namespace Value

/-- Whether a value is a list or holds one. -/
def holdsList : Value → Bool
  | list _ => true
  | assignment op => op.holdsList
  | layer kind size => kind.holdsList || size.holdsList
  | resolved base isUnsigned isSigned struct =>
      base.holdsList || isUnsigned.holdsList || isSigned.holdsList || struct.holdsList
  | typeWord word => word.holdsList
  | specifier value => value.words.any TypeWord.holdsList
  | node tree => tree.holdsList
  | _ => false

/-! ### Foreign parts -/

/-- What a tree keeps of a value in the place of a word, a name or an operator. -/
def asForeign (v : Value) : Foreign where
  sort := v.kindName
  name := match v with
    | member value => some value.name
    | _ => none
  text := v.shown
  written := v.written
  identity := v.identity
  holdsList := v.holdsList

end Value

end PlainC
