/-
**Parts from outside the language.**

A tree that is put together by hand can hold parts that no source gives: a word that names no type,
the tag of a struct that is no name, an assignment by something that is no operator, and a mark that
denies further parameters in one of several ways.  What a tree needs to know of such a part is kept,
so that the tree can be listed.

Main definitions:

* `PlainC.Foreign` — a part that stands in the place of a word, a name or an operator;
* `PlainC.Foreign.same` — whether two such parts are the same;
* `PlainC.Falsity` — the values that count as false.

Main results:

* `PlainC.Foreign.same_comm` — the order of two parts does not matter.
-/

set_option relaxedAutoImplicit false
set_option autoImplicit false

namespace PlainC

/-- A part from outside the language in the place of a word, a name or an operator. -/
structure Foreign where
  /-- What the part is, in words. -/
  sort : String
  /-- The name of a member of an enumeration. -/
  name : Option String
  text : String
  written : String
  /-- What the part has in common with the parts that are equal to it; `none` for one that is equal
  to no part, not even to itself. -/
  identity : Option String
  holdsList : Bool
deriving Repr, DecidableEq

/-- Whether two parts are the same. -/
def Foreign.same (a b : Foreign) : Bool := a.identity.isSome && a.identity == b.identity

/-- The order of two parts does not matter. -/
theorem Foreign.same_comm (a b : Foreign) : a.same b = b.same a := by
  unfold same
  cases a.identity <;> cases b.identity <;> simp [BEq.comm]

/-- The values that count as false: falsehood itself, nothing, the zeros, and what is empty. -/
inductive Falsity where
  | no
  | absent
  | zero
  | zeroDouble (negative : Bool)
  | emptyText
  | emptyRow
deriving Repr, DecidableEq

end PlainC
