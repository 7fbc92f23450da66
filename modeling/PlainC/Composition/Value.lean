/-
**Values for compositions.**

A tree can be put together by hand from parts that are chosen freely, so a part can be anything: a
tree, a name, an operator, a number, a text, a list, or nothing at all.  Whether it fits its place
is checked when the tree is put together.

Main definitions:

* `PlainC.Member` — a member of one of the enumerations of the language: its operators, words,
  kinds of literal and kinds of layer;
* `PlainC.Value` — anything that can be given as a part;
* `PlainC.Value.kindName` — what a value is, in words;
* `PlainC.Value.falsity?`, `PlainC.Value.isTrue` — whether a value counts as true.

Main results:

* `PlainC.Member.mem_all` — the list of all members is complete;
* `PlainC.Value.falsity?_ofFalsity` — the values that count as false are told apart by the way in
  which they do.
-/

import PlainC.Tree.Node

set_option relaxedAutoImplicit false
set_option autoImplicit false

namespace PlainC

/-! ### Members of enumerations -/

/-- A member of one of the enumerations of the language. -/
inductive Member where
  | postfixOp (op : PostfixOp)
  | unaryOp (op : UnaryOp)
  | binaryOp (op : BinaryOp)
  | assignOp (op : AssignOp)
  | storage
  | qualifier
  | typeWord (kind : TypeWord.Kind)
  | baseType (base : BaseType)
  | layer (kind : LayerKind)
  | literal (kind : LiteralKind)
deriving Repr, DecidableEq

namespace Member

/-- The name of the enumeration. -/
def familyName : Member → String
  | postfixOp _ => "PostfixOp"
  | unaryOp _ => "UnaryOp"
  | binaryOp _ => "BinaryOperator"
  | assignOp _ => "AssignOp"
  | storage => "StorageSpecifier"
  | qualifier => "TypeQualifier"
  | typeWord _ => "TypeSpecifierKind"
  | baseType _ => "BaseType"
  | layer _ => "DeclaratorKind"
  | literal _ => "LiteralKind"

/-- The name of the member within its enumeration. -/
def name : Member → String
  | postfixOp op => op.name
  | unaryOp op => op.name
  | binaryOp op => op.name
  | assignOp op => op.name
  | storage => "STATIC"
  | qualifier => "CONST"
  | typeWord kind => kind.text.map Char.toUpper
  | baseType base => base.text.map Char.toUpper
  | layer kind => kind.name
  | literal kind => kind.name

/-- The text of a member: the spelling of an operator, the word of a word. -/
def text : Member → String
  | postfixOp op => op.spelling
  | unaryOp op => op.spelling
  | binaryOp op => op.spelling
  | assignOp op => op.spelling
  | storage => "static"
  | qualifier => "const"
  | typeWord kind => kind.text
  | baseType base => base.text
  | m => m.familyName ++ "." ++ m.name

/-- The members of the enumeration to which a member belongs, in the order of their declaration. -/
def family : Member → List Member
  | postfixOp _ => PostfixOp.all.map postfixOp
  | unaryOp _ => UnaryOp.all.map unaryOp
  | binaryOp _ => BinaryOp.all.map binaryOp
  | assignOp _ => AssignOp.all.map assignOp
  | storage => [storage]
  | qualifier => [qualifier]
  | typeWord _ => TypeWord.Kind.all.map typeWord
  | baseType _ => BaseType.all.map baseType
  | layer _ => LayerKind.all.map layer
  | literal _ => LiteralKind.all.map literal

/-- The members of all enumerations. -/
def all : List Member :=
  PostfixOp.all.map postfixOp ++ UnaryOp.all.map unaryOp ++ BinaryOp.all.map binaryOp
    ++ AssignOp.all.map assignOp ++ [storage, qualifier] ++ TypeWord.Kind.all.map typeWord
    ++ BaseType.all.map baseType ++ LayerKind.all.map layer ++ LiteralKind.all.map literal

/-- The place of a member in its enumeration, counted from one. -/
def number (m : Member) : Nat := m.family.idxOf m + 1

/-- The member with the name `family.member`. -/
def ofName? (text : String) : Option Member :=
  all.find? fun m => m.familyName ++ "." ++ m.name = text

/-- The list of all members is complete. -/
theorem mem_all (m : Member) : m ∈ all := by
  cases m with
  | postfixOp op => cases op <;> decide
  | unaryOp op => cases op <;> decide
  | binaryOp op => cases op <;> decide
  | assignOp op => cases op <;> decide
  | storage => decide
  | qualifier => decide
  | typeWord kind => cases kind <;> decide
  | baseType base => cases base <;> decide
  | layer kind => cases kind <;> decide
  | literal kind => cases kind <;> decide

end Member

/-! ### Values -/

/-- Anything that can be given as a part of a composition. -/
inductive Value where
  | nothing
  | bool (value : Bool)
  | int (value : Int)
  | double (value : Double)
  | text (value : String)
  | list (values : List Value)
  | name (text : String)
  | member (value : Member)
  | assignment (op : Value)
  | typeWord (word : TypeWord String)
  | specifier (value : Specifier String)
  | shape (value : Shape)
  | layer (kind size : Value)
  | resolved (base isUnsigned isSigned struct : Value)
  | node (tree : Node String)
deriving Repr

namespace Value

/-- What a value is, in words. -/
def kindName : Value → String
  | nothing => "NoneType"
  | bool _ => "bool"
  | int _ => "int"
  | double _ => "float"
  | text _ => "str"
  | list _ => "list"
  | name _ => "Symbol"
  | member value => value.familyName
  | assignment _ => "Assign"
  | typeWord _ => "TypeSpecifier"
  | specifier _ => "DeclarationSpecifier"
  | shape value => value.kindName
  | layer _ _ => "DeclaratorLayer"
  | resolved _ _ _ _ => "ResolvedType"
  | node tree => tree.kind.name

/-- How a value counts as false; `none` for one that counts as true. -/
def falsity? : Value → Option Falsity
  | nothing => some .absent
  | bool value => if value then none else some .no
  | int value => if value = 0 then some .zero else none
  | double (.finite negative significand _) =>
      if significand = 0 then some (.zeroDouble negative) else none
  | text value => if value = "" then some .emptyText else none
  | list values => if values.isEmpty then some .emptyRow else none
  | _ => none

/-- Whether a value counts as true. -/
def isTrue (v : Value) : Bool := v.falsity?.isNone

/-- The value that counts as false in a given way. -/
def ofFalsity : Falsity → Value
  | .no => bool false
  | .absent => nothing
  | .zero => int 0
  | .zeroDouble negative => double (.zero negative)
  | .emptyText => text ""
  | .emptyRow => list []

/-- The values that count as false are told apart by the way in which they do. -/
theorem falsity?_ofFalsity (f : Falsity) : (ofFalsity f).falsity? = some f := by
  cases f <;> rfl

end Value

end PlainC
