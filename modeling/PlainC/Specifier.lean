/-
**Type words and specifiers.**

A declaration begins with its specifier: whether it is static, whether it is const, and its type
words in the order in which they are written.  The words alone name a type; only some combinations
do, each word may appear once, and their order does not matter.

A specifier that is put together by hand can also hold a foreign word, which takes part in no type,
or a struct whose tag is foreign.

Names inside trees are of an arbitrary type `ν`: texts where a tree is read and printed, symbols
where it is handed on.

Main definitions:

* `PlainC.TypeWord`, `PlainC.TypeWord.Kind` — a base type word or `struct` with a name, and the
  enumeration of the words;
* `PlainC.Specifier` — everything that is written before a declarator;
* `PlainC.ResolvedType`, `PlainC.TypeWord.resolve` — the type that some words name together.

Main results:

* `PlainC.TypeWord.same_comm` — which of two words comes first does not decide whether they are the
  same;
* `PlainC.TypeWord.resolve_struct` — one struct word names that struct;
* `PlainC.TypeWord.map_id`, `PlainC.Specifier.map_id` — renaming by the identity changes nothing.
-/

import PlainC.Diagnostic
import PlainC.Foreign
import PlainC.Token

set_option relaxedAutoImplicit false
set_option autoImplicit false

namespace PlainC

/-! ### Type words -/

/-- A base type word, or `struct` with the name of the struct or with a foreign tag, or a foreign
word. -/
inductive TypeWord (ν : Type) where
  | void | char | int | long | double | signed | unsigned
  | struct (name : ν)
  | tagged (tag : Foreign)
  | foreign (part : Foreign)
deriving Repr, DecidableEq

namespace TypeWord

/-- The words of the language. -/
inductive Kind where
  | void | char | int | long | double | signed | unsigned | struct
deriving Repr, DecidableEq

/-- All type words, in the order of their declaration. -/
def Kind.all : List Kind := [.void, .char, .int, .long, .double, .signed, .unsigned, .struct]

/-- The spelling of a word. -/
def Kind.text : Kind → String
  | .void => "void"
  | .char => "char"
  | .int => "int"
  | .long => "long"
  | .double => "double"
  | .signed => "signed"
  | .unsigned => "unsigned"
  | .struct => "struct"

variable {ν μ : Type}

/-- Which word of the language it is; `none` for a foreign one. -/
def kind? : TypeWord ν → Option Kind
  | void => some .void
  | char => some .char
  | int => some .int
  | long => some .long
  | double => some .double
  | signed => some .signed
  | unsigned => some .unsigned
  | struct _ | tagged _ => some .struct
  | foreign _ => none

/-- Whether the word is `struct`. -/
def isStruct (w : TypeWord ν) : Bool := w.kind? = some .struct

/-- The word with a name; `none` for a struct without one, or for another word with one. -/
def ofKind? : Kind → Option ν → Option (TypeWord ν)
  | .void, none => some .void
  | .char, none => some .char
  | .int, none => some .int
  | .long, none => some .long
  | .double, none => some .double
  | .signed, none => some .signed
  | .unsigned, none => some .unsigned
  | .struct, some name => some (.struct name)
  | _, _ => none

/-- The type word of a single lexeme; `struct` takes a name and is none. -/
def ofLexeme? : Lexeme → Option (TypeWord ν)
  | .keyword .void => some .void
  | .keyword .char => some .char
  | .keyword .int => some .int
  | .keyword .long => some .long
  | .keyword .double => some .double
  | .keyword .signed => some .signed
  | .keyword .unsigned => some .unsigned
  | _ => none

/-- The word with its name replaced. -/
def map (f : ν → μ) : TypeWord ν → TypeWord μ
  | void => .void
  | char => .char
  | int => .int
  | long => .long
  | double => .double
  | signed => .signed
  | unsigned => .unsigned
  | struct name => .struct (f name)
  | tagged tag => .tagged tag
  | foreign part => .foreign part

@[simp] theorem map_id (w : TypeWord ν) : w.map id = w := by cases w <;> rfl

@[simp] theorem kind?_map (f : ν → μ) (w : TypeWord ν) : (w.map f).kind? = w.kind? := by
  cases w <;> rfl

/-- Whether two words are the same, whatever structs they name. -/
def same : TypeWord ν → TypeWord μ → Bool
  | foreign a, foreign b => a.same b
  | v, w => v.kind?.isSome && v.kind? == w.kind?

/-- The order of two words does not matter. -/
theorem same_comm (v : TypeWord ν) (w : TypeWord μ) : v.same w = w.same v := by
  cases v <;> cases w <;> first | rfl | exact Foreign.same_comm ..

/-- The text of a word apart from the name of a struct. -/
def bareText : TypeWord ν → String
  | void => "void"
  | char => "char"
  | int => "int"
  | long => "long"
  | double => "double"
  | signed => "signed"
  | unsigned => "unsigned"
  | struct _ | tagged _ => "struct"
  | foreign part => part.text

/-- The text of a word, with the name of a struct. -/
def text : TypeWord String → String
  | struct name => "struct " ++ name
  | tagged tag => "struct " ++ tag.text
  | w => w.bareText

/-- The texts of some words, with a space between two of them. -/
def spell (words : List (TypeWord String)) : String := " ".intercalate (words.map text)

end TypeWord

/-! ### Named types -/

/-- The base of a type. -/
inductive BaseType where
  | void | char | int | long | double | struct
deriving Repr, DecidableEq

/-- All bases, in the order of their declaration. -/
def BaseType.all : List BaseType := [.void, .char, .int, .long, .double, .struct]

/-- The name of a base. -/
def BaseType.text : BaseType → String
  | .void => "void"
  | .char => "char"
  | .int => "int"
  | .long => "long"
  | .double => "double"
  | .struct => "struct"

/-- A type: its base, whether it is unsigned, whether `signed` was written, and the name of the
struct. -/
structure ResolvedType (ν : Type) where
  base : BaseType
  isUnsigned : Bool := false
  isSigned : Bool := false
  structName : Option ν := none
deriving Repr, DecidableEq

namespace ResolvedType

/-- Whether a type is one of the integer types. -/
def isInteger {ν : Type} (t : ResolvedType ν) : Bool :=
  match t.base with
  | .char | .int | .long => true
  | _ => false

/-- The text of a type. -/
def text (t : ResolvedType String) : String :=
  if t.base = .struct then "struct " ++ t.structName.getD "None"
  else if t.isUnsigned then "unsigned " ++ t.base.text
  else if t.isSigned && t.base = .char then "signed char"
  else t.base.text

end ResolvedType

namespace TypeWord

/-- The base that the words other than `signed` and `unsigned` name: `int` if there are none.  The
flag tells whether one of those two was written. -/
def baseOf (signs : Bool) (kinds : List (Option Kind)) : Option BaseType :=
  match kinds with
  | [some .void] => if signs then none else some .void
  | [some .double] => if signs then none else some .double
  | [some .char] => some .char
  | [some .long] | [some .long, some .int] | [some .int, some .long] => some .long
  | [] | [some .int] => some .int
  | _ => none

/-- The first of the words that are written more than once. -/
def repeated? {ν : Type} (words : List (TypeWord ν)) : Option (TypeWord ν) :=
  words.find? fun w => 1 < words.countP w.same

/-- The type that some words name together, in any order. -/
def resolve (words : List (TypeWord String)) : Except Fault (ResolvedType String) :=
  let kinds := words.map kind?
  let spelled := spell words
  match words, repeated? words with
  | [], _ => .error (.misfit .nothingToResolve)
  | _, some word => .error (.unsupported (.repeatedWord word.bareText spelled))
  | [.struct name], none => .ok { base := .struct, structName := some name }
  | [.tagged tag], none => .ok { base := .struct, structName := some tag.text }
  | _, none =>
      let isUnsigned := kinds.contains (some .unsigned)
      let isSigned := kinds.contains (some .signed)
      if kinds.contains (some .struct) then .error (.unsupported (.structAmongWords spelled))
      else if isUnsigned && isSigned then .error (.unsupported (.bothSigns spelled))
      else
        match baseOf (isUnsigned || isSigned)
            (kinds.filter fun k => k ≠ some .signed && k ≠ some .unsigned) with
        | some base => .ok { base := base, isUnsigned := isUnsigned, isSigned := isSigned }
        | none => .error (.unsupported (.typeWords spelled))

/-- One struct word names that struct. -/
theorem resolve_struct (name : String) :
    resolve [.struct name] = .ok { base := .struct, structName := some name } := by
  simp [resolve, repeated?, same, kind?]

end TypeWord

/-! ### Specifiers -/

/-- Everything that is written before a declarator: the storage, the qualifier, and the type words
in source order. -/
structure Specifier (ν : Type) where
  isStatic : Bool := false
  isConst : Bool := false
  words : List (TypeWord ν)
deriving Repr, DecidableEq

namespace Specifier

variable {ν μ : Type}

/-- The specifier with its names replaced. -/
def map (f : ν → μ) (s : Specifier ν) : Specifier μ :=
  ⟨s.isStatic, s.isConst, s.words.map (TypeWord.map f)⟩

@[simp] theorem map_id (s : Specifier ν) : s.map id = s := by
  have words : s.words.map (TypeWord.map id) = s.words := by
    rw [show TypeWord.map (id : ν → ν) = id from funext TypeWord.map_id, List.map_id]
  simp [map, words]

/-- The text of a specifier: `static`, then `const`, then the type words. -/
def text (s : Specifier String) : String :=
  " ".intercalate ((if s.isStatic then ["static"] else []) ++ (if s.isConst then ["const"] else [])
    ++ s.words.map TypeWord.text)

end Specifier

end PlainC
