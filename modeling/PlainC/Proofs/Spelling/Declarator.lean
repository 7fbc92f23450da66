/-
**How declarations are spelled.**

A declaration is spelled by the words of its specifier, then by its declarator.  A declarator is
written around its name: arrays stand behind it, pointers in front of it, and parentheses keep a
pointer inside an array.  One shape can be written with more or fewer parentheses; the canonical
way uses them only where a pointer would otherwise apply to the elements of an array.

Main definitions:

* `PlainC.TypeWord.spelling`, `PlainC.Specifier.spelling` — the lexemes of a specifier;
* `PlainC.DeclaratorForm` — a declarator as it is written, with `PlainC.DeclaratorForm.layers`, the
  layers that it stands for, and `PlainC.DeclaratorForm.spelling`, its lexemes;
* `PlainC.Shape.around`, `PlainC.Declaration.spelling` — the canonical way to write a shape around
  a name, and a declaration.

Main results:

* `PlainC.Shape.layers_around` — written in the canonical way, a shape keeps its layers.
-/

import PlainC.Tree

set_option relaxedAutoImplicit false
set_option autoImplicit false

namespace PlainC

/-! ### Specifiers -/

/-- The lexemes of a type word; a foreign word has none. -/
def TypeWord.spelling : TypeWord String → List Lexeme
  | void => [.keyword .void]
  | char => [.keyword .char]
  | int => [.keyword .int]
  | long => [.keyword .long]
  | double => [.keyword .double]
  | signed => [.keyword .signed]
  | unsigned => [.keyword .unsigned]
  | struct name => [.keyword .structWord, .identifier name]
  | tagged _ | foreign _ => []

/-- Whether a type word can be written in a source. -/
def TypeWord.hasSpelling : TypeWord String → Bool
  | tagged _ | foreign _ => false
  | _ => true

/-- The lexemes of a specifier: `static`, then `const`, then the type words. -/
def Specifier.spelling (sp : Specifier String) : List Lexeme :=
  (if sp.isStatic then [.keyword .static] else []) ++ (if sp.isConst then [.keyword .const] else [])
    ++ sp.words.flatMap TypeWord.spelling

/-- Whether a specifier can be written in a source: its words can, and they name a type. -/
def Specifier.hasSpelling (sp : Specifier String) : Bool :=
  sp.words.all TypeWord.hasSpelling && (TypeWord.resolve sp.words).isOk

/-! ### Declarators -/

/-- A declarator as it is written: pointers, then a name, nothing or a declarator in parentheses,
then arrays with or without a size. -/
inductive DeclaratorForm where
  | direct (pointers : Nat) (name : Option String) (arrays : List (Option Nat))
  | nested (pointers : Nat) (inner : DeclaratorForm) (arrays : List (Option Nat))
deriving Repr, DecidableEq

namespace DeclaratorForm

/-- The name in the middle of a declarator, if there is one. -/
def name : DeclaratorForm → Option String
  | direct _ name _ => name
  | nested _ inner _ => inner.name

/-- The number of pointers in front. -/
def pointers : DeclaratorForm → Nat
  | direct pointers _ _ | nested pointers _ _ => pointers

/-- The layers that a declarator stands for, outermost first. -/
def layers : DeclaratorForm → List (Layer Nat)
  | direct pointers _ arrays =>
      arrays.map (⟨.array, ·⟩) ++ List.replicate pointers ⟨.pointer, none⟩
  | nested pointers inner arrays =>
      inner.layers ++ arrays.map (⟨.array, ·⟩) ++ List.replicate pointers ⟨.pointer, none⟩

/-- The lexemes of the brackets of one array. -/
def arraySpelling : Option Nat → List Lexeme
  | none => [.punctuator .bracketOpen, .punctuator .bracketClose]
  | some size => [.punctuator .bracketOpen, .number size, .punctuator .bracketClose]

/-- The lexemes of a declarator. -/
def spelling : DeclaratorForm → List Lexeme
  | direct pointers name arrays =>
      List.replicate pointers (.punctuator .star) ++ (name.map Lexeme.identifier).toList
        ++ arrays.flatMap arraySpelling
  | nested pointers inner arrays =>
      List.replicate pointers (.punctuator .star) ++ .punctuator .parenOpen :: inner.spelling
        ++ .punctuator .parenClose :: arrays.flatMap arraySpelling

/-- The declarator with one more pointer in front, which applies last. -/
def point : DeclaratorForm → DeclaratorForm
  | direct pointers name arrays => direct (pointers + 1) name arrays
  | nested pointers inner arrays => nested (pointers + 1) inner arrays

/-- The declarator with one more array behind it; pointers in front are put in parentheses. -/
def arrayOf (size : Option Nat) : DeclaratorForm → DeclaratorForm
  | direct 0 name arrays => direct 0 name (arrays ++ [size])
  | nested 0 inner arrays => nested 0 inner (arrays ++ [size])
  | w => nested 0 w [size]

@[simp] theorem name_point (w : DeclaratorForm) : w.point.name = w.name := by cases w <;> rfl

@[simp] theorem name_arrayOf (w : DeclaratorForm) (size : Option Nat) :
    (w.arrayOf size).name = w.name := by
  rcases w with ⟨_ | n, name, arrays⟩ | ⟨_ | n, inner, arrays⟩ <;> rfl

@[simp] theorem layers_point (w : DeclaratorForm) :
    w.point.layers = w.layers ++ [⟨.pointer, none⟩] := by
  cases w <;> simp [point, layers, List.replicate_succ']

@[simp] theorem layers_arrayOf (w : DeclaratorForm) (size : Option Nat) :
    (w.arrayOf size).layers = w.layers ++ [⟨.array, size⟩] := by
  rcases w with ⟨_ | n, name, arrays⟩ | ⟨_ | n, inner, arrays⟩ <;> simp [arrayOf, layers]

end DeclaratorForm

namespace Shape

/-- A shape written around a declarator, with parentheses only where they are needed. -/
def around : Shape → DeclaratorForm → DeclaratorForm
  | plain, w | unspecified, w => w
  | pointer target, w => target.around w.point
  | array element size, w => element.around (w.arrayOf size)

@[simp] theorem name_around (shape : Shape) (w : DeclaratorForm) :
    (shape.around w).name = w.name := by
  induction shape generalizing w with
  | plain | unspecified => rfl
  | pointer target ih => simp [around, ih]
  | array element size ih => simp [around, ih]

/-- Written in the canonical way, a shape keeps its layers. -/
@[simp] theorem layers_around (shape : Shape) (w : DeclaratorForm) :
    (shape.around w).layers = w.layers ++ shape.layers := by
  induction shape generalizing w with
  | plain | unspecified => simp [around, layers]
  | pointer target ih => simp [around, layers, ih]
  | array element size ih => simp [around, layers, ih]

/-- The canonical declarator of a shape with a name or without one. -/
def form (shape : Shape) (name : Option String) : DeclaratorForm := shape.around (.direct 0 name [])

@[simp] theorem name_form (shape : Shape) (name : Option String) :
    (shape.form name).name = name := by simp [form, DeclaratorForm.name]

@[simp] theorem layers_form (shape : Shape) (name : Option String) :
    (shape.form name).layers = shape.layers := by simp [form, DeclaratorForm.layers]

end Shape

/-! ### Declarations -/

/-- The lexemes of a declaration: its specifier and its canonical declarator. -/
def Declaration.spelling (d : Declaration String) : List Lexeme :=
  d.specifier.spelling ++ (d.shape.form d.name).spelling

/-- Whether a declaration can be written in a source: its specifier can, and its shape is known. -/
def Declaration.hasSpelling (d : Declaration String) : Bool :=
  d.specifier.hasSpelling && d.shape.isKnown

/-- The parameter that would be read as the mark for no parameters. -/
def Declaration.loneVoid : Declaration String := ⟨⟨false, false, [.void]⟩, .plain, none⟩

/-- The lexemes of declarations with a comma between two of them. -/
def Declaration.rowSpelling : List (Declaration String) → List Lexeme
  | [] => []
  | d :: ds => d.spelling ++ ds.flatMap fun d => .punctuator .comma :: d.spelling

end PlainC
