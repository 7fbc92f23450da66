/-
**What a type in words tells.**

A type in words is understood again.  Its text is cut into words at the spaces.  The word behind
`struct` is the name of the struct, whatever it is, even if it is `pointer` or `const`.  Every other
word tells by itself what it stands for: digits are the size of an array, and `to` and `of` stand
for nothing of their own.  So the pieces of a type are found one by one from the front, and two
types with the same text have the same pieces.  Only a name with a space in it, and a foreign word
with the text of another one, could be taken for something else.

Main definitions:

* `PlainC.Text.words` — the words of a text;
* `PlainC.TypeWord.byText`, `PlainC.TypeWord.IsLegible` — a type word with a text for the name of
  its struct, and the words of the language whose names have no spaces;
* `PlainC.Piece`, `PlainC.Declaration.pieces` — the pieces of which a type in words is made;
* `PlainC.Piece.ofWords` — the pieces that some words stand for.

Main results:

* `PlainC.Piece.ofWords_flatMap` — a row of pieces is found again in its words;
* `PlainC.Declaration.ofWords_describe` — the pieces of a type are found again in its text;
* `PlainC.Declaration.describe_eq_iff` — **two types have the same text exactly if they agree in
  storage, qualifier, layers and type words**.
-/

import PlainC.Name
import PlainC.Proofs.Scanning.Number
import PlainC.Tree.Text

set_option relaxedAutoImplicit false
set_option autoImplicit false

namespace PlainC

/-! ### The words of a text -/

namespace Text

/-- The words of a text, with a space between two of them. -/
def words (text : String) : List String := (text.toList.splitOn ' ').map String.ofList

variable {text : String} {texts : List String}

/-- A text without a space is one word. -/
theorem words_of_notMem (h : ' ' ∉ text.toList) : words text = [text] := by
  rw [words, List.splitOn_eq_singleton h, List.map_singleton, String.ofList_toList]

/-- A space between two texts parts their words. -/
theorem words_append (front back : String) :
    words (front ++ " " ++ back) = words front ++ words back := by
  have parted : (front ++ " " ++ back).toList = front.toList ++ ' ' :: back.toList := by
    simp [String.toList_append]
  rw [words, parted, List.splitOn_append_cons_self, List.map_append, words, words]

/-- The words of a row of texts are those of the texts, one text after the other. -/
theorem words_intercalate (some' : texts ≠ []) :
    words (" ".intercalate texts) = texts.flatMap words := by
  induction texts with
  | nil => exact absurd rfl some'
  | cons text more ih =>
      cases more with
      | nil => simp
      | cons next more =>
          rw [String.intercalate_cons_cons, words_append, ih (List.cons_ne_nil _ _),
            List.flatMap_cons (x := text)]

end Text

/-! ### Legible type words -/

namespace TypeWord

/-- The word with a text for the name of its struct, also if that is a foreign tag. -/
def byText : TypeWord String → TypeWord String
  | tagged tag => struct tag.text
  | word => word

@[simp] theorem text_byText (word : TypeWord String) : word.byText.text = word.text := by
  cases word <;> rfl

/-- A word of the language, with a name without spaces if it is a struct.  A foreign word is none,
since it can have the text of any other word. -/
def IsLegible : TypeWord String → Prop
  | struct name => ' ' ∉ name.toList
  | tagged tag => ' ' ∉ tag.text.toList
  | foreign _ => False
  | _ => True

end TypeWord

/-! ### Pieces of a type -/

/-- A piece of a type in words. -/
inductive Piece where
  | static
  | layer (layer : Layer Nat)
  | const
  | word (word : TypeWord String)
deriving Repr, DecidableEq

namespace Piece

/-- The text of a piece. -/
def text : Piece → String
  | static => "static"
  | layer l => Shape.layerText l
  | const => "const"
  | word w => w.text

/-- The layer that a piece is. -/
def layer? : Piece → Option (Layer Nat)
  | layer l => some l
  | _ => none

/-- The type word that a piece is. -/
def word? : Piece → Option (TypeWord String)
  | word w => some w
  | _ => none

/-- The piece that is named by a word. -/
def ofName? : String → Option Piece
  | "static" => some static
  | "const" => some const
  | "pointer" => some (layer ⟨.pointer, none⟩)
  | "array" => some (layer ⟨.array, none⟩)
  | name => ((TypeWord.Kind.all.find? (·.text = name)).bind (TypeWord.ofKind? · none)).map word

/-- The piece that a single word stands for.  An array with a size is known by its digits. -/
def ofWord? (text : String) : Option Piece :=
  match text.toList.filter isDigit with
  | [] => ofName? text
  | digits => some (layer ⟨.array, some (numeral 10 digits)⟩)

/-- The pieces that some words stand for.  Only `struct` needs the word behind it. -/
def ofWords : List String → List Piece
  | "struct" :: name :: texts => word (.struct name) :: ofWords texts
  | text :: texts => (ofWord? text).toList ++ ofWords texts
  | [] => []

variable {head : String} {p : Piece} {pieces : List Piece} {w : TypeWord String}

/-- A word other than `struct` is read by itself. -/
theorem ofWords_cons (noStruct : head ≠ "struct") (texts : List String) :
    ofWords (head :: texts) = (ofWord? head).toList ++ ofWords texts := by
  rw [ofWords]
  intro name more same
  exact absurd same noStruct

/-- A word that stands for a piece is read as this piece, whatever is behind it. -/
theorem ofWords_cons_of_some (h : ofWord? head = some p) (texts : List String) :
    ofWords (head :: texts) = p :: ofWords texts := by
  have noStruct : head ≠ "struct" := by
    rintro rfl
    cases h
  rw [ofWords_cons noStruct, h]
  rfl

/-- A word that stands for nothing is passed over. -/
theorem ofWords_cons_of_none (noStruct : head ≠ "struct") (h : ofWord? head = none)
    (texts : List String) : ofWords (head :: texts) = ofWords texts := by
  rw [ofWords_cons noStruct, h]
  rfl

/-- The characters of a size in brackets. -/
theorem toList_sized (size : Nat) : ("array[" ++ toString size ++ "]").toList =
    "array[".toList ++ Nat.toDigits 10 size ++ "]".toList := by
  have written : (toString size).toList = Nat.toDigits 10 size := by
    rw [Nat.toString_eq_ofList_toDigits, String.toList_ofList]
  rw [String.toList_append, String.toList_append, written]

/-- The digits in brackets are the size of an array. -/
theorem ofWord?_sized (size : Nat) :
    ofWord? ("array[" ++ toString size ++ "]") = some (layer ⟨.array, some size⟩) := by
  have digits :
      ("array[" ++ toString size ++ "]").toList.filter isDigit = Nat.toDigits 10 size := by
    have all : (Nat.toDigits 10 size).filter isDigit = Nat.toDigits 10 size :=
      List.filter_eq_self.2 fun d hd => isDigit_of_mem_toDigits hd
    rw [toList_sized, List.filter_append, List.filter_append, all]
    exact List.append_nil _
  obtain ⟨d, ds, some'⟩ := List.exists_cons_of_ne_nil (@Nat.toDigits_ne_nil size 10)
  rw [ofWord?, digits, some']
  dsimp only
  rw [← some', numeral_toDigits]

/-- A size in brackets is one word. -/
theorem words_sized (size : Nat) :
    Text.words ("array[" ++ toString size ++ "]") = ["array[" ++ toString size ++ "]"] := by
  apply Text.words_of_notMem
  rw [toList_sized, List.mem_append, List.mem_append]
  rintro ((opening | digit) | closing)
  · exact absurd opening (by decide)
  · cases isDigit_of_mem_toDigits digit
  · exact absurd closing (by decide)

/-! ### Pieces that are found again -/

/-- A piece is found again at the front of all words that begin with its own. -/
def IsReadBack (p : Piece) : Prop :=
  ∀ texts, ofWords (Text.words p.text ++ texts) = p :: ofWords texts

theorem isReadBack_static : static.IsReadBack := fun texts => ofWords_cons_of_some rfl texts

theorem isReadBack_const : const.IsReadBack := fun texts => ofWords_cons_of_some rfl texts

/-- A piece of two words is read back if the first stands for it and the second for nothing. -/
theorem isReadBack_of_words {link : String} (words : Text.words p.text = [head, link])
    (opens : ofWord? head = some p) (noStruct : link ≠ "struct") (links : ofWord? link = none) :
    p.IsReadBack := by
  intro texts
  rw [words, List.cons_append, List.singleton_append, ofWords_cons_of_some opens,
    ofWords_cons_of_none noStruct links]

theorem isReadBack_pointer : (layer ⟨.pointer, none⟩).IsReadBack :=
  isReadBack_of_words (show Text.words _ = ["pointer", "to"] by decide) rfl (by decide) rfl

theorem isReadBack_unsized : (layer ⟨.array, none⟩).IsReadBack :=
  isReadBack_of_words (show Text.words _ = ["array", "of"] by decide) rfl (by decide) rfl

theorem isReadBack_sized (size : Nat) : (layer ⟨.array, some size⟩).IsReadBack := by
  have parted : (layer ⟨.array, some size⟩).text =
      "array[" ++ toString size ++ "]" ++ " " ++ "of" := by
    change "array[" ++ toString size ++ ("]" ++ " " ++ "of") = _
    simp only [String.append_assoc]
  have words : Text.words (layer ⟨.array, some size⟩).text =
      ["array[" ++ toString size ++ "]", "of"] := by
    rw [parted, Text.words_append, words_sized]
    rfl
  exact isReadBack_of_words words (ofWord?_sized size) (by decide) rfl

/-- Every layer of a shape is read back. -/
theorem isReadBack_layer (s : Shape) : ∀ l ∈ s.layers, (layer l).IsReadBack := by
  induction s with
  | plain | unspecified => exact List.forall_mem_nil _
  | pointer target ih => exact List.forall_mem_cons.2 ⟨isReadBack_pointer, ih⟩
  | array element size ih =>
      refine List.forall_mem_cons.2 ⟨?_, ih⟩
      cases size with
      | none => exact isReadBack_unsized
      | some size => exact isReadBack_sized size

/-- A legible type word is read back, with a text for the name of its struct. -/
theorem isReadBack_word (legible : w.IsLegible) : (word w.byText).IsReadBack := by
  intro texts
  have struct {name : String} (noSpace : ' ' ∉ name.toList) :
      ofWords (Text.words ("struct " ++ name) ++ texts) = word (.struct name) :: ofWords texts := by
    change ofWords (Text.words ("struct" ++ " " ++ name) ++ texts) = _
    rw [Text.words_append, Text.words_of_notMem noSpace]
    rfl
  cases w with
  | struct name => exact struct legible
  | tagged tag => exact struct legible
  | foreign => exact legible.elim
  | _ => exact ofWords_cons_of_some rfl texts

/-- A row of pieces is found again in its words. -/
theorem ofWords_flatMap (each : ∀ p ∈ pieces, p.IsReadBack) :
    ofWords (pieces.flatMap fun p => Text.words p.text) = pieces := by
  induction pieces with
  | nil => rfl
  | cons p pieces ih =>
      obtain ⟨first, more⟩ := List.forall_mem_cons.1 each
      rw [List.flatMap_cons, first, ih more]

/-- The pieces are found again in the text of a row of them. -/
theorem ofWords_intercalate (each : ∀ p ∈ pieces, p.IsReadBack) :
    ofWords (Text.words (" ".intercalate (pieces.map text))) = pieces := by
  by_cases none' : pieces = []
  · rw [none']
    -- the text is empty, and its only word stands for nothing
    rfl
  · rw [Text.words_intercalate (by simpa using none'), List.flatMap_map]
    exact ofWords_flatMap each

end Piece

/-! ### Types -/

namespace Declaration

variable {ν μ : Type} {f : ν → String} {g : μ → String} {d : Declaration ν} {e : Declaration μ}

/-- The pieces of a declared type, in the order in which it is read out. -/
def pieces (f : ν → String) (d : Declaration ν) : List Piece :=
  (if d.specifier.isStatic then [.static] else []) ++ d.shape.layers.map .layer
    ++ (if d.specifier.isConst then [.const] else [])
    ++ (d.specifier.words.map fun w => (w.map f).byText).map .word

/-- A type in words is the row of its pieces. -/
theorem describe_eq_intercalate (f : ν → String) (d : Declaration ν) :
    d.describe f = " ".intercalate ((d.pieces f).map Piece.text) := by
  rw [describe, pieces, Specifier.map]
  congr 1
  cases d.specifier.isStatic <;> cases d.specifier.isConst <;>
    simp [Piece.text, Function.comp_def]

/-- The pieces of a type are found again in its text. -/
theorem ofWords_describe (legible : ∀ w ∈ d.specifier.words, (w.map f).IsLegible) :
    Piece.ofWords (Text.words (d.describe f)) = d.pieces f := by
  rw [describe_eq_intercalate]
  apply Piece.ofWords_intercalate
  intro p among
  simp only [pieces, List.mem_append, List.mem_map, List.mem_ite_nil_right,
    List.mem_singleton] at among
  rcases among with ((⟨-, rfl⟩ | ⟨l, member, rfl⟩) | ⟨-, rfl⟩) | ⟨_, ⟨w, member, rfl⟩, rfl⟩
  · exact Piece.isReadBack_static
  · exact Piece.isReadBack_layer d.shape l member
  · exact Piece.isReadBack_const
  · exact Piece.isReadBack_word (legible w member)

/-! ### Types with the same text -/

theorem static_mem_pieces : .static ∈ d.pieces f ↔ d.specifier.isStatic = true := by
  simp [pieces]

theorem const_mem_pieces : .const ∈ d.pieces f ↔ d.specifier.isConst = true := by
  simp [pieces]

theorem filterMap_layer?_pieces : (d.pieces f).filterMap Piece.layer? = d.shape.layers := by
  rw [pieces]
  cases d.specifier.isStatic <;> cases d.specifier.isConst <;>
    simp [List.filterMap_cons, List.filterMap_map, Function.comp_def, Piece.layer?]

theorem filterMap_word?_pieces : (d.pieces f).filterMap Piece.word? =
    d.specifier.words.map fun w => (w.map f).byText := by
  rw [pieces]
  cases d.specifier.isStatic <;> cases d.specifier.isConst <;>
    simp [List.filterMap_cons, List.filterMap_map, Function.comp_def, Piece.word?]

/-- Two types have the same pieces exactly if they agree. -/
theorem pieces_eq_iff : d.pieces f = e.pieces g ↔
    d.specifier.isStatic = e.specifier.isStatic ∧ d.specifier.isConst = e.specifier.isConst ∧
    d.shape.layers = e.shape.layers ∧
    (d.specifier.words.map fun w => (w.map f).byText) =
      e.specifier.words.map fun w => (w.map g).byText := by
  constructor
  · intro same
    refine ⟨?_, ?_, ?_, ?_⟩
    · rw [Bool.eq_iff_iff, ← static_mem_pieces (f := f), same, static_mem_pieces]
    · rw [Bool.eq_iff_iff, ← const_mem_pieces (f := f), same, const_mem_pieces]
    · rw [← filterMap_layer?_pieces (f := f), same, filterMap_layer?_pieces]
    · rw [← filterMap_word?_pieces, same, filterMap_word?_pieces]
  · rintro ⟨isStatic, isConst, layers, words⟩
    rw [pieces, pieces, isStatic, isConst, layers, words]

/-- **Two types have the same text exactly if they agree** in storage, qualifier, layers and type
words, with the names of structs compared by their texts. -/
theorem describe_eq_iff (hd : ∀ w ∈ d.specifier.words, (w.map f).IsLegible)
    (he : ∀ w ∈ e.specifier.words, (w.map g).IsLegible) :
    d.describe f = e.describe g ↔
      d.specifier.isStatic = e.specifier.isStatic ∧ d.specifier.isConst = e.specifier.isConst ∧
      d.shape.layers = e.shape.layers ∧
      (d.specifier.words.map fun w => (w.map f).byText) =
        e.specifier.words.map fun w => (w.map g).byText := by
  rw [← pieces_eq_iff]
  constructor
  · intro same
    rw [← ofWords_describe hd, ← ofWords_describe he, same]
  · intro same
    rw [describe_eq_intercalate, describe_eq_intercalate, same]

/-- The struct of an array of ten pointers is called `pointer`.  The text is the same with a symbol
for this name and with an inmost part that is not known, and another one if the struct is called
`to`. -/
theorem describe_eq_iff_arrays :
    (∀ w ∈ [TypeWord.struct "pointer", .int], (w.map id).IsLegible) ∧
    (∀ w ∈ [TypeWord.struct "to", .int], (w.map id).IsLegible) ∧
    (∀ w ∈ [TypeWord.struct (Symbol.mk 0 3 "pointer"), .int], (w.map Symbol.text).IsLegible) ∧
    describe id ⟨⟨true, true, [.struct "pointer", .int]⟩,
        .array (.pointer .plain) (some 10), none⟩ =
      describe Symbol.text ⟨⟨true, true, [.struct ⟨0, 3, "pointer"⟩, .int]⟩,
        .array (.pointer .unspecified) (some 10), some ⟨0, 0, "x"⟩⟩ ∧
    describe id ⟨⟨true, true, [.struct "to", .int]⟩,
        .array (.pointer .plain) (some 10), none⟩ ≠
      describe Symbol.text ⟨⟨true, true, [.struct ⟨0, 3, "pointer"⟩, .int]⟩,
        .array (.pointer .unspecified) (some 10), some ⟨0, 0, "x"⟩⟩ := by
  have texts : ∀ w ∈ [TypeWord.struct "pointer", .int], (w.map id).IsLegible := by
    simp [TypeWord.map, TypeWord.IsLegible]
  have others : ∀ w ∈ [TypeWord.struct "to", .int], (w.map id).IsLegible := by
    simp [TypeWord.map, TypeWord.IsLegible]
  have symbols : ∀ w ∈ [TypeWord.struct (Symbol.mk 0 3 "pointer"), .int],
      (w.map Symbol.text).IsLegible := by
    simp [TypeWord.map, TypeWord.IsLegible]
  refine ⟨texts, others, symbols, (describe_eq_iff texts symbols).2 ⟨rfl, rfl, rfl, rfl⟩, ?_⟩
  intro same
  obtain ⟨-, -, -, words⟩ := (describe_eq_iff others symbols).1 same
  revert words
  decide

end Declaration

end PlainC
