/-
**Quoted literals.**

A string literal stands between double quotes, a character literal between apostrophes.  Inside, a
backslash begins an escape: one of eleven letters and marks, one or two hexadecimal digits after
`x`, up to three octal digits whose value is taken modulo 256, or any other character, which then
stands for itself — a newline, too.  A bare newline ends the literal unclosed.

Main definitions:

* `PlainC.simpleEscape?` — the escapes of one character;
* `PlainC.Escape`, `PlainC.readEscape` — one escape, and its reading;
* `PlainC.Quotation`, `PlainC.readQuotation` — the text up to the closing mark, and its reading;
* `PlainC.readString`, `PlainC.readCharacter` — the two literals.

Main results:

* `PlainC.text_append_rest_readEscape`, `PlainC.text_append_rest_readQuotation` — nothing is lost
  in the reading.
-/

import PlainC.Token.Number

set_option relaxedAutoImplicit false
set_option autoImplicit false

namespace PlainC

/-! ### Escapes -/

/-- The character that a backslash and this one stand for, for the escapes of one character. -/
def simpleEscape? (c : Char) : Option Char :=
  if c = 'n' then some '\n'
  else if c = 't' then some '\t'
  else if c = 'r' then some '\r'
  else if c = 'a' then some '\x07'
  else if c = 'b' then some '\x08'
  else if c = 'f' then some '\x0c'
  else if c = 'v' then some '\x0b'
  else if c = '\x5c' || c = '\x27' || c = '\x22' || c = '?' then some c
  else none

/-- The outcome of reading an escape whose backslash has been consumed. -/
inductive Escape where
  | decoded (c : Char) (text rest : List Char)
  | faulty (fault : LexicalFault) (text rest : List Char)
deriving Repr, DecidableEq

namespace Escape

/-- The characters consumed. -/
def text : Escape → List Char
  | decoded _ text _ | faulty _ text _ => text

/-- The characters left. -/
def rest : Escape → List Char
  | decoded _ _ rest | faulty _ _ rest => rest

end Escape

/-- At most two of the given digits at the front of a text. -/
def twoDigits (digit : Char → Bool) (cs : List Char) : List Char := (cs.take 2).takeWhile digit

theorem twoDigits_append_drop (digit : Char → Bool) (cs : List Char) :
    twoDigits digit cs ++ cs.drop (twoDigits digit cs).length = cs := by
  match cs with
  | [] => rfl
  | [c] => by_cases hc : digit c = true <;> simp [twoDigits, hc]
  | c :: d :: rest =>
      by_cases hc : digit c = true <;> by_cases hd : digit d = true <;>
        simp [twoDigits, hc, hd]

/-- Reads the escape behind a backslash. -/
def readEscape : List Char → Escape
  | [] => .faulty .endInEscape [] []
  | c :: cs =>
      match simpleEscape? c with
      | some d => .decoded d [c] cs
      | none =>
          if c = 'x' then
            let digits := twoDigits isHexDigit cs
            if digits = [] then .faulty .noEscapeDigits ['x'] cs
            else .decoded (Char.ofNat (numeral 16 digits)) ('x' :: digits) (cs.drop digits.length)
          else if isOctalDigit c then
            let digits := twoDigits isOctalDigit cs
            .decoded (Char.ofNat (numeral 8 (c :: digits) % 256)) (c :: digits)
              (cs.drop digits.length)
          else .decoded c [c] cs

/-- Nothing is lost in the reading of an escape. -/
theorem text_append_rest_readEscape (cs : List Char) :
    (readEscape cs).text ++ (readEscape cs).rest = cs := by
  fun_cases readEscape cs
  case case4 cs _ _ _ => exact congrArg _ (twoDigits_append_drop isHexDigit cs)
  case case5 cs _ _ _ _ => exact congrArg _ (twoDigits_append_drop isOctalDigit cs)
  all_goals simp [Escape.text, Escape.rest]

/-! ### Up to the closing mark -/

/-- The outcome of reading a quotation whose opening mark has been consumed.  The consumed text of
a closed one ends with the closing mark; `atEnd` tells whether the end of the source or a newline
leaves it unclosed. -/
inductive Quotation where
  | closed (value text rest : List Char)
  | unclosed (atEnd : Bool) (text rest : List Char)
  | faulty (fault : LexicalFault) (text rest : List Char)
deriving Repr, DecidableEq

namespace Quotation

/-- The characters consumed. -/
def text : Quotation → List Char
  | closed _ text _ | unclosed _ text _ | faulty _ text _ => text

/-- The characters left. -/
def rest : Quotation → List Char
  | closed _ _ rest | unclosed _ _ rest | faulty _ _ rest => rest

/-- The quotation with one more character in front, spelled by `front`. -/
def prepend (c : Char) (front : List Char) : Quotation → Quotation
  | closed value text rest => closed (c :: value) (front ++ text) rest
  | unclosed atEnd text rest => unclosed atEnd (front ++ text) rest
  | faulty fault text rest => faulty fault (front ++ text) rest

@[simp] theorem text_prepend (c : Char) (front : List Char) (q : Quotation) :
    (q.prepend c front).text = front ++ q.text := by cases q <;> rfl

@[simp] theorem rest_prepend (c : Char) (front : List Char) (q : Quotation) :
    (q.prepend c front).rest = q.rest := by cases q <;> rfl

end Quotation

/-- Reads a quotation up to its closing mark. -/
def readQuotation (mark : Char) (cs : List Char) : Quotation :=
  match cs with
  | [] => .unclosed true [] []
  | c :: cs =>
      if c = mark then .closed [] [c] cs
      else if c = '\n' then .unclosed false [] (c :: cs)
      else if c = '\x5c' then
        match _h : readEscape cs with
        | .decoded d text rest => (readQuotation mark rest).prepend d (c :: text)
        | .faulty fault text rest => .faulty fault (c :: text) rest
      else (readQuotation mark cs).prepend c [c]
termination_by cs.length
decreasing_by
  · have := congrArg List.length (text_append_rest_readEscape cs)
    rw [_h] at this
    simp only [Escape.text, Escape.rest, List.length_append] at this
    simp only [List.length_cons]
    omega
  · simp

/-- Nothing is lost in the reading of a quotation. -/
theorem text_append_rest_readQuotation (mark : Char) (cs : List Char) :
    (readQuotation mark cs).text ++ (readQuotation mark cs).rest = cs := by
  fun_induction readQuotation mark cs with
  | case1 => rfl
  | case2 => rfl
  | case3 => rfl
  | case4 cs d text rest h _ _ ih =>
      have lossless := text_append_rest_readEscape cs
      rw [h] at lossless
      simp only [Escape.text, Escape.rest] at lossless
      simp [ih, lossless]
  | case5 cs fault text rest h =>
      have lossless := text_append_rest_readEscape cs
      rw [h] at lossless
      simp only [Escape.text, Escape.rest] at lossless
      simp [Quotation.text, Quotation.rest, lossless]
  | case6 c cs _ _ _ ih => simp [ih]

/-! ### Literals -/

namespace Quotation

/-- What a quotation with the opening mark `mark` is as a string literal. -/
def asString (mark : Char) : Quotation → Reading
  | closed value text rest => .read (.string (String.ofList value)) (mark :: text) rest
  | unclosed atEnd text rest => .refused ⟨.unclosedString, true, !atEnd⟩ (mark :: text) rest
  | faulty fault text rest => .refuse (.lexical fault) (mark :: text) rest

/-- What a quotation with the opening mark `mark` is as a character literal. -/
def asCharacter (mark : Char) : Quotation → Reading
  | closed [c] text rest => .read (.character c.toNat) (mark :: text) rest
  | closed [] text rest => .refused ⟨.lexical .emptyCharacter, true, true⟩ (mark :: text) rest
  | closed _ text rest => .refused ⟨.lexical .longCharacter, true, true⟩ (mark :: text) rest
  | unclosed _ text rest =>
      .refused ⟨.lexical .unclosedCharacter, true, false⟩ (mark :: text) rest
  | faulty fault text rest => .refuse (.lexical fault) (mark :: text) rest

@[simp] theorem text_asString (mark : Char) (q : Quotation) :
    (q.asString mark).text = mark :: q.text := by cases q <;> rfl

@[simp] theorem rest_asString (mark : Char) (q : Quotation) :
    (q.asString mark).rest = q.rest := by cases q <;> rfl

@[simp] theorem text_asCharacter (mark : Char) (q : Quotation) :
    (q.asCharacter mark).text = mark :: q.text := by
  cases q with
  | closed value text rest =>
      rcases value with _ | ⟨c, _ | ⟨d, more⟩⟩ <;> rfl
  | unclosed atEnd text rest => rfl
  | faulty fault text rest => rfl

@[simp] theorem rest_asCharacter (mark : Char) (q : Quotation) :
    (q.asCharacter mark).rest = q.rest := by
  cases q with
  | closed value text rest =>
      rcases value with _ | ⟨c, _ | ⟨d, more⟩⟩ <;> rfl
  | unclosed atEnd text rest => rfl
  | faulty fault text rest => rfl

end Quotation

/-- Reads a string literal whose opening mark `mark` has been consumed. -/
def readString (mark : Char) (cs : List Char) : Reading := (readQuotation mark cs).asString mark

/-- Reads a character literal whose opening mark `mark` has been consumed. -/
def readCharacter (mark : Char) (cs : List Char) : Reading :=
  (readQuotation mark cs).asCharacter mark

theorem text_append_rest_readString (mark : Char) (cs : List Char) :
    (readString mark cs).text ++ (readString mark cs).rest = mark :: cs := by
  simp [readString, text_append_rest_readQuotation]

theorem text_append_rest_readCharacter (mark : Char) (cs : List Char) :
    (readCharacter mark cs).text ++ (readCharacter mark cs).rest = mark :: cs := by
  simp [readCharacter, text_append_rest_readQuotation]

theorem text_readString_ne_nil (mark : Char) (cs : List Char) :
    (readString mark cs).text ≠ [] := by
  simp [readString]

theorem text_readCharacter_ne_nil (mark : Char) (cs : List Char) :
    (readCharacter mark cs).text ≠ [] := by
  simp [readCharacter]

end PlainC
