/-
**Quoted text.**

Text in messages and listings stands in quotation marks, with everything that would not show as
itself escaped.  The mark is an apostrophe, unless the text holds an apostrophe and no double
quote; then it is a double quote.  The mark itself and the backslash get a backslash, newline,
carriage return and tab have a letter each, and every other unprintable code point is written in
lower-case hexadecimal after `\x`, `\u` or `\U`, whichever is the shortest that fits.

Main definitions:

* `PlainC.Text.hexadecimal` — a number in hexadecimal, padded with zeros on the left;
* `PlainC.Text.escaped` — how one code point is written between quotation marks;
* `PlainC.Text.quotationMark`, `PlainC.Text.quoted` — the mark for a text and the quoted text;
* `PlainC.Text.quotedCode` — the quoted form of a single code point, surrogates included.

Main results:

* `PlainC.Text.quotedCode_eq_quoted` — for a character the two quoted forms agree.
-/

import PlainC.Text.Printable

set_option relaxedAutoImplicit false
set_option autoImplicit false

namespace PlainC.Text

/-! ### Hexadecimal -/

/-- The digits of `n` in base sixteen, in lower case, padded with zeros to `width`. -/
def hexadecimal (width n : Nat) : List Char :=
  let digits := Nat.toDigits 16 n
  List.replicate (width - digits.length) '0' ++ digits

/-- The digits of `n` in base sixteen, in upper case, padded with zeros to `width`. -/
def upperHexadecimal (width n : Nat) : List Char := (hexadecimal width n).map Char.toUpper

/-! ### Escapes -/

/-- How the code point `code` is written between two marks `mark`. -/
def escaped (mark : Char) (code : Nat) : List Char :=
  if code = mark.toNat || code = 0x5C then ['\x5c', Char.ofNat code]
  else if code = 0x0A then ['\x5c', 'n']
  else if code = 0x0D then ['\x5c', 'r']
  else if code = 0x09 then ['\x5c', 't']
  else if isPrintable code then [Char.ofNat code]
  else if code < 0x100 then '\x5c' :: 'x' :: hexadecimal 2 code
  else if code < 0x10000 then '\x5c' :: 'u' :: hexadecimal 4 code
  else '\x5c' :: 'U' :: hexadecimal 8 code

/-! ### Quotation -/

/-- The mark around a text: an apostrophe, or a double quote when the text holds an apostrophe and
no double quote. -/
def quotationMark (cs : List Char) : Char :=
  if cs.contains '\x27' && !cs.contains '\x22' then '\x22' else '\x27'

/-- The text in quotation marks. -/
def quoted (text : String) : String :=
  let cs := text.toList
  let mark := quotationMark cs
  String.ofList (mark :: cs.flatMap (fun c => escaped mark c.toNat) ++ [mark])

/-- A single code point in quotation marks; a surrogate, which is no character, is escaped. -/
def quotedCode (code : Nat) : String :=
  let mark := if code = 0x27 then '\x22' else '\x27'
  String.ofList (mark :: escaped mark code ++ [mark])

/-- For a character the two quoted forms agree. -/
theorem quotedCode_eq_quoted (c : Char) : quotedCode c.toNat = quoted (String.ofList [c]) := by
  have mark : quotationMark [c] = if c.toNat = 0x27 then '\x22' else '\x27' := by
    by_cases apostrophe : c = '\x27'
    · subst apostrophe; decide
    · have other : c.toNat ≠ 0x27 := fun h => apostrophe (Char.toNat_inj.1 (by simpa using h))
      simp [quotationMark, other, Ne.symm apostrophe]
  simp [quotedCode, quoted, mark]

end PlainC.Text
