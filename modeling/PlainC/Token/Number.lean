/-
**Number literals.**

An integer is written in base ten, sixteen (after `0x`), two (after `0b`) or eight (after a leading
zero), and may end in any run of the letters `u` and `l`, which are read and dropped.  A number with
a point or an exponent is a floating literal.  Which digits follow decides how far a literal goes;
whether they make sense is asked afterwards, so `08` and `0x` are faults and not shorter numbers.
In base ten an integer can have too many digits to be converted; then there is no number either.

Main definitions:

* `PlainC.digitValue`, `PlainC.numeral` — the value of a digit and of a row of digits;
* `PlainC.Exponent`, `PlainC.Exponent.split` — an exponent cut off the front of a text;
* `PlainC.readNumber` — reads a number literal.

Main results:

* `PlainC.text_append_rest_readNumber` — nothing is lost in the reading;
* `PlainC.text_readNumber_ne_nil` — a number has at least one character.
-/

import PlainC.Number.Decimal
import PlainC.Token.Reading

set_option relaxedAutoImplicit false
set_option autoImplicit false

namespace PlainC

/-! ### Digits -/

/-- The decimal digits. -/
def isDigit (c : Char) : Bool := '0' ≤ c && c ≤ '9'

/-- The octal digits. -/
def isOctalDigit (c : Char) : Bool := '0' ≤ c && c ≤ '7'

/-- The binary digits. -/
def isBinaryDigit (c : Char) : Bool := c = '0' || c = '1'

/-- The hexadecimal digits, in either case. -/
def isHexDigit (c : Char) : Bool :=
  isDigit c || ('a' ≤ c && c ≤ 'f') || ('A' ≤ c && c ≤ 'F')

/-- The value of a hexadecimal digit. -/
def digitValue (c : Char) : Nat :=
  if isDigit c then c.toNat - '0'.toNat
  else if 'a' ≤ c then c.toNat - 'a'.toNat + 10
  else c.toNat - 'A'.toNat + 10

/-- The value of a row of digits, the most significant one first. -/
def numeral (base : Nat) (digits : List Char) : Nat :=
  digits.foldl (fun value digit => base * value + digitValue digit) 0

theorem foldl_digits (base start : Nat) (digits : List Char) :
    digits.foldl (fun value digit => base * value + digitValue digit) start
      = start * Nat.pow base digits.length + numeral base digits := by
  induction digits generalizing start with
  | nil => simp [numeral]
  | cons d ds ih =>
      have power : Nat.pow base (ds.length + 1) = Nat.pow base ds.length * base := rfl
      simp only [numeral, List.foldl_cons, List.length_cons, Nat.mul_zero, Nat.zero_add]
      rw [ih, ih (digitValue d), Nat.add_mul, power, Nat.add_assoc, Nat.mul_comm base start,
        Nat.mul_assoc, Nat.mul_comm base]

/-- The value of two rows of digits, one behind the other. -/
theorem numeral_append (base : Nat) (high low : List Char) :
    numeral base (high ++ low)
      = numeral base high * Nat.pow base low.length + numeral base low := by
  rw [numeral, List.foldl_append, ← numeral, foldl_digits]

/-! ### Integers -/

/-- The letters that may follow an integer: `u` and `l` in either case. -/
def isIntegerSuffix (c : Char) : Bool := c = 'u' || c = 'U' || c = 'l' || c = 'L'

/-- The integer `value` with the suffix letters that follow it. -/
def readSuffixed (value : Nat) (text rest : List Char) : Reading :=
  .read (.number value) (text ++ rest.takeWhile isIntegerSuffix) (rest.dropWhile isIntegerSuffix)

/-- An integer whose digits follow a mark such as `0x`. -/
def readRadix (base : Nat) (digit : Char → Bool) (fault : LexicalFault) (mark rest : List Char) :
    Reading :=
  let digits := rest.takeWhile digit
  if digits = [] then .refuse (.lexical fault) mark rest
  else readSuffixed (numeral base digits) (mark ++ digits) (rest.dropWhile digit)

/-- An integer in base ten, which must not have more digits than are converted.  The suffix is
read in either case. -/
def readBaseTen (digits rest : List Char) : Reading :=
  if digits.length ≤ maxDigits then readSuffixed (numeral 10 digits) digits rest
  else
    .overlong digits.length (digits ++ rest.takeWhile isIntegerSuffix)
      (rest.dropWhile isIntegerSuffix)

/-- An integer in base ten, or in base eight if it has a leading zero and further digits. -/
def readInteger (digits rest : List Char) : Reading :=
  if digits.head? = some '0' && 1 < digits.length then
    if digits.all isOctalDigit then readSuffixed (numeral 8 digits) digits rest
    else .refuse (.lexical (.octalDigit (String.ofList digits))) digits rest
  else readBaseTen digits rest

/-! ### Floating literals -/

/-- An exponent cut off the front of a text: all its characters, its sign and its digits. -/
structure Exponent where
  text : List Char
  negative : Bool
  digits : List Char
deriving Repr, DecidableEq

namespace Exponent

/-- The absence of an exponent. -/
def none : Exponent := ⟨[], false, []⟩

/-- The letters that open an exponent. -/
def isMark (c : Char) : Bool := c = 'e' || c = 'E'

/-- An exponent at the front of a text, with the text after it: a mark, a sign or none, digits or
none. -/
def split : List Char → Exponent × List Char
  | [] => (none, [])
  | c :: cs =>
      if isMark c then
        let sign := (cs.take 1).takeWhile fun s => s = '+' || s = '-'
        let rest := cs.drop sign.length
        let digits := rest.takeWhile isDigit
        (⟨c :: sign ++ digits, sign = ['-'], digits⟩, rest.dropWhile isDigit)
      else (none, c :: cs)

/-- Whether an exponent that has begun has digits. -/
def isComplete (e : Exponent) : Bool := e.text = [] || e.digits ≠ []

/-- The power of ten. -/
def value (e : Exponent) : Int :=
  if e.negative then -(numeral 10 e.digits : Int) else numeral 10 e.digits

theorem text_append_rest (cs : List Char) : (split cs).1.text ++ (split cs).2 = cs := by
  unfold split
  split
  · rfl
  · rename_i c cs
    split
    · dsimp only
      have sign : (cs.take 1).takeWhile (fun s => decide (s = '+') || decide (s = '-')) ++
          cs.drop ((cs.take 1).takeWhile
            (fun s => decide (s = '+') || decide (s = '-'))).length = cs := by
        cases cs with
        | nil => rfl
        | cons d ds => by_cases hd : (d = '+' ∨ d = '-') <;> simp [hd]
      rw [List.cons_append, List.cons_append, List.append_assoc, List.takeWhile_append_dropWhile,
        sign]
    · rfl

end Exponent

/-- A floating literal made of the digits before the point, the digits after it and an exponent;
`point` is the point itself, if there is one. -/
def readFloat (whole point fraction : List Char) (exponent : Exponent) (rest : List Char) :
    Reading :=
  let text := whole ++ point ++ fraction ++ exponent.text
  if exponent.isComplete then
    .read (.float (.ofDecimal false (numeral 10 (whole ++ fraction))
      (exponent.value - fraction.length))) text rest
  else .refuse (.lexical .noExponentDigits) text rest

/-- A number that is not marked as hexadecimal or binary. -/
def readDecimal (cs : List Char) : Reading :=
  let whole := cs.takeWhile isDigit
  match cs.dropWhile isDigit with
  | '.' :: rest =>
      let exponent := Exponent.split (rest.dropWhile isDigit)
      readFloat whole ['.'] (rest.takeWhile isDigit) exponent.1 exponent.2
  | rest =>
      let exponent := Exponent.split rest
      if exponent.1.text = [] then readInteger whole rest
      else readFloat whole [] [] exponent.1 exponent.2

/-- Reads a number literal off a text that begins with a digit, or with a point and a digit. -/
def readNumber (cs : List Char) : Reading :=
  match cs with
  | '0' :: x :: rest =>
      if x = 'x' || x = 'X' then
        readRadix 16 isHexDigit .noHexadecimalDigits ['0', x] rest
      else if x = 'b' || x = 'B' then
        readRadix 2 isBinaryDigit .noBinaryDigits ['0', x] rest
      else readDecimal cs
  | _ => readDecimal cs

/-! ### Nothing is lost -/

theorem text_append_rest_readSuffixed (value : Nat) (text rest : List Char) :
    (readSuffixed value text rest).text ++ (readSuffixed value text rest).rest = text ++ rest := by
  simp [readSuffixed, Reading.text, Reading.rest]

theorem text_append_rest_readRadix (base : Nat) (digit : Char → Bool) (fault : LexicalFault)
    (mark rest : List Char) :
    (readRadix base digit fault mark rest).text ++ (readRadix base digit fault mark rest).rest
      = mark ++ rest := by
  unfold readRadix
  dsimp only
  split
  · rfl
  · simp [text_append_rest_readSuffixed]

theorem text_append_rest_readBaseTen (digits rest : List Char) :
    (readBaseTen digits rest).text ++ (readBaseTen digits rest).rest = digits ++ rest := by
  unfold readBaseTen
  split
  · rw [text_append_rest_readSuffixed]
  · simp [Reading.text, Reading.rest]

theorem text_append_rest_readInteger (digits rest : List Char) :
    (readInteger digits rest).text ++ (readInteger digits rest).rest = digits ++ rest := by
  unfold readInteger
  split
  · split
    · rw [text_append_rest_readSuffixed]
    · rfl
  · rw [text_append_rest_readBaseTen]

theorem text_append_rest_readFloat (whole point fraction : List Char) (exponent : Exponent)
    (rest : List Char) :
    (readFloat whole point fraction exponent rest).text
        ++ (readFloat whole point fraction exponent rest).rest
      = whole ++ point ++ fraction ++ exponent.text ++ rest := by
  unfold readFloat
  dsimp only
  split <;> rfl

theorem text_append_rest_readDecimal (cs : List Char) :
    (readDecimal cs).text ++ (readDecimal cs).rest = cs := by
  have whole : cs.takeWhile isDigit ++ cs.dropWhile isDigit = cs :=
    List.takeWhile_append_dropWhile
  unfold readDecimal
  dsimp only
  split
  · rename_i rest after
    rw [after] at whole
    have exponent := Exponent.text_append_rest (rest.dropWhile isDigit)
    rw [text_append_rest_readFloat]
    simp only [List.append_assoc, exponent, List.takeWhile_append_dropWhile]
    simpa using whole
  · split
    · rw [text_append_rest_readInteger, whole]
    · rw [text_append_rest_readFloat]
      simp only [List.append_nil, List.append_assoc, Exponent.text_append_rest, whole]

/-- Nothing is lost in the reading of a number. -/
theorem text_append_rest_readNumber (cs : List Char) :
    (readNumber cs).text ++ (readNumber cs).rest = cs := by
  unfold readNumber
  split
  · split
    · exact text_append_rest_readRadix ..
    · split
      · exact text_append_rest_readRadix ..
      · exact text_append_rest_readDecimal _
  · exact text_append_rest_readDecimal _

/-! ### A number has a character -/

theorem text_readSuffixed_ne_nil (value : Nat) {text : List Char} (h : text ≠ [])
    (rest : List Char) : (readSuffixed value text rest).text ≠ [] := by
  simp [readSuffixed, Reading.text, h]

theorem text_readRadix_ne_nil (base : Nat) (digit : Char → Bool) (fault : LexicalFault)
    {mark : List Char} (h : mark ≠ []) (rest : List Char) :
    (readRadix base digit fault mark rest).text ≠ [] := by
  unfold readRadix
  dsimp only
  split
  · exact h
  · exact text_readSuffixed_ne_nil _ (by simp [h]) _

theorem text_readBaseTen_ne_nil {digits : List Char} (h : digits ≠ []) (rest : List Char) :
    (readBaseTen digits rest).text ≠ [] := by
  unfold readBaseTen
  split
  · exact text_readSuffixed_ne_nil _ h _
  · simp [Reading.text, h]

theorem text_readInteger_ne_nil {digits : List Char} (h : digits ≠ []) (rest : List Char) :
    (readInteger digits rest).text ≠ [] := by
  unfold readInteger
  split
  · split
    · exact text_readSuffixed_ne_nil _ h _
    · exact h
  · exact text_readBaseTen_ne_nil h _

theorem text_readFloat (whole point fraction : List Char) (exponent : Exponent)
    (rest : List Char) :
    (readFloat whole point fraction exponent rest).text
      = whole ++ point ++ fraction ++ exponent.text := by
  unfold readFloat
  dsimp only
  split <;> rfl

theorem text_readDecimal_ne_nil {c : Char} (cs : List Char) (h : isDigit c ∨ c = '.') :
    (readDecimal (c :: cs)).text ≠ [] := by
  unfold readDecimal
  dsimp only
  split
  · simp [text_readFloat]
  · rename_i noPoint
    have digit : isDigit c = true := by
      rcases h with digit | rfl
      · exact digit
      · exact absurd (by rfl) (noPoint cs)
    split
    · exact text_readInteger_ne_nil (by simp [digit]) _
    · simp [text_readFloat, digit]

/-- A number has at least one character. -/
theorem text_readNumber_ne_nil {c : Char} (cs : List Char) (h : isDigit c ∨ c = '.') :
    (readNumber (c :: cs)).text ≠ [] := by
  unfold readNumber
  split
  · split
    · exact text_readRadix_ne_nil _ _ _ (by simp) _
    · split
      · exact text_readRadix_ne_nil _ _ _ (by simp) _
      · exact text_readDecimal_ne_nil _ h
  · exact text_readDecimal_ne_nil _ h

end PlainC
