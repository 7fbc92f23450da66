/-
**Numbers are read as they are spelled.**

A number that stands in front of a character which cannot belong to a number is read up to its end,
with the value of its spelling.  The reader decides the base by the first two characters and the
sort of the literal by a point or an exponent behind the first run of digits; so a text is cut into
the digits, the point, the fraction and the exponent or suffix again, however long each of them is.
A literal whose digits make no sense in its base is refused behind them, whatever follows, and one
in base ten that is too long to be converted gives no number, although it is read to its end.

Main definitions:

* `PlainC.BeginsNumber` — the texts that begin as a number does;
* `PlainC.isBaseMark`, `PlainC.isNumberPart` — the letters that mark a base behind a zero, and all
  characters that may stand in a number.

Main results:

* `PlainC.readNumber_of_digits` — digits without such a letter are read as a decimal number;
* `PlainC.IntegerSpelling.readNumber_append`, `PlainC.FloatSpelling.readNumber_append` — **a number
  is read as it is spelled**;
* `PlainC.IsOverlong.readNumber_append` — the digits that are too long to be converted;
* `PlainC.readNumber_octalDigit`, `PlainC.readRadix_noDigits` — the digits that make no sense.
-/

import PlainC.Proofs.Scanning.Number

set_option relaxedAutoImplicit false
set_option autoImplicit false

namespace PlainC

variable {cs text rest : List Char}

/-! ### How a number begins -/

/-- A text that begins as a number does: with a digit, or with a point and a digit. -/
def BeginsNumber (cs : List Char) : Prop :=
  ∃ c more, cs = c :: more ∧ (isDigit c ∨ c = '.' ∧ ∃ d ∈ more.head?, isDigit d)

theorem BeginsNumber.append (h : BeginsNumber text) (rest : List Char) :
    BeginsNumber (text ++ rest) := by
  obtain ⟨c, more, rfl, digit | ⟨rfl, d, hd, digit⟩⟩ := h
  · exact ⟨c, more ++ rest, rfl, .inl digit⟩
  · obtain ⟨more, rfl⟩ := List.head?_eq_some_iff.1 hd
    exact ⟨'.', d :: more ++ rest, rfl, .inr ⟨rfl, d, rfl, digit⟩⟩

theorem beginsNumber_of_digits {digits : List Char} (some' : digits ≠ [])
    (all : ∀ d ∈ digits, isDigit d) : BeginsNumber digits := by
  obtain ⟨c, more, rfl⟩ := List.exists_cons_of_ne_nil some'
  exact ⟨c, more, rfl, .inl (all c (List.mem_cons_self ..))⟩

theorem NumberSpelling.begins {lexeme : Lexeme} (h : NumberSpelling text lexeme) :
    BeginsNumber text := by
  cases h with
  | integer spelled =>
      cases spelled with
      | decimal some' all => exact (beginsNumber_of_digits some' all).append _
      | octal | hexadecimal | binary => exact ⟨'0', _, rfl, .inl rfl⟩
  | float spelled =>
      cases spelled with
      | @point whole fraction exponent e all some' =>
          cases whole with
          | nil =>
              obtain ⟨d, more, rfl⟩ := List.exists_cons_of_ne_nil some'
              exact ⟨'.', _, rfl, .inr ⟨rfl, d, rfl, all d (List.mem_cons_self ..)⟩⟩
          | cons c whole => exact ⟨c, _, rfl, .inl (all c (List.mem_cons_self ..))⟩
      | noPoint all some' => exact (beginsNumber_of_digits some' all).append _

/-! ### Exponents -/

namespace Exponent

/-- In front of anything but a mark there is no exponent. -/
theorem split_of_stopsAt (h : StopsAt isMark cs) : split cs = (none, cs) := by
  cases cs with
  | nil => rfl
  | cons c cs => rw [split, h c rfl, if_neg Bool.false_ne_true]

theorem text_split_eq_nil_iff : (split cs).1.text = [] ↔ StopsAt isMark cs := by
  constructor
  · intro h c hc
    obtain ⟨cs, rfl⟩ := List.head?_eq_some_iff.1 hc
    cases mark : isMark c with
    | false => rfl
    | true => simp [split, mark] at h
  · intro h
    rw [split_of_stopsAt h]
    rfl

/-- A mark, a sign or none, and digits are cut off as far as the digits go. -/
theorem split_append {mark : Char} {sign digits : List Char} (isMark : isMark mark)
    (isSign : sign = [] ∨ sign = ['+'] ∨ sign = ['-']) (some' : digits ≠ [])
    (all : ∀ d ∈ digits, isDigit d) (stops : StopsAt isDigit rest) :
    split (mark :: sign ++ digits ++ rest) =
      (⟨mark :: sign ++ digits, sign = ['-'], digits⟩, rest) := by
  have run := stops.takeWhile_append all
  have behind := stops.dropWhile_append all
  rcases isSign with rfl | rfl | rfl
  · -- the first digit is no sign
    obtain ⟨d, ds, rfl⟩ := List.exists_cons_of_ne_nil some'
    have digit : isDigit d := all d (List.mem_cons_self ..)
    have noPlus : d ≠ '+' := by rintro rfl; cases digit
    have noMinus : d ≠ '-' := by rintro rfl; cases digit
    rw [List.cons_append] at run behind
    simp [split, isMark, noPlus, noMinus, run, behind]
  · simp [split, isMark, run, behind]
  · simp [split, isMark, run, behind]

end Exponent

/-- An exponent is cut off as it is spelled. -/
theorem ExponentSpelling.split_append {e : Int} (h : ExponentSpelling text e)
    (noMark : StopsAt Exponent.isMark rest) (noDigit : StopsAt isDigit rest) :
    ∃ exponent, Exponent.split (text ++ rest) = (exponent, rest) ∧ exponent.text = text ∧
      exponent.isComplete ∧ exponent.value = e := by
  have isMark {mark : Char} (h : mark = 'e' ∨ mark = 'E') : Exponent.isMark mark := by
    simpa [Exponent.isMark] using h
  cases h with
  | none => exact ⟨.none, Exponent.split_of_stopsAt noMark, rfl, rfl, rfl⟩
  | unsigned mark some' all =>
      refine ⟨_, Exponent.split_append (isMark mark) (.inl rfl) some' all noDigit, rfl, ?_, rfl⟩
      simpa [Exponent.isComplete] using some'
  | plus mark some' all =>
      refine ⟨_, Exponent.split_append (isMark mark) (.inr (.inl rfl)) some' all noDigit, rfl, ?_,
        rfl⟩
      simpa [Exponent.isComplete] using some'
  | minus mark some' all =>
      refine ⟨_, Exponent.split_append (isMark mark) (.inr (.inr rfl)) some' all noDigit, rfl, ?_,
        rfl⟩
      simpa [Exponent.isComplete] using some'

theorem ExponentSpelling.stopsAt {e : Int} (h : ExponentSpelling text e) {p : Char → Bool}
    (noMark : ∀ c, Exponent.isMark c → p c = false) (stops : StopsAt p rest) :
    StopsAt p (text ++ rest) := by
  cases h with
  | none => exact stops
  | unsigned mark | plus mark | minus mark =>
      intro c hc
      cases hc
      exact noMark _ (by simpa [Exponent.isMark] using mark)

/-! ### Decimal numbers -/

/-- Digits, a point and digits are read up to the exponent. -/
theorem readDecimal_point {whole fraction after : List Char} (wholeDigits : ∀ d ∈ whole, isDigit d)
    (digits : ∀ d ∈ fraction, isDigit d) (stops : StopsAt isDigit after) :
    readDecimal (whole ++ ['.'] ++ fraction ++ after) =
      readFloat whole ['.'] fraction (Exponent.split after).1 (Exponent.split after).2 := by
  have point : StopsAt isDigit ('.' :: (fraction ++ after)) := fun c hc => by cases hc; rfl
  rw [List.append_assoc, List.append_assoc, List.singleton_append]
  unfold readDecimal
  rw [point.takeWhile_append wholeDigits, point.dropWhile_append wholeDigits]
  change readFloat whole ['.'] ((fraction ++ after).takeWhile isDigit)
    (Exponent.split ((fraction ++ after).dropWhile isDigit)).1
    (Exponent.split ((fraction ++ after).dropWhile isDigit)).2 = _
  rw [stops.takeWhile_append digits, stops.dropWhile_append digits]

/-- Digits without a point behind them are read as an integer, unless there is an exponent. -/
theorem readDecimal_noPoint {whole after : List Char} (digits : ∀ d ∈ whole, isDigit d)
    (stops : StopsAt isDigit after) (noPoint : StopsAt (· = '.') after) :
    readDecimal (whole ++ after) =
      if (Exponent.split after).1.text = [] then readInteger whole after
      else readFloat whole [] [] (Exponent.split after).1 (Exponent.split after).2 := by
  unfold readDecimal
  rw [stops.takeWhile_append digits, stops.dropWhile_append digits]
  dsimp only
  split
  · exact absurd (noPoint '.' rfl) (by decide)
  · rfl

/-- A number without a mark of its base is read as a decimal one. -/
theorem readNumber_eq_readDecimal
    (noMark : ∀ x more, cs = '0' :: x :: more → x ≠ 'x' ∧ x ≠ 'X' ∧ x ≠ 'b' ∧ x ≠ 'B') :
    readNumber cs = readDecimal cs := by
  unfold readNumber
  split
  · rename_i x more
    obtain ⟨hx, hX, hb, hB⟩ := noMark x more rfl
    simp [hx, hX, hb, hB]
  · rfl

/-- The letters that mark base sixteen and base two behind a zero. -/
def isBaseMark (c : Char) : Bool := c = 'x' || c = 'X' || c = 'b' || c = 'B'

/-- Digits without a letter for a base behind a lone zero are read as a decimal number. -/
theorem readNumber_of_digits {whole after : List Char} (all : ∀ d ∈ whole, isDigit d)
    (stops : StopsAt isDigit after) (noMark : StopsAt isBaseMark after) :
    readNumber (whole ++ after) = readDecimal (whole ++ after) := by
  refine readNumber_eq_readDecimal fun x more same => ?_
  have plain : isBaseMark x = false := by
    rcases whole with _ | ⟨d, _ | ⟨e, whole⟩⟩
    · -- the text behind the digits does not begin with the zero
      rw [List.nil_append] at same
      exact absurd (stops '0' (by rw [same]; rfl)) (by decide)
    · obtain ⟨rfl, rfl⟩ := List.cons_eq_cons.1 same
      exact noMark x rfl
    · obtain ⟨rfl, behind⟩ := List.cons_eq_cons.1 same
      obtain ⟨rfl, -⟩ := List.cons_eq_cons.1 behind
      cases mark : isBaseMark e with
      | false => rfl
      | true =>
          have digit := all e (by simp)
          simp only [isBaseMark, Bool.or_eq_true, decide_eq_true_eq] at mark
          rcases mark with ((rfl | rfl) | rfl) | rfl <;> cases digit
  simpa [isBaseMark, and_assoc] using plain

/-- Digits are read as an integer in front of anything but a letter for a base, a point and an
exponent. -/
theorem readNumber_noPoint {whole after : List Char} (all : ∀ d ∈ whole, isDigit d)
    (stops : StopsAt isDigit after) (noBase : StopsAt isBaseMark after)
    (noPoint : StopsAt (· = '.') after) (noExponent : StopsAt Exponent.isMark after) :
    readNumber (whole ++ after) = readInteger whole after := by
  rw [readNumber_of_digits all stops noBase, readDecimal_noPoint all stops noPoint,
    if_pos (Exponent.text_split_eq_nil_iff.2 noExponent)]

/-! ### What stands behind a number -/

/-- The characters that may stand in a number literal. -/
def isNumberPart (c : Char) : Bool :=
  isHexDigit c || isIntegerSuffix c || c = 'x' || c = 'X' || c = '.'

/-- Suffix letters in front of a text that prolongs no number do not prolong its digits. -/
theorem stopsAt_suffix {p : Char → Bool} {suffix : List Char}
    (letters : ∀ c ∈ suffix, isIntegerSuffix c) (stops : StopsAt isNumberPart rest)
    (noLetter : ['u', 'U', 'l', 'L'].all fun c => !p c) (part : ∀ c, p c → isNumberPart c) :
    StopsAt p (suffix ++ rest) := by
  cases suffix with
  | nil => exact stops.mono part
  | cons c suffix =>
      intro d hd
      cases hd
      have letter := letters c (List.mem_cons_self ..)
      simp only [List.all_cons, List.all_nil, Bool.and_true, Bool.and_eq_true,
        Bool.not_eq_true'] at noLetter
      simp only [isIntegerSuffix, Bool.or_eq_true, decide_eq_true_eq] at letter
      rcases letter with ((rfl | rfl) | rfl) | rfl
      · exact noLetter.1
      · exact noLetter.2.1
      · exact noLetter.2.2.1
      · exact noLetter.2.2.2

theorem isNumberPart_of_isHexDigit {c : Char} (h : isHexDigit c) : isNumberPart c := by
  simp [isNumberPart, h]

theorem isNumberPart_of_isDigit {c : Char} (h : isDigit c) : isNumberPart c :=
  isNumberPart_of_isHexDigit (by simp [isHexDigit, h])

theorem isNumberPart_of_isBaseMark {c : Char} (h : isBaseMark c) : isNumberPart c := by
  simp only [isBaseMark, Bool.or_eq_true, decide_eq_true_eq] at h
  rcases h with ((rfl | rfl) | rfl) | rfl <;> rfl

theorem isNumberPart_of_isMark {c : Char} (h : Exponent.isMark c) : isNumberPart c := by
  simp only [Exponent.isMark, Bool.or_eq_true, decide_eq_true_eq] at h
  rcases h with rfl | rfl <;> rfl

theorem isNumberPart_of_point {c : Char} (h : decide (c = '.')) : isNumberPart c := by
  obtain rfl := of_decide_eq_true h
  rfl

/-! ### Integers -/

/-- A suffix is read up to its last letter. -/
theorem readSuffixed_append {n : Nat} {digits suffix : List Char}
    (letters : ∀ c ∈ suffix, isIntegerSuffix c) (stops : StopsAt isIntegerSuffix rest) :
    readSuffixed n digits (suffix ++ rest) = .read (.number n) (digits ++ suffix) rest := by
  rw [readSuffixed, stops.takeWhile_append letters, stops.dropWhile_append letters]

/-- Digits in base ten that are not too long are converted. -/
theorem readBaseTen_of_le {digits after : List Char} (short : digits.length ≤ maxDigits) :
    readBaseTen digits after = readSuffixed (numeral 10 digits) digits after := by
  rw [readBaseTen, if_pos short]

/-- A leading zero alone does not change the base. -/
theorem readInteger_eq_readBaseTen {digits after : List Char}
    (alone : digits.head? = some '0' → digits.length = 1) :
    readInteger digits after = readBaseTen digits after := by
  have noLeading : ¬ (decide (digits.head? = some '0') && decide (1 < digits.length)) = true := by
    intro both
    rw [Bool.and_eq_true, decide_eq_true_eq, decide_eq_true_eq] at both
    have one := alone both.1
    omega
  rw [readInteger, if_neg noLeading]

/-- Digits behind a mark are read up to the last one. -/
theorem readRadix_append {base : Nat} {digit : Char → Bool} {fault : LexicalFault}
    {mark digits : List Char} (some' : digits ≠ []) (all : ∀ d ∈ digits, digit d)
    (stops : StopsAt digit rest) :
    readRadix base digit fault mark (digits ++ rest) =
      readSuffixed (numeral base digits) (mark ++ digits) rest := by
  rw [readRadix, stops.takeWhile_append all, stops.dropWhile_append all, if_neg some']

/-- Without a digit behind it a mark is refused. -/
theorem readRadix_noDigits {base : Nat} {digit : Char → Bool} {fault : LexicalFault}
    {mark : List Char} (stops : StopsAt digit rest) :
    readRadix base digit fault mark rest = .refuse (.lexical fault) mark rest := by
  rw [readRadix, stops.takeWhile_eq, if_pos rfl]

theorem readNumber_hexadecimal {x : Char} (mark : x = 'x' ∨ x = 'X') :
    readNumber ('0' :: x :: rest) = readRadix 16 isHexDigit .noHexadecimalDigits ['0', x] rest := by
  rw [readNumber, if_pos (by simpa using mark)]

theorem readNumber_binary {x : Char} (mark : x = 'b' ∨ x = 'B') :
    readNumber ('0' :: x :: rest) = readRadix 2 isBinaryDigit .noBinaryDigits ['0', x] rest := by
  rcases mark with rfl | rfl <;> rfl

theorem isDigit_of_isOctalDigit {c : Char} (h : isOctalDigit c) : isDigit c := by
  simp only [isOctalDigit, isDigit, Bool.and_eq_true, decide_eq_true_eq] at h ⊢
  exact ⟨h.1, Char.le_trans h.2 (by decide)⟩

theorem isHexDigit_of_isBinaryDigit {c : Char} (h : isBinaryDigit c) : isHexDigit c := by
  simp only [isBinaryDigit, Bool.or_eq_true, decide_eq_true_eq] at h
  rcases h with rfl | rfl <;> rfl

theorem StopsAt.integerSuffix (h : StopsAt isNumberPart rest) : StopsAt isIntegerSuffix rest :=
  h.mono fun c hc => by simp [isNumberPart, hc]

/-- Digits in front of suffix letters are read as an integer. -/
theorem readNumber_suffixed {whole suffix : List Char} (all : ∀ d ∈ whole, isDigit d)
    (letters : ∀ c ∈ suffix, isIntegerSuffix c) (stops : StopsAt isNumberPart rest) :
    readNumber (whole ++ (suffix ++ rest)) = readInteger whole (suffix ++ rest) := by
  have behind {p : Char → Bool} := stopsAt_suffix (p := p) letters stops
  exact readNumber_noPoint all (behind (by decide) fun _ => isNumberPart_of_isDigit)
    (behind (by decide) fun _ => isNumberPart_of_isBaseMark)
    (behind (by decide) fun _ => isNumberPart_of_point)
    (behind (by decide) fun _ => isNumberPart_of_isMark)

/-- **An integer is read as it is spelled**, with its suffix, unless it is too long. -/
theorem IntegerSpelling.readNumber_append {digits suffix : List Char} {n : Nat}
    (h : IntegerSpelling digits n) (fits : ¬ IsOverlong digits)
    (letters : ∀ c ∈ suffix, isIntegerSuffix c) (stops : StopsAt isNumberPart rest) :
    readNumber (digits ++ (suffix ++ rest)) = .read (.number n) (digits ++ suffix) rest := by
  have noSuffix := stops.integerSuffix
  have behind {p : Char → Bool} := stopsAt_suffix (p := p) letters stops
  cases h with
  | decimal some' all leading =>
      have short : digits.length ≤ maxDigits := by
        refine Nat.le_of_not_lt fun long => fits ⟨all, fun zero => ?_, long⟩
        rw [leading zero] at long
        exact absurd long (by decide)
      rw [readNumber_suffixed all letters stops, readInteger_eq_readBaseTen leading,
        readBaseTen_of_le short, readSuffixed_append letters noSuffix]
  | @octal digits some' all =>
      have zero : ∀ d ∈ '0' :: digits, isOctalDigit d := List.forall_mem_cons.2 ⟨rfl, all⟩
      have longer : 1 < ('0' :: digits).length := by
        have pos := List.length_pos_iff.2 some'
        rw [List.length_cons]
        omega
      rw [readNumber_suffixed (fun d hd => isDigit_of_isOctalDigit (zero d hd)) letters stops,
        readInteger, if_pos (by simpa using longer), if_pos (List.all_eq_true.2 zero),
        numeral_zero_cons, readSuffixed_append letters noSuffix]
  | @hexadecimal x digits mark some' all =>
      have stops' : StopsAt isHexDigit (suffix ++ rest) :=
        behind (by decide) fun _ => isNumberPart_of_isHexDigit
      rw [List.cons_append, List.cons_append, readNumber_hexadecimal mark,
        readRadix_append some' all stops', readSuffixed_append letters noSuffix]
      rfl
  | @binary x digits mark some' all =>
      have stops' : StopsAt isBinaryDigit (suffix ++ rest) :=
        behind (by decide) fun _ h => isNumberPart_of_isHexDigit (isHexDigit_of_isBinaryDigit h)
      rw [List.cons_append, List.cons_append, readNumber_binary mark,
        readRadix_append some' all stops', readSuffixed_append letters noSuffix]
      rfl

/-- **Digits that are too long give no number**, but they are read to their end with the suffix. -/
theorem IsOverlong.readNumber_append {digits suffix : List Char} (h : IsOverlong digits)
    (letters : ∀ c ∈ suffix, isIntegerSuffix c) (stops : StopsAt isNumberPart rest) :
    readNumber (digits ++ (suffix ++ rest)) =
      .overlong digits.length (digits ++ suffix) rest := by
  have noSuffix := stops.integerSuffix
  rw [readNumber_suffixed h.all letters stops,
    readInteger_eq_readBaseTen fun zero => absurd zero h.noZero, readBaseTen,
    if_neg (Nat.not_le.2 h.long), noSuffix.takeWhile_append letters,
    noSuffix.dropWhile_append letters]

/-! ### Digits that make no sense -/

/-- Digits behind a leading zero that are not all octal are refused. -/
theorem readNumber_octalDigit {digits after : List Char} (leading : digits.head? = some '0')
    (more : 1 < digits.length) (all : ∀ d ∈ digits, isDigit d)
    (other : ∃ d ∈ digits, isOctalDigit d = false) (stops : StopsAt isDigit after)
    (noPoint : StopsAt (· = '.') after) (noExponent : StopsAt Exponent.isMark after)
    (noBase : StopsAt isBaseMark after) :
    readNumber (digits ++ after) =
      .refuse (.lexical (.octalDigit (String.ofList digits))) digits after := by
  have notOctal : ¬ digits.all isOctalDigit = true := by
    obtain ⟨d, inside, noOctal⟩ := other
    intro octal
    rw [List.all_eq_true.1 octal d inside] at noOctal
    cases noOctal
  rw [readNumber_noPoint all stops noBase noPoint noExponent, readInteger,
    if_pos (by simp [leading, more]), if_neg notOctal]

/-! ### Floating literals -/

/-- A floating literal with a whole exponent is read. -/
theorem readFloat_complete {whole point fraction : List Char} {exponent : Exponent}
    (complete : exponent.isComplete) :
    readFloat whole point fraction exponent rest =
      .read (.float (.ofDecimal false (numeral 10 (whole ++ fraction))
        (exponent.value - fraction.length)))
        (whole ++ point ++ fraction ++ exponent.text) rest := by
  rw [readFloat, if_pos complete]

/-- **A floating literal is read as it is spelled.** -/
theorem FloatSpelling.readNumber_append {x : Double} (h : FloatSpelling text x)
    (stops : StopsAt isNumberPart rest) :
    readNumber (text ++ rest) = .read (.float x) text rest := by
  have noDigit : StopsAt isDigit rest := stops.mono fun _ => isNumberPart_of_isDigit
  have noMark : StopsAt Exponent.isMark rest := stops.mono fun _ => isNumberPart_of_isMark
  have off {c : Char} (h : Exponent.isMark c) : isDigit c = false ∧ isBaseMark c = false ∧
      decide (c = '.') = false := by
    simp only [Exponent.isMark, Bool.or_eq_true, decide_eq_true_eq] at h
    rcases h with rfl | rfl <;> decide
  cases h with
  | @point whole fraction exponent e all _ spelled =>
      have stops' : StopsAt isDigit (exponent ++ rest) :=
        spelled.stopsAt (fun _ h => (off h).1) noDigit
      obtain ⟨cut, split, written, complete, value⟩ := spelled.split_append noMark noDigit
      rw [List.append_assoc, List.append_assoc, List.append_assoc, readNumber_of_digits
        (fun d hd => all d (List.mem_append_left _ hd)) (fun c hc => by cases hc; rfl)
        (fun c hc => by cases hc; rfl), ← List.append_assoc, ← List.append_assoc,
        readDecimal_point (fun d hd => all d (List.mem_append_left _ hd))
          (fun d hd => all d (List.mem_append_right _ hd)) stops', split,
        readFloat_complete complete, value, written]
  | @noPoint whole exponent e all _ spelled some' =>
      have behind {p : Char → Bool} (noMark : ∀ c, Exponent.isMark c → p c = false)
          (stops : StopsAt p rest) : StopsAt p (exponent ++ rest) := spelled.stopsAt noMark stops
      have stops' : StopsAt isDigit (exponent ++ rest) := behind (fun _ h => (off h).1) noDigit
      obtain ⟨cut, split, written, complete, value⟩ := spelled.split_append noMark noDigit
      rw [List.append_assoc, readNumber_of_digits all stops'
          (behind (fun _ h => (off h).2.1) (stops.mono fun _ => isNumberPart_of_isBaseMark)),
        readDecimal_noPoint all stops'
          (behind (fun _ h => (off h).2.2) (stops.mono fun _ => isNumberPart_of_point)),
        split, if_neg (by rwa [written]), readFloat_complete complete, value, written]
      simp

end PlainC
