/-
**What a number literal is.**

The spellings of integers and of floating literals are described with the values that they stand
for.  The reader of numbers looks at a text once, from left to right; whatever it reads off is one
of these spellings, and has the value of it.

Main definitions:

* `PlainC.StopsAt` — the texts at which a run of characters stops;
* `PlainC.IntegerSpelling`, `PlainC.ExponentSpelling`, `PlainC.FloatSpelling` — the spellings, with
  their values;
* `PlainC.NumberSpelling` — a number literal with its lexeme;
* `PlainC.IsOverlong` — the rows of digits that are too long to be converted.

Main results:

* `PlainC.NumberSpelling.of_readNumber` — **what is read off is the spelling of a number**;
* `PlainC.IsOverlong.of_readNumber` — only a row of digits in base ten can be too long;
* `PlainC.integerSpelling_toDigits` — every number has a spelling in base ten;
* `PlainC.isOverlong_toDigits_iff` — which may be too long.
-/

import PlainC.Token.Number

set_option relaxedAutoImplicit false
set_option autoImplicit false

namespace PlainC

variable {cs text rest : List Char} {lexeme : Lexeme}

/-! ### Runs of characters -/

/-- A run of the characters of a class stops in front of the text `cs`. -/
def StopsAt (p : Char → Bool) (cs : List Char) : Prop := ∀ c ∈ cs.head?, p c = false

theorem stopsAt_dropWhile (p : Char → Bool) (cs : List Char) : StopsAt p (cs.dropWhile p) := by
  intro c hc
  have first := List.head?_dropWhile_not p cs
  rw [Option.mem_def.1 hc] at first
  exact first

theorem StopsAt.mono {p q : Char → Bool} (h : StopsAt p cs) (le : ∀ c, q c → p c) :
    StopsAt q cs := by
  intro c hc
  have off := h c hc
  cases hq : q c with
  | false => rfl
  | true => rw [le c hq] at off; cases off

theorem StopsAt.takeWhile_eq {p : Char → Bool} (h : StopsAt p cs) : cs.takeWhile p = [] := by
  cases cs with
  | nil => rfl
  | cons c cs => rw [List.takeWhile_cons, h c rfl, if_neg Bool.false_ne_true]

theorem StopsAt.dropWhile_eq {p : Char → Bool} (h : StopsAt p cs) : cs.dropWhile p = cs := by
  have whole := List.takeWhile_append_dropWhile (p := p) (l := cs)
  rwa [h.takeWhile_eq, List.nil_append] at whole

/-- A run in front of a text at which it stops is taken as a whole. -/
theorem StopsAt.takeWhile_append {p : Char → Bool} (h : StopsAt p rest) (run : ∀ c ∈ text, p c) :
    (text ++ rest).takeWhile p = text := by
  rw [List.takeWhile_append_of_pos run, h.takeWhile_eq, List.append_nil]

theorem StopsAt.dropWhile_append {p : Char → Bool} (h : StopsAt p rest) (run : ∀ c ∈ text, p c) :
    (text ++ rest).dropWhile p = rest := by
  rw [List.dropWhile_append_of_pos run, h.dropWhile_eq]

theorem mem_takeWhile {p : Char → Bool} {c : Char} (h : c ∈ cs.takeWhile p) : p c :=
  List.all_eq_true.1 List.all_takeWhile c h

/-! ### Spellings -/

/-- The spellings of an integer without its suffix: in base ten without leading zeros, in base
eight after a zero, in base sixteen after `0x` and in base two after `0b`. -/
inductive IntegerSpelling : List Char → Nat → Prop
  | decimal {digits : List Char} : digits ≠ [] → (∀ d ∈ digits, isDigit d) →
      (digits.head? = some '0' → digits.length = 1) → IntegerSpelling digits (numeral 10 digits)
  | octal {digits : List Char} : digits ≠ [] → (∀ d ∈ digits, isOctalDigit d) →
      IntegerSpelling ('0' :: digits) (numeral 8 digits)
  | hexadecimal {x : Char} {digits : List Char} : x = 'x' ∨ x = 'X' → digits ≠ [] →
      (∀ d ∈ digits, isHexDigit d) → IntegerSpelling ('0' :: x :: digits) (numeral 16 digits)
  | binary {x : Char} {digits : List Char} : x = 'b' ∨ x = 'B' → digits ≠ [] →
      (∀ d ∈ digits, isBinaryDigit d) → IntegerSpelling ('0' :: x :: digits) (numeral 2 digits)

/-- The spellings of an exponent: none at all, or `e`, a sign or none, and digits. -/
inductive ExponentSpelling : List Char → Int → Prop
  | none : ExponentSpelling [] 0
  | unsigned {mark : Char} {digits : List Char} : mark = 'e' ∨ mark = 'E' → digits ≠ [] →
      (∀ d ∈ digits, isDigit d) → ExponentSpelling (mark :: digits) (numeral 10 digits)
  | plus {mark : Char} {digits : List Char} : mark = 'e' ∨ mark = 'E' → digits ≠ [] →
      (∀ d ∈ digits, isDigit d) → ExponentSpelling (mark :: '+' :: digits) (numeral 10 digits)
  | minus {mark : Char} {digits : List Char} : mark = 'e' ∨ mark = 'E' → digits ≠ [] →
      (∀ d ∈ digits, isDigit d) → ExponentSpelling (mark :: '-' :: digits) (-numeral 10 digits)

/-- The spellings of a floating literal: digits with a point among them, at their end or in front,
and an exponent or none; or digits and an exponent. -/
inductive FloatSpelling : List Char → Double → Prop
  | point {whole fraction exponent : List Char} {e : Int} : (∀ d ∈ whole ++ fraction, isDigit d) →
      whole ++ fraction ≠ [] → ExponentSpelling exponent e →
      FloatSpelling (whole ++ ['.'] ++ fraction ++ exponent)
        (.ofDecimal false (numeral 10 (whole ++ fraction)) (e - fraction.length))
  | noPoint {whole exponent : List Char} {e : Int} : (∀ d ∈ whole, isDigit d) → whole ≠ [] →
      ExponentSpelling exponent e → exponent ≠ [] →
      FloatSpelling (whole ++ exponent) (.ofDecimal false (numeral 10 whole) e)

/-- The number literals with their lexemes: an integer with any suffix, or a floating literal. -/
inductive NumberSpelling : List Char → Lexeme → Prop
  | integer {digits suffix : List Char} {n : Nat} : IntegerSpelling digits n →
      (∀ c ∈ suffix, isIntegerSuffix c) → NumberSpelling (digits ++ suffix) (.number n)
  | float {text : List Char} {x : Double} : FloatSpelling text x → NumberSpelling text (.float x)

/-- The rows of digits in base ten that are too long to be converted. -/
structure IsOverlong (digits : List Char) : Prop where
  all : ∀ d ∈ digits, isDigit d
  noZero : digits.head? ≠ some '0'
  long : maxDigits < digits.length

/-! ### What is read off is a number -/

theorem NumberSpelling.of_readSuffixed {digits after : List Char} {n : Nat}
    (spelled : IntegerSpelling digits n)
    (h : readSuffixed n digits after = .read lexeme text rest) : NumberSpelling text lexeme := by
  simp only [readSuffixed, Reading.read.injEq] at h
  obtain ⟨rfl, rfl, -⟩ := h
  exact .integer spelled fun c hc => mem_takeWhile hc

theorem NumberSpelling.of_readRadix {base : Nat} {digit : Char → Bool} {fault : LexicalFault}
    {mark after : List Char}
    (spelled : ∀ digits, digits ≠ [] → (∀ d ∈ digits, digit d) →
      IntegerSpelling (mark ++ digits) (numeral base digits))
    (h : readRadix base digit fault mark after = .read lexeme text rest) :
    NumberSpelling text lexeme := by
  unfold readRadix at h
  dsimp only at h
  split at h
  · cases h
  · rename_i some'
    exact .of_readSuffixed (spelled _ some' fun d hd => mem_takeWhile hd) h

theorem numeral_zero_cons (base : Nat) (digits : List Char) :
    numeral base ('0' :: digits) = numeral base digits := by
  have zero : numeral base ['0'] = 0 := by simp [numeral, digitValue, isDigit]
  have both := numeral_append base ['0'] digits
  rwa [zero, Nat.zero_mul, Nat.zero_add] at both

theorem NumberSpelling.of_readBaseTen {digits after : List Char}
    (spelled : IntegerSpelling digits (numeral 10 digits))
    (h : readBaseTen digits after = .read lexeme text rest) : NumberSpelling text lexeme := by
  unfold readBaseTen at h
  split at h
  · exact .of_readSuffixed spelled h
  · cases h

theorem NumberSpelling.of_readInteger {digits after : List Char} (nonempty : digits ≠ [])
    (all : ∀ d ∈ digits, isDigit d) (h : readInteger digits after = .read lexeme text rest) :
    NumberSpelling text lexeme := by
  unfold readInteger at h
  split at h
  · rename_i leading
    split at h
    · rename_i octal
      obtain _ | ⟨d, digits⟩ := digits
      · exact absurd rfl nonempty
      · simp only [List.head?_cons, Option.some.injEq, List.length_cons, Bool.and_eq_true,
          decide_eq_true_eq] at leading
        obtain ⟨rfl, more⟩ := leading
        rw [numeral_zero_cons] at h
        refine .of_readSuffixed (.octal ?_ ?_) h
        · rintro rfl
          simp at more
        · intro d hd
          exact List.all_eq_true.1 octal d (List.mem_cons_of_mem _ hd)
    · cases h
  · rename_i plain
    refine .of_readBaseTen (.decimal nonempty all ?_) h
    intro zero
    have pos := List.length_pos_iff.2 nonempty
    simp only [zero, decide_true, Bool.true_and, decide_eq_true_eq] at plain
    omega

/-- An exponent that is cut off and has digits is spelled as such. -/
theorem Exponent.spelling_of_split (complete : (split cs).1.isComplete) :
    ExponentSpelling (split cs).1.text (split cs).1.value := by
  cases cs with
  | nil => exact .none
  | cons mark cs =>
      by_cases hm : isMark mark = true
      · have mark' : mark = 'e' ∨ mark = 'E' := by simpa [isMark] using hm
        simp only [split, hm, if_true, isComplete, List.cons_append, reduceCtorEq, decide_false,
          Bool.false_or, decide_eq_true_eq, value] at complete ⊢
        have digits (ds : List Char) : ∀ d ∈ ds.takeWhile isDigit, isDigit d :=
          fun d hd => mem_takeWhile hd
        rcases cs with _ | ⟨sign, cs⟩
        · exact absurd rfl complete
        · by_cases plus : sign = '+'
          · subst plus
            exact .plus mark' complete (digits cs)
          · by_cases minus : sign = '-'
            · subst minus
              exact .minus mark' complete (digits cs)
            · simp only [List.take_succ_cons, List.take_zero, List.takeWhile_cons, plus, minus,
                decide_false, Bool.or_false, Bool.false_eq_true, if_false, List.length_nil,
                List.drop_zero, List.nil_append] at complete ⊢
              refine .unsigned mark' complete ?_
              simpa only [List.takeWhile_cons] using digits (sign :: cs)
      · simp only [split, hm]
        exact .none

theorem NumberSpelling.of_readFloat_point {whole fraction after : List Char}
    (all : ∀ d ∈ whole ++ fraction, isDigit d) (nonempty : whole ++ fraction ≠ [])
    (h : readFloat whole ['.'] fraction (Exponent.split after).1 (Exponent.split after).2 =
      .read lexeme text rest) : NumberSpelling text lexeme := by
  unfold readFloat at h
  dsimp only at h
  split at h
  · rename_i complete
    cases h
    exact .float (.point all nonempty (Exponent.spelling_of_split complete))
  · cases h

theorem NumberSpelling.of_readFloat {whole after : List Char} (all : ∀ d ∈ whole, isDigit d)
    (nonempty : whole ≠ []) (some' : (Exponent.split after).1.text ≠ [])
    (h : readFloat whole [] [] (Exponent.split after).1 (Exponent.split after).2 =
      .read lexeme text rest) : NumberSpelling text lexeme := by
  unfold readFloat at h
  dsimp only at h
  split at h
  · rename_i complete
    simp only [List.append_nil, List.length_nil, Int.ofNat_zero, Int.sub_zero] at h
    cases h
    exact .float (.noPoint all nonempty (Exponent.spelling_of_split complete) some')
  · cases h

theorem NumberSpelling.of_readDecimal {c : Char} {more : List Char}
    (begins : isDigit c ∨ c = '.' ∧ ∃ d ∈ more.head?, isDigit d)
    (h : readDecimal (c :: more) = .read lexeme text rest) : NumberSpelling text lexeme := by
  have digits (ds : List Char) : ∀ d ∈ ds.takeWhile isDigit, isDigit d :=
    fun d hd => mem_takeWhile hd
  have leading (hc : isDigit c = true) : (c :: more).takeWhile isDigit ≠ [] := by
    rw [List.takeWhile_cons, if_pos hc]
    exact List.cons_ne_nil _ _
  unfold readDecimal at h
  dsimp only at h
  split at h
  · rename_i after point
    refine .of_readFloat_point ?_ ?_ h
    · intro d hd
      rcases List.mem_append.1 hd with hd | hd
      · exact digits _ d hd
      · exact digits _ d hd
    · rcases begins with hc | ⟨rfl, d, hd, digit⟩
      · exact List.append_ne_nil_of_left_ne_nil (leading hc) _
      · -- without a digit in front of the point the text behind it begins with one
        cases point
        obtain ⟨more, rfl⟩ : ∃ ds, more = d :: ds := List.head?_eq_some_iff.1 hd
        rw [List.takeWhile_cons_of_pos digit]
        exact List.append_ne_nil_of_right_ne_nil _ (List.cons_ne_nil _ _)
  · rename_i noPoint
    have hc : isDigit c = true := by
      rcases begins with hc | ⟨rfl, -⟩
      · exact hc
      · exact absurd rfl (noPoint more)
    split at h
    · exact .of_readInteger (leading hc) (digits _) h
    · rename_i some'
      exact .of_readFloat (digits _) (leading hc) some' h

/-- **What is read off is the spelling of a number.** -/
theorem NumberSpelling.of_readNumber {c : Char} {more : List Char}
    (begins : isDigit c ∨ c = '.' ∧ ∃ d ∈ more.head?, isDigit d)
    (h : readNumber (c :: more) = .read lexeme text rest) : NumberSpelling text lexeme := by
  unfold readNumber at h
  split at h
  · rename_i x after same
    split at h
    · rename_i mark
      exact .of_readRadix (fun digits => .hexadecimal (by simpa using mark)) h
    · split at h
      · rename_i mark
        exact .of_readRadix (fun digits => .binary (by simpa using mark)) h
      · exact .of_readDecimal begins h
  · exact .of_readDecimal begins h

/-! ### What is too long -/

theorem IsOverlong.of_readInteger {digits after : List Char} {n : Nat}
    (all : ∀ d ∈ digits, isDigit d) (h : readInteger digits after = .overlong n text rest) :
    IsOverlong digits ∧ n = digits.length := by
  unfold readInteger at h
  split at h
  · split at h <;> cases h
  · rename_i plain
    unfold readBaseTen at h
    split at h
    · cases h
    · rename_i long
      cases h
      have long : maxDigits < digits.length := Nat.lt_of_not_le long
      refine ⟨⟨all, fun zero => plain ?_, long⟩, rfl⟩
      have more : 1 < digits.length := Nat.lt_of_le_of_lt (by decide) long
      rw [zero, decide_eq_true rfl, decide_eq_true more, Bool.and_true]

theorem readRadix_ne_overlong {base : Nat} {digit : Char → Bool} {fault : LexicalFault}
    {mark after : List Char} {n : Nat} :
    readRadix base digit fault mark after ≠ .overlong n text rest := by
  unfold readRadix
  dsimp only
  split <;> exact nofun

theorem readFloat_ne_overlong {whole point fraction after : List Char} {exponent : Exponent}
    {n : Nat} : readFloat whole point fraction exponent after ≠ .overlong n text rest := by
  unfold readFloat
  dsimp only
  split <;> exact nofun

/-- **Only a row of digits in base ten can be too long.** -/
theorem IsOverlong.of_readNumber {n : Nat} (h : readNumber cs = .overlong n text rest) :
    IsOverlong (cs.takeWhile isDigit) ∧ n = (cs.takeWhile isDigit).length := by
  have decimal (h : readDecimal cs = .overlong n text rest) :
      IsOverlong (cs.takeWhile isDigit) ∧ n = (cs.takeWhile isDigit).length := by
    unfold readDecimal at h
    dsimp only at h
    split at h
    · exact absurd h readFloat_ne_overlong
    · split at h
      · exact IsOverlong.of_readInteger (fun d hd => mem_takeWhile hd) h
      · exact absurd h readFloat_ne_overlong
  unfold readNumber at h
  split at h
  · split at h
    · exact absurd h readRadix_ne_overlong
    · split at h
      · exact absurd h readRadix_ne_overlong
      · exact decimal h
  · exact decimal h

/-! ### Numbers in base ten -/

theorem isDigit_of_mem_toDigits {n : Nat} {d : Char} (h : d ∈ Nat.toDigits 10 n) : isDigit d := by
  have digit := Char.isDigit_iff_toNat.1 (Nat.isDigit_of_mem_toDigits (by decide) (by decide) h)
  simpa [isDigit, Char.le_def, UInt32.le_iff_toNat_le] using digit

/-- The value of decimal digits is their value as a natural number in base ten. -/
theorem numeral_eq_ofDigitChars {base : Nat} {digits : List Char} (all : ∀ d ∈ digits, isDigit d) :
    numeral base digits = Nat.ofDigitChars base digits 0 := by
  rw [numeral, Nat.ofDigitChars_eq_foldl]
  generalize 0 = start
  induction digits generalizing start with
  | nil => rfl
  | cons d digits ih =>
      have hd : isDigit d = true := all d (List.mem_cons_self ..)
      rw [List.foldl_cons, List.foldl_cons, digitValue, if_pos hd]
      exact ih (fun e he => all e (List.mem_cons_of_mem _ he)) _

/-- The digits of a number in base ten have its value. -/
theorem numeral_toDigits (n : Nat) : numeral 10 (Nat.toDigits 10 n) = n := by
  rw [numeral_eq_ofDigitChars fun d hd => isDigit_of_mem_toDigits hd]
  exact Nat.ofDigitChars_ten_toDigits

/-- Only zero begins with the digit zero. -/
theorem head?_toDigits {n : Nat} (pos : 0 < n) : (Nat.toDigits 10 n).head? ≠ some '0' := by
  induction n using Nat.strongRecOn with
  | _ n ih =>
      rw [Nat.toDigits_eq_if (by decide)]
      split
      · rename_i small
        have nonzero : ∀ m < 10, 0 < m → some m.digitChar ≠ some '0' := by decide
        exact nonzero n small pos
      · have shorter := ih (n / 10) (by omega) (by omega)
        obtain ⟨d, ds, same⟩ := List.exists_cons_of_ne_nil (@Nat.toDigits_ne_nil (n / 10) 10)
        rwa [same] at shorter ⊢

/-- A number in base ten is spelled by its digits. -/
theorem integerSpelling_toDigits (n : Nat) : IntegerSpelling (Nat.toDigits 10 n) n := by
  have spelled := IntegerSpelling.decimal (@Nat.toDigits_ne_nil n 10)
    (fun d hd => isDigit_of_mem_toDigits hd) fun zero => by
      by_cases pos : 0 < n
      · exact absurd zero (head?_toDigits pos)
      · obtain rfl : n = 0 := by omega
        rfl
  rwa [numeral_toDigits] at spelled

/-- The digits of a number in base ten are too long if it is not convertible. -/
theorem isOverlong_toDigits_iff {n : Nat} : IsOverlong (Nat.toDigits 10 n) ↔ ¬ isConvertible n := by
  rw [isConvertible, Int.natAbs_natCast, decide_eq_true_iff, Nat.not_le]
  refine ⟨IsOverlong.long, fun long => ⟨fun d hd => isDigit_of_mem_toDigits hd, ?_, long⟩⟩
  by_cases pos : 0 < n
  · exact head?_toDigits pos
  · obtain rfl : n = 0 := by omega
    exact absurd long (by decide)

end PlainC
