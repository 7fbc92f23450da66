/-
**Literals are scanned as they are spelled.**

A character between quotation marks can be spelled in several ways: as it is, by an escape of one
character, by the digits of its code, or behind a backslash that means nothing.  Digits go as far
as they can, so fewer than the most are a spelling only in front of a character that is no digit.
However the spellings are chosen, one for each character, the literal ends at its closing mark and
holds the text that was spelled.  A number ends where a character follows that cannot belong to a
word or a number, and has the value of its digits in the base that they are written in; only in base
ten there may be too many of them.

Main definitions:

* `PlainC.CharacterSpelling`, `PlainC.SpelledBy` — the spellings of a character, and the spellings
  of a text, one for each character;
* `PlainC.Scan.brokenBehind` — a scan that breaks off behind the digits of a number.

Main results:

* `PlainC.SpelledBy.quotedSpelling` — such spellings make up the spelling of a quotation;
* `PlainC.scanFrom_quoted` — **a quoted literal is scanned as it is spelled**;
* `PlainC.scanFrom_number` — **a number is scanned as it is spelled**, digits that make no sense in
  their base are refused, and too many digits in base ten break the scanning off.
-/

import PlainC.Proofs.Scanning.Spacing

set_option relaxedAutoImplicit false
set_option autoImplicit false

namespace PlainC

variable {following rest value : List Char} {spellings : List (List Char)} {c mark : Char}

/-! ### Spellings of one character -/

/-- The spellings of a character between two quotation marks `mark`, in front of the text
`following`.  A spelling by digits has the most digits that there may be, or no further digit
follows. -/
inductive CharacterSpelling (mark : Char) (following : List Char) (c : Char) : List Char → Prop
  | plain : c ≠ mark → c ≠ '\x5c' → c ≠ '\n' → CharacterSpelling mark following c [c]
  | simple {letter : Char} : simpleEscape? letter = some c →
      CharacterSpelling mark following c ['\x5c', letter]
  | hexadecimal {digits : List Char} : (∀ d ∈ digits, isHexDigit d) →
      digits.length = 2 ∨ digits.length = 1 ∧ StopsAt isHexDigit following →
      numeral 16 digits = c.toNat → CharacterSpelling mark following c ('\x5c' :: 'x' :: digits)
  | octal {digits : List Char} : (∀ d ∈ digits, isOctalDigit d) →
      digits.length = 3 ∨ (digits.length = 1 ∨ digits.length = 2) ∧ StopsAt isOctalDigit following →
      numeral 8 digits % 256 = c.toNat → CharacterSpelling mark following c ('\x5c' :: digits)
  | itself : simpleEscape? c = none → c ≠ 'x' → isOctalDigit c = false →
      CharacterSpelling mark following c ['\x5c', c]

/-- One more character is put in front of a quotation by any of its spellings. -/
theorem CharacterSpelling.quotedSpelling {spelling : List Char}
    (h : CharacterSpelling mark following c spelling)
    (behind : QuotedSpelling mark following value) :
    QuotedSpelling mark (spelling ++ following) (c :: value) := by
  cases h with
  | plain notMark notBackslash notNewline => exact .plain notMark notNewline notBackslash behind
  | simple simple => exact .escape (.simple simple) behind
  | @hexadecimal digits all long code =>
      have some' : digits ≠ [] := by
        rintro rfl
        simp at long
      have run : UpToTwo isHexDigit digits following := ⟨all, by omega, long.imp_right And.right⟩
      have escape := EscapeSpelling.hexadecimal some' run
      rw [code, Char.ofNat_toNat] at escape
      exact .escape escape behind
  | @octal digits all long code =>
      obtain ⟨d, digits, rfl⟩ : ∃ d ds, digits = d :: ds := by
        refine List.exists_cons_of_ne_nil ?_
        rintro rfl
        simp at long
      simp only [List.length_cons] at long
      have run : UpToTwo isOctalDigit digits following :=
        ⟨fun e he => all e (List.mem_cons_of_mem _ he), by omega,
          long.imp (by omega) And.right⟩
      have escape := EscapeSpelling.octal (all d (List.mem_cons_self ..)) run
      rw [code, Char.ofNat_toNat] at escape
      exact .escape escape behind
  | itself notSimple notX notOctal => exact .escape (.other notSimple notX notOctal) behind

/-! ### Spellings of a text -/

/-- The text is spelled by the given spellings, one for each character, each of them in front of the
next ones and the closing mark. -/
inductive SpelledBy (mark : Char) : List Char → List (List Char) → Prop
  | nil : SpelledBy mark [] []
  | cons {c : Char} {value spelling : List Char} {spellings : List (List Char)} :
      CharacterSpelling mark (spellings.flatten ++ [mark]) c spelling →
      SpelledBy mark value spellings → SpelledBy mark (c :: value) (spelling :: spellings)

/-- **The spellings of the characters make up the spelling of a quotation.** -/
theorem SpelledBy.quotedSpelling (h : SpelledBy mark value spellings) :
    QuotedSpelling mark (spellings.flatten ++ [mark]) value := by
  induction h with
  | nil => exact .close
  | cons character _ ih =>
      rw [List.flatten_cons, List.append_assoc]
      exact character.quotedSpelling ih

/-- **A quoted literal is scanned as it is spelled**: whatever stands in front of it and behind it,
it is one token with the text, or with the code of the one character, that was spelled, and the
scanning goes on behind the closing mark. -/
theorem scanFrom_quoted (file : String) (place : Place) (rest : List Char) :
    (∀ value spellings, SpelledBy '\x22' value spellings →
      scanFrom file place ('\x22' :: (spellings.flatten ++ ['\x22']) ++ rest) =
        (scanFrom file (place.after ('\x22' :: (spellings.flatten ++ ['\x22']))) rest).push
          ⟨.string (String.ofList value), place.line, place.column⟩) ∧
    (∀ c spelling, SpelledBy '\x27' [c] [spelling] →
      scanFrom file place ('\x27' :: (spelling ++ ['\x27']) ++ rest) =
        (scanFrom file (place.after ('\x27' :: (spelling ++ ['\x27']))) rest).push
          ⟨.character c.toNat, place.line, place.column⟩) := by
  constructor
  · intro value spellings spelled
    have reads := spelled.quotedSpelling.readsAs_string rest
    exact scanFrom_of_readsAs file place .nil reads
  · intro c spelling spelled
    have reads := spelled.quotedSpelling.readsAs_character rest
    rw [List.flatten_singleton] at reads
    exact scanFrom_of_readsAs file place .nil reads

/-- A text with escapes of every sort, between string marks and in front of a semicolon. -/
theorem scanFrom_quoted_escapes :
    SpelledBy '\x22' "A8J\n'\x07".toList
      ["\\101".toList, "8".toList, "\\x4a".toList, "\\\n".toList, "'".toList, "\\x7".toList] ∧
    scanFrom "a.c" ⟨1, []⟩ "\"\\1018\\x4a\\\n'\\x7\";".toList =
      (scanFrom "a.c" ⟨2, "\"7x\\'".toList⟩ [';']).push ⟨.string "A8J\n'\x07", 1, 1⟩ := by
  have spelled : SpelledBy '\x22' "A8J\n'\x07".toList
      ["\\101".toList, "8".toList, "\\x4a".toList, "\\\n".toList, "'".toList, "\\x7".toList] := by
    refine .cons (@CharacterSpelling.octal _ _ _ ['1', '0', '1'] (List.all_eq_true.1 rfl)
      (.inl rfl) (by decide)) ?_
    refine .cons (.plain (by decide) (by decide) (by decide)) ?_
    refine .cons (@CharacterSpelling.hexadecimal _ _ _ ['4', 'a'] (List.all_eq_true.1 rfl)
      (.inl rfl) (by decide)) ?_
    refine .cons (.itself (by decide) (by decide) (by decide)) ?_
    refine .cons (.plain (by decide) (by decide) (by decide)) ?_
    refine .cons (@CharacterSpelling.hexadecimal _ _ _ ['7'] (List.all_eq_true.1 rfl)
      (.inr ⟨rfl, ?_⟩) (by decide)) .nil
    intro c hc
    cases hc
    rfl
  exact ⟨spelled, (scanFrom_quoted "a.c" ⟨1, []⟩ [';']).1 _ _ spelled⟩

/-! ### Numbers -/

/-- In front of a text that prolongs neither a word nor a number a number ends. -/
theorem StopsAt.number (h : StopsAt isOperandPart rest) : StopsAt isNumberPart rest :=
  h.mono fun _ => isOperandPart_of_isNumberPart

/-- The scan that breaks off without a token behind the text `text`, where it quotes the line. -/
def Scan.brokenBehind (fault : LexicalFault) (file : String) (place : Place)
    (text rest : List Char) : Scan :=
  let reached := place.after text
  .broken [] (.placed (.lexical fault) (reached.location file) (some (reached.lineText rest)))

/-- A number that is refused breaks the scanning off behind the characters that were read. -/
theorem scanFrom_of_readNumber_refuse (file : String) (place : Place) {cs text : List Char}
    {fault : LexicalFault} (begins : BeginsNumber cs)
    (h : readNumber cs = .refuse (.lexical fault) text rest) :
    scanFrom file place cs = .brokenBehind fault file place text rest := by
  obtain ⟨c, more, rfl, noGap, number⟩ := begins.exists_readLexeme
  rw [h] at number
  rw [scanFrom_eq, noGap]
  dsimp only
  rw [number]
  rfl

/-- **A number is scanned as it is spelled**, wherever it ends: an integer is one token with its
value in the base of its digits, of any size in base two, eight and sixteen, and in base ten unless
it is too long to be converted; then the scanning breaks off.  A row of digits with a point or a
whole exponent is a floating literal, whatever zeros it begins with.  Digits behind a leading zero
that are not all octal, and a mark for base sixteen or two without a digit of that base, give no
token. -/
theorem scanFrom_number (file : String) (place : Place) (ends : StopsAt isOperandPart rest) :
    (∀ digits suffix n, IntegerSpelling digits n → ¬ IsOverlong digits →
      (∀ c ∈ suffix, isIntegerSuffix c) →
      scanFrom file place (digits ++ suffix ++ rest) =
        (scanFrom file (place.after (digits ++ suffix)) rest).push
          ⟨.number n, place.line, place.column⟩) ∧
    (∀ digits suffix, IsOverlong digits → (∀ c ∈ suffix, isIntegerSuffix c) →
      scanFrom file place (digits ++ suffix ++ rest) = .overlong [] digits.length) ∧
    (∀ text x, FloatSpelling text x →
      scanFrom file place (text ++ rest) =
        (scanFrom file (place.after text) rest).push ⟨.float x, place.line, place.column⟩) ∧
    (∀ digits suffix, digits.head? = some '0' → 1 < digits.length → (∀ d ∈ digits, isDigit d) →
      '8' ∈ digits ∨ '9' ∈ digits → (∀ c ∈ suffix, isIntegerSuffix c) →
      scanFrom file place (digits ++ (suffix ++ rest)) =
        .brokenBehind (.octalDigit (String.ofList digits)) file place digits (suffix ++ rest)) ∧
    (∀ x behind, x = 'x' ∨ x = 'X' → StopsAt isHexDigit behind →
      scanFrom file place (['0', x] ++ behind) =
        .brokenBehind .noHexadecimalDigits file place ['0', x] behind) ∧
    (∀ x behind, x = 'b' ∨ x = 'B' → StopsAt isBinaryDigit behind →
      scanFrom file place (['0', x] ++ behind) =
        .brokenBehind .noBinaryDigits file place ['0', x] behind) := by
  refine ⟨?_, ?_, ?_, ?_, ?_, ?_⟩
  · intro digits suffix n spelled fits letters
    exact scanFrom_of_readsAs file place .nil (spelled.readsAs fits letters ends.number)
  · intro digits suffix long letters
    rw [List.append_assoc]
    exact scanFrom_of_isOverlong file place .nil long letters ends.number
  · intro text x spelled
    exact scanFrom_of_readsAs file place .nil (spelled.readsAs ends.number)
  · intro digits suffix leading more all other letters
    have behind {p : Char → Bool} := stopsAt_suffix (p := p) letters ends.number
    have notOctal : ∃ d ∈ digits, isOctalDigit d = false :=
      other.elim (fun eight => ⟨'8', eight, rfl⟩) fun nine => ⟨'9', nine, rfl⟩
    have begins : BeginsNumber digits := by
      refine beginsNumber_of_digits ?_ all
      rintro rfl
      cases leading
    refine scanFrom_of_readNumber_refuse file place (begins.append _) ?_
    exact readNumber_octalDigit leading more all notOctal
      (behind (by decide) fun _ => isNumberPart_of_isDigit)
      (behind (by decide) fun _ => isNumberPart_of_point)
      (behind (by decide) fun _ => isNumberPart_of_isMark)
      (behind (by decide) fun _ => isNumberPart_of_isBaseMark)
  · intro x behind mark stops
    refine scanFrom_of_readNumber_refuse file place ⟨'0', _, rfl, .inl rfl⟩ ?_
    exact (readNumber_hexadecimal mark).trans (readRadix_noDigits stops)
  · intro x behind mark stops
    refine scanFrom_of_readNumber_refuse file place ⟨'0', _, rfl, .inl rfl⟩ ?_
    exact (readNumber_binary mark).trans (readRadix_noDigits stops)

/-- Base sixteen with a suffix, an exponent behind leading zeros, digits that are not octal, and a
mark without digits. -/
theorem scanFrom_number_semicolon :
    StopsAt isOperandPart [';'] ∧
    IntegerSpelling "0X0fF".toList 255 ∧ ¬ IsOverlong "0X0fF".toList ∧
    scanFrom "a.c" ⟨1, []⟩ ("0X0fF".toList ++ "uL".toList ++ [';']) =
      (scanFrom "a.c" ⟨1, "LuFf0X0".toList⟩ [';']).push ⟨.number 255, 1, 1⟩ ∧
    FloatSpelling "08e-1".toList (.ofDecimal false 8 (-1)) ∧
    scanFrom "a.c" ⟨1, []⟩ ("08e-1".toList ++ [';']) =
      (scanFrom "a.c" ⟨1, "1-e80".toList⟩ [';']).push ⟨.float (.ofDecimal false 8 (-1)), 1, 1⟩ ∧
    scanFrom "a.c" ⟨1, []⟩ ("018".toList ++ ("u".toList ++ [';'])) =
      .broken [] (.placed (.lexical (.octalDigit "018")) ⟨"a.c", 1, 4⟩ (some "018u;")) ∧
    scanFrom "a.c" ⟨1, []⟩ (['0', 'b'] ++ ['2', ';']) =
      .broken [] (.placed (.lexical .noBinaryDigits) ⟨"a.c", 1, 3⟩ (some "0b2;")) := by
  have ends : StopsAt isOperandPart [';'] := by
    intro c hc
    cases hc
    rfl
  have noDigit : StopsAt isBinaryDigit ['2', ';'] := by
    intro c hc
    cases hc
    rfl
  have hexadecimal : IntegerSpelling "0X0fF".toList 255 :=
    @IntegerSpelling.hexadecimal 'X' ['0', 'f', 'F'] (.inr rfl) (by decide) (List.all_eq_true.1 rfl)
  have exponent : ExponentSpelling "e-1".toList (-1) :=
    @ExponentSpelling.minus 'e' ['1'] (.inl rfl) (by decide) (List.all_eq_true.1 rfl)
  have float : FloatSpelling "08e-1".toList (.ofDecimal false 8 (-1)) :=
    @FloatSpelling.noPoint ['0', '8'] _ _ (List.all_eq_true.1 rfl) (by decide) exponent (by decide)
  have fits : ¬ IsOverlong "0X0fF".toList := fun long => long.noZero rfl
  obtain ⟨integer, -, floating, octal, -, binary⟩ := scanFrom_number "a.c" ⟨1, []⟩ ends
  refine ⟨ends, hexadecimal, fits, integer _ ['u', 'L'] _ hexadecimal fits (List.all_eq_true.1 rfl),
    float, floating _ _ float, ?_, ?_⟩
  · exact octal ['0', '1', '8'] ['u'] rfl (by decide) (List.all_eq_true.1 rfl) (by decide)
      (List.all_eq_true.1 rfl)
  · exact binary 'b' ['2', ';'] (.inl rfl) noDigit

/-- A row of ones that is one digit too long spells a number, but gives no token. -/
theorem scanFrom_number_ones :
    let ones := List.replicate (maxDigits + 1) '1'
    IntegerSpelling ones (numeral 10 ones) ∧
      ∀ s : Scan,
        scanFrom "a.c" ⟨1, []⟩ (ones ++ [';']) ≠ s.push ⟨.number (numeral 10 ones), 1, 1⟩ := by
  intro ones
  have digits : ∀ d ∈ ones, isDigit d := by
    intro d inside
    rw [List.eq_of_mem_replicate inside]
    rfl
  have noZero : ones.head? ≠ some '0' := by
    rw [List.head?_replicate]
    decide
  have long : IsOverlong ones := ⟨digits, noZero, by rw [List.length_replicate]; omega⟩
  refine ⟨.decimal (List.cons_ne_nil _ _) digits fun zero => absurd zero noZero, fun s token => ?_⟩
  have stops : StopsAt isNumberPart [';'] := by
    intro c hc
    cases hc
    rfl
  have broken := scanFrom_of_isOverlong "a.c" ⟨1, []⟩ .nil long (List.forall_mem_nil _) stops
  cases s <;> cases broken.symm.trans token

end PlainC
