/-
**Spaced lexemes are scanned back.**

A row of lexemes is written down with a separator between two of them: a blank, and then any row of
blanks and comments.  Whatever stands next to a lexeme, it is read up to its own end and no
further: the blank behind it prolongs no word, no number and no punctuator, and nothing inside a
quoted literal or a comment is taken for a mark of another kind.  Only a number that is too long to
be converted is not scanned back, and the scanning breaks off at the first one.

Main definitions:

* `PlainC.isOperandPart` — the characters that can prolong a word or a number;
* `PlainC.Item` — what is written down, with its lexeme and its spelling;
* `PlainC.Item.IsConvertible` — whether it is not a number that is too long;
* `PlainC.IsSeparator`, `PlainC.Spaced` — the separators, and the texts that spell a row of items;
* `PlainC.ReadsAs` — a text that is read as one lexeme in front of another text;
* `PlainC.ScannedRow` — what the scanning of a row of items comes to.

Main results:

* `PlainC.readsAs_item` — an item is read back in front of a blank;
* `PlainC.scanFrom_spaced` — the items of a row are scanned one by one;
* `PlainC.scan_spaced` — **a text that spells a row of items is scanned to their lexemes**, unless a
  number among them is too long.
-/

import PlainC.Proofs.Scanning.Gap
import PlainC.Proofs.Scanning.Lexeme
import PlainC.Proofs.Scanning.Numeral

set_option relaxedAutoImplicit false
set_option autoImplicit false

namespace PlainC

variable {cs text rest gap : List Char} {c : Char} {p : Char → Bool}

/-! ### Items and separators -/

/-- What can be written down: every lexeme apart from a floating literal and the end marker. -/
inductive Item where
  | keyword (k : Keyword)
  | identifier (name : String) (isIdentifier : IsIdentifier name.toList)
  | punctuator (m : Punctuator)
  | number (n : Nat)
  | string (value : String)
  | character (c : Char)

namespace Item

/-- The lexeme of an item. -/
def lexeme : Item → Lexeme
  | keyword k => .keyword k
  | identifier name _ => .identifier name
  | punctuator m => .punctuator m
  | number n => .number n
  | string value => .string value
  | character c => .character c.toNat

/-- The spelling of an item: words and punctuators as they are, numbers in base ten, and texts and
characters between their quotation marks. -/
def spelling : Item → List Char
  | keyword k => k.spelling.toList
  | identifier name _ => name.toList
  | punctuator m => m.chars
  | number n => (toString n).toList
  | string value => '\x22' :: (value.toList.flatMap (escaped '\x22') ++ ['\x22'])
  | character c => '\x27' :: (escaped '\x27' c ++ ['\x27'])

/-- Whether an item is no number, or one that is not too long to be converted. -/
def IsConvertible : Item → Prop
  | number n => isConvertible n
  | _ => True

end Item

/-- A separator: a blank, and then any row of blanks, of comments from `//` to a newline and of
comments from `/*` to `*/`. -/
def IsSeparator (text : List Char) : Prop :=
  ∃ c more, text = c :: more ∧ isBlank c ∧ Gap.Filler more

/-- The texts that spell a row of items with separators between them.  Behind the last item may
stand a separator, too. -/
inductive Spaced : List Item → List Char → Prop
  | nil : Spaced [] []
  | last (item : Item) : Spaced [item] item.spelling
  | cons (item : Item) {separator text : List Char} {items : List Item} : IsSeparator separator →
      Spaced items text → Spaced (item :: items) (item.spelling ++ (separator ++ text))

/-! ### In front of a blank -/

/-- The blanks in a row. -/
def blanks : List Char := [' ', '\t', '\n', '\r', '\x0c', '\x0b']

theorem isBlank_iff : isBlank c ↔ c ∈ blanks := by
  have same (d : Char) : c.toNat = d.toNat ↔ c = d := Char.toNat_inj
  simp only [isBlank, blanks, List.contains_eq_mem, decide_eq_true_eq, List.mem_cons,
    List.not_mem_nil, or_false, ← same]
  rfl

/-- No blank is of a class that holds none of the six. -/
theorem eq_false_of_isBlank (noBlank : blanks.all (fun d => !p d)) (h : isBlank c) :
    p c = false := by
  have other := List.all_eq_true.1 noBlank c (isBlank_iff.1 h)
  rwa [Bool.not_eq_true'] at other

/-- A text that begins with a blank, or is empty. -/
def BeginsBlank (cs : List Char) : Prop := ∀ c ∈ cs.head?, isBlank c

theorem BeginsBlank.stopsAt (h : BeginsBlank cs) (noBlank : blanks.all fun d => !p d) :
    StopsAt p cs := fun c hc => eq_false_of_isBlank noBlank (h c hc)

theorem isBlank_of_isWordChar (h : isWordChar c) : isBlank c = false := by
  cases blank : isBlank c with
  | false => rfl
  | true =>
      have other : isWordChar c = false := eq_false_of_isBlank (by decide) blank
      rw [other] at h
      cases h

/-! ### What prolongs a word or a number -/

/-- The characters that can prolong a word or a number. -/
def isOperandPart (c : Char) : Bool := isWordChar c || c = '.'

theorem isOperandPart_of_isWordChar (h : isWordChar c) : isOperandPart c := by
  rw [isOperandPart, h, Bool.true_or]

theorem isWordChar_of_isHexDigit (h : isHexDigit c) : isWordChar c := by
  have lower {d : Char} (le : d ≤ 'f') : d ≤ 'z' := Char.le_trans le (by decide)
  have upper {d : Char} (le : d ≤ 'F') : d ≤ 'Z' := Char.le_trans le (by decide)
  simp only [isHexDigit, Bool.or_eq_true, Bool.and_eq_true, decide_eq_true_eq] at h
  rcases h with (digit | ⟨low, high⟩) | ⟨low, high⟩
  · rw [isWordChar, digit, Bool.or_true]
  · simp [isWordChar, isWordStart, low, lower high]
  · simp [isWordChar, isWordStart, low, upper high]

theorem isOperandPart_of_isNumberPart (h : isNumberPart c) : isOperandPart c := by
  simp only [isNumberPart, isIntegerSuffix, Bool.or_eq_true, decide_eq_true_eq] at h
  rcases h with (((digit | ((rfl | rfl) | rfl) | rfl) | rfl) | rfl) | rfl
  · exact isOperandPart_of_isWordChar (isWordChar_of_isHexDigit digit)
  all_goals rfl

/-- In front of a text that prolongs no operand a word ends. -/
theorem StopsAt.word (h : StopsAt isOperandPart rest) : StopsAt isWordChar rest :=
  h.mono fun _ => isOperandPart_of_isWordChar

/-! ### One item -/

/-- The text `text` in front of `rest` is read as a lexeme, without a gap in front of it. -/
def ReadsAs (text rest : List Char) (lexeme : Lexeme) : Prop :=
  ∃ c more, text ++ rest = c :: more ∧ Gap.split (c :: more) = .closed [] (c :: more) ∧
    readLexeme c more = .read lexeme text rest

theorem readsAs_word (word : IsWord text) (stops : StopsAt isWordChar rest) :
    ReadsAs text rest (wordLexeme text) := by
  have all := word.all
  obtain ⟨c, cs, rfl, start, -⟩ := word
  refine ⟨c, cs ++ rest, rfl, ?_, ?_⟩
  · refine Gap.split_other (isBlank_of_isWordChar (isWordChar_of_isWordStart start)) ?_
    rintro rfl
    cases start
  · rw [readLexeme, if_pos start, readWord, ← List.cons_append, stops.takeWhile_append all,
      stops.dropWhile_append all]

theorem isWord_spelling (k : Keyword) : IsWord k.spelling.toList := by
  cases k <;> exact ⟨_, _, rfl, by decide, List.all_eq_true.1 (by decide)⟩

theorem isWordStart_of_isDigit (h : isDigit c) : isWordStart c = false := by
  cases start : isWordStart c with
  | false => rfl
  | true =>
      simp only [isDigit, isWordStart, Char.le_def, UInt32.le_iff_toNat_le, Bool.or_eq_true,
        Bool.and_eq_true, decide_eq_true_eq] at h start
      rcases start with (lower | upper) | rfl
      · have low : (57 : Nat) < 97 := by decide
        exact absurd (Nat.le_trans lower.1 h.2) (by decide)
      · exact absurd (Nat.le_trans upper.1 h.2) (by decide)
      · exact absurd h.2 (by decide)

/-- In front of a text that begins as a number does there is no gap, and a number is read. -/
theorem BeginsNumber.exists_readLexeme (h : BeginsNumber cs) :
    ∃ c more, cs = c :: more ∧ Gap.split (c :: more) = .closed [] (c :: more) ∧
      readLexeme c more = readNumber (c :: more) := by
  obtain ⟨c, more, rfl, digit | ⟨rfl, d, hd, digit⟩⟩ := h
  · have wordChar : isWordChar c := by rw [isWordChar, digit, Bool.or_true]
    refine ⟨c, more, rfl, Gap.split_other (isBlank_of_isWordChar wordChar) ?_, ?_⟩
    · rintro rfl
      cases digit
    · rw [readLexeme, isWordStart_of_isDigit digit, digit]
      rfl
  · refine ⟨'.', more, rfl, Gap.split_other rfl fun slash => absurd slash (by decide), ?_⟩
    have fraction : more.head?.any isDigit = true := by
      rw [Option.mem_def.1 hd, Option.any_some, digit]
    rw [readLexeme, if_neg (by decide), fraction]
    rfl

/-- What is read as a number is read as a lexeme. -/
theorem NumberSpelling.readsAs {lexeme : Lexeme} (spelled : NumberSpelling text lexeme)
    (h : readNumber (text ++ rest) = .read lexeme text rest) : ReadsAs text rest lexeme := by
  obtain ⟨c, more, same, noGap, number⟩ := (spelled.begins.append rest).exists_readLexeme
  exact ⟨c, more, same, noGap, by rw [number, ← same, h]⟩

/-- **An integer is read as a lexeme**, unless it is too long. -/
theorem IntegerSpelling.readsAs {digits suffix : List Char} {n : Nat}
    (spelled : IntegerSpelling digits n) (fits : ¬ IsOverlong digits)
    (letters : ∀ c ∈ suffix, isIntegerSuffix c) (stops : StopsAt isNumberPart rest) :
    ReadsAs (digits ++ suffix) rest (.number n) := by
  refine (NumberSpelling.integer spelled letters).readsAs ?_
  rw [List.append_assoc, spelled.readNumber_append fits letters stops]

/-- **A floating literal is read as a lexeme.** -/
theorem FloatSpelling.readsAs {x : Double} (spelled : FloatSpelling text x)
    (stops : StopsAt isNumberPart rest) : ReadsAs text rest (.float x) :=
  (NumberSpelling.float spelled).readsAs (spelled.readNumber_append stops)

theorem toList_toString (n : Nat) : (toString n).toList = Nat.toDigits 10 n := by
  rw [Nat.toString_eq_ofList_toDigits, String.toList_ofList]

theorem readsAs_number {n : Nat} (convertible : isConvertible n)
    (stops : StopsAt isNumberPart rest) : ReadsAs (toString n).toList rest (.number n) := by
  have fits : ¬ IsOverlong (Nat.toDigits 10 n) := fun long =>
    isOverlong_toDigits_iff.1 long convertible
  have reads := (integerSpelling_toDigits n).readsAs fits (List.forall_mem_nil _) stops
  rwa [List.append_nil, ← toList_toString] at reads

/-- **A string literal is read as a lexeme**, however its text is spelled. -/
theorem QuotedSpelling.readsAs_string {value : List Char} (h : QuotedSpelling '\x22' text value)
    (rest : List Char) : ReadsAs ('\x22' :: text) rest (.string (String.ofList value)) := by
  refine ⟨'\x22', _, rfl, Gap.split_other rfl fun slash => absurd slash (by decide), ?_⟩
  change readString '\x22' (text ++ rest) = _
  rw [readString, h.readQuotation_append (by decide), Quotation.asString]

/-- **A character literal is read as a lexeme**, however its character is spelled. -/
theorem QuotedSpelling.readsAs_character (h : QuotedSpelling '\x27' text [c]) (rest : List Char) :
    ReadsAs ('\x27' :: text) rest (.character c.toNat) := by
  refine ⟨'\x27', _, rfl, Gap.split_other rfl fun slash => absurd slash (by decide), ?_⟩
  change readCharacter '\x27' (text ++ rest) = _
  rw [readCharacter, h.readQuotation_append (by decide)]
  rfl

theorem readsAs_string (value : String) (rest : List Char) :
    ReadsAs ('\x22' :: (value.toList.flatMap (escaped '\x22') ++ ['\x22'])) rest
      (.string value) := by
  have spelled := quotedSpelling_escaped (.inl rfl : '\x22' = '\x22' ∨ _) value.toList
  have reads := spelled.readsAs_string rest
  rwa [String.ofList_toList] at reads

theorem readsAs_character (c : Char) (rest : List Char) :
    ReadsAs ('\x27' :: (escaped '\x27' c ++ ['\x27'])) rest (.character c.toNat) := by
  have spelled := quotedSpelling_escaped (.inr rfl : '\x27' = '\x22' ∨ _) [c]
  rw [List.flatMap_singleton] at spelled
  exact spelled.readsAs_character rest

/-- No character of a punctuator is a blank, stands in a word or is a quotation mark. -/
theorem Punctuator.mem_chars {m : Punctuator} (h : c ∈ m.chars) :
    isBlank c = false ∧ isWordChar c = false ∧ c ≠ '\x22' ∧ c ≠ '\x27' := by
  have each : (Punctuator.all.all fun m => m.chars.all fun c =>
      !isBlank c && !isWordChar c && c != '\x22' && c != '\x27') = true := by decide
  have here := List.all_eq_true.1 (List.all_eq_true.1 each m (Punctuator.mem_all m)) c h
  simpa [and_assoc] using here

/-- In front of a blank a punctuator is the longest one. -/
theorem Punctuator.longest?_append {m : Punctuator} (blank : BeginsBlank rest) :
    Punctuator.longest? (m.chars ++ rest) = some m := by
  refine Punctuator.longest?_eq_some_iff.2 ⟨List.prefix_append .., ?_⟩
  intro q front
  cases rest with
  | nil =>
      rw [List.append_nil] at front
      exact front.length_le
  | cons c rest =>
      by_cases longer : q.chars.length ≤ m.chars.length
      · exact longer
      · -- a longer punctuator would hold the blank
        have upToBlank : m.chars ++ [c] <+: m.chars ++ c :: rest := ⟨rest, by simp⟩
        have held : m.chars ++ [c] <+: q.chars := by
          refine List.prefix_of_prefix_length_le upToBlank front ?_
          rw [List.length_append, List.length_singleton]
          omega
        have inside : c ∈ q.chars := held.subset (by simp)
        have isBlank := blank c rfl
        rw [(Punctuator.mem_chars inside).1] at isBlank
        cases isBlank

theorem Punctuator.chars_of_slash {m : Punctuator} (h : m.chars = '/' :: cs) :
    cs = [] ∨ cs = ['='] := by
  have each : ∀ m ∈ Punctuator.all, m.chars.head? = some '/' →
      m.chars.tail = [] ∨ m.chars.tail = ['='] := by decide
  have found := each m (Punctuator.mem_all m)
  rw [h] at found
  exact found rfl

/-- A punctuator is read where the text behind it makes nothing else of it: no longer punctuator, no
comment and no number. -/
theorem readsAs_punctuator {m : Punctuator}
    (longest : Punctuator.longest? (m.chars ++ rest) = some m)
    (noComment : m = .slash → StopsAt (fun c => c = '/' || c = '*') rest)
    (noNumber : m = .dot → StopsAt isDigit rest) : ReadsAs m.chars rest (.punctuator m) := by
  have none : ∀ c ∈ m.chars, isBlank c = false ∧ isWordChar c = false ∧ c ≠ '\x22' ∧ c ≠ '\x27' :=
    fun c hc => Punctuator.mem_chars hc
  obtain ⟨c, cs, spelled⟩ := List.exists_cons_of_ne_nil m.chars_ne_nil
  rw [ReadsAs, spelled]
  have slash (same : c = '/') : cs = [] ∧ m = .slash ∨ cs = ['='] := by
    subst same
    refine (Punctuator.chars_of_slash spelled).imp_left fun alone => ⟨alone, ?_⟩
    rw [alone] at spelled
    exact Punctuator.chars_injective spelled
  have dot (same : c = '.') (alone : cs = []) : m = .dot := by
    rw [same, alone] at spelled
    exact Punctuator.chars_injective spelled
  rw [spelled] at longest none
  obtain ⟨noBlank, noWord, noString, noCharacter⟩ := none c (List.mem_cons_self ..)
  rw [isWordChar, Bool.or_eq_false_iff] at noWord
  refine ⟨c, cs ++ rest, rfl, Gap.split_other noBlank ?_, ?_⟩
  · intro same more
    rcases slash same with ⟨rfl, isSlash⟩ | rfl
    · have stops := noComment isSlash
      constructor <;>
        · intro behind
          rw [List.nil_append] at behind
          rw [behind] at stops
          cases stops _ rfl
    · exact ⟨by simp, by simp⟩
  · have noFraction : (decide (c = '.') && (cs ++ rest).head?.any isDigit) = false := by
      by_cases isDot : c = '.'
      · rw [decide_eq_true isDot, Bool.true_and]
        cases cs with
        | nil =>
            have stops := noNumber (dot isDot rfl)
            cases rest with
            | nil => rfl
            | cons d rest => exact stops d rfl
        | cons d cs =>
            have other := (none d (by simp)).2.1
            rw [isWordChar, Bool.or_eq_false_iff] at other
            exact other.2
      · rw [decide_eq_false isDot, Bool.false_and]
    have noDigit :
        ¬ (isDigit c || (decide (c = '.') && (cs ++ rest).head?.any isDigit)) = true := by
      rw [noWord.2, noFraction]
      exact Bool.false_ne_true
    rw [readLexeme, if_neg (by simp [noWord.1]), if_neg noDigit, if_neg noString,
      if_neg noCharacter, readPunctuator, ← List.cons_append, longest]
    simp only [spelled, List.drop_left]

/-- **An item is read back in front of a blank.** -/
theorem readsAs_item {item : Item} (convertible : item.IsConvertible) (blank : BeginsBlank rest) :
    ReadsAs item.spelling rest item.lexeme := by
  cases item with
  | keyword k =>
      have word := readsAs_word (isWord_spelling k) (blank.stopsAt (by decide))
      rwa [wordLexeme_spelling] at word
  | identifier name isIdentifier =>
      have word := readsAs_word isIdentifier.word (blank.stopsAt (by decide))
      rwa [wordLexeme_of_isIdentifier isIdentifier, String.ofList_toList] at word
  | punctuator m =>
      exact readsAs_punctuator (Punctuator.longest?_append blank)
        (fun _ => blank.stopsAt (by decide)) (fun _ => blank.stopsAt (by decide))
  | number n => exact readsAs_number convertible (blank.stopsAt (by decide))
  | string value => exact readsAs_string value rest
  | character c => exact readsAs_character c rest

/-! ### Rows of items -/

/-- The first turn of a scan. -/
theorem scanFrom_eq (file : String) (place : Place) (cs : List Char) :
    scanFrom file place cs =
      match Gap.split cs with
      | .unclosed text _ =>
          .broken [] (.placed (.lexical .unclosedComment) ((place.after text).location file) none)
      | .closed text [] =>
          .complete [] ⟨.ending, (place.after text).line, (place.after text).column⟩
      | .closed text (c :: more) =>
          match readLexeme c more with
          | .refused refusal text' rest =>
              .broken [] (refusal.diagnostic file (place.after text) text' rest)
          | .overlong digits _ _ => .overlong [] digits
          | .read lexeme text' rest =>
              (scanFrom file ((place.after text).after text') rest).push
                ⟨lexeme, (place.after text).line, (place.after text).column⟩ := by
  rw [scanFrom]
  split
  · rename_i cut
    rw [cut]
  · rename_i cut
    rw [cut]
  · rename_i cut
    rw [cut]
    dsimp only
    split <;>
      · rename_i read
        rw [read]

/-- A gap and a lexeme are scanned in one turn. -/
theorem scanFrom_of_readsAs (file : String) (place : Place) {lexeme : Lexeme}
    (stands : Gap.Stands gap (text ++ rest)) (reads : ReadsAs text rest lexeme) :
    scanFrom file place (gap ++ (text ++ rest)) =
      (scanFrom file ((place.after gap).after text) rest).push
        ⟨lexeme, (place.after gap).line, (place.after gap).column⟩ := by
  obtain ⟨c, more, same, last, read⟩ := reads
  rw [same] at stands ⊢
  have cut : Gap.split (gap ++ c :: more) = .closed gap (c :: more) :=
    Gap.split_eq_closed_iff.2 ⟨stands, rfl, last⟩
  rw [scanFrom_eq, cut]
  dsimp only
  rw [read]

/-- Behind the last lexeme a gap is scanned up to the end. -/
theorem scanFrom_of_stands (file : String) (place : Place) (stands : Gap.Stands gap []) :
    scanFrom file place gap =
      .complete [] ⟨.ending, (place.after gap).line, (place.after gap).column⟩ := by
  have cut : Gap.split gap = .closed gap [] := by
    refine Gap.split_eq_closed_iff.2 ⟨stands, by simp, ?_⟩
    rw [Gap.split]
  rw [scanFrom_eq, cut]

theorem IsSeparator.filler (h : IsSeparator text) : Gap.Filler text := by
  obtain ⟨c, more, rfl, blank, filler⟩ := h
  exact .blank blank filler

theorem IsSeparator.beginsBlank (h : IsSeparator text) (rest : List Char) :
    BeginsBlank (text ++ rest) := by
  obtain ⟨c, more, rfl, blank, -⟩ := h
  intro d hd
  cases hd
  exact blank

/-- Digits that are too long break the scanning off behind a gap. -/
theorem scanFrom_of_isOverlong (file : String) (place : Place) {digits suffix : List Char}
    (stands : Gap.Stands gap (digits ++ (suffix ++ rest))) (long : IsOverlong digits)
    (letters : ∀ c ∈ suffix, isIntegerSuffix c) (stops : StopsAt isNumberPart rest) :
    scanFrom file place (gap ++ (digits ++ (suffix ++ rest))) = .overlong [] digits.length := by
  have some' : digits ≠ [] := List.length_pos_iff.1 (Nat.zero_lt_of_lt long.long)
  have begins := (beginsNumber_of_digits some' long.all).append (suffix ++ rest)
  obtain ⟨c, more, same, noGap, number⟩ := begins.exists_readLexeme
  have read := long.readNumber_append letters stops
  rw [same] at stands read ⊢
  have cut : Gap.split (gap ++ c :: more) = .closed gap (c :: more) :=
    Gap.split_eq_closed_iff.2 ⟨stands, rfl, noGap⟩
  rw [scanFrom_eq, cut]
  dsimp only
  rw [number, read]

/-- What the scanning of a row of items comes to: their lexemes in order and the end marker, or the
lexemes in front of the first number that is too long, where it breaks off. -/
inductive ScannedRow : List Item → Scan → Prop
  | nil {ending : Token} : ending.lexeme = .ending → ScannedRow [] (.complete [] ending)
  | push {item : Item} {items : List Item} {s : Scan} {t : Token} : item.IsConvertible →
      t.lexeme = item.lexeme → ScannedRow items s → ScannedRow (item :: items) (s.push t)
  | overlong {n : Nat} {items : List Item} : ¬ isConvertible n →
      ScannedRow (.number n :: items) (.overlong [] (Nat.toDigits 10 n).length)

/-- The first item of a row is scanned behind a gap, and then the others. -/
theorem ScannedRow.of_item (file : String) (place : Place) {item : Item} {items : List Item}
    (filler : Gap.Filler gap) (blank : BeginsBlank rest)
    (others : ScannedRow items (scanFrom file ((place.after gap).after item.spelling) rest)) :
    ScannedRow (item :: items) (scanFrom file place (gap ++ (item.spelling ++ rest))) := by
  by_cases convertible : item.IsConvertible
  · rw [scanFrom_of_readsAs file place (filler.stands _) (readsAs_item convertible blank)]
    exact .push convertible rfl others
  · cases item with
    | number n =>
        have long : IsOverlong (Nat.toDigits 10 n) := isOverlong_toDigits_iff.2 convertible
        have stands : Gap.Stands gap (Nat.toDigits 10 n ++ ([] ++ rest)) := filler.stands _
        have broken := scanFrom_of_isOverlong file place stands long (List.forall_mem_nil _)
          (blank.stopsAt (by decide))
        rw [List.nil_append] at broken
        rw [Item.spelling, toList_toString, broken]
        exact .overlong convertible
    | keyword | identifier | punctuator | string | character => exact absurd trivial convertible

/-- **The items of a row are scanned one by one**, behind a gap. -/
theorem scanFrom_spaced (file : String) (place : Place) {items : List Item}
    (filler : Gap.Filler gap) (spaced : Spaced items text) :
    ScannedRow items (scanFrom file place (gap ++ text)) := by
  induction spaced generalizing gap place with
  | nil =>
      rw [List.append_nil, scanFrom_of_stands file place (filler.stands [])]
      exact .nil rfl
  | last item =>
      have row : ScannedRow [item] (scanFrom file place (gap ++ (item.spelling ++ []))) := by
        refine .of_item file place filler (fun c hc => by cases hc) ?_
        rw [scanFrom_of_stands file _ .nil]
        exact .nil rfl
      rwa [List.append_nil] at row
  | cons item separator _ ih =>
      exact .of_item file place filler (separator.beginsBlank _) (ih _ separator.filler)

/-- A row without a number that is too long is scanned up to its end. -/
theorem ScannedRow.complete {items : List Item} {s : Scan} (row : ScannedRow items s)
    (convertible : ∀ item ∈ items, item.IsConvertible) :
    ∃ tokens ending, s = .complete tokens ending ∧
      tokens.map Token.lexeme = items.map Item.lexeme ∧ ending.lexeme = .ending := by
  induction row with
  | nil last => exact ⟨[], _, rfl, rfl, last⟩
  | @push item items s t _ same _ ih =>
      obtain ⟨tokens, ending, rfl, others, last⟩ := ih (List.forall_mem_cons.1 convertible).2
      exact ⟨t :: tokens, ending, rfl, by rw [List.map_cons, List.map_cons, same, others], last⟩
  | overlong long => exact absurd (List.forall_mem_cons.1 convertible).1 long

/-- A row is scanned up to the first number that is too long. -/
theorem ScannedRow.breaksOff {before after : List Item} {n : Nat} {s : Scan}
    (row : ScannedRow (before ++ .number n :: after) s)
    (convertible : ∀ item ∈ before, item.IsConvertible) (long : ¬ isConvertible n) :
    ∃ tokens, s = .overlong tokens (Nat.toDigits 10 n).length ∧
      tokens.map Token.lexeme = before.map Item.lexeme := by
  induction before generalizing s with
  | nil =>
      cases row with
      | push short => exact absurd short long
      | overlong => exact ⟨[], rfl, rfl⟩
  | cons item before ih =>
      obtain ⟨first, others⟩ := List.forall_mem_cons.1 convertible
      cases row with
      | @push _ _ s t _ same behind =>
          obtain ⟨tokens, rfl, lexemes⟩ := ih behind others
          exact ⟨t :: tokens, rfl, by rw [List.map_cons, List.map_cons, same, lexemes]⟩
      | overlong tooLong => exact absurd first tooLong

/-- A number that is too long makes up a row that gives no token. -/
theorem scan_toString_of_not_isConvertible {n : Nat} (long : ¬ isConvertible n) (file : String)
    (line : Int) : scan (toString n) file line = .overlong [] (Nat.toDigits 10 n).length := by
  have row : ScannedRow ([] ++ [.number n]) (scanFrom file ⟨line, []⟩ (toString n).toList) :=
    scanFrom_spaced file ⟨line, []⟩ .nil (.last (.number n))
  obtain ⟨tokens, stopped, none⟩ := row.breaksOff (List.forall_mem_nil _) long
  obtain rfl := List.map_eq_nil_iff.1 none
  exact stopped

/-- **A text that spells a row of items is scanned to their lexemes**, if no number among them is
too long to be converted; the first one that is too long breaks the scanning off behind the lexemes
in front of it.  A separator may stand in front of the first item, too. -/
theorem scan_spaced {items : List Item} {leading text : List Char}
    (front : leading = [] ∨ IsSeparator leading) (spaced : Spaced items text) (file : String)
    (line : Int) :
    ((∀ item ∈ items, item.IsConvertible) →
      ∃ tokens ending,
        scan (String.ofList (leading ++ text)) file line = .complete tokens ending ∧
          tokens.map Token.lexeme = items.map Item.lexeme ∧ ending.lexeme = .ending) ∧
    ∀ before (n : Nat) after, items = before ++ .number n :: after →
      (∀ item ∈ before, item.IsConvertible) → ¬ isConvertible n →
      ∃ tokens,
        scan (String.ofList (leading ++ text)) file line =
            .overlong tokens (Nat.toDigits 10 n).length ∧
          tokens.map Token.lexeme = before.map Item.lexeme := by
  have filler : Gap.Filler leading := by
    rcases front with rfl | separator
    · exact .nil
    · exact separator.filler
  rw [scan, String.toList_ofList]
  have row : ScannedRow items (scanFrom file ⟨line, []⟩ (leading ++ text)) :=
    scanFrom_spaced file ⟨line, []⟩ filler spaced
  refine ⟨row.complete, ?_⟩
  rintro before n after rfl convertible long
  exact row.breaksOff convertible long

/-- A slash, a text with a mark in it and a number, with a comment of each kind between them. -/
theorem scan_spaced_slash_text_number :
    Spaced [.punctuator .slash, .string "*/\"", .number 10] "/ //\n\"*/\\\"\" /**/10".toList ∧
      (∀ item ∈ [.punctuator .slash, .string "*/\"", .number 10], Item.IsConvertible item) ∧
      ∃ tokens ending,
        scan (String.ofList ([] ++ "/ //\n\"*/\\\"\" /**/10".toList)) "a.c" 1 =
            .complete tokens ending ∧
          tokens.map Token.lexeme = [.punctuator .slash, .string "*/\"", .number 10] ∧
          ending.lexeme = .ending := by
  have lineComment : IsSeparator [' ', '/', '/', '\n'] :=
    ⟨' ', _, rfl, rfl, .line List.not_mem_nil .nil⟩
  have noEnd : ¬ ['*', '/'] <:+: [] := by decide
  have blockComment : IsSeparator [' ', '/', '*', '*', '/'] := ⟨' ', _, rfl, rfl, .block noEnd .nil⟩
  have spaced := Spaced.cons (.punctuator .slash) lineComment
    (.cons (.string "*/\"") blockComment (.last (.number 10)))
  have written : Item.spelling (.punctuator .slash) ++ ([' ', '/', '/', '\n'] ++
      (Item.spelling (.string "*/\"") ++
        ([' ', '/', '*', '*', '/'] ++ Item.spelling (.number 10)))) =
        "/ //\n\"*/\\\"\" /**/10".toList := by decide
  rw [written] at spaced
  have convertible : ∀ item ∈ [.punctuator .slash, .string "*/\"", .number 10],
      Item.IsConvertible item := by
    intro item inside
    simp only [List.mem_cons, List.not_mem_nil, or_false] at inside
    rcases inside with rfl | rfl | rfl
    · trivial
    · trivial
    · exact (by decide : isConvertible 10)
  exact ⟨spaced, convertible, (scan_spaced (.inl rfl) spaced "a.c" 1).1 convertible⟩

/-- The least number that is too long is a row of its own, and is not scanned back. -/
theorem scan_spaced_power :
    Spaced [.number (Nat.pow 10 maxDigits)] (toString (Nat.pow 10 maxDigits)).toList ∧
      ∀ tokens ending,
        scan (toString (Nat.pow 10 maxDigits)) "a.c" 1 ≠ .complete tokens ending := by
  refine ⟨.last (.number (Nat.pow 10 maxDigits)), fun tokens ending complete => ?_⟩
  rw [scan_toString_of_not_isConvertible not_isConvertible_pow] at complete
  cases complete

end PlainC
