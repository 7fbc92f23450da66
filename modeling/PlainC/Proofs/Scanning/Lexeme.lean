/-
**What a lexeme is.**

A lexeme is spelled by a text in front of another text: a word is over only where no character of a
word follows, and a punctuator is one only if no longer one begins at its place.  What is read off
a source is the spelling of the lexeme that it is read as.

Main definitions:

* `PlainC.IsWord`, `PlainC.IsIdentifier` — the words, and those that are not reserved;
* `PlainC.LexemeSpelling` — the spellings of a lexeme in front of a text.

Main results:

* `PlainC.Punctuator.longest?_eq_some_iff` — the punctuator that is found is the longest one;
* `PlainC.LexemeSpelling.of_readLexeme` — **what is read off is the spelling of a lexeme**.
-/

import PlainC.Proofs.Scanning.Quotation
import PlainC.Token.Scan

set_option relaxedAutoImplicit false
set_option autoImplicit false

namespace PlainC

variable {cs text rest : List Char} {c : Char} {lexeme : Lexeme}

/-! ### Words -/

/-- The words: a letter or an underscore, and then letters, underscores and digits. -/
def IsWord (text : List Char) : Prop :=
  ∃ c cs, text = c :: cs ∧ isWordStart c ∧ ∀ d ∈ cs, isWordChar d

/-- The identifiers: the words that are not reserved. -/
structure IsIdentifier (text : List Char) : Prop where
  word : IsWord text
  free : ∀ k : Keyword, k.spelling.toList ≠ text

theorem isWordChar_of_isWordStart (h : isWordStart c) : isWordChar c := by
  rw [isWordChar, h, Bool.true_or]

theorem IsWord.all (h : IsWord text) : ∀ d ∈ text, isWordChar d := by
  obtain ⟨c, cs, rfl, start, more⟩ := h
  intro d hd
  rcases List.mem_cons.1 hd with rfl | hd
  · exact isWordChar_of_isWordStart start
  · exact more d hd

theorem Keyword.ofSpelling?_eq_some_iff {spelling : String} {k : Keyword} :
    Keyword.ofSpelling? spelling = some k ↔ k.spelling = spelling := by
  constructor
  · intro h
    simpa using List.find?_some h
  · rintro rfl
    exact Keyword.ofSpelling?_spelling k

theorem wordLexeme_spelling (k : Keyword) : wordLexeme k.spelling.toList = .keyword k := by
  rw [wordLexeme, String.ofList_toList, Keyword.ofSpelling?_spelling]

theorem wordLexeme_of_isIdentifier (h : IsIdentifier text) :
    wordLexeme text = .identifier (String.ofList text) := by
  have free : Keyword.ofSpelling? (String.ofList text) = none := by
    rw [Option.eq_none_iff_forall_ne_some]
    intro k found
    refine h.free k ?_
    rw [Keyword.ofSpelling?_eq_some_iff.1 found, String.toList_ofList]
  rw [wordLexeme, free]

/-! ### Punctuators -/

theorem Punctuator.chars_injective {q q' : Punctuator} (h : q.chars = q'.chars) : q = q' := by
  have same : q.spelling = q'.spelling := String.toList_inj.1 h
  have found := Punctuator.ofSpelling?_spelling q
  rw [same, Punctuator.ofSpelling?_spelling] at found
  exact (Option.some.inj found).symm

/-- The punctuator found at the front of a text is the longest one there. -/
theorem Punctuator.longest?_eq_some_iff {m : Punctuator} :
    Punctuator.longest? cs = some m ↔
      m.chars <+: cs ∧ ∀ q : Punctuator, q.chars <+: cs → q.chars.length ≤ m.chars.length := by
  have longest {m : Punctuator} (found : Punctuator.longest? cs = some m) :
      m.chars <+: cs ∧ ∀ q : Punctuator, q.chars <+: cs → q.chars.length ≤ m.chars.length := by
    obtain ⟨here, longer, shorter, same, before⟩ := List.find?_eq_some_iff_append.1 found
    refine ⟨by simpa using here, fun q hq => ?_⟩
    have sorted := Punctuator.all_sorted
    have member := Punctuator.mem_all q
    rw [same] at sorted member
    rcases List.mem_append.1 member with earlier | later
    · have other := before q earlier
      rw [List.isPrefixOf_iff_prefix.2 hq] at other
      cases other
    · rcases List.mem_cons.1 later with rfl | later
      · exact Nat.le_refl _
      · exact (List.pairwise_cons.1 (List.pairwise_append.1 sorted).2.1).1 q later
  constructor
  · exact longest
  · rintro ⟨front, maximal⟩
    cases found : Punctuator.longest? cs with
    | none =>
        have other := List.find?_eq_none.1 found m (Punctuator.mem_all m)
        exact absurd (List.isPrefixOf_iff_prefix.2 front) other
    | some m' =>
        obtain ⟨front', maximal'⟩ := longest found
        have long : m'.chars.length = m.chars.length :=
          Nat.le_antisymm (maximal m' front') (maximal' m front)
        have same : m'.chars = m.chars := by
          rw [List.prefix_iff_eq_take.1 front', List.prefix_iff_eq_take.1 front, long]
        rw [Punctuator.chars_injective same]

/-! ### Lexemes -/

/-- The spellings of a lexeme in front of the text `following`. -/
inductive LexemeSpelling : List Char → List Char → Lexeme → Prop
  | keyword {k : Keyword} {following : List Char} : StopsAt isWordChar following →
      LexemeSpelling k.spelling.toList following (.keyword k)
  | identifier {text following : List Char} : IsIdentifier text → StopsAt isWordChar following →
      LexemeSpelling text following (.identifier (String.ofList text))
  | number {text following : List Char} {lexeme : Lexeme} : NumberSpelling text lexeme →
      LexemeSpelling text following lexeme
  | string {text following value : List Char} : QuotedSpelling '\x22' text value →
      LexemeSpelling ('\x22' :: text) following (.string (String.ofList value))
  | character {text following : List Char} {c : Char} : QuotedSpelling '\x27' text [c] →
      LexemeSpelling ('\x27' :: text) following (.character c.toNat)
  | punctuator {m : Punctuator} {following : List Char} :
      (∀ q : Punctuator, q.chars <+: m.chars ++ following → q.chars.length ≤ m.chars.length) →
      LexemeSpelling m.chars following (.punctuator m)

theorem LexemeSpelling.ne_ending (h : LexemeSpelling text rest lexeme) : lexeme ≠ .ending := by
  cases h with
  | number spelled => cases spelled <;> exact Lexeme.noConfusion
  | _ => exact Lexeme.noConfusion

theorem LexemeSpelling.of_readWord (start : isWordStart c)
    (h : readWord (c :: cs) = .read lexeme text rest) : LexemeSpelling text rest lexeme := by
  have stops : StopsAt isWordChar ((c :: cs).dropWhile isWordChar) := stopsAt_dropWhile _ _
  have word : IsWord ((c :: cs).takeWhile isWordChar) := by
    refine ⟨c, cs.takeWhile isWordChar, ?_, start, fun d hd => mem_takeWhile hd⟩
    rw [List.takeWhile_cons_of_pos (isWordChar_of_isWordStart start)]
  simp only [readWord, Reading.read.injEq] at h
  obtain ⟨rfl, rfl, rfl⟩ := h
  rw [wordLexeme]
  split
  · rename_i k found
    have spelled := congrArg String.toList (Keyword.ofSpelling?_eq_some_iff.1 found)
    rw [String.toList_ofList] at spelled
    rw [← spelled]
    exact .keyword stops
  · rename_i free
    refine .identifier ⟨word, fun k reserved => ?_⟩ stops
    rw [← reserved, String.ofList_toList, Keyword.ofSpelling?_spelling] at free
    cases free

theorem LexemeSpelling.of_readString (h : readString '\x22' cs = .read lexeme text rest) :
    LexemeSpelling text rest lexeme := by
  unfold readString at h
  cases closed : readQuotation '\x22' cs with
  | closed value spelling last =>
      rw [closed] at h
      cases h
      exact .string (quotedSpelling_of_readQuotation closed)
  | unclosed => rw [closed] at h; cases h
  | faulty => rw [closed] at h; cases h

theorem LexemeSpelling.of_readCharacter (h : readCharacter '\x27' cs = .read lexeme text rest) :
    LexemeSpelling text rest lexeme := by
  unfold readCharacter at h
  cases closed : readQuotation '\x27' cs with
  | closed value spelling last =>
      rw [closed] at h
      rcases value with _ | ⟨c, _ | ⟨d, more⟩⟩
      · cases h
      · cases h
        exact .character (quotedSpelling_of_readQuotation closed)
      · cases h
  | unclosed => rw [closed] at h; cases h
  | faulty => rw [closed] at h; cases h

theorem LexemeSpelling.of_readPunctuator (h : readPunctuator c cs = .read lexeme text rest) :
    LexemeSpelling text rest lexeme := by
  unfold readPunctuator at h
  split at h
  · rename_i m found
    cases h
    have lossless := chars_append_drop_of_longest? found
    have maximal := (Punctuator.longest?_eq_some_iff.1 found).2
    rw [← lossless] at maximal
    exact .punctuator maximal
  · cases h

/-- **What is read off is the spelling of a lexeme.** -/
theorem LexemeSpelling.of_readLexeme (h : readLexeme c cs = .read lexeme text rest) :
    LexemeSpelling text rest lexeme := by
  unfold readLexeme at h
  split at h
  · rename_i start
    exact .of_readWord start h
  · split at h
    · rename_i begins
      refine .number (.of_readNumber ?_ h)
      simpa [Option.any_eq_true] using begins
    · split at h
      · rename_i quote
        subst quote
        exact .of_readString h
      · split at h
        · rename_i quote
          subst quote
          exact .of_readCharacter h
        · exact .of_readPunctuator h

end PlainC
