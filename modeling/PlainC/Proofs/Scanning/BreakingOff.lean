/-
**Reading does not look beyond a line.**

A lexeme that has been read off a text is read in the same way when the text behind it is broken
off somewhere, and the end of the source or a newline stands there instead.  Every run of characters
that stopped behind the lexeme stops there still, and no punctuator becomes longer, because none of
these goes over a newline.  A gap depends on less: only the character behind it matters.

Main definitions:

* `PlainC.BreaksOff` — a text, and the same text broken off.

Main results:

* `PlainC.readNumber_breaksOff` — numbers, with the runs of digits that they are made of;
* `PlainC.readLexeme_breaksOff` — **a lexeme is read in the same way when the text behind it is
  broken off**;
* `PlainC.Gap.Stands.of_endsLine` — what a gap depends on.
-/

import PlainC.Proofs.Scanning.Spacing

set_option relaxedAutoImplicit false
set_option autoImplicit false

namespace PlainC

variable {cs cs' text rest rest' : List Char} {c : Char} {p : Char → Bool} {lexeme : Lexeme}

/-! ### Texts that are broken off -/

/-- The text `cs'` is the text `cs` broken off somewhere: there it ends, or a newline stands there
with any text behind it. -/
def BreaksOff (cs cs' : List Char) : Prop :=
  ∃ front behind, front <+: cs ∧ cs' = front ++ behind ∧ Gap.EndsLine behind

/-- What stands in front may be kept. -/
theorem BreaksOff.append (h : BreaksOff cs cs') (text : List Char) :
    BreaksOff (text ++ cs) (text ++ cs') := by
  obtain ⟨front, behind, begins, rfl, ends⟩ := h
  exact ⟨text ++ front, behind, (List.prefix_append_right_inj _).2 begins, by simp, ends⟩

/-- A run that does not go over a newline stops in front of the text that is broken off, too. -/
theorem BreaksOff.stopsAt (h : BreaksOff cs cs') (noNewline : p '\n' = false)
    (stops : StopsAt p cs) : StopsAt p cs' := by
  obtain ⟨front, behind, ⟨more, rfl⟩, rfl, ends⟩ := h
  cases front with
  | nil =>
      obtain rfl | ⟨more, rfl⟩ := ends
      · intro c hc
        cases hc
      · intro c hc
        cases hc
        exact noNewline
  | cons c front => exact fun d hd => stops d hd

/-- What stands at the front of it in one line stood at the front before. -/
theorem BreaksOff.isPrefix (h : BreaksOff cs cs') (noNewline : '\n' ∉ text)
    (isPrefix : text <+: cs') : text <+: cs := by
  obtain ⟨front, behind, begins, rfl, ends⟩ := h
  refine List.IsPrefix.trans ?_ begins
  by_cases short : text.length ≤ front.length
  · exact List.prefix_of_prefix_length_le isPrefix (List.prefix_append ..) short
  · -- a longer one would hold the newline
    obtain rfl | ⟨more, rfl⟩ := ends
    · rwa [List.append_nil] at isPrefix
    · have upToNewline : front ++ ['\n'] <+: front ++ '\n' :: more := ⟨more, by simp⟩
      have held : front ++ ['\n'] <+: text := by
        refine List.prefix_of_prefix_length_le upToNewline isPrefix ?_
        rw [List.length_append, List.length_singleton]
        omega
      exact absurd (held.subset (by simp)) noNewline

/-! ### Numbers -/

theorem readSuffixed_breaksOff {n : Nat} {digits after : List Char}
    (h : readSuffixed n digits after = .read lexeme text rest) (broken : BreaksOff rest rest') :
    ∃ suffix, after = suffix ++ rest ∧ text = digits ++ suffix ∧
      readSuffixed n digits (suffix ++ rest') = .read lexeme text rest' := by
  simp only [readSuffixed, Reading.read.injEq] at h
  obtain ⟨rfl, rfl, rfl⟩ := h
  have stops : StopsAt isIntegerSuffix rest' := broken.stopsAt rfl (stopsAt_dropWhile _ _)
  have all : ∀ c ∈ after.takeWhile isIntegerSuffix, isIntegerSuffix c :=
    fun c hc => mem_takeWhile hc
  refine ⟨_, List.takeWhile_append_dropWhile.symm, rfl, ?_⟩
  rw [readSuffixed, stops.takeWhile_append all, stops.dropWhile_append all]

theorem readBaseTen_breaksOff {digits after : List Char}
    (h : readBaseTen digits after = .read lexeme text rest) (broken : BreaksOff rest rest') :
    ∃ suffix, after = suffix ++ rest ∧ text = digits ++ suffix ∧
      readBaseTen digits (suffix ++ rest') = .read lexeme text rest' := by
  unfold readBaseTen at h ⊢
  split at h
  · rename_i short
    simp only [short, if_true]
    exact readSuffixed_breaksOff h broken
  · cases h

theorem readInteger_breaksOff {digits after : List Char}
    (h : readInteger digits after = .read lexeme text rest) (broken : BreaksOff rest rest') :
    ∃ suffix, after = suffix ++ rest ∧ text = digits ++ suffix ∧
      readInteger digits (suffix ++ rest') = .read lexeme text rest' := by
  unfold readInteger at h ⊢
  split at h
  · rename_i leading
    split at h
    · rename_i octal
      simp only [leading, octal, if_true]
      exact readSuffixed_breaksOff h broken
    · cases h
  · rename_i plain
    simp only [plain]
    exact readBaseTen_breaksOff h broken

theorem readRadix_breaksOff {base : Nat} {digit : Char → Bool} {fault : LexicalFault}
    {mark after : List Char} (noNewline : digit '\n' = false)
    (h : readRadix base digit fault mark after = .read lexeme text rest)
    (broken : BreaksOff rest rest') :
    ∃ behind, after = behind ++ rest ∧ text = mark ++ behind ∧
      readRadix base digit fault mark (behind ++ rest') = .read lexeme text rest' := by
  unfold readRadix at h
  dsimp only at h
  split at h
  · cases h
  · rename_i some'
    obtain ⟨suffix, left, rfl, again⟩ := readSuffixed_breaksOff h broken
    have digits : ∀ c ∈ after.takeWhile digit, digit c := fun c hc => mem_takeWhile hc
    have stops : StopsAt digit (suffix ++ rest') := by
      refine (broken.append suffix).stopsAt noNewline ?_
      rw [← left]
      exact stopsAt_dropWhile _ _
    refine ⟨after.takeWhile digit ++ suffix, ?_, List.append_assoc .., ?_⟩
    · rw [List.append_assoc, ← left, List.takeWhile_append_dropWhile]
    · rw [readRadix, List.append_assoc, stops.takeWhile_append digits,
        stops.dropWhile_append digits, if_neg some', again]

namespace Exponent

/-- An exponent with digits is cut off again. -/
theorem split_breaksOff (complete : (split cs).1.isComplete)
    (broken : BreaksOff (split cs).2 rest') :
    split ((split cs).1.text ++ rest') = ((split cs).1, rest') := by
  cases cs with
  | nil => exact split_of_stopsAt (broken.stopsAt rfl fun c hc => by cases hc)
  | cons mark cs =>
      by_cases isMark : isMark mark = true
      · rw [split, if_pos isMark] at complete broken ⊢
        generalize signed : (cs.take 1).takeWhile (fun s => decide (s = '+') || decide (s = '-')) =
          sign at complete broken ⊢
        simp only [isComplete, List.cons_append, reduceCtorEq, decide_false, Bool.false_or,
          decide_eq_true_eq] at complete
        have isSign : sign = [] ∨ sign = ['+'] ∨ sign = ['-'] := by
          rw [← signed]
          cases cs with
          | nil => exact .inl rfl
          | cons s cs =>
              by_cases plus : s = '+'
              · exact .inr (.inl (by simp [plus]))
              · by_cases minus : s = '-'
                · exact .inr (.inr (by simp [minus]))
                · exact .inl (by simp [plus, minus])
        exact split_append isMark isSign complete (fun d hd => mem_takeWhile hd)
          (broken.stopsAt rfl (stopsAt_dropWhile _ _))
      · have noMark : StopsAt Exponent.isMark (mark :: cs) := by
          intro c hc
          cases hc
          simpa using isMark
        rw [split_of_stopsAt noMark] at broken ⊢
        exact split_of_stopsAt (broken.stopsAt rfl noMark)

end Exponent

/-- A floating literal is over where its exponent is. -/
theorem readFloat_breaksOff {whole point fraction after : List Char}
    (h : readFloat whole point fraction (Exponent.split after).1 (Exponent.split after).2 =
      .read lexeme text rest) (broken : BreaksOff rest rest') :
    after = (Exponent.split after).1.text ++ rest ∧
      text = whole ++ point ++ fraction ++ (Exponent.split after).1.text ∧
      Exponent.split ((Exponent.split after).1.text ++ rest') = ((Exponent.split after).1, rest') ∧
      readFloat whole point fraction (Exponent.split after).1 rest' =
        .read lexeme text rest' := by
  have lossless := Exponent.text_append_rest after
  unfold readFloat at h ⊢
  dsimp only at h ⊢
  split at h
  · rename_i complete
    cases h
    rw [if_pos complete]
    exact ⟨lossless.symm, rfl, Exponent.split_breaksOff complete broken, rfl⟩
  · cases h

theorem readDecimal_breaksOff (h : readDecimal cs = .read lexeme text rest)
    (broken : BreaksOff rest rest') : readDecimal (text ++ rest') = .read lexeme text rest' := by
  have digits (cs : List Char) : ∀ d ∈ cs.takeWhile isDigit, isDigit d :=
    fun d hd => mem_takeWhile hd
  have stops : StopsAt isDigit (cs.dropWhile isDigit) := stopsAt_dropWhile _ _
  unfold readDecimal at h
  dsimp only at h
  split at h
  · rename_i after point
    obtain ⟨left, rfl, again, read⟩ := readFloat_breaksOff h broken
    have stops' : StopsAt isDigit (after.dropWhile isDigit) := stopsAt_dropWhile _ _
    have off := broken.append (Exponent.split (after.dropWhile isDigit)).1.text
    rw [left] at stops'
    rw [List.append_assoc _ _ rest', readDecimal_point (digits cs) (digits after)
      (off.stopsAt rfl stops'), again, read]
  · rename_i noPoint
    have noPoint : StopsAt (· = '.') (cs.dropWhile isDigit) := by
      intro c hc
      obtain ⟨more, same⟩ := List.head?_eq_some_iff.1 hc
      exact decide_eq_false fun point => noPoint more (by rw [same, point])
    split at h
    · rename_i noExponent
      obtain ⟨suffix, left, rfl, read⟩ := readInteger_breaksOff h broken
      have off := broken.append suffix
      rw [left] at stops noPoint noExponent
      have noMark := Exponent.text_split_eq_nil_iff.1 noExponent
      rw [List.append_assoc, readDecimal_noPoint (digits cs) (off.stopsAt rfl stops)
        (off.stopsAt rfl noPoint),
        if_pos (Exponent.text_split_eq_nil_iff.2 (off.stopsAt rfl noMark)), read]
    · rename_i exponent
      obtain ⟨left, rfl, again, read⟩ := readFloat_breaksOff h broken
      have off := broken.append (Exponent.split (cs.dropWhile isDigit)).1.text
      rw [left] at stops noPoint
      simp only [List.append_nil, List.append_assoc] at read ⊢
      rw [readDecimal_noPoint (digits cs) (off.stopsAt rfl stops) (off.stopsAt rfl noPoint), again,
        if_neg exponent, read]

/-- A number is read in the same way when the text behind it is broken off. -/
theorem readNumber_breaksOff (begins : isDigit c ∨ c = '.')
    (h : readNumber (c :: cs) = .read lexeme text rest) (broken : BreaksOff rest rest') :
    readNumber (text ++ rest') = .read lexeme text rest' := by
  have decimal (noMark : c = '0' → StopsAt isBaseMark cs)
      (h : readDecimal (c :: cs) = .read lexeme text rest) :
      readNumber (text ++ rest') = .read lexeme text rest' := by
    have lossless : text ++ rest = c :: cs := by
      have whole := text_append_rest_readDecimal (c :: cs)
      rwa [h] at whole
    have nonempty : text ≠ [] := by
      have some' := text_readDecimal_ne_nil cs begins
      rwa [h] at some'
    rw [readNumber_eq_readDecimal, readDecimal_breaksOff h broken]
    intro x more same
    obtain ⟨d, text, rfl⟩ := List.exists_cons_of_ne_nil nonempty
    rw [List.cons_append] at lossless same
    obtain ⟨rfl, rfl⟩ := List.cons_eq_cons.1 lossless
    obtain ⟨rfl, behind⟩ := List.cons_eq_cons.1 same
    have off := (broken.append text).stopsAt rfl (noMark rfl) x (by rw [behind]; rfl)
    simpa [isBaseMark, and_assoc] using off
  unfold readNumber at h
  split at h
  · rename_i x after same
    obtain ⟨rfl, rfl⟩ := List.cons_eq_cons.1 same
    split at h
    · rename_i mark
      obtain ⟨behind, -, rfl, read⟩ := readRadix_breaksOff rfl h broken
      simp only [List.cons_append, List.nil_append] at read ⊢
      rw [readNumber, if_pos mark, read]
    · rename_i noHexadecimal
      split at h
      · rename_i mark
        obtain ⟨behind, -, rfl, read⟩ := readRadix_breaksOff rfl h broken
        simp only [List.cons_append, List.nil_append] at read ⊢
        rw [readNumber, if_neg noHexadecimal, if_pos mark, read]
      · rename_i noBinary
        refine decimal (fun _ y hy => ?_) h
        cases hy
        simp_all [isBaseMark]
  · rename_i short
    refine decimal (fun zero y hy => ?_) h
    obtain ⟨more, rfl⟩ := List.head?_eq_some_iff.1 hy
    exact absurd (congrArg (· :: y :: more) zero) (short y more)

/-! ### Lexemes -/

theorem readWord_breaksOff (h : readWord cs = .read lexeme text rest)
    (broken : BreaksOff rest rest') : readWord (text ++ rest') = .read lexeme text rest' := by
  simp only [readWord, Reading.read.injEq] at h
  obtain ⟨rfl, rfl, rfl⟩ := h
  have stops : StopsAt isWordChar rest' := broken.stopsAt rfl (stopsAt_dropWhile _ _)
  have all : ∀ c ∈ cs.takeWhile isWordChar, isWordChar c := fun c hc => mem_takeWhile hc
  rw [readWord, stops.takeWhile_append all, stops.dropWhile_append all]

/-- A quoted literal is over at its closing mark, whatever follows. -/
theorem readString_append (h : readString '\x22' cs = .read lexeme text rest) (rest' : List Char) :
    ∃ more, text = '\x22' :: more ∧
      readString '\x22' (more ++ rest') = .read lexeme text rest' := by
  unfold readString at h ⊢
  cases closed : readQuotation '\x22' cs with
  | closed value spelling last =>
      rw [closed] at h
      cases h
      have quoted := quotedSpelling_of_readQuotation closed
      exact ⟨spelling, rfl, by rw [quoted.readQuotation_append (by decide), Quotation.asString]⟩
  | unclosed => rw [closed] at h; cases h
  | faulty => rw [closed] at h; cases h

theorem readCharacter_append (h : readCharacter '\x27' cs = .read lexeme text rest)
    (rest' : List Char) :
    ∃ more, text = '\x27' :: more ∧
      readCharacter '\x27' (more ++ rest') = .read lexeme text rest' := by
  unfold readCharacter at h ⊢
  cases closed : readQuotation '\x27' cs with
  | closed value spelling last =>
      rw [closed] at h
      rcases value with _ | ⟨c, _ | ⟨d, more⟩⟩
      · cases h
      · cases h
        have quoted := quotedSpelling_of_readQuotation closed
        refine ⟨spelling, rfl, ?_⟩
        rw [quoted.readQuotation_append (by decide)]
        rfl
      · cases h
  | unclosed => rw [closed] at h; cases h
  | faulty => rw [closed] at h; cases h

/-- A punctuator does not become longer when the text behind it is broken off. -/
theorem readPunctuator_breaksOff (h : readPunctuator c cs = .read lexeme text rest)
    (broken : BreaksOff rest rest') :
    ∃ more, text = c :: more ∧ readPunctuator c (more ++ rest') = .read lexeme text rest' := by
  unfold readPunctuator at h
  split at h
  · rename_i m found
    cases h
    have lossless := chars_append_drop_of_longest? found
    have maximal := (Punctuator.longest?_eq_some_iff.1 found).2
    obtain ⟨d, more, spelled⟩ := List.exists_cons_of_ne_nil m.chars_ne_nil
    have first : d = c := by
      rw [spelled, List.cons_append] at lossless
      exact (List.cons_eq_cons.1 lossless).1
    subst first
    have longest : Punctuator.longest? (m.chars ++ rest') = some m := by
      refine Punctuator.longest?_eq_some_iff.2 ⟨List.prefix_append .., fun q front => ?_⟩
      have noNewline : '\n' ∉ q.chars :=
        fun inside => absurd (Punctuator.mem_chars inside).1 (by decide)
      have before := (broken.append m.chars).isPrefix noNewline front
      rw [lossless] at before
      exact maximal q before
    refine ⟨more, spelled, ?_⟩
    rw [spelled, List.cons_append] at longest
    rw [readPunctuator, longest]
    simp only [spelled, List.length_cons, List.drop_succ_cons, List.drop_left]
  · cases h

/-- A number has a digit. -/
theorem NumberSpelling.exists_digit (h : NumberSpelling text lexeme) : ∃ d ∈ text, isDigit d := by
  have first {digits : List Char} (some' : digits ≠ []) (all : ∀ d ∈ digits, isDigit d) :
      ∃ d ∈ digits, isDigit d := by
    obtain ⟨d, more, rfl⟩ := List.exists_cons_of_ne_nil some'
    exact ⟨d, List.mem_cons_self .., all d (List.mem_cons_self ..)⟩
  cases h with
  | integer spelled =>
      cases spelled with
      | decimal some' all =>
          obtain ⟨d, inside, digit⟩ := first some' all
          exact ⟨d, List.mem_append_left _ inside, digit⟩
      | octal | hexadecimal | binary => exact ⟨'0', by simp, rfl⟩
  | float spelled =>
      cases spelled with
      | point all some' =>
          obtain ⟨d, inside, digit⟩ := first some' all
          refine ⟨d, ?_, digit⟩
          rcases List.mem_append.1 inside with inside | inside <;> simp [inside]
      | noPoint all some' =>
          obtain ⟨d, inside, digit⟩ := first some' all
          exact ⟨d, List.mem_append_left _ inside, digit⟩

/-- **A lexeme is read in the same way when the text behind it is broken off.** -/
theorem readLexeme_breaksOff (h : readLexeme c cs = .read lexeme text rest)
    (broken : BreaksOff rest rest') :
    ∃ more, text = c :: more ∧ readLexeme c (more ++ rest') = .read lexeme text rest' := by
  have lossless : text ++ rest = c :: cs := append_of_readLexeme h
  obtain ⟨d, more, rfl⟩ := List.exists_cons_of_ne_nil (text_readLexeme_ne_nil h)
  obtain ⟨rfl, rfl⟩ : d = c ∧ more ++ rest = cs := List.cons_eq_cons.1 lossless
  refine ⟨more, rfl, ?_⟩
  -- a point with a digit behind it is never read alone
  have noDigit (alone : more = []) (point : d = '.') : StopsAt isDigit rest := by
    subst alone point
    intro e he
    cases digit : isDigit e with
    | false => rfl
    | true =>
        obtain ⟨behind, rfl⟩ := List.head?_eq_some_iff.1 he
        have number : readNumber ('.' :: e :: behind) = .read lexeme ['.'] (e :: behind) := by
          rw [readLexeme, if_neg (by decide), if_pos (by simp [digit])] at h
          exact h
        obtain ⟨f, inside, isDigit⟩ :=
          (NumberSpelling.of_readNumber (.inr ⟨rfl, e, rfl, digit⟩) number).exists_digit
        cases List.mem_singleton.1 inside
        cases isDigit
  have sameStart : (isDigit d || (decide (d = '.') && (more ++ rest').head?.any isDigit)) =
      (isDigit d || (decide (d = '.') && (more ++ rest).head?.any isDigit)) := by
    cases more with
    | cons e more => rfl
    | nil =>
        by_cases point : d = '.'
        · have stops := noDigit rfl point
          have none {cs : List Char} (h : StopsAt isDigit cs) : cs.head?.any isDigit = false := by
            cases cs with
            | nil => rfl
            | cons e cs => exact h e rfl
          simp only [List.nil_append, none stops, none (broken.stopsAt rfl stops)]
        · simp only [point, decide_false, Bool.false_and]
  unfold readLexeme at h ⊢
  rw [sameStart]
  split
  · rename_i start
    rw [if_pos start] at h
    exact readWord_breaksOff h broken
  · rename_i noWord
    rw [if_neg noWord] at h
    split
    · rename_i number
      rw [if_pos number] at h
      refine readNumber_breaksOff ?_ h broken
      simp only [Bool.or_eq_true, Bool.and_eq_true, decide_eq_true_eq] at number
      exact number.imp_right And.left
    · rename_i noNumber
      rw [if_neg noNumber] at h
      split
      · rename_i mark
        subst mark
        rw [if_pos rfl] at h
        obtain ⟨_, same, read⟩ := readString_append h rest'
        cases same
        exact read
      · rename_i noString
        rw [if_neg noString] at h
        split
        · rename_i mark
          subst mark
          rw [if_pos rfl] at h
          obtain ⟨_, same, read⟩ := readCharacter_append h rest'
          cases same
          exact read
        · rename_i noCharacter
          rw [if_neg noCharacter] at h
          obtain ⟨_, same, read⟩ := readPunctuator_breaksOff h broken
          cases same
          exact read

/-! ### Gaps -/

namespace Gap

/-- Where no gap stands, there is no blank, and no two characters that open a comment. -/
theorem split_eq_nil_iff :
    split (c :: cs) = .closed [] (c :: cs) ↔
      isBlank c = false ∧ (c = '/' → StopsAt (fun d => d = '/' || d = '*') cs) := by
  constructor
  · intro h
    constructor
    · cases blank : isBlank c with
      | false => rfl
      | true =>
          rw [split_blank blank] at h
          obtain ⟨more, -, same⟩ := prepend_eq_closed_iff.1 h
          cases same
    · rintro rfl d hd
      obtain ⟨more, rfl⟩ := List.head?_eq_some_iff.1 hd
      have noLine : d ≠ '/' := by
        rintro rfl
        rw [split] at h
        obtain ⟨_, -, same⟩ := prepend_eq_closed_iff.1 h
        cases same
      have noBlock : d ≠ '*' := by
        rintro rfl
        rw [split] at h
        split at h
        · cases h
        · obtain ⟨_, -, same⟩ := prepend_eq_closed_iff.1 h
          cases same
      simp [noLine, noBlock]
  · rintro ⟨noBlank, noComment⟩
    refine split_other noBlank fun slash more => ⟨?_, ?_⟩ <;>
      · rintro rfl
        exact absurd (noComment slash _ rfl) (by decide)

/-- A line that is over stays so, whatever is put behind its end. -/
theorem EndsLine.append (h : EndsLine cs) (ends : EndsLine rest) : EndsLine (cs ++ rest) := by
  obtain rfl | ⟨more, rfl⟩ := h
  · exact ends
  · exact .inr ⟨more ++ rest, rfl⟩

/-- Of the text behind a gap it only matters whether a line is over there. -/
theorem Stands.of_endsLine {gap : List Char} (h : Stands gap rest)
    (ends : EndsLine rest → EndsLine rest') : Stands gap rest' := by
  induction h with
  | nil => exact .nil
  | blank blank _ ih => exact .blank blank (ih ends)
  | @line body text rest noNewline finished _ ih =>
      refine .line noNewline ?_ (ih ends)
      cases text with
      | nil => exact ends finished
      | cons c text =>
          rcases finished with none | ⟨more, newline⟩
          · cases none
          · obtain ⟨rfl, -⟩ := List.cons_eq_cons.1 newline
            exact .inr ⟨_, rfl⟩
  | block free _ ih => exact .block free (ih ends)

end Gap

/-- **A lexeme without a gap in front of it is read in the same way when the text behind it is
broken off.** -/
theorem ReadsAs.of_breaksOff (h : ReadsAs text rest lexeme) (broken : BreaksOff rest rest') :
    ReadsAs text rest' lexeme := by
  obtain ⟨c, cs, same, noGap, read⟩ := h
  obtain ⟨more, rfl, again⟩ := readLexeme_breaksOff read broken
  obtain rfl : more ++ rest = cs := (List.cons_eq_cons.1 same).2
  obtain ⟨noBlank, noComment⟩ := Gap.split_eq_nil_iff.1 noGap
  refine ⟨c, more ++ rest', rfl, Gap.split_eq_nil_iff.2 ⟨noBlank, fun slash => ?_⟩, again⟩
  exact (broken.append more).stopsAt (by decide) (noComment slash)

end PlainC
