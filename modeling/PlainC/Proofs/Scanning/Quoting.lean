/-
**The line that a scanning fault quotes.**

A diagnostic of the scanner points at a place and may quote a line under which a caret marks the
column.  Most of them point at the place that the reading has reached, and quote the line there.  A
literal that is not closed in its line, and a character literal with too many characters, are
reported where they begin, while the quoted line is the one in which the reading broke off: behind
a backslash a newline belongs to the literal, and then the two lines differ.

Main definitions:

* `PlainC.Diagnostic.QuotesItsLine` — the quoted line is the one that the diagnostic points into;
* `PlainC.Diagnostic.Quotes` — the text between the place that a diagnostic points at and the one
  whose line it quotes.

Main results:

* `PlainC.getElem?_splitOn_count` — the line behind a text, counted by newlines;
* `PlainC.infix_of_newline_mem` — a quotation goes over a newline only behind a backslash;
* `PlainC.scan_broken_quotes` — **a fault quotes the line that it points into, or one that its
  literal goes on to behind a backslash**.
-/

import PlainC.Proofs.Scanning.Tiling

set_option relaxedAutoImplicit false
set_option autoImplicit false

namespace PlainC

variable {cs text rest before : List Char} {c mark : Char} {line : String} {d : Diagnostic}

/-! ### Lines counted by newlines -/

theorem splitOn_newline_cons (c : Char) (cs : List Char) :
    (c :: cs).splitOn '\n' =
      if c = '\n' then [] :: cs.splitOn '\n' else (cs.splitOn '\n').modifyHead (List.cons c) := by
  simp [List.splitOn, List.splitOnP_cons_eq_if_modifyHead]

/-- There is one line more than there are newlines. -/
theorem length_splitOn_newline (cs : List Char) :
    (cs.splitOn '\n').length = cs.count '\n' + 1 := by
  induction cs with
  | nil => rfl
  | cons c cs ih =>
      rw [splitOn_newline_cons]
      by_cases newline : c = '\n'
      · subst newline
        rw [if_pos rfl, List.length_cons, ih, List.count_cons_self]
      · rw [if_neg newline, List.length_modifyHead, ih, List.count_cons_of_ne newline]

/-- The first line goes up to the first newline. -/
theorem head?_splitOn_newline (cs : List Char) :
    (cs.splitOn '\n').head? = some (Text.firstLine cs) := by
  induction cs with
  | nil => rfl
  | cons c cs ih =>
      rw [splitOn_newline_cons]
      by_cases newline : c = '\n'
      · simp [newline, Text.firstLine]
      · simp [newline, Text.firstLine, List.head?_modifyHead, ih]

/-- In front of the last line of a text stands nothing, or a text with a newline at its end. -/
theorem eq_append_lastLine (text : List Char) :
    text = (lastLine text).reverse ∨
      ∃ front, text = front ++ '\n' :: (lastLine text).reverse := by
  have whole : text = (text.reverse.dropWhile (· != '\n')).reverse ++ (lastLine text).reverse := by
    rw [← List.reverse_append, lastLine, List.takeWhile_append_dropWhile, List.reverse_reverse]
  rcases Text.afterLine_eq_nil_or_cons text.reverse with none | ⟨more, newline⟩
  · left
    rw [Text.afterLine] at none
    rwa [none] at whole
  · right
    rw [Text.afterLine] at newline
    rw [newline, List.reverse_cons, List.append_assoc] at whole
    exact ⟨more.reverse, whole⟩

/-- The line behind a text, counted by newlines, begins with the last line of the text. -/
theorem getElem?_splitOn_count (before rest : List Char) :
    ((before ++ rest).splitOn '\n')[before.count '\n']? =
      some ((lastLine before).reverse ++ Text.firstLine rest) := by
  have noNewline : '\n' ∉ (lastLine before).reverse := by
    rw [List.mem_reverse]
    exact Text.newline_notMem_firstLine _
  have shape := eq_append_lastLine before
  generalize (lastLine before).reverse = last at noNewline shape ⊢
  have first : ((last ++ rest).splitOn '\n')[0]? = some (last ++ Text.firstLine rest) := by
    rw [← List.head?_eq_getElem?, head?_splitOn_newline, Text.firstLine,
      List.takeWhile_append_of_pos, Text.firstLine]
    intro c inside
    simpa using fun same : c = '\n' => noNewline (same ▸ inside)
  rcases shape with rfl | ⟨front, rfl⟩
  · rw [List.count_eq_zero.2 noNewline]
    exact first
  · have split : ((front ++ '\n' :: last) ++ rest).splitOn '\n' =
        front.splitOn '\n' ++ (last ++ rest).splitOn '\n' := by
      rw [List.append_assoc, List.cons_append]
      exact List.splitOnP_append_cons _ _ (by rfl)
    have count : (front ++ '\n' :: last).count '\n' = (front.splitOn '\n').length := by
      rw [length_splitOn_newline, List.count_append, List.count_cons_self,
        List.count_eq_zero.2 noNewline]
    rw [split, count, List.getElem?_append_right (Nat.le_refl _), Nat.sub_self]
    exact first

/-! ### Newlines in quotations -/

theorem newline_notMem_of_all {p : Char → Bool} (no : p '\n' = false) {digits : List Char}
    (all : ∀ c ∈ digits, p c) : '\n' ∉ digits := by
  intro inside
  have yes := all _ inside
  rw [no] at yes
  cases yes

/-- An escape that goes over a newline is just this newline. -/
theorem text_readEscape_of_newline_mem (h : '\n' ∈ (readEscape cs).text) :
    (readEscape cs).text = ['\n'] := by
  have digits (p : Char → Bool) (no : p '\n' = false) (cs : List Char) :
      '\n' ∉ twoDigits p cs :=
    newline_notMem_of_all no (upToTwo_twoDigits p cs).all
  revert h
  fun_cases readEscape cs with
  | case1 => intro h; cases h
  | case2 c cs d simple | case6 c cs =>
      intro h
      rw [Escape.text, List.mem_singleton] at h
      rw [h]
      rfl
  | case3 =>
      intro h
      cases List.mem_singleton.1 h
  | case4 cs =>
      intro h
      rcases List.mem_cons.1 h with same | inside
      · cases same
      · exact absurd inside (digits isHexDigit rfl cs)
  | case5 c cs _ _ first =>
      intro h
      rcases List.mem_cons.1 h with same | inside
      · rw [← same] at first
        cases first
      · exact absurd inside (digits isOctalDigit rfl cs)

/-- A quotation goes over a newline only behind a backslash. -/
theorem infix_of_newline_mem (noNewline : mark ≠ '\n')
    (h : '\n' ∈ (readQuotation mark cs).text) :
    ['\x5c', '\n'] <:+: (readQuotation mark cs).text := by
  have escape {spelling cs : List Char} (read : (readEscape cs).text = spelling)
      (mem : '\n' ∈ spelling) (more : List Char) :
      ['\x5c', '\n'] <:+: '\x5c' :: spelling ++ more := by
    subst read
    rw [text_readEscape_of_newline_mem mem]
    exact (List.prefix_append _ more).isInfix
  fun_induction readQuotation mark cs with
  | case1 => cases h
  | case2 => exact absurd (List.mem_singleton.1 h).symm noNewline
  | case3 => cases h
  | case4 cs d spelling rest decoded _ _ ih =>
      rw [Quotation.text_prepend] at h ⊢
      rcases List.mem_append.1 h with inside | behind
      · have mem : '\n' ∈ spelling := by simpa using inside
        exact escape (congrArg Escape.text decoded) mem _
      · exact (ih behind).trans (List.suffix_append _ _).isInfix
  | case5 cs fault spelling rest faulty =>
      have mem : '\n' ∈ spelling := by simpa [Quotation.text] using h
      have broken : ['\x5c', '\n'] <:+: '\x5c' :: spelling ++ [] :=
        escape (congrArg Escape.text faulty) mem []
      rwa [List.append_nil] at broken
  | case6 c cs _ other _ ih =>
      rw [Quotation.text_prepend] at h ⊢
      rcases List.mem_append.1 h with inside | behind
      · exact absurd (List.mem_singleton.1 inside).symm other
      · exact (ih behind).trans (List.suffix_append _ _).isInfix

/-! ### Refusals -/

/-- A reading that is not refused at the first character of the lexeme. -/
def Reading.PointsAhead : Reading → Prop
  | .read _ _ _ | .overlong _ _ _ => True
  | .refused refusal _ _ => refusal.atStart = false

theorem pointsAhead_readInteger (digits rest : List Char) :
    (readInteger digits rest).PointsAhead := by
  unfold readInteger
  split
  · split
    · trivial
    · rfl
  · unfold readBaseTen
    split <;> trivial

theorem pointsAhead_readRadix (base : Nat) (digit : Char → Bool) (fault : LexicalFault)
    (mark rest : List Char) : (readRadix base digit fault mark rest).PointsAhead := by
  unfold readRadix
  dsimp only
  split
  · rfl
  · trivial

theorem pointsAhead_readFloat (whole point fraction : List Char) (exponent : Exponent)
    (rest : List Char) : (readFloat whole point fraction exponent rest).PointsAhead := by
  unfold readFloat
  dsimp only
  split
  · trivial
  · rfl

/-- A number is refused where its reading breaks off. -/
theorem pointsAhead_readNumber (cs : List Char) : (readNumber cs).PointsAhead := by
  have decimal : (readDecimal cs).PointsAhead := by
    unfold readDecimal
    dsimp only
    split
    · exact pointsAhead_readFloat ..
    · split
      · exact pointsAhead_readInteger ..
      · exact pointsAhead_readFloat ..
  unfold readNumber
  split
  · split
    · exact pointsAhead_readRadix ..
    · split
      · exact pointsAhead_readRadix ..
      · exact decimal
  · exact decimal

/-- The faults that are reported at the first character of a literal, with the line quoted in which
the reading of the literal breaks off. -/
def Fault.EndsLiteral (fault : Fault) : Prop :=
  fault = .unclosedString ∨ fault = .lexical .longCharacter

/-- What is refused at its first character, and goes over a newline before a line is quoted, is a
literal, and the newline stands behind a backslash. -/
theorem endsLiteral_of_newline_mem {refusal : Refusal}
    (h : readLexeme c cs = .refused refusal text rest) (atStart : refusal.atStart)
    (quotes : refusal.quotesLine) (newline : '\n' ∈ text) :
    ['\x5c', '\n'] <:+: text ∧ refusal.fault.EndsLiteral := by
  have behind (mark : Char) (noNewline : mark ≠ '\n')
      (mem : '\n' ∈ mark :: (readQuotation mark cs).text) :
      ['\x5c', '\n'] <:+: mark :: (readQuotation mark cs).text := by
    rcases List.mem_cons.1 mem with same | inside
    · exact absurd same.symm noNewline
    · exact (infix_of_newline_mem noNewline inside).trans (List.suffix_cons ..).isInfix
  unfold readLexeme at h
  split at h
  · cases h
  split at h
  · -- a number is not reported at its start
    have ahead := pointsAhead_readNumber (c :: cs)
    rw [h] at ahead
    rw [show refusal.atStart = false from ahead] at atStart
    cases atStart
  split at h
  · rename_i isMark
    subst isMark
    have broken := behind '\x22' (by decide)
    unfold readString at h
    cases quotation : readQuotation '\x22' cs with
    | closed value spelling more =>
        rw [quotation] at h
        cases h
    | unclosed atEnd spelling more =>
        rw [quotation] at h broken
        cases h
        exact ⟨broken newline, .inl rfl⟩
    | faulty fault spelling more =>
        rw [quotation] at h
        cases h
        cases atStart
  split at h
  · rename_i isMark
    subst isMark
    have broken := behind '\x27' (by decide)
    unfold readCharacter at h
    cases quotation : readQuotation '\x27' cs with
    | closed value spelling more =>
        rw [quotation] at h broken
        rcases value with _ | ⟨d, _ | ⟨e, value⟩⟩
        · -- nothing stands between the two marks of an empty literal
          cases h
          cases quotedSpelling_of_readQuotation quotation
          simp at newline
        · cases h
        · cases h
          exact ⟨broken newline, .inr rfl⟩
    | unclosed atEnd spelling more =>
        rw [quotation] at h
        cases h
        cases quotes
    | faulty fault spelling more =>
        rw [quotation] at h
        cases h
        cases atStart
  · unfold readPunctuator at h
    split at h
    · cases h
    · cases h
      cases newline

/-! ### The quoted line -/

/-- The line that a diagnostic quotes is the one that it points into, and the column is that of one
of its characters or of its end. -/
def Diagnostic.QuotesItsLine (source : String) (d : Diagnostic) : Prop :=
  ∃ location line, d.location = some location ∧ d.sourceLine = some line ∧ 1 ≤ location.line ∧
    (source.toList.splitOn '\n')[(location.line - 1).toNat]? = some line.toList ∧
    1 ≤ location.column ∧ location.column ≤ line.length + 1

/-- A diagnostic points at the place behind the text `before`, and quotes the line behind the text
`before ++ text`, as far as the reading has come.  The text in between goes over a newline only in
a literal, and only behind a backslash. -/
structure Diagnostic.Quotes (file : String) (source before text : List Char) (line : String)
    (d : Diagnostic) : Prop where
  isPrefix : before ++ text <+: source
  location : d.location = some ⟨file, 1 + before.count '\n', 1 + (lastLine before).length⟩
  sourceLine : d.sourceLine = some line
  line : (source.splitOn '\n')[(before ++ text).count '\n']? = some line.toList
  literal : '\n' ∈ text → ['\x5c', '\n'] <:+: text ∧ d.fault.EndsLiteral

theorem location_after (file : String) (before : List Char) :
    (Place.after ⟨1, []⟩ before).location file =
      ⟨file, 1 + before.count '\n', 1 + (lastLine before).length⟩ := by
  rw [Place.after_eq, Place.location, Place.column, Int.add_comm (lastLine before).length]

/-- The line of a place is the one behind the text in front of it. -/
theorem toList_lineText_after (before rest : List Char) :
    ((before ++ rest).splitOn '\n')[before.count '\n']? =
      some ((Place.after ⟨1, []⟩ before).lineText rest).toList := by
  rw [getElem?_splitOn_count, Place.after_eq, Place.lineText, String.toList_ofList]

/-- Within a line, a diagnostic quotes the line that it points into. -/
theorem Diagnostic.Quotes.quotesItsLine {file source : String}
    (h : d.Quotes file source.toList before text line) (noNewline : '\n' ∉ text) :
    d.QuotesItsLine source := by
  obtain ⟨rest, whole⟩ := h.isPrefix
  have same : (before ++ text).count '\n' = before.count '\n' := by
    rw [List.count_append, List.count_eq_zero.2 noNewline, Nat.add_zero]
  have quoted := h.line
  rw [same] at quoted
  have begins := getElem?_splitOn_count before (text ++ rest)
  rw [← List.append_assoc, whole, quoted, Option.some.injEq] at begins
  have length : (lastLine before).length ≤ line.length := by
    rw [← String.length_toList, begins, List.length_append, List.length_reverse]
    exact Nat.le_add_right ..
  refine ⟨_, line, h.location, h.sourceLine, by dsimp only; omega, ?_, by dsimp only; omega,
    by dsimp only; omega⟩
  rw [show ((1 + (before.count '\n' : Int)) - 1).toNat = before.count '\n' by omega]
  exact quoted

/-- What a refusal points at and quotes. -/
theorem quotes_of_refusal {refusal : Refusal} {file : String}
    (h : (refusal.diagnostic file (Place.after ⟨1, []⟩ before) text rest).sourceLine = some line)
    (literal : refusal.atStart → refusal.quotesLine → '\n' ∈ text →
      ['\x5c', '\n'] <:+: text ∧ refusal.fault.EndsLiteral) :
    ∃ front middle, (refusal.diagnostic file (Place.after ⟨1, []⟩ before) text rest).Quotes file
      (before ++ (text ++ rest)) front middle line := by
  have quotes : refusal.quotesLine = true ∧
      (Place.after ⟨1, []⟩ (before ++ text)).lineText rest = line := by
    rw [Place.after_append]
    simpa [Refusal.diagnostic, Diagnostic.placed] using h
  have quoted := toList_lineText_after (before ++ text) rest
  rw [quotes.2, List.append_assoc] at quoted
  cases atStart : refusal.atStart with
  | true =>
      refine ⟨before, text, ⟨rest, List.append_assoc ..⟩, ?_, h, quoted, fun newline => ?_⟩
      · rw [← location_after]
        simp [Refusal.diagnostic, Diagnostic.placed, atStart]
      · exact literal atStart quotes.1 newline
  | false =>
      refine ⟨before ++ text, [], ⟨rest, by simp⟩, ?_, h, by simpa using quoted, ?_⟩
      · rw [← location_after, Place.after_append]
        simp [Refusal.diagnostic, Diagnostic.placed, atStart]
      · intro newline
        cases newline

/-- What the fault that stops a scan points at and quotes. -/
theorem quotes_of_scanFrom {file : String} {tokens : List Token}
    (h : scanFrom file (Place.after ⟨1, []⟩ before) cs = .broken tokens d)
    (quoted : d.sourceLine = some line) :
    ∃ front text, d.Quotes file (before ++ cs) front text line := by
  generalize place : Place.after ⟨1, []⟩ before = start at h
  fun_induction scanFrom file start cs generalizing before tokens with
  | case1 =>
      cases h
      cases quoted
  | case2 => cases h
  | case3 start cs gap c more cut here refusal text rest =>
      -- the scan stops behind the gap, and the text in front of the lexeme grows by the gap
      rename_i refused
      cases h
      subst place
      have arrived : here = Place.after ⟨1, []⟩ (before ++ gap) := (Place.after_append ..).symm
      have lossless : text ++ rest = c :: more := append_of_readLexeme refused
      obtain ⟨-, rfl, -⟩ := Gap.stands_of_split cut
      rw [← List.append_assoc, ← lossless]
      rw [arrived] at quoted ⊢
      exact quotes_of_refusal quoted (endsLiteral_of_newline_mem refused)
  | case4 => cases h
  | case5 start cs gap c more cut here lexeme text rest read =>
      -- the scan goes on behind the lexeme, with the same fault in the end
      rename_i ih
      subst place
      obtain ⟨tokens', broken, -⟩ := Scan.push_eq_broken_iff.1 h
      have lossless : text ++ rest = c :: more := append_of_readLexeme read
      obtain ⟨-, rfl, -⟩ := Gap.stands_of_split cut
      rw [← List.append_assoc, ← lossless, ← List.append_assoc]
      refine ih ?_ broken
      rw [Place.after_append, Place.after_append]

/-- **A fault quotes the line that it points into, or one that its literal goes on to behind a
backslash**: the place is that of the text `before`, the line that of the text `before ++ text`,
and as long as no newline stands behind a backslash they belong together. -/
theorem scan_broken_quotes {source file : String} {tokens : List Token} {d : Diagnostic}
    {line : String} (h : scan source file 1 = .broken tokens d)
    (quoted : d.sourceLine = some line) :
    (∃ before text, d.Quotes file source.toList before text line ∧
      ('\n' ∉ text → d.QuotesItsLine source)) ∧
      (¬ d.fault.EndsLiteral → d.QuotesItsLine source) ∧
      (¬ ['\x5c', '\n'] <:+: source.toList → d.QuotesItsLine source) := by
  obtain ⟨before, text, quotes⟩ :
      ∃ before text, d.Quotes file ([] ++ source.toList) before text line :=
    quotes_of_scanFrom h quoted
  have within := quotes.quotesItsLine
  refine ⟨⟨before, text, quotes, within⟩, fun other => ?_, fun free => ?_⟩
  · exact within fun newline => other (quotes.literal newline).2
  · refine within fun newline => free ?_
    have inside : text <:+: source.toList :=
      (List.suffix_append before text).isInfix.trans quotes.isPrefix.isInfix
    exact (quotes.literal newline).1.trans inside

/-- A character literal with two characters on the second line. -/
theorem scan_broken_quotes_second_line :
    let d : Diagnostic :=
      .placed (.lexical .longCharacter) ⟨"a.c", 2, 2⟩ (some " 'ab';")
    scan "x =\n 'ab';\n" "a.c" 1 =
        .broken [⟨.identifier "x", 1, 1⟩, ⟨.punctuator .assign, 1, 3⟩] d ∧
      d.sourceLine = some " 'ab';" ∧ d.QuotesItsLine "x =\n 'ab';\n" := by
  intro d
  have broken : scan "x =\n 'ab';\n" "a.c" 1 =
      .broken [⟨.identifier "x", 1, 1⟩, ⟨.punctuator .assign, 1, 3⟩] d := by decide +kernel
  have free : ¬ ['\x5c', '\n'] <:+: "x =\n 'ab';\n".toList := by decide +kernel
  exact ⟨broken, rfl, (scan_broken_quotes broken rfl).2.2 free⟩

/-- A string literal that goes on to a second line, and is not closed there, is reported in the
first line, but the second one is quoted. -/
theorem scan_broken_quotes_other_line :
    ∃ d, scan "\"a\\\nb\nc" "<input>" 1 = .broken [] d ∧ d.sourceLine.isSome ∧
      ¬ d.QuotesItsLine "\"a\\\nb\nc" := by
  refine ⟨.placed .unclosedString ⟨"<input>", 1, 1⟩ (some "b"), by decide +kernel, rfl, ?_⟩
  rintro ⟨location, line, place, quoted, -, same, -⟩
  cases place
  cases quoted
  revert same
  decide +kernel

end PlainC
