/-
**Every fault of the grammar points at a token of the source.**

The scanner counts lines by newline characters, and the parser quotes the lines of running text.
Where a source has no other line breaks the two are the same lines, except that an empty last line
is no line of running text: only the end of the source can stand there, and a fault that is put at
it quotes nothing.  So a fault that stops the reading of a program is put at a token of the source,
quotes the line in which the token stands, and has the caret under its first character.

Main definitions:

* `PlainC.Token.StandsIn` — the lexeme of a token in a source;
* `PlainC.Diagnostic.PointsAt` — a diagnostic with the place of a token, the line in which it
  stands, and the text that they make up.

Main results:

* `PlainC.splitOn_newline_eq` — the lines between newlines are those of running text, and an empty
  last line;
* `PlainC.Source.read_pointsAt` — **a program is read to the end or up to a fault at a token**.
-/

import PlainC.Proofs.Blaming.Rules
import PlainC.Proofs.Parsing.Resuming
import PlainC.Proofs.Scanning.Quoting
import PlainC.Proofs.Scanning.Spacing

set_option relaxedAutoImplicit false
set_option autoImplicit false

namespace PlainC

variable {cs text rest before line : List Char} {lexeme : Lexeme} {first : Int}
  {t ending : Token} {ts tokens : List Token} {k : Nat}

/-! ### Lines of running text -/

/-- Where only newlines break lines, the lines between newlines are those of running text; behind a
newline at the very end there is an empty one more. -/
theorem splitOn_newline_eq (breaks : ∀ c ∈ cs, Text.isLineBreak c → c = '\n') :
    cs.splitOn '\n' = Text.splitLines cs ∨ cs.splitOn '\n' = Text.splitLines cs ++ [[]] := by
  fun_induction Text.splitLines cs with
  | case1 => exact .inr rfl
  | case2 cs => exact absurd (breaks '\r' (List.mem_cons_self ..) rfl) (by decide)
  | case3 c cs _ isBreak ih =>
      obtain rfl := breaks c (List.mem_cons_self ..) isBreak
      rw [splitOn_newline_cons, if_pos rfl]
      rcases ih fun d hd => breaks d (List.mem_cons_of_mem _ hd) with same | same
      · exact .inl (by rw [same])
      · exact .inr (by rw [same, List.cons_append])
  | case4 c cs _ noBreak none ih =>
      have noNewline : c ≠ '\n' := by rintro rfl; exact noBreak rfl
      rw [splitOn_newline_cons, if_neg noNewline]
      rcases ih fun d hd => breaks d (List.mem_cons_of_mem _ hd) with same | same
      · have some' : 0 < (cs.splitOn '\n').length := by
          rw [length_splitOn_newline]
          exact Nat.succ_pos _
        rw [same, none] at some'
        exact absurd some' (Nat.lt_irrefl 0)
      · exact .inl (by rw [same, none]; rfl)
  | case5 c cs _ noBreak line lines found ih =>
      have noNewline : c ≠ '\n' := by rintro rfl; exact noBreak rfl
      rw [splitOn_newline_cons, if_neg noNewline]
      rcases ih fun d hd => breaks d (List.mem_cons_of_mem _ hd) with same | same
      · exact .inl (by rw [same, found]; rfl)
      · exact .inr (by rw [same, found]; rfl)

/-- A line between newlines is the line of running text with the same number, unless it is an empty
one behind all of them. -/
theorem getElem?_splitLines (breaks : ∀ c ∈ cs, Text.isLineBreak c → c = '\n')
    (h : (cs.splitOn '\n')[k]? = some line) :
    (Text.splitLines cs)[k]? = some line ∨
      (Text.splitLines cs)[k]? = none ∧ line = [] ∧ k = (Text.splitLines cs).length := by
  rcases splitOn_newline_eq breaks with same | same
  · exact .inl (same ▸ h)
  · rw [same] at h
    by_cases inside : k < (Text.splitLines cs).length
    · exact .inl (by rwa [List.getElem?_append_left inside] at h)
    · rw [List.getElem?_append_right (by omega), List.getElem?_singleton] at h
      split at h
      · rename_i last
        exact .inr ⟨List.getElem?_eq_none (by omega), (Option.some.inj h).symm, by omega⟩
      · cases h

/-! ### Tokens in a source -/

/-- A lexeme does not begin with a newline. -/
theorem LexemeSpelling.begins (h : LexemeSpelling text rest lexeme) :
    ∃ c cs, text = c :: cs ∧ c ≠ '\n' := by
  have word (h : IsWord text) : ∃ c cs, text = c :: cs ∧ c ≠ '\n' := by
    obtain ⟨c, cs, spelled, start, -⟩ := h
    exact ⟨c, cs, spelled, by rintro rfl; cases start⟩
  cases h with
  | keyword => exact word (isWord_spelling _)
  | identifier isIdentifier => exact word isIdentifier.word
  | number spelled =>
      obtain ⟨c, cs, same, first⟩ := spelled.begins
      refine ⟨c, cs, same, ?_⟩
      rintro rfl
      rcases first with digit | ⟨point, -⟩
      · cases digit
      · cases point
  | string | character => exact ⟨_, _, rfl, by decide⟩
  | @punctuator m =>
      obtain ⟨c, cs, spelled⟩ := List.exists_cons_of_ne_nil m.chars_ne_nil
      refine ⟨c, cs, spelled, ?_⟩
      rintro rfl
      have noBlank := (Punctuator.mem_chars (m := m) (c := '\n') (by simp [spelled])).1
      cases noBlank

/-- The lexeme of a token stands in the source, at the place that the token gives. -/
structure Token.StandsIn (source before text rest : List Char) (t : Token) : Prop where
  whole : source = before ++ (text ++ rest)
  spelled : LexemeSpelling text rest t.lexeme
  behind : t.StandsBehind 1 before

theorem Tiles.exists_standsIn (h : Tiles 1 before cs ts ending) :
    ∀ t ∈ ts, ∃ front text rest, t.StandsIn (before ++ cs) front text rest := by
  induction h with
  | ending => intro t ht; cases ht
  | @token before gap text rest t ending ts _ _ spelled behind _ ih =>
      intro u hu
      rcases List.mem_cons.1 hu with rfl | hu
      · exact ⟨before ++ gap, text, rest, by simp, spelled, behind⟩
      · obtain ⟨front, text', rest', found⟩ := ih u hu
        exact ⟨front, text', rest', by simpa using found.whole, found.spelled, found.behind⟩

theorem Tiles.ending_standsBehind (h : Tiles first before cs ts ending) :
    ending.StandsBehind first (before ++ cs) := by
  induction h with
  | ending _ _ behind => exact behind
  | token _ _ _ _ _ ih => simpa using ih

/-- A token of a source stands in front of the text of its lexeme, unless it is the end. -/
theorem Tiles.exists_standsBehind (h : Tiles 1 [] cs ts ending) (inside : t ∈ ts ++ [ending]) :
    ∃ before rest, cs = before ++ rest ∧ t.StandsBehind 1 before ∧
      (t.lexeme = .ending ∨ ∃ text after, rest = text ++ after ∧
        t.StandsIn cs before text after) := by
  rcases List.mem_append.1 inside with inside | last
  · obtain ⟨before, text, rest, found⟩ := h.exists_standsIn t inside
    exact ⟨before, text ++ rest, found.whole, found.behind, .inr ⟨text, rest, rfl, found⟩⟩
  · rw [List.mem_singleton.1 last]
    exact ⟨_, [], (List.append_nil _).symm, h.ending_standsBehind, .inl h.ending_lexeme⟩

/-! ### Pointing at a token -/

/-- A diagnostic points at a token of a source: it has the place of the token and quotes the line in
which the token stands, with the caret under the first character of its lexeme.  Only the end of the
source can stand behind the last line. -/
structure Diagnostic.PointsAt (source : Source) (t : Token) (d : Diagnostic) : Prop where
  location : d.location = some ⟨source.file, t.line, t.column⟩
  sourceLine : 1 ≤ t.line ∧ d.sourceLine = source.lines[(t.line - 1).toNat]?
  quoted : ∀ line ∈ d.sourceLine,
    (source.text.toList.splitOn '\n')[(t.line - 1).toNat]? = some line.toList
  unquoted : d.sourceLine = none →
    t.lexeme = .ending ∧ t.line = source.lines.length + 1 ∧ t.column = 1
  column : 1 ≤ t.column ∧ ∀ line ∈ d.sourceLine, t.column ≤ line.length + 1
  character : t.lexeme ≠ .ending → ∃ before text rest,
    t.StandsIn source.text.toList before text rest ∧ text ≠ [] ∧
      ∀ line ∈ d.sourceLine, line.toList[(t.column - 1).toNat]? = text.head?
  message : d.message = "\n".intercalate
    ([source.file ++ ":" ++ toString t.line ++ ":" ++ toString t.column ++ ": error: "
        ++ d.fault.text]
      ++ d.sourceLine.toList.flatMap (fun line =>
          ["    " ++ line, String.ofList (List.replicate (t.column + 3).toNat ' ' ++ ['^'])])
      ++ (d.hint.toList.filter (· ≠ "")).map ("hint: " ++ ·))

/-- The text of a diagnostic that is put at a token. -/
theorem Setting.message_blame (s : Setting) (fault : Fault) (pos : 1 ≤ t.column) :
    (s.blame fault t).message = "\n".intercalate
      ([s.file ++ ":" ++ toString t.line ++ ":" ++ toString t.column ++ ": error: " ++ fault.text]
        ++ (s.quote t.line).toList.flatMap (fun line =>
            ["    " ++ line, String.ofList (List.replicate (t.column + 3).toNat ' ' ++ ['^'])])
        ++ (fault.hint.toList.filter (· ≠ "")).map ("hint: " ++ ·)) := by
  have wide : (4 + t.column - 1).toNat = (t.column + 3).toNat := by omega
  have caret : 0 < t.column := by omega
  rw [Setting.blame, Diagnostic.message, Diagnostic.placed]
  generalize fault.hint = hint
  rcases hint with _ | hint
  · cases s.quote t.line <;> simp [Location.text, Diagnostic.excerpt, wide, caret]
  · by_cases empty : hint = "" <;> cases s.quote t.line <;>
      simp [Location.text, Diagnostic.excerpt, wide, caret, empty]

/-- The line in which a token stands is a line of the source, unless it is an empty one behind all
of them. -/
theorem Source.quote_of_standsBehind {source : Source}
    (breaks : ∀ c ∈ source.text.toList, Text.isLineBreak c → c = '\n')
    (whole : source.text.toList = before ++ rest) (behind : t.StandsBehind 1 before) :
    (source.text.toList.splitOn '\n')[(t.line - 1).toNat]? =
        some ((lastLine before).reverse ++ Text.firstLine rest) ∧
      (source.lines[(t.line - 1).toNat]? =
          some (String.ofList ((lastLine before).reverse ++ Text.firstLine rest)) ∨
        source.lines[(t.line - 1).toNat]? = none ∧ lastLine before = [] ∧ Text.firstLine rest = [] ∧
          t.line = source.lines.length + 1) := by
  have number : (t.line - 1).toNat = before.count '\n' := by
    rw [behind.line]
    omega
  have found := getElem?_splitOn_count before rest
  rw [← whole] at found
  rw [number]
  refine ⟨found, ?_⟩
  rw [Source.lines, List.getElem?_map, List.length_map]
  rcases getElem?_splitLines breaks found with inside | ⟨outside, empty, last⟩
  · exact .inl (by rw [inside]; rfl)
  · obtain ⟨noLast, noFirst⟩ := List.append_eq_nil_iff.1 empty
    refine .inr ⟨by rw [outside]; rfl, List.reverse_eq_nil_iff.1 noLast, noFirst, ?_⟩
    rw [behind.line, last]
    omega

/-- What is quoted for a token is the line between newlines in which it stands. -/
theorem Source.line_of_standsBehind {source : Source}
    (breaks : ∀ c ∈ source.text.toList, Text.isLineBreak c → c = '\n')
    (whole : source.text.toList = before ++ rest) (behind : t.StandsBehind 1 before) :
    ∀ line ∈ source.lines[(t.line - 1).toNat]?,
      line.toList = (lastLine before).reverse ++ Text.firstLine rest := by
  intro line quoted
  rcases (quote_of_standsBehind breaks whole behind).2 with shown | ⟨none, -⟩
  · rw [shown] at quoted
    rw [← Option.some.inj quoted, String.toList_ofList]
  · rw [none] at quoted
    cases quoted

/-- Any token of a scanned source can be pointed at, whatever the fault. -/
theorem Source.blame_pointsAt {source : Source}
    (scanned : source.scan = .complete tokens ending)
    (breaks : ∀ c ∈ source.text.toList, Text.isLineBreak c → c = '\n')
    (inside : t ∈ tokens ++ [ending]) {s : Setting} (file : s.file = source.file)
    (lines : s.lines = source.lines) (fault : Fault) :
    (s.blame fault t).PointsAt source t := by
  have tiles : Tiles 1 [] source.text.toList tokens ending := tiles_of_scanFrom scanned
  obtain ⟨before, rest, whole, behind, lexeme⟩ := tiles.exists_standsBehind inside
  have line : 1 ≤ t.line := by rw [behind.line]; omega
  have column : 1 ≤ t.column := by rw [behind.column]; omega
  have quote : s.quote t.line = source.lines[(t.line - 1).toNat]? := by
    rw [Setting.quote, if_pos (by omega), lines]
  obtain ⟨found, shown⟩ := Source.quote_of_standsBehind breaks whole behind
  have same : ∀ line ∈ s.quote t.line,
      line.toList = (lastLine before).reverse ++ Text.firstLine rest := by
    rw [quote]
    exact Source.line_of_standsBehind breaks whole behind
  refine ⟨by rw [← file]; rfl, ⟨line, quote⟩, fun line quoted => ?_, fun none => ?_,
    ⟨column, fun line quoted => ?_⟩, fun noEnd => ?_, ?_⟩
  · rw [same line quoted]
    exact found
  · rw [show (s.blame fault t).sourceLine = s.quote t.line from rfl, quote] at none
    rcases shown with shown | ⟨-, noLast, noFirst, last⟩
    · rw [shown] at none
      cases none
    · refine ⟨?_, last, by rw [behind.column, noLast]; rfl⟩
      rcases lexeme with last | ⟨text, after, rfl, stands⟩
      · exact last
      · obtain ⟨c, cs, rfl, noNewline⟩ := stands.spelled.begins
        simp [Text.firstLine, noNewline] at noFirst
  · have length := congrArg List.length (same line quoted)
    rw [String.length_toList, List.length_append, List.length_reverse] at length
    rw [behind.column]
    omega
  · rcases lexeme with last | ⟨text, after, rfl, stands⟩
    · exact absurd last noEnd
    obtain ⟨c, cs, rfl, noNewline⟩ := stands.spelled.begins
    refine ⟨before, c :: cs, after, stands, List.cons_ne_nil _ _, fun line quoted => ?_⟩
    have place : (t.column - 1).toNat = (lastLine before).reverse.length := by
      rw [behind.column, List.length_reverse]
      omega
    rw [same line quoted, place, List.getElem?_append_right (Nat.le_refl _), Nat.sub_self]
    simp [Text.firstLine, noNewline]
  · rw [Setting.message_blame s fault column, file]
    rfl

/-! ### Reading a program -/

/-- A call for a program stops where its units stop, and for the same reason. -/
theorem Reader.call_program (r : Reader) :
    (r.call Parser.program).2.progress = (Parser.units r.setting r.progress).progress ∧
      ∀ stop, (r.call Parser.program).1 = .error stop →
        (Parser.units r.setting r.progress).stop = some stop := by
  unfold call Parser.program
  dsimp only
  cases (Parser.units r.setting r.progress).stop with
  | none => exact ⟨rfl, fun _ stopped => by cases stopped⟩
  | some stop => exact ⟨rfl, fun _ stopped => congrArg some (Except.error.inj stopped)⟩

/-- **A program is read to its end or up to a fault at a token.**  The token is one of the tokens of
the source, the end included, and not behind the first one that was not read. -/
theorem Source.read_pointsAt {source : Source} (options : Options)
    (scanned : source.scan = .complete tokens ending)
    (breaks : ∀ c ∈ source.text.toList, Text.isLineBreak c → c = '\n') {stop : Stop}
    (stopped : (source.read Parser.program options).result = .error stop) :
    ∃ r past d, Reader.ofSource options source = .ok r ∧
      tokens = past ++ (r.call Parser.program).2.progress.rest ∧ stop = .fault d ∧
      ∃ i t, source.scan.all[i]? = some t ∧ i ≤ past.length ∧ d.PointsAt source t := by
  have opened : Reader.ofSource options source =
      .ok ⟨⟨source.file, source.lines, options, ending⟩, ⟨tokens, []⟩⟩ := by
    rw [Reader.ofSource, scanned]
  generalize setting : (⟨source.file, source.lines, options, ending⟩ : Setting) = s at opened
  have closed : s.Closed := by
    have tiles : Tiles 1 [] source.text.toList tokens ending := tiles_of_scanFrom scanned
    rw [← setting]
    exact tiles.ending_lexeme
  obtain ⟨reached, outcome⟩ := Reader.call_program ⟨s, ⟨tokens, []⟩⟩
  rw [Source.read, opened] at stopped
  have why := outcome stop stopped
  obtain ⟨past, whole⟩ : (Parser.units s ⟨tokens, []⟩).progress.rest <:+ tokens :=
    Parser.unitsWithin_suffix _ _
  obtain ⟨d, rfl⟩ : stop.IsFault :=
    Parser.unitsWithin_lasts (p := ⟨tokens, []⟩) closed (Nat.lt_succ_self _) stop why
  have blamed : ∃ t, s.Seen tokens (Parser.units s ⟨tokens, []⟩).progress t ∧
      d = s.blame d.fault t :=
    Parser.unitsWithin_blames _ (List.suffix_refl tokens) why
  obtain ⟨t, ⟨i, found, before⟩, put⟩ := blamed
  refine ⟨_, past, d, opened, by rw [reached]; exact whole.symm, rfl, i, t, ?_, ?_, ?_⟩
  · rw [scanned, Scan.all]
    rwa [← setting] at found
  · have length := congrArg List.length whole
    rw [List.length_append] at length
    omega
  · rw [put]
    rw [← setting] at found
    exact Source.blame_pointsAt scanned breaks (List.mem_of_getElem? found)
      (by rw [← setting]) (by rw [← setting]) _

/-- An initial value that is missing on the second line. -/
theorem Source.read_pointsAt_second_line :
    let source : Source := ⟨"a.c", "int x\n= ;"⟩
    let tokens : List Token := [⟨.keyword .int, 1, 1⟩, ⟨.identifier "x", 1, 5⟩,
      ⟨.punctuator .assign, 2, 1⟩, ⟨.punctuator .semicolon, 2, 3⟩]
    let stop : Stop := .fault
      (.placed (.unexpectedToken ";" (some "expression")) ⟨"a.c", 2, 3⟩ (some "= ;"))
    source.scan = .complete tokens ⟨.ending, 2, 4⟩ ∧
      (∀ c ∈ source.text.toList, Text.isLineBreak c → c = '\n') ∧
      (source.read Parser.program {}).result = .error stop ∧
      ∃ r past d, Reader.ofSource {} source = .ok r ∧
        tokens = past ++ (r.call Parser.program).2.progress.rest ∧ stop = .fault d ∧
        ∃ i t, source.scan.all[i]? = some t ∧ i ≤ past.length ∧ d.PointsAt source t := by
  intro source tokens stop
  have scanned : source.scan = .complete tokens ⟨.ending, 2, 4⟩ := by decide +kernel
  have all : source.text.toList.all fun c => decide (Text.isLineBreak c → c = '\n') := by
    decide +kernel
  have breaks : ∀ c ∈ source.text.toList, Text.isLineBreak c → c = '\n' := fun c member =>
    of_decide_eq_true (List.all_eq_true.1 all c member)
  have found : (match (source.read Parser.program {}).result with
      | .error stop' => decide (stop' = stop)
      | .ok _ => false) = true := by decide +kernel
  have stopped : (source.read Parser.program {}).result = .error stop := by
    revert found
    cases (source.read Parser.program {}).result with
    | error stop' => exact fun same => congrArg Except.error (of_decide_eq_true same)
    | ok _ => exact fun same => absurd same Bool.false_ne_true
  exact ⟨scanned, breaks, stopped, Source.read_pointsAt {} scanned breaks stopped⟩

end PlainC
