/-
**A scanned source is tiled by its tokens.**

When a source is scanned up to its end, nothing of it is lost and nothing is read twice: it is a
gap, a lexeme, a gap, a lexeme and so on up to a last gap, with one lexeme for each token.  The
place of a token is counted in the whole source in front of it, whatever the scanning went through
there.

Main definitions:

* `PlainC.lastLine`, `PlainC.Token.StandsBehind` — the place of a token, counted in the text in
  front of it;
* `PlainC.Tiles` — a text made up of gaps and of the lexemes of given tokens.

Main results:

* `PlainC.Place.after_eq` — the places that the scanning keeps are those that are counted;
* `PlainC.tiles_of_scanFrom` — what is scanned from a place on is tiled;
* `PlainC.scan_tiles` — **a source that is scanned up to its end is tiled by its tokens**.
-/

import PlainC.Proofs.Scanning.Gap
import PlainC.Proofs.Scanning.Lexeme

set_option relaxedAutoImplicit false
set_option autoImplicit false

namespace PlainC

variable {cs text before : List Char} {ts tokens : List Token} {t ending : Token} {first : Int}

/-! ### Places -/

/-- The characters of the last line of a text, the last one first. -/
def lastLine (text : List Char) : List Char := text.reverse.takeWhile (· != '\n')

/-- The place of a token behind the text `before`, whose first line has the number `first`: its
line is counted by newlines, and its column by the characters since the last one. -/
structure Token.StandsBehind (first : Int) (before : List Char) (t : Token) : Prop where
  line : t.line = first + before.count '\n'
  column : t.column = 1 + (lastLine before).length

theorem lastLine_append_singleton (text : List Char) (c : Char) :
    lastLine (text ++ [c]) = if c = '\n' then [] else c :: lastLine text := by
  by_cases newline : c = '\n'
  · subst newline
    simp [lastLine]
  · simp [lastLine, newline]

theorem Place.after_append_singleton (p : Place) (text : List Char) (c : Char) :
    p.after (text ++ [c]) = (p.after text).next c := by
  rw [Place.after_append]
  rfl

/-- The place behind a text is counted in the text. -/
theorem Place.after_eq (first : Int) (text : List Char) :
    Place.after ⟨first, []⟩ text = ⟨first + text.count '\n', lastLine text⟩ := by
  obtain ⟨behind, rfl⟩ : ∃ behind, text = behind.reverse := ⟨text.reverse, by simp⟩
  induction behind with
  | nil => simp [lastLine]
  | cons c behind ih =>
      rw [List.reverse_cons, Place.after_append_singleton, ih, lastLine_append_singleton,
        List.count_append, Place.next]
      by_cases newline : c = '\n'
      · subst newline
        simp only [if_true, List.count_singleton_self, Place.mk.injEq, and_true]
        omega
      · simp [newline]

/-- A token is put where the scanning has arrived. -/
theorem Token.standsBehind_after (lexeme : Lexeme) (first : Int) (before : List Char) :
    Token.StandsBehind first before
      ⟨lexeme, (Place.after ⟨first, []⟩ before).line, (Place.after ⟨first, []⟩ before).column⟩ := by
  rw [Place.after_eq]
  exact ⟨rfl, Int.add_comm ..⟩

/-! ### Tilings -/

/-- Behind the text `before` stand a gap, the lexeme of the first token, a gap and so on, up to the
gap in front of the end marker. -/
inductive Tiles (first : Int) : List Char → List Char → List Token → Token → Prop
  | ending {before gap : List Char} {ending : Token} : Gap.Stands gap [] →
      ending.lexeme = .ending → ending.StandsBehind first (before ++ gap) →
      Tiles first before gap [] ending
  | token {before gap text rest : List Char} {t ending : Token} {ts : List Token} :
      Gap.Stands gap (text ++ rest) → text ≠ [] → LexemeSpelling text rest t.lexeme →
      t.StandsBehind first (before ++ gap) → Tiles first (before ++ gap ++ text) rest ts ending →
      Tiles first before (gap ++ (text ++ rest)) (t :: ts) ending

/-- There are no more tokens than characters. -/
theorem Tiles.length_le (h : Tiles first before cs ts ending) : ts.length ≤ cs.length := by
  induction h with
  | ending => exact Nat.zero_le _
  | token _ nonempty _ _ _ ih =>
      have pos := List.length_pos_iff.2 nonempty
      simp only [List.length_cons, List.length_append]
      omega

/-- Only the last token of a tiling is an end marker. -/
theorem Tiles.ne_ending (h : Tiles first before cs ts ending) : ∀ t ∈ ts, t.lexeme ≠ .ending := by
  induction h with
  | ending => intro t ht; cases ht
  | token _ _ spelled _ _ ih =>
      intro t ht
      rcases List.mem_cons.1 ht with rfl | ht
      · exact spelled.ne_ending
      · exact ih t ht

theorem Tiles.ending_lexeme (h : Tiles first before cs ts ending) : ending.lexeme = .ending := by
  induction h with
  | ending _ last => exact last
  | token _ _ _ _ _ ih => exact ih

theorem Scan.push_eq_complete_iff {s : Scan} :
    s.push t = .complete tokens ending ↔ ∃ ts, s = .complete ts ending ∧ tokens = t :: ts := by
  cases s with
  | complete ts last =>
      simp only [Scan.push, Scan.complete.injEq]
      constructor
      · rintro ⟨rfl, rfl⟩
        exact ⟨ts, ⟨rfl, rfl⟩, rfl⟩
      · rintro ⟨_, ⟨rfl, rfl⟩, rfl⟩
        exact ⟨rfl, rfl⟩
  | broken | overlong => simp [Scan.push]

theorem Scan.push_eq_broken_iff {s : Scan} {d : Diagnostic} :
    s.push t = .broken tokens d ↔ ∃ ts, s = .broken ts d ∧ tokens = t :: ts := by
  cases s with
  | complete | overlong => simp [Scan.push]
  | broken ts found =>
      simp only [Scan.push, Scan.broken.injEq]
      constructor
      · rintro ⟨rfl, rfl⟩
        exact ⟨ts, ⟨rfl, rfl⟩, rfl⟩
      · rintro ⟨_, ⟨rfl, rfl⟩, rfl⟩
        exact ⟨rfl, rfl⟩

/-- The text from a place on is tiled, if it is scanned up to its end. -/
theorem tiles_of_scanFrom {file : String}
    (h : scanFrom file (Place.after ⟨first, []⟩ before) cs = .complete tokens ending) :
    Tiles first before cs tokens ending := by
  generalize place : Place.after ⟨first, []⟩ before = start at h
  fun_induction scanFrom file start cs generalizing before tokens with
  | case1 => cases h
  | case2 start cs gap cut =>
      rename_i here
      cases h
      obtain ⟨stands, rfl, -⟩ := Gap.stands_of_split cut
      subst place
      rw [List.append_nil]
      refine .ending stands rfl ?_
      have arrived : here = Place.after ⟨first, []⟩ (before ++ gap) := (Place.after_append ..).symm
      rw [arrived]
      exact Token.standsBehind_after ..
  | case3 | case4 => cases h
  | case5 start cs gap c more cut here lexeme text rest read =>
      rename_i ih
      obtain ⟨ts, rest', rfl⟩ := Scan.push_eq_complete_iff.1 h
      obtain ⟨stands, rfl, -⟩ := Gap.stands_of_split cut
      subst place
      have arrived : here = Place.after ⟨first, []⟩ (before ++ gap) := (Place.after_append ..).symm
      have whole : text ++ rest = c :: more := append_of_readLexeme read
      rw [← whole] at stands ⊢
      refine .token stands (text_readLexeme_ne_nil read) (.of_readLexeme read) ?_ (ih ?_ rest')
      · rw [arrived]
        exact Token.standsBehind_after ..
      · rw [arrived, ← Place.after_append]

/-- **A source that is scanned up to its end is tiled by its tokens.**  The end marker is the last
token and the only one of its kind, and there is at most one token more than there are
characters. -/
theorem scan_tiles {source file : String} {line : Int} {tokens : List Token} {ending : Token}
    (h : scan source file line = .complete tokens ending) :
    Tiles line [] source.toList tokens ending ∧
      (scan source file line).all = tokens ++ [ending] ∧ ending.lexeme = .ending ∧
      (∀ t ∈ tokens, t.lexeme ≠ .ending) ∧
      (scan source file line).all.length ≤ source.length + 1 := by
  have tiles : Tiles line [] source.toList tokens ending := tiles_of_scanFrom h
  refine ⟨tiles, by rw [h]; rfl, tiles.ending_lexeme, tiles.ne_ending, ?_⟩
  have few := tiles.length_le
  rw [String.length_toList] at few
  rw [h, Scan.all, List.length_append, List.length_singleton]
  omega

/-- A comment over two lines and an assignment, from the fifth line on. -/
theorem scan_tiles_assignment :
    scan "/* a\n */ x = '\\n'; //" "a.c" 5 =
        .complete [⟨.identifier "x", 6, 5⟩, ⟨.punctuator .assign, 6, 7⟩, ⟨.character 10, 6, 9⟩,
          ⟨.punctuator .semicolon, 6, 13⟩] ⟨.ending, 6, 17⟩ ∧
      Tiles 5 [] "/* a\n */ x = '\\n'; //".toList [⟨.identifier "x", 6, 5⟩,
        ⟨.punctuator .assign, 6, 7⟩, ⟨.character 10, 6, 9⟩, ⟨.punctuator .semicolon, 6, 13⟩]
        ⟨.ending, 6, 17⟩ := by
  have complete : scan "/* a\n */ x = '\\n'; //" "a.c" 5 =
      .complete [⟨.identifier "x", 6, 5⟩, ⟨.punctuator .assign, 6, 7⟩, ⟨.character 10, 6, 9⟩,
        ⟨.punctuator .semicolon, 6, 13⟩] ⟨.ending, 6, 17⟩ := by decide +kernel
  exact ⟨complete, (scan_tiles complete).1⟩

end PlainC
