/-
**A text is scanned line by line.**

A text that can be scanned up to its end, a newline, and another text behind it are scanned to the
tokens of the first text and then to those of the second one.  The second text is scanned as if it
stood alone, from the number of its line on: nothing that the scanning went through in front of it
matters.  A comment from `//` at the end of the first text is ended by the newline as well as by the
end of the source.

Main definitions:

* `PlainC.Scan.behind` — a scan with given tokens in front.

Main results:

* `PlainC.scanFrom_gap` — a gap only moves the place from which the rest is scanned;
* `PlainC.scanFrom_append_newline` — the same from any place on;
* `PlainC.scan_append_newline` — **a text behind a newline is scanned as if it stood alone**.
-/

import PlainC.Proofs.Scanning.BreakingOff
import PlainC.Proofs.Scanning.Tiling

set_option relaxedAutoImplicit false
set_option autoImplicit false

namespace PlainC

variable {cs text rest gap : List Char} {tokens : List Token} {ending : Token}

/-! ### Tokens in front of a scan -/

/-- The scan with given tokens in front. -/
def Scan.behind (tokens : List Token) : Scan → Scan
  | complete ts ending => complete (tokens ++ ts) ending
  | broken ts diagnostic => broken (tokens ++ ts) diagnostic
  | overlong ts digits => overlong (tokens ++ ts) digits

@[simp] theorem Scan.behind_nil (s : Scan) : s.behind [] = s := by cases s <;> rfl

@[simp] theorem Scan.behind_cons (t : Token) (tokens : List Token) (s : Scan) :
    s.behind (t :: tokens) = (s.behind tokens).push t := by cases s <;> rfl

@[simp] theorem Scan.all_behind (tokens : List Token) (s : Scan) :
    (s.behind tokens).all = tokens ++ s.all := by cases s <;> simp [behind, all]

@[simp] theorem Scan.diagnostic?_behind (tokens : List Token) (s : Scan) :
    (s.behind tokens).diagnostic? = s.diagnostic? := by cases s <;> rfl

/-! ### Gaps and newlines -/

/-- A gap only moves the place from which the rest is scanned. -/
theorem scanFrom_gap (file : String) (place : Place) (stands : Gap.Stands gap cs) :
    scanFrom file place (gap ++ cs) = scanFrom file (place.after gap) cs := by
  rw [scanFrom_eq, scanFrom_eq file (place.after gap), stands.split_append]
  cases Gap.split cs with
  | unclosed text rest => simp only [Gap.prepend, Place.after_append]
  | closed text rest => cases rest <;> simp only [Gap.prepend, Place.after_append]

/-! ### Texts behind a newline -/

/-- Behind a text that is scanned up to its end, and a newline, the scanning goes on with the
text that stands there. -/
theorem scanFrom_append_newline {file : String} {place : Place}
    (h : scanFrom file place cs = .complete tokens ending) (rest : List Char) :
    scanFrom file place (cs ++ '\n' :: rest) =
      (scanFrom file (place.after (cs ++ ['\n'])) rest).behind tokens := by
  have finished : Gap.EndsLine ('\n' :: rest) := .inr ⟨rest, rfl⟩
  fun_induction scanFrom file place cs generalizing tokens with
  | case1 => cases h
  | case2 place cs gap cut =>
      -- the newline belongs to the last gap, whose comment it may end
      cases h
      obtain ⟨stands, rfl, -⟩ := Gap.stands_of_split cut
      have newline : Gap.Stands ['\n'] rest := .blank rfl .nil
      have stands' : Gap.Stands gap ('\n' :: rest) := stands.of_endsLine fun _ => finished
      rw [List.append_nil, scanFrom_gap file place stands', ← List.singleton_append,
        scanFrom_gap file _ newline, Place.after_append, Scan.behind_nil]
  | case3 | case4 => cases h
  | case5 place cs gap c more cut here lexeme text behind read =>
      rename_i ih
      obtain ⟨ts, complete, rfl⟩ := Scan.push_eq_complete_iff.1 h
      obtain ⟨stands, rfl, noGap⟩ := Gap.stands_of_split cut
      have lossless : text ++ behind = c :: more := append_of_readLexeme read
      have reads : ReadsAs text behind lexeme := ⟨c, more, lossless, noGap, read⟩
      have reads' : ReadsAs text (behind ++ '\n' :: rest) lexeme :=
        reads.of_breaksOff ⟨behind, _, List.prefix_rfl, rfl, finished⟩
      have stands' : Gap.Stands gap (text ++ (behind ++ '\n' :: rest)) := by
        rw [← List.append_assoc, lossless]
        exact stands.of_endsLine fun ends => ends.append finished
      rw [← lossless, List.append_assoc, List.append_assoc,
        scanFrom_of_readsAs file place stands' reads', Scan.behind_cons, ih complete]
      simp only [here, Place.after_append]

/-- **A text behind a newline is scanned as if it stood alone**, from the number of its line on:
the tokens in front of the newline are followed by all the tokens of the other text, up to its end
or up to the same fault. -/
theorem scan_append_newline {a file : String} {line : Int} {tokens : List Token} {ending : Token}
    (h : scan a file line = .complete tokens ending) (b : String) :
    scan (a ++ "\n" ++ b) file line =
        (scan b file (line + 1 + a.toList.count '\n')).behind tokens ∧
      (scan (a ++ "\n" ++ b) file line).diagnostic? =
        (scan b file (line + 1 + a.toList.count '\n')).diagnostic? := by
  have arrived : Place.after ⟨line, []⟩ (a.toList ++ ['\n']) =
      ⟨line + 1 + a.toList.count '\n', []⟩ := by
    rw [Place.after_append, Place.after_newline, Place.after_eq, Place.mk.injEq]
    exact ⟨Int.add_right_comm .., rfl⟩
  have joined : scan (a ++ "\n" ++ b) file line =
      (scan b file (line + 1 + a.toList.count '\n')).behind tokens := by
    have behind := scanFrom_append_newline h b.toList
    rw [arrived] at behind
    rw [scan, scan, ← behind]
    simp
  exact ⟨joined, by rw [joined, Scan.diagnostic?_behind]⟩

/-- A comment that the newline ends, and behind it a name and a literal that is not closed. -/
theorem scan_append_newline_unclosed :
    scan "/*\n*/ x //" "a.c" 5 = .complete [⟨.identifier "x", 6, 4⟩] ⟨.ending, 6, 8⟩ ∧
      scan ("/*\n*/ x //" ++ "\n" ++ "y\n \"z\n") "a.c" 5 =
        .broken [⟨.identifier "x", 6, 4⟩, ⟨.identifier "y", 7, 1⟩]
          (.placed .unclosedString ⟨"a.c", 8, 2⟩ (some " \"z")) := by
  have complete : scan "/*\n*/ x //" "a.c" 5 =
      .complete [⟨.identifier "x", 6, 4⟩] ⟨.ending, 6, 8⟩ := by decide +kernel
  have alone : scan "y\n \"z\n" "a.c" 7 =
      .broken [⟨.identifier "y", 7, 1⟩] (.placed .unclosedString ⟨"a.c", 8, 2⟩ (some " \"z")) := by
    decide +kernel
  refine ⟨complete, ?_⟩
  rw [(scan_append_newline complete _).1]
  exact congrArg (Scan.behind [⟨.identifier "x", 6, 4⟩]) alone

end PlainC
