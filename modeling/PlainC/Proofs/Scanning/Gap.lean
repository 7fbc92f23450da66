/-
**What a gap is.**

The cutting of a gap is a computation; what it cuts off is described here without one.  A gap is a
row of blanks and comments in front of the text that follows: whether a comment from `//` is over
depends on that text, because the end of the source ends it as well as a newline does.  The text
cut off is such a row, and such a row is cut off as a whole.

Main definitions:

* `PlainC.Gap.EndsLine` — the texts in front of which a line is over;
* `PlainC.Gap.Stands` — the gaps in front of a text;
* `PlainC.Gap.Filler` — the texts that are gaps whatever follows.

Main results:

* `PlainC.closeComment_eq_some_iff` — a comment is cut after its first `*/`;
* `PlainC.Gap.split_eq_closed_iff` — **the cutting finds exactly the gaps that nothing prolongs**.
-/

import PlainC.Token.Gap

set_option relaxedAutoImplicit false
set_option autoImplicit false

namespace PlainC

variable {cs text text' body rest : List Char} {c : Char}

/-! ### Block comments -/

theorem closeComment_cons (h : ¬ ['*', '/'] <+: c :: cs) :
    closeComment (c :: cs) = (closeComment cs).map fun (text, rest) => (c :: text, rest) := by
  rw [closeComment]
  rintro more rfl rfl
  exact h ⟨more, rfl⟩

/-- A comment is cut after its first `*/`. -/
theorem closeComment_eq_some_iff :
    closeComment cs = some (text, rest) ↔
      ∃ body, ¬ ['*', '/'] <:+: body ∧ text = body ++ ['*', '/'] ∧ cs = text ++ rest := by
  constructor
  · intro h
    fun_induction closeComment cs generalizing text rest with
    | case1 => cases h
    | case2 cs =>
        cases h
        exact ⟨[], by simp, rfl, rfl⟩
    | case3 c cs opens ih =>
        obtain ⟨⟨_, _⟩, found, same⟩ := Option.map_eq_some_iff.1 h
        cases same
        obtain ⟨body, free, rfl, rfl⟩ := ih found
        refine ⟨c :: body, ?_, rfl, rfl⟩
        rw [List.infix_cons_iff]
        rintro (⟨tail, first⟩ | inside)
        · -- the `*/` would stand at the very front of the text
          obtain ⟨rfl, behind⟩ := List.cons_eq_cons.1 first
          refine opens (tail ++ ['*', '/'] ++ rest) rfl ?_
          rw [← behind]
          simp
        · exact free inside
  · rintro ⟨body, free, rfl, rfl⟩
    induction body with
    | nil => rfl
    | cons c body ih =>
        rw [List.infix_cons_iff, not_or] at free
        simp only [List.cons_append, List.append_assoc] at ih ⊢
        rw [closeComment_cons, ih free.2, Option.map_some]
        rintro ⟨tail, first⟩
        obtain ⟨rfl, behind⟩ := List.cons_eq_cons.1 first
        cases body with
        | nil => cases behind
        | cons d body =>
            obtain ⟨rfl, -⟩ := List.cons_eq_cons.1 behind
            exact free.1 ⟨body, rfl⟩

namespace Gap

/-! ### Gaps in front of a text -/

/-- A line is over in front of a newline and at the end. -/
def EndsLine (cs : List Char) : Prop := cs = [] ∨ ∃ more, cs = '\n' :: more

/-- The gaps in front of the text `rest`: rows of blanks, of comments from `//` to the end of the
line, and of comments from `/*` to the first `*/`. -/
inductive Stands : List Char → List Char → Prop
  | nil {rest : List Char} : Stands [] rest
  | blank {c : Char} {text rest : List Char} : isBlank c → Stands text rest →
      Stands (c :: text) rest
  | line {body text rest : List Char} : '\n' ∉ body → EndsLine (text ++ rest) → Stands text rest →
      Stands ('/' :: '/' :: (body ++ text)) rest
  | block {body text rest : List Char} : ¬ ['*', '/'] <:+: body → Stands text rest →
      Stands ('/' :: '*' :: (body ++ '*' :: '/' :: text)) rest

/-- Blanks, comments from `//` to a newline and comments from `/*` to the first `*/`. -/
inductive Filler : List Char → Prop
  | nil : Filler []
  | blank {c : Char} {text : List Char} : isBlank c → Filler text → Filler (c :: text)
  | line {body text : List Char} : '\n' ∉ body → Filler text →
      Filler ('/' :: '/' :: (body ++ '\n' :: text))
  | block {body text : List Char} : ¬ ['*', '/'] <:+: body → Filler text →
      Filler ('/' :: '*' :: (body ++ '*' :: '/' :: text))

/-- Such a text is a gap in front of any other. -/
theorem Filler.stands (h : Filler text) (rest : List Char) : Stands text rest := by
  induction h with
  | nil => exact .nil
  | blank isBlank _ ih => exact .blank isBlank ih
  | line noNewline _ ih =>
      have newline : Stands ('\n' :: _) rest := .blank rfl ih
      exact .line noNewline (.inr ⟨_, rfl⟩) newline
  | block free _ ih => exact .block free ih

/-! ### The cutting of a gap -/

theorem prepend_prepend (front front' : List Char) (g : Gap) :
    (g.prepend front').prepend front = g.prepend (front ++ front') := by
  cases g <;> simp [prepend]

theorem prepend_nil (g : Gap) : g.prepend [] = g := by
  cases g <;> rfl

theorem prepend_eq_closed_iff {front : List Char} {g : Gap} :
    g.prepend front = .closed text rest ↔ ∃ text', g = .closed text' rest ∧
      text = front ++ text' := by
  cases g with
  | closed more last =>
      simp only [prepend, closed.injEq]
      constructor
      · rintro ⟨rfl, rfl⟩
        exact ⟨more, ⟨rfl, rfl⟩, rfl⟩
      · rintro ⟨_, ⟨rfl, rfl⟩, rfl⟩
        exact ⟨rfl, rfl⟩
  | unclosed more last => simp [prepend]

theorem split_blank (h : isBlank c) : split (c :: cs) = (split cs).prepend [c] := by
  have noSlash : c ≠ '/' := by rintro rfl; cases h
  rw [split]
  · simp only [h, if_true]
  · exact fun _ same => absurd same noSlash
  · exact fun _ same => absurd same noSlash

/-- No gap stands in front of a character that neither is a blank nor opens a comment. -/
theorem split_other (noBlank : isBlank c = false)
    (noComment : c = '/' → ∀ more, cs ≠ '/' :: more ∧ cs ≠ '*' :: more) :
    split (c :: cs) = .closed [] (c :: cs) := by
  rw [split]
  · rw [noBlank, if_neg Bool.false_ne_true]
  · exact fun more slash same => (noComment slash more).1 same
  · exact fun more slash same => (noComment slash more).2 same

theorem split_line (noNewline : '\n' ∉ body) (ends : EndsLine cs) :
    split ('/' :: '/' :: (body ++ cs)) = (split cs).prepend ('/' :: '/' :: body) := by
  have inLine : ∀ d ∈ body, (d != '\n') = true := by
    intro d hd
    rw [bne_iff_ne]
    rintro rfl
    exact noNewline hd
  have stops : Text.firstLine cs = [] ∧ Text.afterLine cs = cs := by
    obtain rfl | ⟨more, rfl⟩ := ends <;> exact ⟨rfl, rfl⟩
  have first : Text.firstLine (body ++ cs) = body := by
    rw [Text.firstLine, List.takeWhile_append_of_pos inLine, ← Text.firstLine, stops.1,
      List.append_nil]
  have after : Text.afterLine (body ++ cs) = cs := by
    rw [Text.afterLine, List.dropWhile_append_of_pos inLine, ← Text.afterLine, stops.2]
  rw [split, first, after]

theorem split_block (free : ¬ ['*', '/'] <:+: body) :
    split ('/' :: '*' :: (body ++ '*' :: '/' :: cs)) =
      (split cs).prepend ('/' :: '*' :: (body ++ ['*', '/'])) := by
  have closes : closeComment (body ++ '*' :: '/' :: cs) = some (body ++ ['*', '/'], cs) :=
    closeComment_eq_some_iff.2 ⟨body, free, rfl, by simp⟩
  rw [split]
  split
  · rename_i open'
    rw [closes] at open'
    cases open'
  · rename_i found
    rw [closes] at found
    cases found
    rfl

/-- A gap is cut off as a whole. -/
theorem Stands.split_append (h : Stands text rest) :
    split (text ++ rest) = (split rest).prepend text := by
  induction h with
  | nil => rw [List.nil_append, prepend_nil]
  | blank isBlank _ ih =>
      rw [List.cons_append, split_blank isBlank, ih, prepend_prepend, List.singleton_append]
  | line noNewline ends _ ih =>
      simp only [List.cons_append, List.append_assoc]
      rw [split_line noNewline ends, ih, prepend_prepend]
      simp only [List.cons_append]
  | block free _ ih =>
      simp only [List.cons_append, List.append_assoc]
      rw [split_block free, ih, prepend_prepend]
      simp only [List.cons_append, List.append_assoc, List.nil_append]

/-- What is cut off is a gap, and what is left begins with none. -/
theorem stands_of_split (h : split cs = .closed text rest) :
    Stands text rest ∧ cs = text ++ rest ∧ split rest = .closed [] rest := by
  fun_induction split cs generalizing text with
  | case1 cs ih =>
      obtain ⟨more, found, rfl⟩ := prepend_eq_closed_iff.1 h
      obtain ⟨stands, after, last⟩ := ih found
      have whole : cs = Text.firstLine cs ++ (more ++ rest) := by
        rw [← after, Text.firstLine_append_afterLine]
      have ends : EndsLine (more ++ rest) := by
        rw [← after]
        exact Text.afterLine_eq_nil_or_cons cs
      refine ⟨.line (Text.newline_notMem_firstLine cs) ends stands, ?_, last⟩
      simp only [List.cons_append, List.append_assoc]
      rw [← whole]
  | case2 => cases h
  | case3 cs body last closes ih =>
      obtain ⟨more, found, rfl⟩ := prepend_eq_closed_iff.1 h
      obtain ⟨stands, after, last⟩ := ih found
      obtain ⟨body, free, rfl, rfl⟩ := closeComment_eq_some_iff.1 closes
      subst after
      have block := Stands.block free stands
      refine ⟨?_, by simp, last⟩
      simpa using block
  | case4 c cs _ _ blank ih =>
      obtain ⟨more, found, rfl⟩ := prepend_eq_closed_iff.1 h
      obtain ⟨stands, rfl, last⟩ := ih found
      exact ⟨.blank blank stands, rfl, last⟩
  | case5 c cs noLine noBlock notBlank =>
      cases h
      refine ⟨.nil, rfl, ?_⟩
      rw [split]
      · simp only [notBlank]
        rfl
      · exact noLine
      · exact noBlock
  | case6 =>
      cases h
      exact ⟨.nil, rfl, by rw [split]⟩

/-- **The cutting finds exactly the gaps that nothing prolongs.** -/
theorem split_eq_closed_iff :
    split cs = .closed text rest ↔
      Stands text rest ∧ cs = text ++ rest ∧ split rest = .closed [] rest := by
  constructor
  · exact stands_of_split
  · rintro ⟨stands, rfl, last⟩
    rw [stands.split_append, last, prepend, List.append_nil]

end Gap

end PlainC
