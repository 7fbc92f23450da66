/-
**Lines of a text.**

Two readings of "line" meet in this library.  The scanner knows one line break only, the newline
character: it counts lines by it and quotes the text between two of them.  Running text that is
shown to a reader breaks at every character of the class `PlainC.Text.isLineBreak`, and a carriage
return followed by a newline is one break.

Main definitions:

* `PlainC.Text.isLineBreak` — the characters that end a line of running text;
* `PlainC.Text.splitLines` — the lines of a text, without their breaks; a break at the very end
  opens no further line;
* `PlainC.Text.firstLine`, `PlainC.Text.afterLine` — a text cut before its first newline;
* `PlainC.Text.unifyNewlines` — the text with each of the three newline conventions written as a
  newline character.

Main results:

* `PlainC.Text.splitLines_append_newline` — a line without breaks, followed by a newline, is the
  first line of the whole.
-/

set_option relaxedAutoImplicit false
set_option autoImplicit false

namespace PlainC.Text

/-! ### Breaking at every line break -/

/-- The characters that end a line of running text: newline, vertical tab, form feed, carriage
return, the three information separators U+001C to U+001E, next line, and the line and paragraph
separators. -/
def isLineBreak (c : Char) : Bool :=
  [0x0A, 0x0B, 0x0C, 0x0D, 0x1C, 0x1D, 0x1E, 0x85, 0x2028, 0x2029].contains c.toNat

/-- The lines of a text without their breaks.  A carriage return and the newline after it are one
break, and a break at the end of the text opens no further line. -/
def splitLines : List Char → List (List Char)
  | [] => []
  | '\r' :: '\n' :: cs => [] :: splitLines cs
  | c :: cs =>
      if isLineBreak c then [] :: splitLines cs
      else
        match splitLines cs with
        | [] => [[c]]
        | line :: lines => (c :: line) :: lines

/-- The part of a text before its first newline character. -/
def firstLine (cs : List Char) : List Char := cs.takeWhile (· != '\n')

/-- A text from its first newline character on. -/
def afterLine (cs : List Char) : List Char := cs.dropWhile (· != '\n')

theorem firstLine_append_afterLine (cs : List Char) : firstLine cs ++ afterLine cs = cs :=
  List.takeWhile_append_dropWhile

theorem newline_notMem_firstLine (cs : List Char) : '\n' ∉ firstLine cs := by
  intro inside
  have other := List.all_eq_true.1 List.all_takeWhile _ inside
  simp at other

/-- Behind the first line stands a newline or nothing. -/
theorem afterLine_eq_nil_or_cons (cs : List Char) :
    afterLine cs = [] ∨ ∃ more, afterLine cs = '\n' :: more := by
  have first := List.head?_dropWhile_not (· != '\n') cs
  cases h : afterLine cs with
  | nil => exact .inl rfl
  | cons c more =>
      rw [afterLine] at h
      rw [h] at first
      simp at first
      exact .inr ⟨more, by rw [first]⟩

/-- A line without breaks, followed by a newline, is the first line of the whole. -/
theorem splitLines_append_newline (line cs : List Char) (h : ∀ c ∈ line, isLineBreak c = false) :
    splitLines (line ++ '\n' :: cs) = line :: splitLines cs := by
  induction line with
  | nil => simp [splitLines, isLineBreak]
  | cons c line ih =>
      have hc : isLineBreak c = false := h c (by simp)
      have hr : c ≠ '\r' := by rintro rfl; simp [isLineBreak] at hc
      have hrest := ih fun d hd => h d (by simp [hd])
      simp [splitLines, hc, hr, hrest]

/-! ### One newline convention -/

/-- The text with a carriage return, alone or before a newline, written as a newline. -/
def unifyNewlines : List Char → List Char
  | [] => []
  | '\r' :: '\n' :: cs => '\n' :: unifyNewlines cs
  | c :: cs => (if c = '\r' then '\n' else c) :: unifyNewlines cs

/-- No carriage return is left. -/
theorem carriageReturn_notMem_unifyNewlines (cs : List Char) : '\r' ∉ unifyNewlines cs := by
  fun_induction unifyNewlines cs with
  | case1 => simp
  | case2 cs ih => simp [ih]
  | case3 c cs _ ih => split <;> simp_all [eq_comm]

end PlainC.Text
