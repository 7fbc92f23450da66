/-
**Control sequences.**

A text can hold sequences that steer a terminal: they set colours, move the cursor or clear the
screen.  Such a sequence is an escape character and an opening bracket, then any run of digits,
semicolons and question marks, then one ASCII letter.  Shown anywhere but on a terminal they are
only noise, so they are taken out.  A run without its letter is no sequence and stays.

Main definitions:

* `PlainC.Text.afterControl?` — the text behind a control sequence at the front;
* `PlainC.Text.withoutControls` — a text without its control sequences.

Main results:

* `PlainC.Text.withoutControls_of_notMem` — a text without an escape character is left as it is;
* `PlainC.Text.sublist_withoutControls` — nothing is added or moved;
* `PlainC.Text.withoutControls_append_newline` — no sequence crosses a newline, so a text can be
  treated line by line.
-/

set_option relaxedAutoImplicit false
set_option autoImplicit false

namespace PlainC.Text

/-! ### One sequence -/

/-- The escape character, which opens a control sequence. -/
def escape : Char := '\x1b'

/-- The characters that may stand between the opening bracket of a control sequence and its
letter. -/
def isControlParameter (c : Char) : Bool := ('0' ≤ c && c ≤ '9') || c = ';' || c = '?'

/-- The ASCII letters, one of which ends a control sequence. -/
def isControlEnd (c : Char) : Bool := ('a' ≤ c && c ≤ 'z') || ('A' ≤ c && c ≤ 'Z')

/-- The text behind the letter of a control sequence whose opening has been read; `none` if there
is no letter behind the parameters. -/
def afterParameters? (cs : List Char) : Option (List Char) :=
  match cs.dropWhile isControlParameter with
  | c :: rest => if isControlEnd c then some rest else none
  | [] => none

/-- The text behind a control sequence at the front of a text; `none` if there is none. -/
def afterControl? : List Char → Option (List Char)
  | c :: d :: cs => if c = escape && d = '[' then afterParameters? cs else none
  | _ => none

theorem suffix_of_afterParameters? {cs rest : List Char} (h : afterParameters? cs = some rest) :
    rest <:+ cs := by
  unfold afterParameters? at h
  split at h
  · rename_i c more found
    split at h
    · cases h
      have whole : c :: rest <:+ cs := found ▸ List.dropWhile_suffix _
      exact (List.suffix_cons c rest).trans whole
    · cases h
  · cases h

/-- What is left behind a control sequence is an end of the text. -/
theorem suffix_of_afterControl? {c : Char} {cs rest : List Char}
    (h : afterControl? (c :: cs) = some rest) : rest <:+ cs := by
  cases cs with
  | nil => cases h
  | cons d cs =>
      simp only [afterControl?] at h
      split at h
      · exact (suffix_of_afterParameters? h).trans (List.suffix_cons d cs)
      · cases h

/-! ### A whole text -/

/-- A text without its control sequences.  It is read once from left to right: what the removal of
a sequence brings together is not looked at again. -/
def withoutControls (cs : List Char) : List Char :=
  match cs with
  | [] => []
  | c :: cs =>
      match _h : afterControl? (c :: cs) with
      | some rest => withoutControls rest
      | none => c :: withoutControls cs
termination_by cs.length
decreasing_by
  · have := (suffix_of_afterControl? _h).length_le
    simp only [List.length_cons]
    omega
  · simp

@[simp] theorem withoutControls_nil : withoutControls [] = [] := by simp [withoutControls]

/-- A control sequence at the front is skipped. -/
theorem withoutControls_of_control {c : Char} {cs rest : List Char}
    (h : afterControl? (c :: cs) = some rest) :
    withoutControls (c :: cs) = withoutControls rest := by
  rw [withoutControls]
  split <;> simp_all

/-- Any other character at the front is kept. -/
theorem withoutControls_of_plain {c : Char} {cs : List Char} (h : afterControl? (c :: cs) = none) :
    withoutControls (c :: cs) = c :: withoutControls cs := by
  rw [withoutControls]
  split <;> simp_all

/-- A text without an escape character is left as it is. -/
theorem withoutControls_of_notMem {cs : List Char} (h : escape ∉ cs) : withoutControls cs = cs := by
  induction cs with
  | nil => simp
  | cons c cs ih =>
      have other : c ≠ escape := fun same => h (by simp [same])
      have plain : afterControl? (c :: cs) = none := by cases cs <;> simp [afterControl?, other]
      rw [withoutControls_of_plain plain, ih fun member => h (by simp [member])]

/-- Nothing is added or moved. -/
theorem sublist_withoutControls (cs : List Char) : (withoutControls cs).Sublist cs := by
  fun_induction withoutControls cs with
  | case1 => exact .slnil
  | case2 c cs rest h ih => exact (ih.trans (suffix_of_afterControl? h).sublist).cons c
  | case3 c cs h ih => exact ih.cons_cons c

theorem afterParameters?_append_newline (cs more : List Char) :
    afterParameters? (cs ++ '\n' :: more) = (afterParameters? cs).map (· ++ '\n' :: more) := by
  induction cs with
  | nil => simp [afterParameters?, isControlParameter, isControlEnd]
  | cons c cs ih =>
      by_cases parameter : isControlParameter c = true
      · simpa [afterParameters?, parameter] using ih
      · by_cases letter : isControlEnd c = true <;> simp [afterParameters?, parameter, letter]

theorem afterControl?_append_newline (c : Char) (cs more : List Char) :
    afterControl? (c :: cs ++ '\n' :: more) =
      (afterControl? (c :: cs)).map (· ++ '\n' :: more) := by
  cases cs with
  | nil => simp [afterControl?]
  | cons d cs =>
      by_cases opening : (c = escape && d = '[') = true
      · simpa [afterControl?, opening] using afterParameters?_append_newline cs more
      · simp [afterControl?, opening]

/-- No sequence crosses a newline, so a text can be treated line by line. -/
theorem withoutControls_append_newline (cs more : List Char) :
    withoutControls (cs ++ '\n' :: more) = withoutControls cs ++ '\n' :: withoutControls more := by
  fun_induction withoutControls cs with
  | case1 =>
      have plain : afterControl? ('\n' :: more) = none := by
        cases more <;> simp [afterControl?, escape]
      exact withoutControls_of_plain plain
  | case2 c cs rest h ih =>
      have found := afterControl?_append_newline c cs more
      rw [h] at found
      rw [List.cons_append] at found ⊢
      rw [withoutControls_of_control found, ih]
  | case3 c cs h ih =>
      have found := afterControl?_append_newline c cs more
      rw [h] at found
      rw [List.cons_append] at found ⊢
      rw [withoutControls_of_plain found, ih, List.cons_append]

end PlainC.Text
