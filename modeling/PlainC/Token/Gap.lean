/-
**Gaps between tokens.**

Between two tokens stands a gap: blanks, comments from `//` to the end of the line, and comments
from `/*` to the first `*/`.  A gap is cut off the front of a text as a whole.  Only a comment that
is never closed can go wrong; it is reported where it opens.

Main definitions:

* `PlainC.isBlank` — the characters that may stand between tokens;
* `PlainC.closeComment` — cuts a text after the first `*/`;
* `PlainC.Gap`, `PlainC.Gap.split` — a gap cut off a text, and the cutting.

Main results:

* `PlainC.Gap.text_append_rest` — nothing is lost in the cutting;
* `PlainC.Gap.length_rest_le` — what is left is no longer than the text.
-/

import PlainC.Text.Lines

set_option relaxedAutoImplicit false
set_option autoImplicit false

namespace PlainC

/-! ### Blanks and comments -/

/-- The characters that may stand between tokens: space, tab, newline, carriage return, form feed
and vertical tab. -/
def isBlank (c : Char) : Bool := [0x20, 0x09, 0x0A, 0x0D, 0x0C, 0x0B].contains c.toNat

/-- Cuts a text after the first `*/`; `none` if there is none. -/
def closeComment : List Char → Option (List Char × List Char)
  | [] => none
  | '*' :: '/' :: cs => some (['*', '/'], cs)
  | c :: cs => (closeComment cs).map fun (text, rest) => (c :: text, rest)

theorem append_of_closeComment {cs text rest : List Char}
    (h : closeComment cs = some (text, rest)) : text ++ rest = cs := by
  fun_induction closeComment cs generalizing text rest with
  | case1 => cases h
  | case2 cs => simp only [Option.some.injEq, Prod.mk.injEq] at h; simp [← h.1, ← h.2]
  | case3 c cs _ ih =>
      obtain ⟨⟨t, r⟩, found, same⟩ := Option.map_eq_some_iff.1 h
      cases same
      simp [ih found]

/-! ### Gaps -/

/-- The gap at the front of a text, with the text after it; or the gap up to a comment that is
never closed, with the text from the opening of that comment. -/
inductive Gap where
  | closed (text rest : List Char)
  | unclosed (text rest : List Char)
deriving Repr, DecidableEq

namespace Gap

/-- The text of the gap. -/
def text : Gap → List Char
  | closed text _ | unclosed text _ => text

/-- The text after the gap. -/
def rest : Gap → List Char
  | closed _ rest | unclosed _ rest => rest

/-- The gap with more text in front. -/
def prepend (front : List Char) : Gap → Gap
  | closed text rest => closed (front ++ text) rest
  | unclosed text rest => unclosed (front ++ text) rest

@[simp] theorem text_prepend (front : List Char) (g : Gap) :
    (g.prepend front).text = front ++ g.text := by cases g <;> rfl

@[simp] theorem rest_prepend (front : List Char) (g : Gap) :
    (g.prepend front).rest = g.rest := by cases g <;> rfl

/-- Cuts the longest gap off the front of a text. -/
def split (cs : List Char) : Gap :=
  match cs with
  | '/' :: '/' :: cs =>
      (split (Text.afterLine cs)).prepend ('/' :: '/' :: Text.firstLine cs)
  | '/' :: '*' :: cs =>
      match _h : closeComment cs with
      | none => unclosed [] ('/' :: '*' :: cs)
      | some (text, rest) => (split rest).prepend ('/' :: '*' :: text)
  | c :: cs => if isBlank c then (split cs).prepend [c] else closed [] (c :: cs)
  | [] => closed [] []
termination_by cs.length
decreasing_by
  · have := congrArg List.length (Text.firstLine_append_afterLine cs)
    simp only [List.length_append] at this
    simp only [List.length_cons]
    omega
  · have := congrArg List.length (append_of_closeComment _h)
    simp only [List.length_append] at this
    simp only [List.length_cons]
    omega
  · simp

/-- Nothing is lost in the cutting. -/
theorem text_append_rest (cs : List Char) : (split cs).text ++ (split cs).rest = cs := by
  fun_induction split cs with
  | case1 cs ih => simp [ih, Text.firstLine_append_afterLine]
  | case2 cs h => simp [text, rest]
  | case3 cs t r h ih => simp [ih, append_of_closeComment h]
  | case4 c cs _ _ _ ih => simp [ih]
  | case5 c cs => simp [text, rest]
  | case6 => simp [text, rest]

/-- What is left is no longer than the text. -/
theorem length_rest_le (cs : List Char) : (split cs).rest.length ≤ cs.length := by
  have := congrArg List.length (text_append_rest cs)
  simp only [List.length_append] at this
  omega

end Gap

end PlainC
