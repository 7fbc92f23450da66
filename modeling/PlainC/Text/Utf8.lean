/-
**Strict reading of UTF-8.**

Bytes are read as UTF-8 without any tolerance: no overlong form, no surrogate, nothing above
U+10FFFF.  A refusal names the place and the reason, and covers the longest part of a sequence that
could still have become a character: one byte at a start that begins none, and otherwise the first
byte with those continuation bytes that fit it.

Main definitions:

* `PlainC.Text.Utf8.Reason`, `PlainC.Text.Utf8.Defect` — why and where bytes are no text;
* `PlainC.Text.Utf8.lead?` — what a first byte announces;
* `PlainC.Text.Utf8.decode` — the characters of the bytes, or the first defect.

Main results:

* `PlainC.Text.Utf8.decode_ascii` — bytes below 0x80 are their own code points.
-/

set_option relaxedAutoImplicit false
set_option autoImplicit false

namespace PlainC.Text.Utf8

/-! ### Defects -/

/-- Why some bytes are no UTF-8. -/
inductive Reason where
  /-- A byte that begins no character. -/
  | invalidStart
  /-- A byte inside a sequence that does not continue it. -/
  | invalidContinuation
  /-- A sequence that the end of the bytes cuts short. -/
  | cutShort
deriving Repr, DecidableEq

/-- The wording of a reason. -/
def Reason.text : Reason → String
  | .invalidStart => "invalid start byte"
  | .invalidContinuation => "invalid continuation byte"
  | .cutShort => "unexpected end of data"

/-- The first place where bytes are no UTF-8: the byte at `start`, with the `length` bytes that
are covered by the refusal. -/
structure Defect where
  reason : Reason
  start : Nat
  length : Nat
  byte : UInt8
deriving Repr, DecidableEq

/-! ### Sequences -/

/-- What the first byte of a character announces: how many bytes follow, the range of the next
one, and the bits of the code point that the first byte carries. -/
structure Lead where
  following : Nat
  low : UInt8
  high : UInt8
  bits : Nat
deriving Repr, DecidableEq

/-- The announcement of a first byte; `none` for a byte that begins no character.  The range of
the second byte excludes overlong forms, surrogates and code points above U+10FFFF. -/
def lead? (b : UInt8) : Option Lead :=
  if b < 0x80 then some ⟨0, 0x80, 0xBF, b.toNat⟩
  else if b < 0xC2 then none
  else if b < 0xE0 then some ⟨1, 0x80, 0xBF, b.toNat - 0xC0⟩
  else if b = 0xE0 then some ⟨2, 0xA0, 0xBF, 0⟩
  else if b = 0xED then some ⟨2, 0x80, 0x9F, 0xD⟩
  else if b < 0xF0 then some ⟨2, 0x80, 0xBF, b.toNat - 0xE0⟩
  else if b = 0xF0 then some ⟨3, 0x90, 0xBF, 0⟩
  else if b < 0xF4 then some ⟨3, 0x80, 0xBF, b.toNat - 0xF0⟩
  else if b = 0xF4 then some ⟨3, 0x80, 0x8F, 4⟩
  else none

/-- The outcome of reading the bytes after a first one; `seen` counts those that fit. -/
inductive Trail where
  | complete (code : Nat) (rest : List UInt8)
  | broken (reason : Reason) (seen : Nat)
deriving Repr, DecidableEq

/-- Reads `following` continuation bytes, the first of them between `low` and `high`. -/
def trail (low high : UInt8) (code seen : Nat) : Nat → List UInt8 → Trail
  | 0, rest => .complete code rest
  | _ + 1, [] => .broken .cutShort seen
  | n + 1, b :: rest =>
      if low ≤ b ∧ b ≤ high then
        trail 0x80 0xBF (code * 0x40 + (b.toNat - 0x80)) (seen + 1) n rest
      else .broken .invalidContinuation seen

theorem length_le_of_trail {low high : UInt8} {code seen n : Nat} {bytes rest : List UInt8}
    {out : Nat} (h : trail low high code seen n bytes = .complete out rest) :
    rest.length ≤ bytes.length := by
  induction n generalizing low high code seen bytes with
  | zero => simp [trail] at h; simp [h.2]
  | succ n ih =>
      cases bytes with
      | nil => simp [trail] at h
      | cons b bytes =>
          simp only [trail] at h
          split at h
          · exact Nat.le_succ_of_le (ih h)
          · cases h

/-! ### Decoding -/

/-- The characters of `bytes`, the first of which is at offset `start`, or the first defect. -/
def decodeFrom (start : Nat) (bytes : List UInt8) : Except Defect (List Char) :=
  match bytes with
  | [] => .ok []
  | b :: bytes =>
      match lead? b with
      | none => .error ⟨.invalidStart, start, 1, b⟩
      | some l =>
          match h : trail l.low l.high l.bits 0 l.following bytes with
          | .broken reason seen => .error ⟨reason, start, seen + 1, b⟩
          | .complete code rest =>
              (decodeFrom (start + l.following + 1) rest).map (Char.ofNat code :: ·)
termination_by bytes.length
decreasing_by
  have := length_le_of_trail h
  simp
  omega

/-- The characters of `bytes`, or the first defect. -/
def decode (bytes : List UInt8) : Except Defect (List Char) := decodeFrom 0 bytes

/-- Bytes below 0x80 are their own code points. -/
theorem decode_ascii (bytes : List UInt8) (h : ∀ b ∈ bytes, b < 0x80) :
    decode bytes = .ok (bytes.map fun b => Char.ofNat b.toNat) := by
  have general : ∀ start, decodeFrom start bytes = .ok (bytes.map fun b => Char.ofNat b.toNat) := by
    induction bytes with
    | nil => intro start; simp [decodeFrom]
    | cons b bytes ih =>
        intro start
        have hb : lead? b = some ⟨0, 0x80, 0xBF, b.toNat⟩ := by simp [lead?, h b (by simp)]
        rw [decodeFrom]
        simp [hb, trail, ih (fun c hc => h c (by simp [hc])), Except.map]
  exact general 0

end PlainC.Text.Utf8
