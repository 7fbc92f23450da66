/-
**What a quoted literal is.**

The text between two quotation marks spells another text, character by character: most characters
stand for themselves, and an escape stands for one character.  An escape by digits goes as far as
it can, so its spelling depends on the character behind it.

Main definitions:

* `PlainC.UpToTwo` — a run of at most two characters of a class that could not be longer;
* `PlainC.EscapeSpelling` — the spellings of an escape behind its backslash;
* `PlainC.QuotedSpelling` — the spellings of a text up to the closing mark;
* `PlainC.escaped` — one character as it is written between quotation marks.

Main results:

* `PlainC.readEscape_eq_decoded_iff`, `PlainC.readQuotation_eq_closed_iff` — **an escape and a
  quotation are read exactly as they are spelled**;
* `PlainC.quotedSpelling_escaped` — every text has a spelling.
-/

import PlainC.Proofs.Scanning.Number
import PlainC.Token.Quotation

set_option relaxedAutoImplicit false
set_option autoImplicit false

namespace PlainC

variable {cs text rest digits value : List Char} {c d mark : Char} {p : Char → Bool}

/-! ### Escapes -/

/-- A run of at most two characters of a class, in front of a text that does not prolong it. -/
structure UpToTwo (p : Char → Bool) (run following : List Char) : Prop where
  all : ∀ c ∈ run, p c
  short : run.length ≤ 2
  full : run.length = 2 ∨ StopsAt p following

theorem upToTwo_twoDigits (p : Char → Bool) (cs : List Char) :
    UpToTwo p (twoDigits p cs) (cs.drop (twoDigits p cs).length) := by
  refine ⟨fun c hc => mem_takeWhile hc, ?_, ?_⟩
  · have run := (List.takeWhile_prefix p (l := cs.take 2)).length_le
    have taken := List.length_take_le 2 cs
    exact Nat.le_trans run taken
  · rcases cs with _ | ⟨c, _ | ⟨d, cs⟩⟩
    · exact .inr fun _ none => by cases none
    · by_cases hc : p c = true
      · exact .inr (by simp [twoDigits, hc, StopsAt])
      · exact .inr (by simp [twoDigits, hc, StopsAt])
    · by_cases hc : p c = true
      · by_cases hd : p d = true
        · exact .inl (by simp [twoDigits, hc, hd])
        · exact .inr (by simp [twoDigits, hc, hd, StopsAt])
      · exact .inr (by simp [twoDigits, hc, StopsAt])

/-- Such a run is found. -/
theorem UpToTwo.twoDigits_append (h : UpToTwo p digits rest) :
    twoDigits p (digits ++ rest) = digits := by
  obtain ⟨all, short, full⟩ := h
  have stops : StopsAt p (rest.take (2 - digits.length)) := by
    intro c hc
    rw [List.head?_take] at hc
    split at hc
    · cases hc
    · rename_i notFull
      exact full.resolve_left (by omega) c hc
  rw [twoDigits, List.take_append, List.take_of_length_le short, stops.takeWhile_append all]

/-- The spellings of an escape behind its backslash, in front of the text `following`. -/
inductive EscapeSpelling : List Char → List Char → Char → Prop
  | simple {c d : Char} {following : List Char} : simpleEscape? c = some d →
      EscapeSpelling [c] following d
  | hexadecimal {digits following : List Char} : digits ≠ [] → UpToTwo isHexDigit digits following →
      EscapeSpelling ('x' :: digits) following (Char.ofNat (numeral 16 digits))
  | octal {d : Char} {digits following : List Char} : isOctalDigit d →
      UpToTwo isOctalDigit digits following →
      EscapeSpelling (d :: digits) following (Char.ofNat (numeral 8 (d :: digits) % 256))
  | other {c : Char} {following : List Char} : simpleEscape? c = none → c ≠ 'x' →
      isOctalDigit c = false → EscapeSpelling [c] following c

theorem simpleEscape?_of_isOctalDigit (h : isOctalDigit c) : simpleEscape? c = none := by
  have noDigits : ['n', 't', 'r', 'a', 'b', 'f', 'v', '\x5c', '\x27', '\x22', '?'].all
      (fun e => !isOctalDigit e) = true := by decide
  have other : ∀ e ∈ ['n', 't', 'r', 'a', 'b', 'f', 'v', '\x5c', '\x27', '\x22', '?'], c ≠ e := by
    rintro e he rfl
    have noDigit := List.all_eq_true.1 noDigits c he
    rw [h] at noDigit
    cases noDigit
  simp only [List.forall_mem_cons, List.not_mem_nil, false_imp_iff, implies_true, and_true] at other
  simp [simpleEscape?, other]

/-- An escape is read exactly as it is spelled. -/
theorem readEscape_eq_decoded_iff :
    readEscape cs = .decoded d text rest ↔ EscapeSpelling text rest d ∧ cs = text ++ rest := by
  constructor
  · intro h
    have lossless := text_append_rest_readEscape cs
    rw [h] at lossless
    refine ⟨?_, lossless.symm⟩
    revert h
    fun_cases readEscape cs with
    | case1 => intro h; cases h
    | case2 c cs decoded simple =>
        intro h
        cases h
        exact .simple simple
    | case3 => intro h; cases h
    | case4 cs digits some' none =>
        intro h
        cases h
        exact .hexadecimal some' (upToTwo_twoDigits _ _)
    | case5 c cs none notX first digits =>
        intro h
        cases h
        exact .octal first (upToTwo_twoDigits _ _)
    | case6 c cs none notX noDigit =>
        intro h
        cases h
        exact .other none notX (by simpa using noDigit)
  · rintro ⟨spelled, rfl⟩
    cases spelled with
    | simple simple => simp only [List.singleton_append, readEscape, simple]
    | hexadecimal some' run =>
        have none : simpleEscape? 'x' = none := rfl
        simp only [List.cons_append, readEscape, none, if_true, run.twoDigits_append, some',
          if_false, List.drop_left]
    | @octal e digits _ first run =>
        have notX : e ≠ 'x' := by rintro rfl; cases first
        simp only [List.cons_append, readEscape, simpleEscape?_of_isOctalDigit first, notX, first,
          run.twoDigits_append, if_true, if_false, List.drop_left]
    | other none notX noDigit =>
        simp only [List.singleton_append, readEscape, none, notX, noDigit, if_false,
          Bool.false_eq_true]

/-! ### Quotations -/

/-- The spellings of a text behind an opening mark, up to and with the closing one. -/
inductive QuotedSpelling (mark : Char) : List Char → List Char → Prop
  | close : QuotedSpelling mark [mark] []
  | plain {c : Char} {text value : List Char} : c ≠ mark → c ≠ '\n' → c ≠ '\x5c' →
      QuotedSpelling mark text value → QuotedSpelling mark (c :: text) (c :: value)
  | escape {d : Char} {spelling text value : List Char} : EscapeSpelling spelling text d →
      QuotedSpelling mark text value →
      QuotedSpelling mark ('\x5c' :: (spelling ++ text)) (d :: value)

theorem QuotedSpelling.ne_nil (h : QuotedSpelling mark text value) : text ≠ [] := by
  cases h <;> exact List.cons_ne_nil _ _

theorem stopsAt_append_iff (some' : text ≠ []) : StopsAt p (text ++ rest) ↔ StopsAt p text := by
  obtain ⟨c, cs, rfl⟩ := List.exists_cons_of_ne_nil some'
  exact Iff.rfl

/-- Of the text behind an escape it only matters which runs stop there. -/
theorem EscapeSpelling.of_stopsAt {spelling following following' : List Char}
    (stops : ∀ q, StopsAt q following → StopsAt q following')
    (h : EscapeSpelling spelling following d) : EscapeSpelling spelling following' d := by
  have run {q : Char → Bool} {digits : List Char} (upToTwo : UpToTwo q digits following) :
      UpToTwo q digits following' :=
    ⟨upToTwo.all, upToTwo.short, upToTwo.full.imp_right (stops q)⟩
  cases h with
  | simple simple => exact .simple simple
  | hexadecimal some' upToTwo => exact .hexadecimal some' (run upToTwo)
  | octal first upToTwo => exact .octal first (run upToTwo)
  | other none notX noDigit => exact .other none notX noDigit

theorem Quotation.prepend_eq_closed_iff {front : List Char} {q : Quotation} :
    q.prepend c front = .closed value text rest ↔
      ∃ value' text', q = .closed value' text' rest ∧ value = c :: value' ∧
        text = front ++ text' := by
  cases q with
  | closed found spelling last =>
      simp only [prepend, closed.injEq]
      constructor
      · rintro ⟨rfl, rfl, rfl⟩
        exact ⟨found, spelling, ⟨rfl, rfl, rfl⟩, rfl, rfl⟩
      · rintro ⟨_, _, ⟨rfl, rfl, rfl⟩, rfl, rfl⟩
        exact ⟨rfl, rfl, rfl⟩
  | unclosed => simp [prepend]
  | faulty => simp [prepend]

/-- What is read off between two marks is the spelling of its value. -/
theorem quotedSpelling_of_readQuotation (h : readQuotation mark cs = .closed value text rest) :
    QuotedSpelling mark text value := by
  fun_induction readQuotation mark cs generalizing value text with
  | case1 => cases h
  | case2 => cases h; exact .close
  | case3 => cases h
  | case4 cs d spelling after decoded _ _ ih =>
      obtain ⟨value, text, closed, rfl, rfl⟩ := Quotation.prepend_eq_closed_iff.1 h
      have quoted := ih closed
      have lossless := text_append_rest_readQuotation mark after
      rw [closed] at lossless
      have escape := (readEscape_eq_decoded_iff.1 decoded).1
      rw [← lossless] at escape
      exact .escape (escape.of_stopsAt fun _ => (stopsAt_append_iff quoted.ne_nil).1) quoted
  | case5 => cases h
  | case6 c cs notMark notNewline notEscape ih =>
      obtain ⟨value, text, closed, rfl, rfl⟩ := Quotation.prepend_eq_closed_iff.1 h
      exact .plain notMark notNewline notEscape (ih closed)

/-- The spelling of a text is read up to the closing mark. -/
theorem QuotedSpelling.readQuotation_append (noEscape : mark ≠ '\x5c')
    (h : QuotedSpelling mark text value) :
    readQuotation mark (text ++ rest) = .closed value text rest := by
  induction h with
  | close => simp [readQuotation]
  | plain notMark notNewline notEscape _ ih =>
      rw [List.cons_append, readQuotation, if_neg notMark, if_neg notNewline, if_neg notEscape, ih]
      rfl
  | @escape d spelling text value escape quoted ih =>
      have decoded : readEscape (spelling ++ (text ++ rest)) = .decoded d spelling (text ++ rest) :=
        readEscape_eq_decoded_iff.2
          ⟨escape.of_stopsAt fun _ => (stopsAt_append_iff quoted.ne_nil).2, rfl⟩
      rw [List.cons_append, List.append_assoc, readQuotation, if_neg (Ne.symm noEscape),
        if_neg (by decide), if_pos rfl]
      split
      · rename_i found
        rw [decoded] at found
        cases found
        rw [ih]
        rfl
      · rename_i found
        rw [decoded] at found
        cases found

/-- A quotation is read exactly as it is spelled. -/
theorem readQuotation_eq_closed_iff (noEscape : mark ≠ '\x5c') :
    readQuotation mark cs = .closed value text rest ↔
      QuotedSpelling mark text value ∧ cs = text ++ rest := by
  constructor
  · intro h
    have lossless := text_append_rest_readQuotation mark cs
    rw [h] at lossless
    exact ⟨quotedSpelling_of_readQuotation h, lossless.symm⟩
  · rintro ⟨quoted, rfl⟩
    exact quoted.readQuotation_append noEscape

/-! ### One spelling of every text -/

/-- A character as it is written between quotation marks: the mark itself, the backslash and the
newline behind a backslash, and any other as it is. -/
def escaped (mark c : Char) : List Char :=
  if c = mark then ['\x5c', c]
  else if c = '\x5c' then ['\x5c', c]
  else if c = '\n' then ['\x5c', 'n']
  else [c]

/-- Every text has a spelling. -/
theorem quotedSpelling_escaped (quote : mark = '\x22' ∨ mark = '\x27') (value : List Char) :
    QuotedSpelling mark (value.flatMap (escaped mark) ++ [mark]) value := by
  induction value with
  | nil => exact .close
  | cons c value ih =>
      rw [List.flatMap_cons, List.append_assoc, escaped]
      split
      · rename_i isMark
        subst isMark
        have simple : simpleEscape? c = some c := by rcases quote with rfl | rfl <;> rfl
        exact .escape (.simple simple) ih
      · rename_i notMark
        split
        · rename_i isBackslash
          subst isBackslash
          exact .escape (.simple rfl) ih
        · rename_i notBackslash
          split
          · rename_i isNewline
            subst isNewline
            exact .escape (.simple rfl) ih
          · rename_i notNewline
            exact .plain notMark notNewline notBackslash ih

end PlainC
