/-
**Lexemes that stand side by side.**

Where no separator stands between two lexemes, what stands behind a lexeme decides whether it ends
there.  Texts that are scanned to some lexemes in front of one another can be joined.  Some
punctuators end wherever they stand, since no longer one begins with them; an operator in front of
its operand ends in front of the first character of a word, a number, a literal or a parenthesis.

Main definitions:

* `PlainC.ScansTo` — a text that is scanned to some lexemes in front of another text;
* `PlainC.Punctuator.standsAlone` — the punctuators that no longer one begins with;
* `PlainC.beginsOperand` — the characters that an operand can begin with.

Main results:

* `PlainC.ScansTo.append` — **texts that are scanned in front of one another are scanned together**;
* `PlainC.ScansTo.alone`, `PlainC.ScansTo.prefixed` — punctuators without a blank behind them.
-/

import PlainC.Operator
import PlainC.Proofs.Scanning.Joining

set_option relaxedAutoImplicit false
set_option autoImplicit false

namespace PlainC

variable {text text' rest : List Char} {ls ls' : List Lexeme} {c : Char}

/-! ### Texts that are scanned to lexemes -/

theorem StopsAt.cons {p : Char → Bool} (h : p c = false) (cs : List Char) :
    StopsAt p (c :: cs) := by
  intro d first
  cases first
  exact h

/-- In front of `rest` the text is scanned to some lexemes, from whatever place on; the scanning
goes on with `rest`. -/
def ScansTo (text rest : List Char) (ls : List Lexeme) : Prop :=
  ∀ file place, ∃ tokens : List Token, tokens.map Token.lexeme = ls ∧
    scanFrom file place (text ++ rest) =
      (scanFrom file (place.after text) rest).behind tokens

theorem Scan.behind_behind (tokens tokens' : List Token) (s : Scan) :
    (s.behind tokens').behind tokens = s.behind (tokens ++ tokens') := by
  cases s <;> simp [behind]

namespace ScansTo

/-- Texts that are scanned in front of one another are scanned together. -/
theorem append (first : ScansTo text (text' ++ rest) ls) (second : ScansTo text' rest ls') :
    ScansTo (text ++ text') rest (ls ++ ls') := by
  intro file place
  obtain ⟨tokens, same, scanned⟩ := first file place
  obtain ⟨tokens', same', scanned'⟩ := second file (place.after text)
  refine ⟨tokens ++ tokens', by rw [List.map_append, same, same'], ?_⟩
  rw [List.append_assoc, scanned, scanned', Scan.behind_behind, Place.after_append]

/-- Strings that are scanned in front of one another are scanned together. -/
theorem append_toList {front back : String} (first : ScansTo front.toList (back.toList ++ rest) ls)
    (second : ScansTo back.toList rest ls') : ScansTo (front ++ back).toList rest (ls ++ ls') := by
  rw [String.toList_append]
  exact first.append second

theorem nil : ScansTo [] rest [] := fun _ _ => ⟨[], rfl, (Scan.behind_nil _).symm⟩

/-- A gap holds no lexeme. -/
theorem gap (stands : Gap.Stands text rest) : ScansTo text rest [] := fun file place =>
  ⟨[], rfl, by rw [scanFrom_gap file place stands, Scan.behind_nil]⟩

/-- A blank holds no lexeme. -/
theorem space : ScansTo [' '] rest [] := gap (.blank rfl .nil)

/-- A lexeme that is read is scanned. -/
theorem of_readsAs {lexeme : Lexeme} (reads : ReadsAs text rest lexeme) :
    ScansTo text rest [lexeme] := fun file place =>
  ⟨[⟨lexeme, place.line, place.column⟩], rfl, by
    rw [Scan.behind_cons, Scan.behind_nil]
    exact scanFrom_of_readsAs file place .nil reads⟩

/-- A whole text is scanned up to its end. -/
theorem complete (h : ScansTo text [] ls) (file : String) (place : Place) :
    ∃ tokens ending, scanFrom file place text = .complete tokens ending ∧
      tokens.map Token.lexeme = ls ∧ ending.lexeme = .ending := by
  obtain ⟨tokens, same, scanned⟩ := h file place
  rw [List.append_nil, scanFrom_of_stands file _ .nil] at scanned
  exact ⟨tokens, _, by simpa [Scan.behind] using scanned, same, rfl⟩

/-! ### Words and literals -/

theorem keyword (k : Keyword) (stops : StopsAt isWordChar rest) :
    ScansTo k.spelling.toList rest [.keyword k] := by
  have word := readsAs_word (isWord_spelling k) stops
  rw [wordLexeme_spelling] at word
  exact of_readsAs word

theorem identifier {name : String} (isIdentifier : IsIdentifier name.toList)
    (stops : StopsAt isWordChar rest) : ScansTo name.toList rest [.identifier name] := by
  have word := readsAs_word isIdentifier.word stops
  rw [wordLexeme_of_isIdentifier isIdentifier, String.ofList_toList] at word
  exact of_readsAs word

end ScansTo

/-! ### Punctuators -/

/-- Whether no longer punctuator begins with this one, nor a comment or a number. -/
def Punctuator.standsAlone (m : Punctuator) : Bool :=
  m ≠ .slash && m ≠ .dot &&
    all.all fun q => !m.chars.isPrefixOf q.chars || q.chars.length ≤ m.chars.length

/-- A punctuator that no longer one begins with is found wherever it stands. -/
theorem Punctuator.longest?_of_standsAlone {m : Punctuator} (alone : m.standsAlone)
    (rest : List Char) : longest? (m.chars ++ rest) = some m := by
  refine longest?_eq_some_iff.2 ⟨List.prefix_append .., fun q front => ?_⟩
  rw [standsAlone, Bool.and_eq_true] at alone
  have each := List.all_eq_true.1 alone.2 q (mem_all q)
  rw [Bool.or_eq_true, decide_eq_true_eq, Bool.not_eq_true'] at each
  refine each.elim (fun noPrefix => Nat.le_of_not_lt fun longer => ?_) id
  have held : m.chars <+: q.chars :=
    List.prefix_of_prefix_length_le (List.prefix_append ..) front (by omega)
  rw [List.isPrefixOf_iff_prefix.2 held] at noPrefix
  cases noPrefix

/-- Behind a punctuator a character that no punctuator holds prolongs nothing. -/
theorem Punctuator.longest?_of_notMem {m : Punctuator}
    (other : ∀ c ∈ rest.head?, ∀ q : Punctuator, c ∉ q.chars.tail) :
    longest? (m.chars ++ rest) = some m := by
  refine longest?_eq_some_iff.2 ⟨List.prefix_append .., fun q front => ?_⟩
  refine Nat.le_of_not_lt fun longer => ?_
  cases rest with
  | nil =>
      rw [List.append_nil] at front
      exact Nat.not_lt.2 front.length_le longer
  | cons c rest =>
      -- a longer punctuator would hold the character behind its first one
      have upTo : m.chars ++ [c] <+: m.chars ++ c :: rest := ⟨rest, by simp⟩
      have held : m.chars ++ [c] <+: q.chars := by
        refine List.prefix_of_prefix_length_le upTo front ?_
        rw [List.length_append, List.length_singleton]
        omega
      obtain ⟨d, ds, spelled⟩ := List.exists_cons_of_ne_nil m.chars_ne_nil
      obtain ⟨more, same⟩ := held
      refine other c rfl q ?_
      rw [← same, spelled]
      simp

/-- The characters that an operand can begin with: those of words and numbers, quotation marks and
the opening parenthesis. -/
def beginsOperand (c : Char) : Bool := isWordChar c || c = '\x22' || c = '\x27' || c = '('

/-- No punctuator holds such a character behind its first one. -/
theorem Punctuator.notMem_tail_of_beginsOperand (h : beginsOperand c) (q : Punctuator) :
    c ∉ q.chars.tail := by
  intro inside
  obtain ⟨-, noWord, noString, noCharacter⟩ := mem_chars (List.mem_of_mem_tail inside)
  have each : ∀ q ∈ all, '(' ∉ q.chars.tail := by decide
  simp only [beginsOperand, noWord, noString, noCharacter, Bool.or_eq_true, decide_eq_true_eq,
    Bool.false_eq_true, false_or] at h
  exact each q (mem_all q) (h ▸ inside)

namespace ScansTo

/-- A punctuator that stands alone is scanned whatever stands behind it. -/
theorem alone (m : Punctuator) (alone : m.standsAlone) :
    ScansTo m.chars rest [.punctuator m] := by
  have longest := Punctuator.longest?_of_standsAlone alone rest
  simp only [Punctuator.standsAlone, Bool.and_eq_true, decide_eq_true_eq] at alone
  exact of_readsAs (readsAs_punctuator longest (fun slash => absurd slash alone.1.1)
    fun dot => absurd dot alone.1.2)

/-- Any punctuator is scanned in front of a blank. -/
theorem spaced (m : Punctuator) (blank : BeginsBlank rest) :
    ScansTo m.chars rest [.punctuator m] := by
  have convertible : Item.IsConvertible (.punctuator m) := trivial
  exact of_readsAs (readsAs_item convertible blank)

/-- An operator in front of its operand is scanned. -/
theorem prefixed (op : UnaryOp) (operand : ∀ c ∈ rest.head?, beginsOperand c) :
    ScansTo op.mark.chars rest [.punctuator op.mark] := by
  refine of_readsAs (readsAs_punctuator ?_ ?_ ?_)
  · exact Punctuator.longest?_of_notMem fun c first =>
      Punctuator.notMem_tail_of_beginsOperand (operand c first)
  · intro slash
    cases op <;> cases slash
  · intro dot
    cases op <;> cases dot

/-- The point in front of a name is scanned. -/
theorem dot (name : ∀ c ∈ rest.head?, isWordStart c) : ScansTo ['.'] rest [.punctuator .dot] := by
  refine of_readsAs (readsAs_punctuator (m := .dot) ?_ nofun fun _ c first => ?_)
  · refine Punctuator.longest?_of_notMem fun c first => Punctuator.notMem_tail_of_beginsOperand ?_
    rw [beginsOperand, isWordChar_of_isWordStart (name c first)]
    rfl
  · cases digit : isDigit c with
    | false => rfl
    | true =>
        have start := name c first
        rw [isWordStart_of_isDigit digit] at start
        cases start

end ScansTo

end PlainC
