/-
**Scanning.**

A source is cut into gaps and lexemes, from left to right, until its end or the first fault, or up
to an integer that is too long to be converted.  The place of a token is that of its first
character: lines are counted by newline characters from a given number, and a column counts the
characters since the last newline.

Main definitions:

* `PlainC.readLexeme` — reads one lexeme off the front of a text;
* `PlainC.Place` — a place in the source: the line, and the characters of it that stand before;
* `PlainC.Scan` — the tokens of a source up to its end, to a fault or to an integer too long;
* `PlainC.scan` — the scanning of a source.

Main results:

* `PlainC.text_append_rest_readLexeme` — nothing is lost in the reading of a lexeme;
* `PlainC.text_readLexeme_ne_nil` — a lexeme has at least one character, so the scanning ends;
* `PlainC.Place.after_append` — places add up along a text.
-/

import PlainC.Token.Gap
import PlainC.Token.Quotation

set_option relaxedAutoImplicit false
set_option autoImplicit false

namespace PlainC

/-! ### Words -/

/-- The characters that begin a word: the ASCII letters and the underscore. -/
def isWordStart (c : Char) : Bool := ('a' ≤ c && c ≤ 'z') || ('A' ≤ c && c ≤ 'Z') || c = '_'

/-- The characters that continue a word. -/
def isWordChar (c : Char) : Bool := isWordStart c || isDigit c

/-- What a word is: a reserved word, or else an identifier. -/
def wordLexeme (word : List Char) : Lexeme :=
  match Keyword.ofSpelling? (String.ofList word) with
  | some keyword => .keyword keyword
  | none => .identifier (String.ofList word)

/-- Reads a word. -/
def readWord (cs : List Char) : Reading :=
  .read (wordLexeme (cs.takeWhile isWordChar)) (cs.takeWhile isWordChar) (cs.dropWhile isWordChar)

/-! ### Lexemes -/

/-- Reads the longest punctuator at the front of the text `c :: cs`. -/
def readPunctuator (c : Char) (cs : List Char) : Reading :=
  match Punctuator.longest? (c :: cs) with
  | some p => .read (.punctuator p) p.chars ((c :: cs).drop p.chars.length)
  | none => .refused ⟨.invalidCharacter c, true, true⟩ [] (c :: cs)

/-- Reads one lexeme off the front of the text `c :: cs`; the first character decides which. -/
def readLexeme (c : Char) (cs : List Char) : Reading :=
  if isWordStart c then readWord (c :: cs)
  else if isDigit c || (c = '.' && cs.head?.any isDigit) then readNumber (c :: cs)
  else if c = '\x22' then readString c cs
  else if c = '\x27' then readCharacter c cs
  else readPunctuator c cs

theorem chars_append_drop_of_longest? {cs : List Char} {p : Punctuator}
    (h : Punctuator.longest? cs = some p) : p.chars ++ cs.drop p.chars.length = cs := by
  have isPrefix : p.chars <+: cs := by simpa using List.find?_some h
  obtain ⟨rest, rfl⟩ := isPrefix
  simp

/-- Nothing is lost in the reading of a lexeme. -/
theorem text_append_rest_readLexeme (c : Char) (cs : List Char) :
    (readLexeme c cs).text ++ (readLexeme c cs).rest = c :: cs := by
  unfold readLexeme
  split
  · exact List.takeWhile_append_dropWhile
  · split
    · exact text_append_rest_readNumber _
    · split
      · exact text_append_rest_readString c cs
      · split
        · exact text_append_rest_readCharacter c cs
        · unfold readPunctuator
          split
          · rename_i found
            exact chars_append_drop_of_longest? found
          · rfl

/-- What is read and what is left make up the text. -/
theorem append_of_readLexeme {c : Char} {cs : List Char} {found : Reading}
    (h : readLexeme c cs = found) : found.text ++ found.rest = c :: cs :=
  h ▸ text_append_rest_readLexeme c cs

/-- A lexeme has at least one character. -/
theorem text_readLexeme_ne_nil {c : Char} {cs text rest : List Char} {lexeme : Lexeme}
    (h : readLexeme c cs = .read lexeme text rest) : text ≠ [] := by
  have consumed : (readLexeme c cs).text = text := by rw [h]; rfl
  rw [← consumed]
  unfold readLexeme at h ⊢
  split
  · rename_i start
    simp [start, readWord, Reading.text, isWordChar]
  · split
    · rename_i number
      refine text_readNumber_ne_nil cs ?_
      simp only [Bool.or_eq_true, Bool.and_eq_true, decide_eq_true_eq] at number
      exact number.imp_right And.left
    · split
      · exact text_readString_ne_nil c cs
      · split
        · exact text_readCharacter_ne_nil c cs
        · simp_all only [if_false]
          unfold readPunctuator at h ⊢
          split
          · exact Punctuator.chars_ne_nil _
          · simp_all

/-- What is left after a lexeme is shorter than the text. -/
theorem length_rest_lt_of_readLexeme {c : Char} {cs text rest : List Char} {lexeme : Lexeme}
    (h : readLexeme c cs = .read lexeme text rest) : rest.length < (c :: cs).length := by
  have lossless := congrArg List.length (text_append_rest_readLexeme c cs)
  have nonempty := List.length_pos_iff.2 (text_readLexeme_ne_nil h)
  simp only [h, Reading.text, Reading.rest, List.length_append] at lossless
  omega

/-! ### Places -/

/-- A place in a source: the number of the line, and the characters of that line that stand before
the place, the last one first. -/
structure Place where
  line : Int
  before : List Char
deriving Repr, DecidableEq

namespace Place

/-- The column of a place, counted from one. -/
def column (p : Place) : Int := p.before.length + 1

/-- The place behind one more character. -/
def next (p : Place) (c : Char) : Place :=
  if c = '\n' then ⟨p.line + 1, []⟩ else ⟨p.line, c :: p.before⟩

/-- The place behind a text. -/
def after (p : Place) (text : List Char) : Place := text.foldl next p

/-- The line of a place, given the text that follows it. -/
def lineText (p : Place) (rest : List Char) : String :=
  String.ofList (p.before.reverse ++ Text.firstLine rest)

/-- A place as the location in a file. -/
def location (p : Place) (file : String) : Location := ⟨file, p.line, p.column⟩

@[simp] theorem after_nil (p : Place) : p.after [] = p := rfl

/-- Places add up along a text. -/
theorem after_append (p : Place) (text text' : List Char) :
    p.after (text ++ text') = (p.after text).after text' := by simp [after]

/-- Within a line only the column changes. -/
theorem after_of_notMem (p : Place) {text : List Char} (h : '\n' ∉ text) :
    p.after text = ⟨p.line, text.reverse ++ p.before⟩ := by
  induction text generalizing p with
  | nil => rfl
  | cons c text ih =>
      have hc : c ≠ '\n' := fun same => h (by simp [same])
      have step : (p.next c) = ⟨p.line, c :: p.before⟩ := by simp [next, hc]
      have rest := ih (p.next c) fun member => h (by simp [member])
      simpa [after, step] using rest

/-- A newline leads to the start of the next line. -/
theorem after_newline (p : Place) : p.after ['\n'] = ⟨p.line + 1, []⟩ := rfl

end Place

/-! ### Scans -/

/-- The tokens of a source, the end marker apart: all of them with the end marker, those before a
fault with the diagnostic, or those before an integer that has more digits than are converted. -/
inductive Scan where
  | complete (tokens : List Token) (ending : Token)
  | broken (tokens : List Token) (diagnostic : Diagnostic)
  | overlong (tokens : List Token) (digits : Nat)
deriving Repr, DecidableEq

namespace Scan

/-- The scan with one more token in front. -/
def push (t : Token) : Scan → Scan
  | complete tokens ending => complete (t :: tokens) ending
  | broken tokens diagnostic => broken (t :: tokens) diagnostic
  | overlong tokens digits => overlong (t :: tokens) digits

/-- All tokens of a scan, with the end marker if the end was reached. -/
def all : Scan → List Token
  | complete tokens ending => tokens ++ [ending]
  | broken tokens _ | overlong tokens _ => tokens

/-- The diagnostic of the fault that stopped a scan. -/
def diagnostic? : Scan → Option Diagnostic
  | complete _ _ | overlong _ _ => none
  | broken _ diagnostic => some diagnostic

end Scan

/-- The diagnostic for a refusal of the lexeme that begins at `start`. -/
def Refusal.diagnostic (r : Refusal) (file : String) (start : Place) (text rest : List Char) :
    Diagnostic :=
  let reached := start.after text
  let site := if r.atStart then start else reached
  .placed r.fault (site.location file) (if r.quotesLine then some (reached.lineText rest) else none)

/-- Scans the text `cs`, which begins at a place. -/
def scanFrom (file : String) (place : Place) (cs : List Char) : Scan :=
  match _gap : Gap.split cs with
  | .unclosed text _ =>
      .broken [] (.placed (.lexical .unclosedComment) ((place.after text).location file) none)
  | .closed text [] =>
      -- the end stands behind the last gap
      let here := place.after text
      .complete [] ⟨.ending, here.line, here.column⟩
  | .closed text (c :: more) =>
      let here := place.after text
      match _lexeme : readLexeme c more with
      | .refused refusal text rest => .broken [] (refusal.diagnostic file here text rest)
      | .overlong digits _ _ => .overlong [] digits
      | .read lexeme text rest =>
          (scanFrom file (here.after text) rest).push ⟨lexeme, here.line, here.column⟩
termination_by cs.length
decreasing_by
  have shorter := length_rest_lt_of_readLexeme _lexeme
  have bound := Gap.length_rest_le cs
  rw [_gap] at bound
  exact Nat.lt_of_lt_of_le shorter bound

/-- Scans a source whose first line has the number `line`. -/
def scan (source : String) (file : String) (line : Int) : Scan :=
  scanFrom file ⟨line, []⟩ source.toList

end PlainC
