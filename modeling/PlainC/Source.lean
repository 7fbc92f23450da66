/-
**Sources.**

A source is a named text.  It is scanned as a whole, and only then read as a tree.  The scanner
knows one line break only, while the lines that a fault of the grammar quotes are those of running
text; where a source holds other line breaks the two may disagree.

Main definitions:

* `PlainC.Source`, `PlainC.Source.ofBytes` — a named text, and the text of a file;
* `PlainC.Reader` — a row of tokens that is read from, and how far that has come;
* `PlainC.Source.read` — what reading a whole source comes to;
* `PlainC.Outcome.interned` — the same with the names taken into a table;
* `PlainC.Source.trace` — an account of the reading of a program, line by line.

Main results:

* `PlainC.Reader.ofTokens_append` — tokens behind the end of a source are not seen.
-/

import PlainC.Name
import PlainC.Text.Lines
import PlainC.Text.Utf8
import PlainC.Token.Scan
import PlainC.Tree.Parser.Program

set_option relaxedAutoImplicit false
set_option autoImplicit false

namespace PlainC

/-! ### Texts and files -/

/-- A named text. -/
structure Source where
  file : String := "<input>"
  text : String
deriving Repr, DecidableEq

/-- Why there is no text to read. -/
inductive Unreadable where
  | noFile (file : String)
  | notUtf8 (defect : Text.Utf8.Defect)
deriving Repr, DecidableEq

/-- The wording of an unreadable file. -/
def Unreadable.text : Unreadable → String
  | .noFile file => "Source file not found: " ++ file
  | .notUtf8 d =>
      let place :=
        if d.length = 1 then
          "byte 0x" ++ String.ofList (Text.hexadecimal 2 d.byte.toNat) ++ " in position "
            ++ toString d.start
        else "bytes in position " ++ toString d.start ++ "-" ++ toString (d.start + d.length - 1)
      "'utf-8' codec can't decode " ++ place ++ ": " ++ d.reason.text

namespace Source

/-- The source in a file with the given bytes, in which every line break is a newline character. -/
def ofBytes (file : String) (bytes : List UInt8) : Except Text.Utf8.Defect Source :=
  (Text.Utf8.decode bytes).map fun cs => ⟨file, String.ofList (Text.unifyNewlines cs)⟩

/-- The lines of a source as running text. -/
def lines (s : Source) : List String := (Text.splitLines s.text.toList).map String.ofList

/-- The tokens of a source. -/
def scan (s : Source) : Scan := PlainC.scan s.text s.file 1

end Source

/-! ### Readers -/

/-- A row of tokens that is read from, and how far that has come. -/
structure Reader where
  setting : Setting
  progress : Progress
deriving Repr

namespace Reader

/-- Whether a token is the end of a source. -/
def isEnding (t : Token) : Bool := t.lexeme = .ending

/-- A reader at the start of a row of tokens, which must hold an end; what follows the first end is
not seen. -/
def ofTokens (file : String) (lines : List String) (options : Options) (tokens : List Token) :
    Option Reader :=
  (tokens.find? isEnding).map fun ending =>
    ⟨⟨file, lines, options, ending⟩, ⟨tokens.takeWhile (!isEnding ·), []⟩⟩

/-- A reader at the start of a source, unless the source has a fault in a token or an integer that
is too long. -/
def ofSource (options : Options) (s : Source) : Except Stop Reader :=
  match s.scan with
  | .broken _ diagnostic => .error (.fault diagnostic)
  | .overlong _ digits => .error (.overlong digits)
  | .complete tokens ending => .ok ⟨⟨s.file, s.lines, options, ending⟩, ⟨tokens, []⟩⟩

/-- The token that is read next. -/
def next (r : Reader) : Token := r.progress.rest.headD r.setting.ending

/-- Reads on; the reader stays behind the last token that was read, also after a fault. -/
def call {α : Type} (r : Reader) (parser : Parser α) : Except Stop α × Reader :=
  match parser r.setting r.progress with
  | .ok value progress => (.ok value, { r with progress := progress })
  | .error stop progress => (.error stop, { r with progress := progress })

/-- Tokens behind the end of a source are not seen. -/
theorem ofTokens_append (file : String) (lines : List String) (options : Options)
    {tokens : List Token} (h : tokens.any isEnding) (more : List Token) :
    ofTokens file lines options (tokens ++ more) = ofTokens file lines options tokens := by
  obtain ⟨t, member, ending⟩ := List.any_eq_true.1 h
  obtain ⟨before, rest, rfl⟩ := List.append_of_mem member
  induction before with
  | nil => simp [ofTokens, ending]
  | cons first before ih =>
      have found := ih (by simp [ending]) (by simp)
      by_cases here : isEnding first
      · simp [ofTokens, here]
      · simp_all [ofTokens]

/-- A row of tokens with an end behind it is read from its first token. -/
theorem ofTokens_closed (file : String) (lines : List String) (options : Options)
    {tokens : List Token} {ending : Token} (inside : ∀ t ∈ tokens, t.lexeme ≠ .ending)
    (last : ending.lexeme = .ending) :
    ofTokens file lines options (tokens ++ [ending]) =
      some ⟨⟨file, lines, options, ending⟩, ⟨tokens, []⟩⟩ := by
  have none : ∀ t ∈ tokens, isEnding t = false := by
    intro t ht
    simp [isEnding, inside t ht]
  have found : (tokens ++ [ending]).find? isEnding = some ending := by
    rw [List.find?_append, List.find?_eq_none.2 (by simpa using none)]
    simp [isEnding, last]
  have taken : (tokens ++ [ending]).takeWhile (!isEnding ·) = tokens := by
    rw [List.takeWhile_append_of_pos (by simpa using none)]
    simp [isEnding, last]
  rw [ofTokens, found, taken]
  rfl

theorem call_eq_ok_iff {α : Type} {r : Reader} {parser : Parser α} {a : α} :
    (r.call parser).1 = .ok a ↔ ∃ q, parser r.setting r.progress = .ok a q := by
  unfold call
  cases parser r.setting r.progress <;> simp

end Reader

/-! ### Outcomes -/

/-- What reading a source comes to: a value or the reason to stop, and the names met. -/
structure Outcome (α : Type) where
  result : Except Stop α
  names : List String

/-- The outcome for a name table that takes in the names met: the table, and the value as `rename`
makes it with the symbols of the table. -/
def Outcome.interned {α β : Type} (rename : (String → Symbol) → α → β) (t : NameTable)
    (o : Outcome α) : NameTable × Except Stop β :=
  let t' := t.internAll o.names
  (t', o.result.map (rename t'.symbol))

namespace Source

/-- Reads a whole source. -/
def read {α : Type} (parser : Parser α) (options : Options) (s : Source) : Outcome α :=
  match Reader.ofSource options s with
  | .error stop => ⟨.error stop, []⟩
  | .ok reader =>
      -- the names met in front of a fault count too
      let (result, reader') := reader.call parser
      ⟨result, reader'.progress.names⟩

/-- The number of tokens of a source, its end included, if they can all be read. -/
def tokenCount? (s : Source) : Option Nat :=
  match s.scan with
  | .complete tokens _ => some (tokens.length + 1)
  | .broken _ _ | .overlong _ _ => none

/-- An expression that stands for itself. -/
def ofExpression (text : String) : Source := ⟨"<expression>", text⟩

/-! ### Traces -/

/-- The line that accounts for a unit; there is none for a variable. -/
def unitTrace : TopLevel String → Option String
  | .function f =>
      some ("Parsed function '" ++ f.declaration.name.getD "" ++ "' ("
        ++ toString f.parameters.length ++ " parameters, "
        ++ (if f.isPrototype then "prototype" else "definition") ++ ")")
  | .struct u =>
      some ("Parsed struct '" ++ u.name ++ "' with " ++ toString u.members.length ++ " members")
  | .blank | .var _ => none

/-- An account of the reading of a source as a program, as far as it goes. -/
def trace (options : Options) (s : Source) : List String :=
  match Reader.ofSource options s with
  | .error _ => []
  | .ok reader =>
      let found := Parser.units reader.setting reader.progress
      let count := toString found.completed.length
      let scanned :=
        "Tokenized " ++ s.file ++ ": " ++ toString (reader.progress.rest.length + 1) ++ " tokens"
      scanned :: found.completed.filterMap unitTrace
        ++ (if found.stop.isNone then
              ["Parsed " ++ count ++ " top-level units from " ++ s.file,
               "Parsed " ++ s.file ++ ": " ++ count ++ " top-level units"]
            else [])

end Source

end PlainC
