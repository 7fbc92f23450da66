/-
**The text of an expression is read again.**

The text of an expression is scanned to the lexemes of the expression with the parentheses that the
text adds.  A part of the text ends in front of every character that could not stand in a word or in
a number; only behind an integer a point would belong to the number, and behind the size of an
integer too.  Since an expression with these parentheses is grouped, it is read from its lexemes,
and without parentheses it is the expression that was written.  All this is said of the text that
the expression has; it has one unless an integer in it has more digits than are converted.

Main definitions:

* `PlainC.OpensOperand` — the texts that an operand can begin with;
* `PlainC.Expr.ScansBackFrom`, `PlainC.Expr.ScansBack` — an expression that is scanned from a text,
  and from the text that it has.

Main results:

* `PlainC.ScansTo.row` — a row of texts with a separator between two of them;
* `PlainC.Expr.IsReprintable.scansBack` — **the text of an expression is scanned to its lexemes**;
* `PlainC.Session.perform_expression_text` — **the text of an expression is read again**.
-/

import PlainC.Proofs.Answering.Printing
import PlainC.Proofs.Expression.Grouping
import PlainC.Proofs.Naming.Table
import PlainC.Proofs.Reprinting.Enclosed
import PlainC.Proofs.Scanning.Adjoining
import PlainC.Session
import PlainC.Tree.Text

set_option relaxedAutoImplicit false
set_option autoImplicit false

namespace PlainC

variable {rest separator : List Char} {ls : List Lexeme} {c : Char} {e : Expr String}
  {text front back name : String}

/-! ### Rows -/

/-- A row of texts with a separator between two of them. -/
theorem ScansTo.row {α : Type} {p : Char → Bool} {mark : List Lexeme} {texts : α → List Char}
    {spells : α → List Lexeme} {row : List α} (separates : ∀ rest, ScansTo separator rest mark)
    (stops : ∀ rest, StopsAt p (separator ++ rest))
    (each : ∀ a ∈ row, ∀ rest, StopsAt p rest → ScansTo (texts a) rest (spells a))
    (behind : StopsAt p rest) :
    ScansTo (separator.intercalate (row.map texts)) rest (mark.intercalate (row.map spells)) := by
  induction row with
  | nil => exact nil
  | cons a more ih =>
      have others := ih fun b member => each b (List.mem_cons_of_mem _ member)
      have first := each a (List.mem_cons_self ..)
      cases more with
      | nil => simpa using first rest behind
      | cons b more =>
          simp only [List.map_cons, List.intercalate_cons_cons, List.append_assoc] at others ⊢
          -- the first text ends in front of the separator
          refine (first _ ?_).append ((separates _).append others)
          rw [List.append_assoc]
          exact stops _

theorem nil_intercalate_eq_flatten {α : Type} (ls : List (List α)) :
    ([] : List α).intercalate ls = ls.flatten := by
  induction ls with
  | nil => rfl
  | cons l ls ih => cases ls <;> simp_all

/-! ### Types -/

/-- The text of a type word is scanned to its lexemes. -/
theorem TypeWord.IsReprintable.scansTo {word : TypeWord String} (h : word.IsReprintable)
    (stops : StopsAt isWordChar rest) : ScansTo word.text.toList rest word.spelling := by
  cases word with
  | tagged | foreign => exact h.elim
  | struct name =>
      have keyword (rest : List Char) : ScansTo ("struct" ++ " ").toList rest _ :=
        .append_toList (.keyword .structWord (.cons rfl _)) .space
      exact (keyword _).append_toList (.identifier h stops)
  | _ => exact ScansTo.keyword _ stops

/-- The words of a specifier as they are written, with the lexemes of each. -/
def Specifier.pieces (sp : Specifier String) : List (String × List Lexeme) :=
  (if sp.isStatic then [("static", [.keyword .static])] else [])
    ++ (if sp.isConst then [("const", [.keyword .const])] else [])
    ++ sp.words.map fun word => (word.text, word.spelling)

/-- The text of a type without layers is the row of its pieces, and so is its spelling. -/
theorem Declaration.describe_plain (sp : Specifier String) :
    (describe id ⟨sp, .plain, none⟩).toList =
      [' '].intercalate (sp.pieces.map fun piece => piece.1.toList) := by
  simp only [describe, Specifier.map_id, String.toList_intercalate, Specifier.pieces]
  cases sp.isStatic <;> cases sp.isConst <;> simp [Shape.layers, Function.comp_def]

theorem Declaration.spelling_plain (sp : Specifier String) :
    spelling ⟨sp, .plain, none⟩ = ([] : List Lexeme).intercalate (sp.pieces.map Prod.snd) := by
  have noDeclarator : (Shape.plain.form none).spelling = [] := rfl
  rw [nil_intercalate_eq_flatten]
  simp only [spelling, Specifier.spelling, Specifier.pieces, noDeclarator, List.append_nil]
  cases sp.isStatic <;> cases sp.isConst <;> simp [List.flatMap_def, Function.comp_def]

/-- The text of a type without layers is scanned to its lexemes. -/
theorem Declaration.scansTo_describe {sp : Specifier String}
    (words : ∀ word ∈ sp.words, word.IsReprintable) (stops : StopsAt isWordChar rest) :
    ScansTo (describe id ⟨sp, .plain, none⟩).toList rest (spelling ⟨sp, .plain, none⟩) := by
  rw [describe_plain, spelling_plain]
  refine ScansTo.row (fun _ => .space) (fun rest => .cons rfl rest) ?_ stops
  intro piece member rest stops
  rw [Specifier.pieces, List.mem_append, List.mem_append, List.mem_map] at member
  rcases member with (isStatic | isConst) | ⟨word, among, rfl⟩
  · obtain rfl := List.mem_singleton.1 (List.mem_ite_nil_right.1 isStatic).2
    exact .keyword .static stops
  · obtain rfl := List.mem_singleton.1 (List.mem_ite_nil_right.1 isConst).2
    exact .keyword .const stops
  · exact (words word among).scansTo stops

/-! ### Literals -/

theorem Literal.IsReprintable.isPrintable {value : Literal} (h : value.IsReprintable) :
    value.IsPrintable := by
  cases value with
  | char code =>
      obtain ⟨low, high, -⟩ := h
      exact ⟨by omega, by omega⟩
  | _ => trivial

/-! ### Operands -/

/-- A text that begins with a word, a number, a literal or an opening parenthesis. -/
def OpensOperand (text : String) : Prop := ∃ c more, text.toList = c :: more ∧ beginsOperand c

theorem OpensOperand.append (h : OpensOperand front) (back : String) :
    OpensOperand (front ++ back) := by
  obtain ⟨c, more, same, begins⟩ := h
  exact ⟨c, more ++ back.toList, by rw [String.toList_append, same, List.cons_append], begins⟩

theorem OpensOperand.paren : OpensOperand "(" := ⟨'(', [], rfl, rfl⟩

theorem OpensOperand.identifier (h : IsIdentifier name.toList) : OpensOperand name := by
  obtain ⟨c, more, same, start, -⟩ := h.word
  exact ⟨c, more, same, by rw [beginsOperand, isWordChar_of_isWordStart start]; rfl⟩

/-- An operator is scanned in front of an operand. -/
theorem OpensOperand.scansTo_prefixed (h : OpensOperand text) (op : UnaryOp) (rest : List Char) :
    ScansTo op.spelling.toList (text.toList ++ rest) [.punctuator op.mark] := by
  obtain ⟨c, more, same, begins⟩ := h
  refine ScansTo.prefixed op fun d first => ?_
  rw [same] at first
  cases first
  exact begins

/-- An operator is scanned in front of a blank. -/
theorem Operator.scansTo_spelling {op : Operator} (known : op.hasSpelling)
    (blank : BeginsBlank rest) : ScansTo op.spelling.toList rest op.lexeme?.toList := by
  cases op with
  | binary op => exact .spaced op.mark blank
  | assign op => exact .spaced op.mark blank
  | foreign => cases known

namespace Expr

/-- The spelling of a row is the row of the spellings, with a comma between two of them. -/
theorem rowSpelling_eq_intercalate (es : List (Expr String)) :
    rowSpelling es = [.punctuator .comma].intercalate (es.map spelling) := by
  induction es with
  | nil => rfl
  | cons e es ih =>
      cases es with
      | nil => simp [rowSpelling, moreSpelling]
      | cons e' es =>
          rw [List.map_cons, List.map_cons, List.intercalate_cons_cons, ← List.map_cons, ← ih]
          simp [rowSpelling, moreSpelling]

/-- An expression whose text is scanned to the spelling of the expression with the parentheses that
the text adds.  Only a size and an integer could go on behind a point. -/
structure ScansBackFrom (e : Expr String) (text : String) : Prop where
  opens : OpensOperand text
  scans : ∀ rest, StopsAt isOperandPart rest → ScansTo text.toList rest e.enclosed.spelling
  scansToPoint : e.isSizeof = false → e.isInteger = false → ∀ rest, StopsAt isWordChar rest →
    ScansTo text.toList rest e.enclosed.spelling

namespace ScansBackFrom

/-- A text that ends in front of everything that prolongs no word. -/
theorem of_word (opens : OpensOperand text)
    (scans : ∀ rest, StopsAt isWordChar rest → ScansTo text.toList rest e.enclosed.spelling) :
    e.ScansBackFrom text :=
  ⟨opens, fun rest stops => scans rest stops.word, fun _ _ => scans⟩

theorem integer {n : Nat} (convertible : isConvertible n) :
    (literal (.int n)).ScansBackFrom (toString n) where
  opens := by
    obtain ⟨d, ds, digits⟩ := List.exists_cons_of_ne_nil (@Nat.toDigits_ne_nil n 10)
    have digit : isDigit d := isDigit_of_mem_toDigits (by rw [digits]; exact List.mem_cons_self ..)
    refine ⟨d, ds, ?_, by simp [beginsOperand, isWordChar, digit]⟩
    rw [Nat.toString_eq_ofList_toDigits, String.toList_ofList, digits]
  scans _ stops :=
    .of_readsAs (readsAs_number convertible (stops.mono fun _ => isOperandPart_of_isNumberPart))
  scansToPoint _ noInteger := by cases noInteger

theorem character {n : Nat} (low : 32 ≤ n) (high : n ≤ 126) (noMark : n ≠ 39) :
    (literal (.char n)).ScansBackFrom (Text.quotedCode n) := by
  have each : ∀ n < 127, 32 ≤ n → n ≠ 39 → Text.escaped '\x27' n = escaped '\x27' (Char.ofNat n) ∧
      (Char.ofNat n).toNat = n := by decide
  obtain ⟨written, code⟩ := each n (by omega) low noMark
  have quoted : (Text.quotedCode n).toList =
      '\x27' :: (escaped '\x27' (Char.ofNat n) ++ ['\x27']) := by
    rw [Text.quotedCode, if_neg noMark, String.toList_ofList, written, List.cons_append]
  refine .of_word ⟨_, _, quoted, rfl⟩ fun rest _ => ?_
  have reads := ScansTo.of_readsAs (readsAs_character (Char.ofNat n) rest)
  rwa [← quoted, code] at reads

theorem string {value : String} (noMark : '\x22' ∉ value.toList) (noEscape : '\x5c' ∉ value.toList)
    (noNewline : '\n' ∉ value.toList) :
    (literal (.string value)).ScansBackFrom ("\x22" ++ value ++ "\x22") := by
  have plain : value.toList.flatMap (escaped '\x22') = value.toList := by
    have each : ∀ c ∈ value.toList, escaped '\x22' c = [c] := by
      intro c member
      have other {d : Char} (absent : d ∉ value.toList) : c ≠ d := by
        rintro rfl
        exact absent member
      rw [escaped, if_neg (other noMark), if_neg (other noEscape), if_neg (other noNewline)]
    rw [List.flatMap_def, List.map_congr_left each, ← List.flatMap_def, List.flatMap_singleton']
  have quoted : ("\x22" ++ value ++ "\x22").toList =
      '\x22' :: (value.toList.flatMap (escaped '\x22') ++ ['\x22']) := by
    rw [plain, String.toList_append, String.toList_append]
    rfl
  refine .of_word ⟨_, _, quoted, rfl⟩ fun rest _ => ?_
  rw [quoted]
  exact .of_readsAs (readsAs_string value rest)

theorem var (h : IsIdentifier name.toList) : (Expr.var name).ScansBackFrom name :=
  .of_word (.identifier h) fun _ stops => .identifier h stops

theorem sizeofType {sp : Specifier String} (words : ∀ word ∈ sp.words, word.IsReprintable) :
    (Expr.sizeofType ⟨sp, .plain, none⟩).ScansBackFrom
      ("sizeof(" ++ Declaration.describe id ⟨sp, .plain, none⟩ ++ ")") := by
  refine .of_word ?_ fun rest _ => ?_
  · exact .append (.append ⟨'s', _, rfl, rfl⟩ _) _
  have sizeof (rest : List Char) : ScansTo ("sizeof" ++ "(").toList rest _ :=
    .append_toList (.keyword .sizeof (.cons rfl _)) (.alone .parenOpen rfl)
  have type : ScansTo _ (")".toList ++ rest) _ := Declaration.scansTo_describe words (.cons rfl _)
  exact ((sizeof _).append_toList type).append_toList (.alone .parenClose rfl)

theorem sizeofExpr (h : e.ScansBackFrom text) :
    (Expr.sizeofExpr e).ScansBackFrom ("sizeof " ++ text) where
  opens := .append ⟨'s', _, rfl, rfl⟩ _
  scans rest stops := by
    have sizeof (rest : List Char) : ScansTo ("sizeof" ++ " ").toList rest _ :=
      .append_toList (.keyword .sizeof (.cons rfl _)) .space
    exact (sizeof _).append_toList (h.scans rest stops)
  scansToPoint noSize := by cases noSize

/-- What stands in parentheses ends in front of everything. -/
theorem of_parentheses (inner : String) (written : text = "(" ++ inner ++ ")")
    (spells : e.enclosed.spelling = .punctuator .parenOpen :: ls ++ [.punctuator .parenClose])
    (scans : ∀ rest, StopsAt isOperandPart rest → ScansTo inner.toList rest ls) :
    e.ScansBackFrom text := by
  have opened (rest : List Char) : ScansTo "(".toList rest _ := .alone .parenOpen rfl
  rw [written]
  refine .of_word (.append (.append .paren _) _) fun rest _ => ?_
  rw [spells]
  exact ((opened _).append_toList (scans _ (.cons rfl _))).append_toList (.alone .parenClose rfl)

theorem parenthesized (h : e.ScansBackFrom text) :
    (Expr.parenthesized e).ScansBackFrom ("(" ++ text ++ ")") :=
  .of_parentheses text rfl rfl h.scans

theorem postfixed (h : e.ScansBackFrom text) (op : PostfixOp) :
    (Expr.postfixed op e).ScansBackFrom ("(" ++ text ++ op.spelling ++ ")") := by
  have alone : op.mark.standsAlone := by cases op <;> rfl
  have noPart (rest : List Char) : StopsAt isOperandPart (op.mark.chars ++ rest) := by
    cases op <;> exact .cons rfl _
  refine .of_parentheses (text ++ op.spelling) ?_ rfl fun rest _ => ?_
  · simp only [String.append_assoc]
  · exact (h.scans _ (noPart rest)).append_toList (.alone _ alone)

theorem unary (h : e.ScansBackFrom text) (op : UnaryOp) :
    (Expr.unary op e).ScansBackFrom ("(" ++ op.spelling ++ text ++ ")") := by
  refine .of_parentheses (op.spelling ++ text) ?_ rfl fun rest stops => ?_
  · simp only [String.append_assoc]
  · -- no operand begins with a character that prolongs an operator
    exact (h.opens.scansTo_prefixed op rest).append_toList (h.scans rest stops)

theorem binary {left right : Expr String} {op : Operator} (known : op.hasSpelling)
    (first : left.ScansBackFrom front) (second : right.ScansBackFrom back) :
    (Expr.binary op left right).ScansBackFrom
      ("(" ++ front ++ " " ++ op.spelling ++ " " ++ back ++ ")") := by
  refine .of_parentheses (front ++ " " ++ op.spelling ++ " " ++ back) ?_ rfl fun rest stops => ?_
  · simp only [String.append_assoc]
  · have space (rest : List Char) : ScansTo " ".toList rest [] := .space
    have blank (rest : List Char) : BeginsBlank (" ".toList ++ rest) := by
      intro c first
      cases first
      rfl
    have row : ScansTo (front ++ " " ++ op.spelling ++ " " ++ back).toList rest _ :=
      .append_toList (.append_toList (.append_toList (.append_toList (first.scans _ (.cons rfl _))
        (space _)) (op.scansTo_spelling known (blank _))) (space _)) (second.scans rest stops)
    simpa only [spelling, List.append_nil] using row

/-- A call: the name, and the arguments with a comma and a blank between two of them. -/
theorem call (h : IsIdentifier name.toList) {row : List (Expr String × String)}
    (each : ∀ a ∈ row, a.1.ScansBackFrom a.2) :
    (Expr.call name (row.map Prod.fst)).ScansBackFrom
      (name ++ "(" ++ ", ".intercalate (row.map Prod.snd) ++ ")") := by
  have comma (rest : List Char) : ScansTo ", ".toList rest [.punctuator .comma] :=
    (ScansTo.alone .comma rfl).append .space
  have arguments (rest : List Char) :
      ScansTo (", ".intercalate (row.map Prod.snd)).toList (")".toList ++ rest)
        (rowSpelling (enclosedAll (row.map Prod.fst))) := by
    rw [String.toList_intercalate, rowSpelling_eq_intercalate, enclosedAll_eq_map, List.map_map,
      List.map_map, List.map_map]
    exact ScansTo.row comma (fun rest => .cons rfl _) (fun a member => (each a member).scans)
      (.cons rfl _)
  have opened (rest : List Char) : ScansTo "(".toList rest _ := .alone .parenOpen rfl
  refine .of_word (.append (.append (.append (.identifier h) _) _) _) fun rest _ => ?_
  exact .append_toList (.append_toList (.append_toList (.identifier h (.cons rfl _)) (opened _))
    (arguments rest)) (.alone .parenClose rfl)

theorem index {target subscript : Expr String} (first : target.ScansBackFrom front)
    (second : subscript.ScansBackFrom back) :
    (Expr.index target subscript).ScansBackFrom (front ++ "[" ++ back ++ "]") := by
  have opened (rest : List Char) : ScansTo "[".toList rest _ := .alone .bracketOpen rfl
  refine .of_word (.append (.append (.append first.opens _) _) _) fun rest _ => ?_
  have suffixed : ScansTo (front ++ "[" ++ back ++ "]").toList rest _ :=
    .append_toList (.append_toList (.append_toList (first.scans _ (.cons rfl _)) (opened _))
      (second.scans _ (.cons rfl _))) (.alone .bracketClose rfl)
  simpa [enclosed, spelling] using suffixed

theorem member (noSize : e.isSizeof = false) (noInteger : e.isInteger = false)
    (h : e.ScansBackFrom text) (isIdentifier : IsIdentifier name.toList) :
    (Expr.member e name).ScansBackFrom (text ++ "." ++ name) := by
  have point (rest : List Char) : ScansTo ".".toList (name.toList ++ rest) [.punctuator .dot] := by
    refine ScansTo.dot fun c first => ?_
    obtain ⟨d, more, same, start, -⟩ := isIdentifier.word
    rw [same] at first
    cases first
    exact start
  refine .of_word (.append (.append h.opens _) _) fun rest stops => ?_
  have suffixed : ScansTo (text ++ "." ++ name).toList rest _ :=
    .append_toList (.append_toList (h.scansToPoint noSize noInteger _ (.cons rfl _)) (point rest))
      (.identifier isIdentifier stops)
  simpa [enclosed, spelling] using suffixed

theorem pointerMember (h : e.ScansBackFrom text) (isIdentifier : IsIdentifier name.toList) :
    (Expr.pointerMember e name).ScansBackFrom (text ++ "->" ++ name) := by
  have arrow (rest : List Char) : ScansTo "->".toList rest _ := .alone .arrow rfl
  refine .of_word (.append (.append h.opens _) _) fun rest stops => ?_
  have suffixed : ScansTo (text ++ "->" ++ name).toList rest _ :=
    .append_toList (.append_toList (h.scans _ (.cons rfl _)) (arrow _))
      (.identifier isIdentifier stops)
  simpa [enclosed, spelling] using suffixed

theorem cast {word : TypeWord String} (known : word.IsReprintable) (h : e.ScansBackFrom text) :
    (Expr.cast word e).ScansBackFrom ("((" ++ word.text ++ ") " ++ text ++ ")") := by
  refine .of_parentheses ("(" ++ word.text ++ ") " ++ text) ?_ rfl fun rest stops => ?_
  · simp only [← String.append_assoc]
    rfl
  · have opened (rest : List Char) : ScansTo "(".toList rest _ := .alone .parenOpen rfl
    have closed (rest : List Char) : ScansTo ") ".toList rest [.punctuator .parenClose] :=
      (ScansTo.alone .parenClose rfl).append .space
    have row : ScansTo ("(" ++ word.text ++ ") " ++ text).toList rest _ :=
      .append_toList (.append_toList (.append_toList (opened _) (known.scansTo (.cons rfl _)))
        (closed _)) (h.scans rest stops)
    simpa [spelling] using row

end ScansBackFrom

/-- Where an expression has a text, it is scanned to its lexemes. -/
def ScansBack (e : Expr String) : Prop := ∀ text, e.text id = .ok text → e.ScansBackFrom text

/-- The arguments of a call are scanned one by one. -/
theorem exists_row {arguments : List (Expr String)} {written : List String}
    (each : ∀ a ∈ arguments, a.ScansBack) (all : texts id arguments = .ok written) :
    ∃ row : List (Expr String × String), row.map Prod.fst = arguments ∧
      row.map Prod.snd = written ∧ ∀ a ∈ row, a.1.ScansBackFrom a.2 := by
  induction arguments generalizing written with
  | nil =>
      cases all
      exact ⟨[], rfl, rfl, List.forall_mem_nil _⟩
  | cons a more ih =>
      obtain ⟨here, others⟩ := List.forall_mem_cons.1 each
      obtain ⟨text, first, all⟩ := except_bind_eq_ok_iff.1 all
      obtain ⟨moreTexts, behind, all⟩ := except_bind_eq_ok_iff.1 all
      cases all
      obtain ⟨row, rfl, rfl, scans⟩ := ih others behind
      exact ⟨(a, text) :: row, rfl, rfl, List.forall_mem_cons.2 ⟨here text first, scans⟩⟩

/-- The text of a literal is scanned to the literal. -/
theorem scansBack_literal {value : Literal} (h : value.IsReprintable) :
    (literal value).ScansBack := by
  intro text written
  cases value with
  | int value =>
      obtain ⟨n, rfl⟩ := Int.eq_ofNat_of_zero_le h
      by_cases convertible : isConvertible n
      · cases (Literal.text_int convertible).symm.trans written
        exact .integer convertible
      · cases (Literal.text_int_overlong convertible).symm.trans written
  | double => exact h.elim
  | char code =>
      obtain ⟨low, high, noMark⟩ := h
      obtain ⟨n, rfl⟩ := Int.eq_ofNat_of_zero_le (show 0 ≤ code by omega)
      have isCode : 0 ≤ (n : Int) ∧ (n : Int) < 0x110000 := by omega
      cases (Literal.text_char isCode).symm.trans written
      exact .character (by omega) (by omega) (by omega)
  | string value =>
      cases written
      exact .string h.1 h.2.1 h.2.2

/-- The text of an expression is written around the text of its operand. -/
theorem scansBack_of_operand {whole operand : Expr String} {write : String → String}
    (part : operand.ScansBack)
    (scans : ∀ {text}, operand.ScansBackFrom text → whole.ScansBackFrom (write text))
    (writes : whole.text id = do return write (← operand.text id)) : whole.ScansBack := by
  intro text written
  obtain ⟨inner, first, same⟩ := except_bind_eq_ok_iff.1 (writes.symm.trans written)
  cases same
  exact scans (part inner first)

/-- The text of an expression is written around the texts of its two operands. -/
theorem scansBack_of_operands {whole left right : Expr String} {write : String → String → String}
    (partLeft : left.ScansBack) (partRight : right.ScansBack)
    (scans : ∀ {front back}, left.ScansBackFrom front → right.ScansBackFrom back →
      whole.ScansBackFrom (write front back))
    (writes : whole.text id = do
      let front ← left.text id
      let back ← right.text id
      return write front back) : whole.ScansBack := by
  intro text written
  obtain ⟨front, first, rest⟩ := except_bind_eq_ok_iff.1 (writes.symm.trans written)
  obtain ⟨back, second, same⟩ := except_bind_eq_ok_iff.1 rest
  cases same
  exact scans (partLeft front first) (partRight back second)

/-- **The text of an expression is scanned to its lexemes**, by induction on its form: what is
carried is the scan in front of any text that does not prolong the last word or number. -/
theorem IsReprintable.scansBack (h : e.IsReprintable) : e.ScansBack := by
  induction h with
  | literal h => exact scansBack_literal h
  | var h =>
      rintro _ ⟨⟩
      exact .var h
  | sizeofType words =>
      rintro _ ⟨⟩
      exact .sizeofType words
  | sizeofExpr _ ih => exact scansBack_of_operand ih .sizeofExpr rfl
  | parenthesized _ ih => exact scansBack_of_operand ih .parenthesized rfl
  | @postfixed op _ _ _ ih => exact scansBack_of_operand ih (·.postfixed op) rfl
  | @unary op _ _ ih => exact scansBack_of_operand ih (·.unary op) rfl
  | binary known _ _ ihLeft ihRight =>
      exact scansBack_of_operands ihLeft ihRight (.binary known) rfl
  | call isIdentifier _ ih =>
      intro text written
      obtain ⟨all, each, same⟩ := except_bind_eq_ok_iff.1 written
      cases same
      obtain ⟨row, rfl, rfl, scans⟩ := exists_row ih each
      exact .call isIdentifier scans
  | index _ _ _ ihTarget ihSubscript =>
      exact scansBack_of_operands ihTarget ihSubscript .index rfl
  | member noSize noInteger isIdentifier _ ih =>
      exact scansBack_of_operand ih (.member noSize noInteger · isIdentifier) rfl
  | pointerMember _ isIdentifier _ ih =>
      exact scansBack_of_operand ih (.pointerMember · isIdentifier) rfl
  | @cast word _ known _ ih =>
      have same : word.map id = word := word.map_id
      exact scansBack_of_operand ih (.cast known) (by rw [Expr.text, same])

/-- The text of such an expression can only fail for an integer with too many digits. -/
theorem IsReprintable.allPrintable (h : e.IsReprintable) :
    Node.AllPrintable (e.walk fun _ => true) := by
  induction h with
  | literal h => exact List.forall_mem_singleton.2 h.isPrintable
  | var => exact List.forall_mem_singleton.2 trivial
  | sizeofType => exact .entered trivial (.entered trivial (List.forall_mem_singleton.2 trivial))
  | sizeofExpr _ ih => exact .entered trivial (.entered trivial ih)
  | parenthesized _ ih | postfixed _ _ ih | unary _ ih | member _ _ _ _ ih
  | pointerMember _ _ _ ih | cast _ _ ih => exact .entered trivial ih
  | binary _ _ _ ihLeft ihRight | index _ _ _ ihLeft ihRight =>
      exact .entered trivial (ihLeft.append ihRight)
  | call _ _ ih =>
      rw [walk, walkAll_eq_flatMap]
      refine .entered trivial fun node met => ?_
      obtain ⟨a, member, inside⟩ := List.mem_flatMap.1 met
      exact ih a member node inside

variable {ν : Type}

theorem texts_map (f : ν → String) {es : List (Expr ν)}
    (each : ∀ a ∈ es, (a.map f).text id = a.text f) : texts id (mapAll f es) = texts f es := by
  induction es with
  | nil => rfl
  | cons a more ih =>
      obtain ⟨first, others⟩ := List.forall_mem_cons.1 each
      simp only [mapAll, texts, first, ih others]

/-- The text of an expression is that of the expression with its names as texts. -/
theorem text_map (f : ν → String) (e : Expr ν) : (e.map f).text id = e.text f := by
  induction e using induct with
  | call callee arguments ih => simp only [map, text, texts_map f ih, id]
  | sizeofType type =>
      have words : (type.specifier.map f).map id = type.specifier.map f := Specifier.map_id _
      simp only [map, text, Declaration.describe, Declaration.map, words]
  | _ => simp_all only [map, text, id, TypeWord.map_id]

end Expr

/-! ### Sessions -/

/-- A source whose text is scanned to the spelling of a grouped expression is read as it. -/
theorem Source.read_wholeExpression {options : Options} {source : Source}
    (scans : ScansTo source.text.toList [] e.spelling) (spelled : e.hasSpelling)
    (grouped : e.isGrouped) : (source.read Parser.wholeExpression options).result = .ok e := by
  obtain ⟨tokens, ending, scanned, same, last⟩ := scans.complete source.file ⟨1, []⟩
  let setting : Setting := ⟨source.file, source.lines, options, ending⟩
  let start : Progress := ⟨tokens, []⟩
  have opened : Reader.ofSource options source = .ok ⟨setting, start⟩ := by
    rw [Reader.ofSource, Source.scan, PlainC.scan, scanned]
  have closed : setting.Closed := last
  have tells : e.spelling = start.lexemes := same.symm
  obtain ⟨q, read⟩ := Parser.wholeExpression_of_spelling closed spelled grouped tells
  rw [Source.read, opened]
  simp only [Reader.call, read]

/-- An expression is read from its text. -/
theorem Session.perform_text {ν : Type} (s : Session) {nameText : ν → String} {e : Expr ν}
    (h : (e.map nameText).IsReprintable) (written : e.text nameText = .ok text) :
    ∃ tree, (s.perform (.expression text)).2 = .expression (.ok tree) ∧
      (tree.map Symbol.text).bare = (e.map nameText).bare := by
  have scansBack := h.scansBack text ((Expr.text_map nameText e).trans written)
  have read : ((Source.ofExpression text).read Parser.wholeExpression {}).result =
      .ok (e.map nameText).enclosed :=
    Source.read_wholeExpression (scansBack.scans [] (fun _ none => by cases none))
      h.hasSpelling_enclosed h.isGrouped_enclosed
  let t := s.names.internAll ((Source.ofExpression text).read Parser.wholeExpression {}).names
  refine ⟨(e.map nameText).enclosed.map t.symbol, ?_, ?_⟩
  · simp only [perform, Outcome.interned, read, Except.map, t]
  · have same : Symbol.text ∘ t.symbol = id := funext t.text_symbol
    rw [Expr.map_map, same, Expr.map_id, Expr.bare_enclosed]

/-- **The text of an expression is read again**: as an expression that is the same without
parentheses, when names are compared by their texts.  There is such a text exactly if no integer of
the expression has more digits than are converted. -/
theorem Session.perform_expression_text {ν : Type} (s : Session) (nameText : ν → String)
    {e : Expr ν} (h : (e.map nameText).IsReprintable) :
    ((∀ n ∈ e.integers, isConvertible n) →
      ∃ text tree, e.text nameText = .ok text ∧
        (s.perform (.expression text)).2 = .expression (.ok tree) ∧
          (tree.map Symbol.text).bare = (e.map nameText).bare) ∧
    ((∃ n ∈ e.integers, ¬ isConvertible n) → e.text nameText = .error .overlong) := by
  have printable : Node.AllPrintable ((Node.expression e).walk fun _ => true) :=
    Node.allPrintable_walk_map.1 h.allPrintable
  refine ⟨fun convertible => ?_, printable.eq_overlong (e.failure?_text nameText)⟩
  obtain ⟨text, written⟩ := printable.exists_eq_ok (e.failure?_text nameText) convertible
  obtain ⟨tree, read, same⟩ := s.perform_text h written
  exact ⟨text, tree, written, read, same⟩

/-- A sum as a factor, a sign in front of a sign, and the size of a struct in parentheses of its
own. -/
theorem Session.perform_expression_text_product :
    ∃ tree, (({ names := .empty 0 } : Session).perform
        (.expression "((a + (-(-1))) * (sizeof(struct s)))")).2 = .expression (.ok tree) ∧
      (tree.map Symbol.text).bare =
        .binary (.binary .multiply)
          (.binary (.binary .add) (.var "a") (.unary .negate (.unary .negate (.literal (.int 1)))))
          (.sizeofType ⟨⟨false, false, [.struct "s"]⟩, .plain, none⟩) := by
  have longer : ∀ k : Keyword, k.spelling.toList.length ≠ 1 := by
    intro k
    cases k <;> decide
  have name (c : Char) (start : isWordStart c) : IsIdentifier [c] :=
    ⟨⟨c, [], rfl, start, List.forall_mem_nil _⟩, fun k same => longer k (congrArg List.length same)⟩
  have one : (Literal.int 1).IsReprintable := (by decide : (0 : Int) ≤ 1)
  have product : (Expr.map id (.binary (.binary .multiply)
      (.binary (.binary .add) (.var "a") (.unary .negate (.unary .negate (.literal (.int 1)))))
      (.parenthesized
        (.sizeofType ⟨⟨false, false, [.struct "s"]⟩, .plain, none⟩)))).IsReprintable :=
    .binary rfl (.binary rfl (.var (name 'a' rfl)) (.unary (.unary (.literal one))))
      (.parenthesized (.sizeofType (List.forall_mem_singleton.2 (name 's' rfl)) rfl))
  obtain ⟨text, tree, written, read, same⟩ :=
    (perform_expression_text { names := .empty 0 } id product).1
      (List.forall_mem_singleton.2 (by decide))
  cases written
  exact ⟨tree, read, same⟩

/-- The least power of ten that has too many digits has no text. -/
theorem Session.perform_expression_text_power :
    let e : Expr String := .literal (.int (Nat.pow 10 maxDigits))
    (e.map id).IsReprintable ∧ e.text id = .error .overlong := by
  have long : ¬ isConvertible (Nat.pow 10 maxDigits) := not_isConvertible_pow
  -- the power is never evaluated
  generalize Nat.pow 10 maxDigits = n at long ⊢
  exact ⟨.literal (Int.natCast_nonneg n), Literal.text_int_overlong long⟩

end PlainC
