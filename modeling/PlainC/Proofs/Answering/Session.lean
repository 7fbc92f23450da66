/-
**Every request is answered.**

Whatever the text is, and whatever options and names are in force, a request for a program or for an
expression comes to a tree that can be printed or to a fault that has a place.  Nothing else can
happen on the way, since what the steps take for granted holds: a literal is only converted where it
is spelled, so that a number has digits of its base and a character literal one character, and a
declarator has a name wherever one is needed.  Only where an integer has more digits than are
converted is there neither: the reading stops at its digits in the text, or the printing at the
integer in the tree.

Main definitions:

* `PlainC.Token.SpelledIn`, `PlainC.Source.Grants` — what the steps take for granted;
* `PlainC.Scan.TellsWhere` — a scan that is complete, or stops at a place or at digits of the text;
* `PlainC.IsSettled` — a tree that can be printed, or a fault that has a place.

Main results:

* `PlainC.scanFrom_spelled`, `PlainC.scanFrom_tellsWhere` — every token is spelled in the text, and
  a scan that stops tells where;
* `PlainC.Source.read_program_isSettled`, `PlainC.Source.read_expression_isSettled` — the reading of
  a program and of an expression is settled;
* `PlainC.Session.perform_isSettled` — **every request is answered**.
-/

import PlainC.Proofs.Answering.Placing
import PlainC.Proofs.Answering.Printing
import PlainC.Proofs.Parsing.Resuming
import PlainC.Proofs.Scanning.Tiling
import PlainC.Proofs.Soundness.Program
import PlainC.Session

set_option relaxedAutoImplicit false
set_option autoImplicit false

namespace PlainC

variable {cs : List Char} {file : String} {place : Place} {options : Options} {source : Source}

/-! ### Tokens -/

/-- A token whose lexeme is spelled somewhere in a text. -/
def Token.SpelledIn (t : Token) (cs : List Char) : Prop :=
  ∃ before text rest, cs = before ++ (text ++ rest) ∧ LexemeSpelling text rest t.lexeme

theorem Token.SpelledIn.prepend {t : Token} (h : t.SpelledIn cs) (front : List Char) :
    t.SpelledIn (front ++ cs) := by
  obtain ⟨before, text, rest, rfl, spelled⟩ := h
  exact ⟨front ++ before, text, rest, (List.append_assoc ..).symm, spelled⟩

theorem Scan.mem_all_push {s : Scan} {t u : Token} (h : u ∈ (s.push t).all) :
    u = t ∨ u ∈ s.all := by
  cases s <;> exact List.mem_cons.1 h

/-- Every token is spelled in the text, also in front of a fault. -/
theorem scanFrom_spelled :
    ∀ t ∈ (scanFrom file place cs).all, t.lexeme = .ending ∨ t.SpelledIn cs := by
  fun_induction scanFrom file place cs with
  | case1 | case3 | case4 => exact List.forall_mem_nil _
  | case2 => exact List.forall_mem_singleton.2 (.inl rfl)
  | case5 start cs gap c more cut here lexeme text rest read =>
      rename_i ih
      obtain ⟨-, rfl, -⟩ := Gap.stands_of_split cut
      rw [← show text ++ rest = c :: more from append_of_readLexeme read]
      intro t member
      rcases Scan.mem_all_push member with rfl | behind
      · exact .inr ⟨gap, text, rest, rfl, .of_readLexeme read⟩
      · refine (ih t behind).imp_right fun inside => ?_
        rw [← List.append_assoc]
        exact inside.prepend (gap ++ text)

/-- A row of `n` digits that is too long to be converted stands in the text. -/
def HoldsOverlong (n : Nat) (cs : List Char) : Prop :=
  ∃ before digits rest, cs = before ++ (digits ++ rest) ∧ IsOverlong digits ∧ digits.length = n

theorem HoldsOverlong.prepend {n : Nat} (h : HoldsOverlong n cs) (front : List Char) :
    HoldsOverlong n (front ++ cs) := by
  obtain ⟨before, digits, rest, rfl, long⟩ := h
  exact ⟨front ++ before, digits, rest, (List.append_assoc ..).symm, long⟩

/-- Only a number can be too long. -/
theorem HoldsOverlong.of_readLexeme {c : Char} {text rest : List Char} {n : Nat}
    (h : readLexeme c cs = .overlong n text rest) : HoldsOverlong n (c :: cs) := by
  have noString (q : Quotation) : q.asString c ≠ .overlong n text rest := by cases q <;> nofun
  have noCharacter (q : Quotation) : q.asCharacter c ≠ .overlong n text rest := by
    cases q with
    | closed value => rcases value with _ | ⟨d, _ | ⟨d', value⟩⟩ <;> nofun
    | _ => nofun
  unfold readLexeme at h
  split at h
  · cases h
  · split at h
    · obtain ⟨long, rfl⟩ := IsOverlong.of_readNumber h
      exact ⟨[], _, (c :: cs).dropWhile isDigit, List.takeWhile_append_dropWhile.symm, long, rfl⟩
    · split at h
      · exact absurd h (noString _)
      · split at h
        · exact absurd h (noCharacter _)
        · unfold readPunctuator at h
          split at h <;> cases h

/-- A scan that stops tells where: a fault has a place, and digits that are too long stand in the
text. -/
def Scan.TellsWhere (cs : List Char) : Scan → Prop
  | complete _ _ => True
  | broken _ d => d.location.isSome
  | overlong _ n => HoldsOverlong n cs

/-- It also tells where in a longer text, behind one more token. -/
theorem Scan.TellsWhere.push {s : Scan} (h : s.TellsWhere cs) (front : List Char) (t : Token) :
    (s.push t).TellsWhere (front ++ cs) := by
  cases s with
  | complete | broken => exact h
  | overlong => exact HoldsOverlong.prepend h front

/-- A scan that stops tells where. -/
theorem scanFrom_tellsWhere : (scanFrom file place cs).TellsWhere cs := by
  fun_induction scanFrom file place cs with
  | case1 | case3 => rfl
  | case2 => trivial
  | case4 start cs gap c more cut digits text rest read =>
      obtain ⟨-, rfl, -⟩ := Gap.stands_of_split cut
      exact (HoldsOverlong.of_readLexeme read).prepend gap
  | case5 start cs gap c more cut here lexeme text rest read =>
      rename_i ih
      obtain ⟨-, rfl, -⟩ := Gap.stands_of_split cut
      rw [← show text ++ rest = c :: more from append_of_readLexeme read, ← List.append_assoc]
      exact ih.push (gap ++ text) _

/-- The literal that a token is can be printed, but for its length. -/
theorem Token.SpelledIn.isPrintable {t : Token} (h : t.SpelledIn cs) :
    ∀ l ∈ Literal.ofLexeme? t.lexeme, l.IsPrintable := by
  obtain ⟨before, text, rest, -, spelled⟩ := h
  intro l found
  generalize t.lexeme = lexeme at spelled found
  cases spelled with
  | keyword | identifier | punctuator => cases found
  | number number =>
      cases number <;> cases found <;> trivial
  | string =>
      cases found
      trivial
  | @character text following c =>
      cases found
      have codePoint : c.toNat < 0x110000 := by
        have valid := c.valid
        simp only [UInt32.isValidChar, Nat.isValidChar] at valid
        exact valid.elim (fun low => Nat.lt_trans low (by decide)) And.right
      exact ⟨Int.natCast_nonneg _, Int.ofNat_lt.2 codePoint⟩

/-! ### What is taken for granted -/

/-- What the steps of a reading take for granted: every token but the end is spelled in the source,
and a declarator that must not be abstract has a name. -/
structure Source.Grants (options : Options) (source : Source) : Prop where
  spelled : ∀ t ∈ source.scan.all, t.lexeme = .ending ∨ t.SpelledIn source.text.toList
  named : ∀ r, Reader.ofSource options source = .ok r → ∀ p d q,
    Parser.topDeclarator r.setting p = .ok d q ∨ Parser.declarator false r.setting p = .ok d q →
    d.ident.isSome

/-- A reader on a source has the tokens of the source in front of it, up to the end. -/
theorem Reader.ofSource_eq_ok {r : Reader} (opened : ofSource options source = .ok r) :
    ∃ tokens ending, source.scan = .complete tokens ending ∧
      r = ⟨⟨source.file, source.lines, options, ending⟩, ⟨tokens, []⟩⟩ ∧ r.setting.Closed := by
  unfold ofSource at opened
  cases scanned : source.scan with
  | broken | overlong =>
      rw [scanned] at opened
      cases opened
  | complete tokens ending =>
      rw [scanned] at opened
      cases opened
      have tiles : Tiles 1 [] source.text.toList tokens ending := tiles_of_scanFrom scanned
      exact ⟨tokens, ending, rfl, rfl, tiles.ending_lexeme⟩

theorem Source.grants (options : Options) (source : Source) : source.Grants options where
  spelled := scanFrom_spelled
  named r opened p d q read := by
    obtain ⟨_, _, -, -, closed⟩ := Reader.ofSource_eq_ok opened
    have fits : Parser.DeclaratorFits d := read.elim
      (Parser.topDeclarator_yields closed p d q) (Parser.declarator_yields p d q)
    exact Option.isSome_map.symm.trans fits.named

/-! ### What is settled -/

/-- The result of a reading is a tree that can be printed, or a fault that has a place.  There is
neither only where an integer has more digits than are converted: one that stands in the tree, or a
row of digits that stands in the source. -/
def IsSettled {α ν : Type} (node : α → Node ν) (print : α → Except Unprintable String)
    (source : Source) : Except Stop α → Prop
  | .ok tree => (∃ text, print tree = .ok text) ∨
      print tree = .error .overlong ∧ ∃ n, .int n ∈ (node tree).literals ∧ ¬ isConvertible n
  | .error (.fault d) => d.location.isSome
  | .error (.overlong n) => HoldsOverlong n source.text.toList
  | .error .exhausted => False

/-- The literals of a tree that is read off a source can be printed, but for their length. -/
theorem Reader.isPrintable_of_call {r : Reader} (opened : ofSource options source = .ok r)
    {goal : Goal} {tree : Node String} (read : (r.call (Parser.whole goal)).1 = .ok tree) :
    ∀ l ∈ tree.literals, l.IsPrintable := by
  obtain ⟨tokens, ending, scanned, rfl, -⟩ := ofSource_eq_ok opened
  have tiles : Tiles 1 [] source.text.toList tokens ending := tiles_of_scanFrom scanned
  have start := ofTokens_closed source.file source.lines options tiles.ne_ending tiles.ending_lexeme
  rw [((call_whole_keeps start goal).2 tree read).1, List.filterMap_map]
  intro l member
  obtain ⟨t, inside, found⟩ := List.mem_filterMap.1 member
  have among : t ∈ source.scan.all := by
    rw [scanned]
    exact (List.takeWhile_prefix _).subset inside
  rcases source.grants options |>.spelled t among with last | spelled
  · rw [Function.comp_apply, last] at found
    cases found
  · exact spelled.isPrintable l found

/-- Where a source cannot be opened, that is settled too. -/
theorem Reader.isSettled_of_ofSource {α ν : Type} {stop : Stop} {node : α → Node ν}
    {print : α → Except Unprintable String} (opened : ofSource options source = .error stop) :
    IsSettled node print source (.error stop) := by
  have tells : source.scan.TellsWhere source.text.toList := scanFrom_tellsWhere
  unfold ofSource at opened
  cases scanned : source.scan with
  | complete =>
      rw [scanned] at opened
      cases opened
  | broken | overlong =>
      rw [scanned] at opened tells
      cases opened
      exact tells

/-- A printable tree is settled, whatever its names are replaced by. -/
theorem Node.AllPrintable.isSettled {α ν μ : Type} {node : α → Node ν} {tree : α}
    {print : α → Except Unprintable String} {origin : Node μ} {f : μ → ν}
    (same : node tree = origin.map f) (h : AllPrintable (origin.walk fun _ => true))
    (printed : failure? (print tree) = firstCause? ((node tree).walk fun _ => true)) :
    IsSettled node print source (.ok tree) := by
  have printable : AllPrintable ((node tree).walk fun _ => true) := by
    rw [same]
    exact allPrintable_walk_map.2 h
  by_cases convertible : ∀ n ∈ integersMet ((node tree).walk fun _ => true), isConvertible n
  · exact .inl (printable.exists_eq_ok printed convertible)
  · obtain ⟨n, member, long⟩ : ∃ n ∈ integersMet _, ¬ isConvertible n := by
      simpa only [not_forall, exists_prop] using convertible
    exact .inr ⟨printable.eq_overlong printed ⟨n, member, long⟩, n, int_mem_literals member, long⟩

/-- The reading of a source is settled, whatever the names are replaced by, if every fault is given
a place and the trees that are read are sound. -/
theorem Source.read_isSettled {α β ν : Type} {x : Parser α} {goal : Goal} (node : α → Node String)
    (whole : ∀ r : Reader, r.call (Parser.whole goal) = ((r.call x).1.map node, (r.call x).2))
    (places : Parser.Places x)
    (sound : ∀ {s : Setting}, s.Closed →
      Parser.Yields s x fun a => Node.AllSound ((node a).walk fun _ => true))
    {node' : β → Node ν} {print : β → Except Unprintable String} {rename : α → β} {f : String → ν}
    (renames : ∀ a, node' (rename a) = (node a).map f)
    (printed : ∀ b, failure? (print b) = Node.firstCause? ((node' b).walk fun _ => true))
    (options : Options) (source : Source) :
    IsSettled node' print source ((source.read x options).result.map rename) := by
  unfold read
  cases opened : Reader.ofSource options source with
  | error stop => exact Reader.isSettled_of_ofSource opened
  | ok r =>
      obtain ⟨_, _, -, -, closed⟩ := Reader.ofSource_eq_ok opened
      have called := whole r
      cases read : x r.setting r.progress with
      | ok a q =>
          have ends : r.call x = (.ok a, { r with progress := q }) := by rw [Reader.call, read]
          have all : Node.AllPrintable ((node a).walk fun _ => true) :=
            Node.allPrintable_of_allSound (sound closed r.progress a q read)
              (r.isPrintable_of_call opened (by rw [called, ends]; rfl))
          simp only [ends]
          exact all.isSettled (renames a) (printed (rename a))
      | error stop q =>
          have ends : r.call x = (.error stop, { r with progress := q }) := by
            rw [Reader.call, read]
          simp only [ends]
          cases stop with
          | fault d => exact places r.setting r.progress d q read
          | overlong | exhausted =>
              rw [ends] at called
              rcases Reader.call_ok_or_fault closed goal with ⟨tree, found⟩ | ⟨d, found⟩ <;>
                · rw [called] at found
                  cases found

variable {μ : Type}

/-- The reading of a program is settled. -/
theorem Source.read_program_isSettled (options : Options) (source : Source) (f : String → μ)
    (nameText : μ → String) :
    IsSettled Node.program (fun P => (Node.program P).listing nameText) source
      ((source.read Parser.program options).result.map (Program.map f)) := by
  have renames (P : Program String) : Node.program (P.map f) = (Node.program P).map f := rfl
  exact read_isSettled Node.program Reader.call_whole_program Parser.program_places
    Parser.program_yields renames (Program.failure?_listing nameText) options source

/-- The reading of an expression is settled. -/
theorem Source.read_expression_isSettled (options : Options) (source : Source) (f : String → μ)
    (nameText : μ → String) :
    IsSettled Node.expression (Expr.text nameText) source
      ((source.read Parser.wholeExpression options).result.map (Expr.map f)) := by
  have renames (e : Expr String) : Node.expression (e.map f) = (Node.expression e).map f := rfl
  refine read_isSettled Node.expression Reader.call_whole_expression
    Parser.wholeExpression_places (fun closed => ?_) renames (Expr.failure?_text nameText)
    options source
  exact .bind (Parser.expression_yields closed) fun e readable =>
    .skip fun _ => .pure (Expr.allSound_walk readable)

/-! ### Sessions -/

/-- **Every request is answered**: for any options and any names in force, a request for a program
comes to a program that has a listing or to a fault that has a place, and a request for an
expression to one that has a text or to a fault that has a place, but for integers with more digits
than are converted. -/
theorem Session.perform_isSettled (s : Session) (source : Source) (text : String) :
    (source.Grants s.options ∧ ∃ result count,
      (s.perform (.program source)).2 = .program result count ∧
        IsSettled Node.program (fun P => (Node.program P).listing Symbol.text) source result) ∧
    (Source.ofExpression text).Grants {} ∧ ∃ result,
      (s.perform (.expression text)).2 = .expression result ∧
        IsSettled Node.expression (Expr.text Symbol.text) (Source.ofExpression text) result :=
  ⟨⟨source.grants s.options, _, _, rfl, source.read_program_isSettled s.options _ _⟩,
    (Source.ofExpression text).grants {}, _, rfl,
    (Source.ofExpression text).read_expression_isSettled {} _ _⟩

end PlainC
