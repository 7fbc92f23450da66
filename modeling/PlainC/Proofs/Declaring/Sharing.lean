/-
**One specifier for many variables.**

A declaration with several declarators is short for several declarations with one declarator each.
This holds wherever rows of declarators stand: if each declarator on its own, with the specifier in
front and a semicolon behind, is a program of one variable, then the whole row is a program of these
variables in their order; in a block, as in the body of a function, it is the declarations of these
variables; and without initial values it makes up the members of a struct.

Main definitions:

* `PlainC.rowTokens` — the tokens of a specifier, a row of declarators and a semicolon;
* `PlainC.Reader.DeclaresAlone` — tokens that declare a variable on their own.

Main results:

* `PlainC.Parser.blockItem_of_row`, `PlainC.Parser.unit_of_members` — a row in a block and in a
  struct;
* `PlainC.Reader.DeclaresAlone.variableTokens` — what declares a variable on its own are tokens that
  declare it anywhere;
* `PlainC.Reader.row_of_alone` — **a row of declarators declares what each of them declares alone**.
-/

import PlainC.Proofs.Declaring.Body
import PlainC.Proofs.Declaring.Row

set_option relaxedAutoImplicit false
set_option autoImplicit false

namespace PlainC

namespace Parser

variable {s : Setting} {sp : Specifier String} {words first after : List Token}
variable {more : List (Token × List Token)} {v : Variable String} {vs : List (Variable String)}
variable {semicolon : Token}

/-! ### Units of one variable -/

/-- **What is a unit of one variable with a specifier and a semicolon around it are tokens that
declare this variable.** -/
theorem VariableTokens.of_unit (hs : s.Closed) {ending : Token} (closed : ending.lexeme = .ending)
    (hw : SpecifierTokens words sp)
    (opens : ∃ t others, first = t :: others ∧ opensDeclarator t.lexeme = true)
    (mark : semicolon.lexeme = .punctuator .semicolon) {names : List String} {q : Progress}
    (read : unit s ⟨words ++ (first ++ [semicolon]), names⟩ = .ok [.var v] q) (done : q.rest = []) :
    VariableTokens (s.endingAt ending) sp first v := by
  obtain ⟨t, others, begins, opens⟩ := opens
  have whole := UnitRead.of_unit hs read
  generalize same : [TopLevel.var v] = us at whole
  cases whole with
  | struct | function => cases same
  | @vars sp' d r r₁ r₂ r₃ v' found specifier' declarator plain variable₁ more front behind =>
      -- the row has one part, and its specifier is the one that was given
      obtain ⟨u, rfl, sameVar⟩ := List.map_eq_singleton_iff.1 same.symm
      cases sameVar
      obtain ⟨rfl, rfl⟩ := (AfterCommas.of_moreAfterCommas more).eq_of_singleton
      have opens' : opensDeclarator (s.front ((first ++ [semicolon]).map Token.lexeme)) = true := by
        rwa [begins]
      obtain ⟨names₁, again⟩ := hw.reads opens' names
      obtain ⟨rfl, rfl⟩ := EStateM.Result.ok.inj (again.symm.trans specifier')
      -- what is left behind the variable is the semicolon
      have left : r₂.rest = [semicolon] := rest_eq_singleton hs
        ((variableAfter_advances.of_ok variable₁).trans (topDeclarator_advances.of_ok declarator))
        (by simp [front]) (by rw [behind, done])
      obtain ⟨_, names₂⟩ := r₂
      subst left
      exact .of_variableAfter hs closed mark
        (specifier_yields _ _ _ again) declarator plain variable₁

/-! ### Blocks and structs -/

section

variable (hs : s.Closed) (hw : SpecifierTokens words sp) (row : RowTokens s sp first more v vs)
  (mark : semicolon.lexeme = .punctuator .semicolon)
include hs hw row mark

/-- A row is an item of every block, whatever stands in front of it there and behind it. -/
theorem blockItem_of_row (after : List Token) (nested : Parser (Stmt String))
    (before : List (Stmt String)) (names : List String) :
    ∃ names', blockItem nested before s
        ⟨words ++ (first ++ (behindCommas more ++ semicolon :: after)), names⟩ =
      .ok (.yield (before ++ (v :: vs).map .declaration)) ⟨after, names'⟩ := by
  obtain ⟨names', read⟩ := localVariables_of_row hs hw row mark after names
  obtain ⟨t, words, rfl, starts⟩ := hw.exists_cons
  refine ⟨names', blockItem_of_declaration ?_ ?_ read⟩
  · simp
  · exact starts

/-- A row in braces is a block of the declarations of its variables. -/
theorem block_of_row {opening closing : Token} (brace : opening.lexeme = .punctuator .braceOpen)
    (close : closing.lexeme = .punctuator .braceClose) (names : List String) :
    ∃ names', block s ⟨opening :: (words ++ (first ++ (behindCommas more ++
        semicolon :: closing :: after))), names⟩ =
      .ok ⟨(v :: vs).map .declaration⟩ ⟨after, names'⟩ := by
  obtain ⟨names', item⟩ :=
    blockItem_of_row hs hw row mark (closing :: after) statement [] names
  have items := loop_yield item (by simp; omega) (loop_done (blockItem_of_close close))
  exact ⟨names', block_of_items (p := ⟨opening :: _, names⟩) brace items close⟩

/-- A row without initial values, in braces behind a name, makes up a struct. -/
theorem unit_of_members (dynamic : sp.isStatic = false)
    (bare : ∀ u ∈ v :: vs, u.initializer = none) {word name opening closing stop : Token}
    {tag : String} (hw' : word.lexeme = .keyword .structWord)
    (hn : name.lexeme = .identifier tag) (brace : opening.lexeme = .punctuator .braceOpen)
    (close : closing.lexeme = .punctuator .braceClose)
    (last : stop.lexeme = .punctuator .semicolon) (names : List String) :
    ∃ names', unit s ⟨word :: name :: opening :: (words ++ (first ++ (behindCommas more ++
        semicolon :: closing :: stop :: after))), names⟩ =
      .ok [.struct ⟨tag, (v :: vs).map Variable.declaration⟩] ⟨after, names'⟩ := by
  obtain ⟨names₁, turn⟩ :=
    structMembers_of_row hs hw row mark (closing :: stop :: after) names dynamic bare tag []
  have members := loop_yield turn (by simp; omega) (loop_done (structMembers_of_close close))
  generalize words ++ (first ++ (behindCommas more ++ semicolon :: closing :: stop :: after)) =
    inner at members ⊢
  have ahead : structAhead (word :: name :: opening :: inner) s.ending = true := by
    simp [structAhead, opensStruct, hw', hn, brace]
  have definition := structDefinition_of_members (p := ⟨word :: name :: opening :: inner, names⟩)
    hn brace members close last (List.cons_ne_nil _ _)
  exact ⟨_, unit_of_structDefinition ahead definition⟩

end

end Parser

/-! ### Whole sources -/

/-- The tokens of a specifier with a row of declarators, up to the semicolon. -/
def rowTokens (words first : List Token) (more : List (Token × List Token)) (semicolon : Token) :
    List Token :=
  words ++ (first ++ (behindCommas more ++ [semicolon]))

section

variable {words first : List Token} {more : List (Token × List Token)} {semicolon : Token}

theorem rowTokens_append (after : List Token) : rowTokens words first more semicolon ++ after =
    words ++ (first ++ (behindCommas more ++ semicolon :: after)) := by
  simp [rowTokens]

/-- There is no end of a source in a row if there is none in its parts. -/
theorem noEnding_rowTokens {sp : Specifier String} (hw : SpecifierTokens words sp)
    (hf : ∀ t ∈ first, t.lexeme ≠ .ending)
    (commas : ∀ part ∈ more, part.1.lexeme = .punctuator .comma)
    (parts : ∀ part ∈ more, ∀ t ∈ part.2, t.lexeme ≠ .ending)
    (mark : semicolon.lexeme = .punctuator .semicolon) :
    ∀ t ∈ rowTokens words first more semicolon, t.lexeme ≠ .ending := by
  intro t inside
  simp only [rowTokens, behindCommas, List.mem_append, List.mem_flatMap, List.mem_cons,
    List.not_mem_nil, or_false] at inside
  obtain inside | inside | ⟨part, among, rfl | inside⟩ | rfl := inside
  · exact hw.noEnding t inside
  · exact hf t inside
  · simp [commas part among]
  · exact parts part among t inside
  · simp [mark]

end

namespace Reader

variable {file : String} {lines : List String} {options : Options} {words first ts : List Token}
variable {more : List (Token × List Token)} {v : Variable String} {vs : List (Variable String)}
variable {sp : Specifier String} {ending semicolon : Token}

/-- The tokens `ts` begin like a declarator, and with the tokens of a specifier in front of them and
a semicolon behind they are a program that declares the variable `v` and nothing else. -/
structure DeclaresAlone (file : String) (lines : List String) (options : Options)
    (words ts : List Token) (v : Variable String) : Prop where
  opens : ∃ t more, ts = t :: more ∧ Parser.opensDeclarator t.lexeme = true
  inside : ∀ t ∈ ts, t.lexeme ≠ .ending
  accepted : ∃ semicolon ending, semicolon.lexeme = .punctuator .semicolon ∧
    ending.lexeme = .ending ∧
    outcome? file lines options (rowTokens words ts [] semicolon ++ [ending]) Parser.program =
      some (.ok ⟨[.var v]⟩)

/-- **Tokens that declare a variable on their own are tokens that declare it**, in any source of the
same file. -/
theorem DeclaresAlone.variableTokens (h : DeclaresAlone file lines options words ts v)
    (hw : SpecifierTokens words sp) (last : ending.lexeme = .ending) :
    Parser.VariableTokens ⟨file, lines, options, ending⟩ sp ts v := by
  obtain ⟨opens, inside, semicolon, ending', mark, last', accepted⟩ := h
  have closed : (⟨file, lines, options, ending'⟩ : Setting).Closed := last'
  have noEnding := noEnding_rowTokens hw inside (List.forall_mem_nil _) (List.forall_mem_nil _) mark
  obtain ⟨q, whole⟩ := (outcome?_eq_ok_iff noEnding last').1 accepted
  obtain ⟨unit, done⟩ := Parser.unit_of_program closed whole
  exact .of_unit closed last hw opens mark unit done

theorem DeclaresAlone.inside_of_forall₂
    (h : List.Forall₂ (fun part u => DeclaresAlone file lines options words part.2 u) more vs) :
    ∀ part ∈ more, ∀ t ∈ part.2, t.lexeme ≠ .ending := by
  induction h with
  | nil => exact List.forall_mem_nil _
  | cons alone _ ih => exact List.forall_mem_cons.2 ⟨alone.inside, ih⟩

/-- A source that is read as one declaration up to its end is a program of its units. -/
theorem outcome?_of_unit (inside : ∀ t ∈ ts, t.lexeme ≠ .ending) (last : ending.lexeme = .ending)
    {us : List (TopLevel String)} (read : ∃ names',
      Parser.unit ⟨file, lines, options, ending⟩ ⟨ts, []⟩ = .ok us ⟨[], names'⟩) :
    outcome? file lines options (ts ++ [ending]) Parser.program = some (.ok ⟨us⟩) := by
  have closed : (⟨file, lines, options, ending⟩ : Setting).Closed := last
  obtain ⟨names', read⟩ := read
  exact (outcome?_eq_ok_iff inside last).2 ⟨_, Parser.program_of_unit closed read rfl⟩

/-- **A row of declarators declares what each of them declares alone.**  Let the tokens `words` be a
specifier, and let each part of a row with this specifier in front of it and a semicolon behind be a
program of one variable.  Then the row is a program of these variables; in a block, in front of
anything, it is their declarations, so it is the body of any function with an empty one; and in a
struct it is the members, unless the variables are static or have initial values. -/
theorem row_of_alone {e₀ : Token} {names : List String} (last₀ : e₀.lexeme = .ending)
    (full : Parser.specifier ⟨file, lines, options, e₀⟩ ⟨words, []⟩ = .ok sp ⟨[], names⟩)
    (alone : DeclaresAlone file lines options words first v)
    (commas : ∀ part ∈ more, part.1.lexeme = .punctuator .comma)
    (others : List.Forall₂ (fun part u => DeclaresAlone file lines options words part.2 u) more vs)
    (mark : semicolon.lexeme = .punctuator .semicolon) (last : ending.lexeme = .ending) :
    outcome? file lines options (rowTokens words first more semicolon ++ [ending]) Parser.program =
        some (.ok ⟨(v :: vs).map .var⟩) ∧
      (∀ (nested : Parser (Stmt String)) (before : List (Stmt String)) (after : List Token)
        (names : List String), ∃ names',
        Parser.blockItem nested before ⟨file, lines, options, ending⟩
            ⟨rowTokens words first more semicolon ++ after, names⟩ =
          .ok (.yield (before ++ (v :: vs).map .declaration)) ⟨after, names'⟩) ∧
      (∀ (header : List Token) (opening closing ending' : Token) (f : Function String),
        (∀ t ∈ header, t.lexeme ≠ .ending) → opening.lexeme = .punctuator .braceOpen →
        closing.lexeme = .punctuator .braceClose → ending'.lexeme = .ending →
        outcome? file lines options (header ++ [opening, closing] ++ [ending']) Parser.program =
          some (.ok ⟨[.function f]⟩) →
        outcome? file lines options
            (header ++ opening :: (rowTokens words first more semicolon ++ [closing]) ++ [ending])
            Parser.program =
          some (.ok ⟨[.function { f with body := some ⟨(v :: vs).map .declaration⟩ }]⟩)) ∧
      (sp.isStatic = false → (∀ u ∈ v :: vs, u.initializer = none) →
        ∀ (opening closing : List Token) (tag : String),
        opening.map Token.lexeme = [.keyword .structWord, .identifier tag, .punctuator .braceOpen] →
        closing.map Token.lexeme = [.punctuator .braceClose, .punctuator .semicolon] →
        outcome? file lines options
            (opening ++ (rowTokens words first more semicolon ++ closing) ++ [ending])
            Parser.program =
          some (.ok ⟨[.struct ⟨tag, (v :: vs).map Variable.declaration⟩]⟩)) := by
  have closed₀ : (⟨file, lines, options, e₀⟩ : Setting).Closed := last₀
  have closed : (⟨file, lines, options, ending⟩ : Setting).Closed := last
  have hw : SpecifierTokens words sp := .of_specifier closed₀ full
  have row : Parser.RowTokens ⟨file, lines, options, ending⟩ sp first more v vs :=
    ⟨alone.variableTokens hw last, commas, others.imp fun _ _ h => h.variableTokens hw last⟩
  have noEnding := noEnding_rowTokens hw alone.inside commas
    (DeclaresAlone.inside_of_forall₂ others) mark
  refine ⟨?_, fun nested before after names => ?_,
    fun header opening closing ending' f inside brace close last' empty => ?_,
    fun dynamic bare opening closing tag spelledOpening spelledClosing => ?_⟩
  · exact outcome?_of_unit noEnding last (Parser.unit_of_row closed hw row mark [] [])
  · rw [rowTokens_append]
    exact Parser.blockItem_of_row closed hw row mark after nested before names
  · have closed' : (⟨file, lines, options, ending'⟩ : Setting).Closed := last'
    have noEnding' : ∀ t ∈ header ++ [opening, closing], t.lexeme ≠ .ending := by
      simpa [or_imp, forall_and, brace, close] using inside
    obtain ⟨⟨left, names₁⟩, whole⟩ := (outcome?_eq_ok_iff noEnding' last').1 empty
    obtain ⟨unit, rfl⟩ := Parser.unit_of_program closed' whole
    refine outcome?_of_unit ?_ last ?_
    · simpa [or_imp, forall_and, brace, close] using And.intro inside noEnding
    · rw [rowTokens_append]
      exact Parser.unit_of_body closed' last brace close unit
        (Parser.block_of_row closed hw row mark brace close)
  · simp only [List.map_eq_cons_iff, List.map_eq_nil_iff] at spelledOpening spelledClosing
    obtain ⟨word, _, rfl, hw', name, _, rfl, hn, brace, _, rfl, hb, rfl⟩ := spelledOpening
    obtain ⟨close, _, rfl, hc, stop, _, rfl, hs, rfl⟩ := spelledClosing
    refine outcome?_of_unit ?_ last ?_
    · simpa [or_imp, forall_and, hw', hn, hb, hc, hs] using noEnding
    · rw [rowTokens_append]
      exact Parser.unit_of_members closed hw row mark dynamic bare hw' hn hb hc hs []

/-- The row `int *x, y[2];` as a source, in the function `f` and in the struct `T`. -/
theorem row_of_alone_pointer_and_array : ∃ (row : List Token) (x y : Variable String),
    row.map Token.lexeme = [.keyword .int, .punctuator .star, .identifier "x", .punctuator .comma,
      .identifier "y", .punctuator .bracketOpen, .number 2, .punctuator .bracketClose,
      .punctuator .semicolon] ∧
    x.declaration.shape = .pointer .plain ∧ y.declaration.shape = .array .plain (some 2) ∧
    outcome? "" [] {} (row ++ [⟨.ending, 1, 1⟩]) Parser.program = some (.ok ⟨[.var x, .var y]⟩) ∧
    outcome? "" [] {} (([.keyword .void, .identifier "f", .punctuator .parenOpen,
          .punctuator .parenClose] : List Lexeme).map (⟨·, 1, 1⟩) ++
          ⟨.punctuator .braceOpen, 1, 1⟩ :: (row ++ [⟨.punctuator .braceClose, 1, 1⟩]) ++
          [⟨.ending, 1, 1⟩]) Parser.program =
      some (.ok ⟨[.function
        { declaration := .void "f", body := some ⟨[.declaration x, .declaration y]⟩ }]⟩) ∧
    outcome? "" [] {} (([.keyword .structWord, .identifier "T",
          .punctuator .braceOpen] : List Lexeme).map (⟨·, 1, 1⟩) ++
          (row ++
            ([.punctuator .braceClose, .punctuator .semicolon] : List Lexeme).map (⟨·, 1, 1⟩)) ++
          [⟨.ending, 1, 1⟩]) Parser.program =
      some (.ok ⟨[.struct ⟨"T", [x.declaration, y.declaration]⟩]⟩) := by
  let x : Variable String := ⟨⟨{ words := [.int] }, .pointer .plain, some "x"⟩, none⟩
  let y : Variable String := ⟨⟨{ words := [.int] }, .array .plain (some 2), some "y"⟩, none⟩
  have pointer : DeclaresAlone "" [] {} [⟨.keyword .int, 1, 1⟩]
      (([.punctuator .star, .identifier "x"] : List Lexeme).map (⟨·, 1, 1⟩)) x :=
    ⟨⟨_, _, rfl, rfl⟩, by simp, ⟨.punctuator .semicolon, 1, 1⟩, ⟨.ending, 1, 1⟩, rfl, rfl, rfl⟩
  have array : DeclaresAlone "" [] {} [⟨.keyword .int, 1, 1⟩]
      (([.identifier "y", .punctuator .bracketOpen, .number 2, .punctuator .bracketClose] :
        List Lexeme).map (⟨·, 1, 1⟩)) y :=
    ⟨⟨_, _, rfl, rfl⟩, by simp, ⟨.punctuator .semicolon, 1, 1⟩, ⟨.ending, 1, 1⟩, rfl, rfl, rfl⟩
  have last : (⟨.ending, 1, 1⟩ : Token).lexeme = .ending := rfl
  have mark : (⟨.punctuator .semicolon, 1, 1⟩ : Token).lexeme = .punctuator .semicolon := rfl
  have others : List.Forall₂ (fun part u => DeclaresAlone "" [] {} _ part.2 u)
      [((⟨.punctuator .comma, 1, 1⟩ : Token), _)] [y] := .cons array .nil
  obtain ⟨program, -, body, members⟩ := row_of_alone last rfl pointer
    (List.forall_mem_singleton.2 rfl) others mark last
  refine ⟨_, x, y, ?_, rfl, rfl, program, ?_, ?_⟩
  · rfl
  · exact body _ _ _ _ { declaration := .void "f", body := some ⟨[]⟩ } (by simp) rfl rfl last rfl
  · exact members rfl (by simp [x, y]) _ _ "T" rfl rfl

end Reader

end PlainC
