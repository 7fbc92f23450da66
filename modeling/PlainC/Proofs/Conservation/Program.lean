/-
**A program holds the literals of its source.**

When a source was read up to its end, all that it held has gone over: its literals stand in the
tree, in their order and with their values, and its names have been noted.  A walk over a program
meets exactly the number, character and string tokens in front of the end, as literals or as the
sizes of arrays, each of them once.

Main results:

* `PlainC.Parser.whole_keeps`, `PlainC.Parser.whole_readsAll` — the reading of a whole source keeps
  what is held, and leaves no token;
* `PlainC.Reader.call_whole_keeps` — what a tree, with the names noted, has of the tokens in front
  of the first end;
* `PlainC.NameTable.program?_literals` — **the literals of a program are those of its tokens**.
-/

import PlainC.Proofs.Comparison.Retelling
import PlainC.Proofs.Conservation.Renaming
import PlainC.Proofs.Conservation.Rules

set_option relaxedAutoImplicit false
set_option autoImplicit false

namespace PlainC

/-! ### Whole sources -/

/-- What a tree of any sort holds. -/
def Node.stock (tree : Node String) : Stock := .ofLiterals tree.literals

namespace Parser

theorem finish_keeps : Keeps 0 [] finish fun _ => 0 :=
  .look (fun _ _ => ⟨_, rfl⟩) fun _ => .ite (fun _ => .pure rfl) fun _ => .unexpected _

theorem program_keeps : Keeps 0 [] program fun P => .ofLiterals P.literals := by
  intro s p hs _
  obtain ⟨whole, noted⟩ := unitsWithin_keeps hs (p.rest.length + 1) p
  unfold program units
  cases found : (unitsWithin s (p.rest.length + 1) p).stop with
  | none =>
      simp only [found, Program.literals_eq, zero_add]
      exact whole found
  | some stop =>
      simp only [found, zero_add]
      exact noted

theorem wholeStatement_keeps : Keeps 0 [] wholeStatement Stmt.stock := by
  have done (st : Stmt String) : Keeps st.stock [] (finish >>= fun _ => pure st) Stmt.stock :=
    .skip finish_keeps fun _ => .pure rfl
  refine .current fun token => .anywhere (.ite (fun _ => ?_) fun _ => ?_)
  · refine .follow (.locatedAt ?_ _) done
    refine .follow localVariables_keeps fun vs => ?_
    split
    · exact .pure (by simp [Stmt.stock])
    · exact .fail _ _
  · exact .follow statement_keeps done

/-- The reading of a whole source keeps what is held. -/
theorem whole_keeps (goal : Goal) : Keeps 0 [] (whole goal) Node.stock := by
  cases goal with
  | program => exact .follow program_keeps fun P => .pure rfl
  | statement => exact .follow wholeStatement_keeps fun st => .pure rfl
  | expression =>
      have read : Keeps 0 [] wholeExpression Expr.stock :=
        .follow expression_keeps fun e => .skip finish_keeps fun _ => .pure rfl
      exact .follow read fun e => .pure rfl

end Parser

/-- Where the units are read without a fault, no token is left. -/
theorem unitsWithin_readsAll {s : Setting} {n : Nat} {p : Progress}
    (whole : (unitsWithin s n p).stop = none) : (unitsWithin s n p).progress.rest = [] := by
  induction n generalizing p with
  | zero => cases whole
  | succ n ih =>
      unfold unitsWithin at whole ⊢
      split
      · rename_i empty
        exact List.isEmpty_iff.1 empty
      · rename_i more
        rw [if_neg more] at whole
        split
        · rename_i stopped
          rw [stopped] at whole
          cases whole
        · rename_i read
          rw [read] at whole
          exact ih whole

/-- The reading of a whole source leaves no token. -/
theorem Parser.whole_readsAll {goal : Goal} {s : Setting} {p q : Progress} {tree : Node String}
    (read : whole goal s p = .ok tree q) : q.rest = [] := by
  have finished {α : Type} {x : Parser α} {a : α} {p q : Progress}
      (h : (x >>= fun a => finish >>= fun _ => pure a) s p = .ok a q) : q.rest = [] := by
    obtain ⟨_, r, -, h⟩ := bind_eq_ok_iff.1 h
    obtain ⟨_, r', last, h⟩ := bind_eq_ok_iff.1 h
    obtain ⟨-, rfl⟩ := pure_eq_ok_iff.1 h
    obtain ⟨none, rfl⟩ := finish_eq_ok_iff.1 last
    exact none
  cases goal with
  | program =>
      obtain ⟨P, r, first, h⟩ := bind_eq_ok_iff.1 (read : (program >>= fun P => _) s p = _)
      obtain ⟨-, rfl⟩ := pure_eq_ok_iff.1 h
      unfold program units at first
      dsimp only at first
      split at first
      · rename_i whole
        cases first
        exact unitsWithin_readsAll whole
      · cases first
  | statement =>
      obtain ⟨st, r, first, h⟩ := bind_eq_ok_iff.1 (read : (wholeStatement >>= fun st => _) s p = _)
      obtain ⟨-, rfl⟩ := pure_eq_ok_iff.1 h
      rw [wholeStatement, current_bind] at first
      split at first
      · exact finished first
      · exact finished first
  | expression =>
      obtain ⟨e, r, first, h⟩ := bind_eq_ok_iff.1 (read : (wholeExpression >>= fun e => _) s p = _)
      obtain ⟨-, rfl⟩ := pure_eq_ok_iff.1 h
      exact finished first

/-! ### The tokens in front of the end -/

/-- The tokens in front of the first end. -/
def tokensBeforeEnd (tokens : List Token) : List Token := tokens.takeWhile (!Reader.isEnding ·)

/-- A reader at the start of a row of tokens has noted nothing, and sees the tokens in front of the
first end. -/
theorem Reader.opened_eq {file : String} {lines : List String} {options : Options}
    {tokens : List Token} {r : Reader} (opened : ofTokens file lines options tokens = some r) :
    r.setting.Closed ∧ r.progress = ⟨tokensBeforeEnd tokens, []⟩ := by
  obtain ⟨ending, found, rfl⟩ := Option.map_eq_some_iff.1 opened
  exact ⟨by simpa [Setting.Closed, isEnding] using List.find?_some found, rfl⟩

/-- What some lexemes hold: their literals in order, and the texts of their identifiers. -/
theorem literals_sum_stock (ls : List Lexeme) :
    (ls.map Lexeme.stock).sum.literals = ls.filterMap Literal.ofLexeme? := by
  induction ls with
  | nil => rfl
  | cons l ls ih =>
      rw [List.map_cons, List.sum_cons, Stock.literals_add, ih]
      cases l <;> rfl

theorem mem_names_sum_stock {ls : List Lexeme} {name : String} :
    name ∈ (ls.map Lexeme.stock).sum.names ↔ .identifier name ∈ ls := by
  induction ls with
  | nil => simp
  | cons l ls ih =>
      rw [List.map_cons, List.sum_cons, Stock.names_add, Multiset.mem_add, ih, List.mem_cons]
      cases l <;> simp [Lexeme.stock]

/-- Whether it ends with a tree or with a fault, a call from the start of a row of tokens notes
names of identifiers only.  If it ends with a tree, this holds the literals in front of the first
end, and all identifiers there have been noted. -/
theorem Reader.call_whole_keeps {file : String} {lines : List String} {options : Options}
    {tokens : List Token} {r : Reader} (opened : ofTokens file lines options tokens = some r)
    (goal : Goal) :
    (∀ name ∈ (r.call (Parser.whole goal)).2.progress.names,
      .identifier name ∈ (tokensBeforeEnd tokens).map Token.lexeme) ∧
    ∀ tree, (r.call (Parser.whole goal)).1 = .ok tree →
      tree.literals = ((tokensBeforeEnd tokens).map Token.lexeme).filterMap Literal.ofLexeme? ∧
      ∀ name, .identifier name ∈ (tokensBeforeEnd tokens).map Token.lexeme →
        name ∈ (r.call (Parser.whole goal)).2.progress.names := by
  obtain ⟨closed, start⟩ := opened_eq opened
  have kept := Parser.whole_keeps goal r.setting r.progress closed trivial
  have held : r.progress.stock =
      (((tokensBeforeEnd tokens).map Token.lexeme).map Lexeme.stock).sum := by
    rw [start]
    exact zero_add _
  rw [held, zero_add] at kept
  unfold call
  cases read : Parser.whole goal r.setting r.progress with
  | error stop q =>
      rw [read] at kept
      exact ⟨fun name noted => mem_names_sum_stock.1 (kept name noted), nofun⟩
  | ok tree q =>
      simp only [read] at kept
      have left : q.stock = .ofNames (q.names : Multiset String) := by
        rw [Progress.stock, Progress.lexemes, Parser.whole_readsAll read]
        exact add_zero _
      rw [left] at kept
      have names := congrArg Stock.names kept
      refine ⟨fun name noted => ?_, ?_⟩
      · rw [← mem_names_sum_stock, ← names]
        exact Multiset.mem_add.2 (.inr noted)
      · rintro _ ⟨⟩
        refine ⟨?_, fun name member => ?_⟩
        · rw [← literals_sum_stock, ← kept]
          exact (List.append_nil _).symm
        · rw [← mem_names_sum_stock, ← names] at member
          exact (Multiset.mem_add.1 member).resolve_left (Multiset.notMem_zero name)

/-- A call whose tree is made of another one. -/
theorem Reader.call_andPure {α β : Type} (r : Reader) (x : Parser α) (f : α → β) :
    r.call (x >>= fun a => pure (f a)) = ((r.call x).1.map f, (r.call x).2) := by
  unfold call
  cases read : x r.setting r.progress <;>
    simp [bind, ReaderT.bind, EStateM.bind, read, pure, ReaderT.pure, EStateM.pure, Except.map]

/-- A call for a tree is a call for a program when that is what is asked for. -/
theorem Reader.call_whole_program (r : Reader) :
    r.call (Parser.whole .program) =
      ((r.call Parser.program).1.map Node.program, (r.call Parser.program).2) :=
  r.call_andPure Parser.program Node.program

/-- And it is a call for an expression when that is what is asked for. -/
theorem Reader.call_whole_expression (r : Reader) :
    r.call (Parser.whole .expression) =
      ((r.call Parser.wholeExpression).1.map Node.expression,
        (r.call Parser.wholeExpression).2) :=
  r.call_andPure Parser.wholeExpression Node.expression

/-! ### Literals of programs -/

theorem Node.ownLiterals_map {ν μ : Type} (f : ν → μ) (tree : Node ν) :
    (tree.map f).ownLiterals = tree.ownLiterals := by
  cases tree with
  | expression e => cases e <;> rfl
  | _ => rfl

/-- A tree keeps its literals when its names are replaced. -/
theorem Node.literals_map {ν μ : Type} (f : ν → μ) (tree : Node ν) :
    (tree.map f).literals = tree.literals := by
  rw [literals, literalsMet, walk_map, List.flatMap_map,
    List.flatMap_congr fun t _ => ownLiterals_map f t]
  rfl

/-- **The literals of a program are those of its tokens**: a walk over all of it meets the number,
character and string tokens in front of the first end, with their values and in their order, as
literals or as the sizes of the arrays of a declaration, outermost first. -/
theorem NameTable.program?_literals {t t' : NameTable} {file : String} {lines : List String}
    {options : Options} {tokens : List Token} {P : Program Symbol}
    (read : t.program? file lines options tokens = some (t', .ok P)) :
    ((Node.program P).walk fun _ => true).flatMap Node.ownLiterals =
      (tokensBeforeEnd tokens).filterMap fun token => Literal.ofLexeme? token.lexeme := by
  obtain ⟨r, opened, called⟩ := Option.map_eq_some_iff.1 read
  dsimp only at called
  cases found : (r.call Parser.program).1 with
  | error stop =>
      rw [found] at called
      cases called
  | ok tree =>
      rw [found] at called
      cases called
      have kept := ((r.call_whole_keeps opened .program).2 (.program tree) (by
        rw [r.call_whole_program, found]
        rfl)).1
      rw [List.filterMap_map] at kept
      exact (Node.literals_map _ (.program tree)).trans kept

/-- The tokens of `int x[2][3] = 4; char *f(long n) { return g("a", 'b') + sizeof(char[5]); }`. -/
theorem NameTable.program?_literals_nested :
    let tokens : List Token := ([.keyword .int, .identifier "x", .punctuator .bracketOpen,
      .number 2, .punctuator .bracketClose, .punctuator .bracketOpen, .number 3,
      .punctuator .bracketClose, .punctuator .assign, .number 4, .punctuator .semicolon,
      .keyword .char, .punctuator .star, .identifier "f", .punctuator .parenOpen, .keyword .long,
      .identifier "n", .punctuator .parenClose, .punctuator .braceOpen, .keyword .returnWord,
      .identifier "g", .punctuator .parenOpen, .string "a", .punctuator .comma, .character 98,
      .punctuator .parenClose, .punctuator .plus, .keyword .sizeof, .punctuator .parenOpen,
      .keyword .char, .punctuator .bracketOpen, .number 5, .punctuator .bracketClose,
      .punctuator .parenClose, .punctuator .semicolon, .punctuator .braceClose, .ending,
      .number 6] : List Lexeme).map (⟨·, 1, 1⟩)
    ∃ t P, (NameTable.empty 0).program? "" [] {} tokens = some (t, .ok P) ∧
      ((Node.program P).walk fun _ => true).flatMap Node.ownLiterals =
        [.int 2, .int 3, .int 4, .string "a", .char 98, .int 5] := by
  intro tokens
  have succeeds : ((((NameTable.empty 0).program? "" [] {} tokens).map fun o => o.2.isOk) =
      some true) := by decide +kernel
  obtain ⟨⟨t, result⟩, read, ok⟩ := Option.map_eq_some_iff.1 succeeds
  cases result with
  | error stop => cases ok
  | ok P => exact ⟨t, P, read, (NameTable.program?_literals read).trans (by decide)⟩

end PlainC
