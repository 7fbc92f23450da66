/-
**What a call does to the name table.**

A table only ever grows at its end, and by names that it did not hold.  A call from the start of a
row of tokens, whatever it is asked for, makes it grow by identifiers of that row and by nothing
else.  If the call ends with a tree the table holds all identifiers in front of the end, and every
symbol in the tree is one that the table has issued.

Main definitions:

* `PlainC.NameTable.whole?` — what a call from the start of a row of tokens comes to, with the table
  that it leaves.

Main results:

* `PlainC.Parser.whole_notes` — every name in a tree was noted;
* `PlainC.NameTable.whole?_names` — **a call leaves the table as it was, with the identifiers that
  were met behind it, and the symbols of its tree are in the table**.
-/

import PlainC.Proofs.Comparison.Continuation
import PlainC.Proofs.Conservation.Program
import PlainC.Proofs.Parsing.Resuming

set_option relaxedAutoImplicit false
set_option autoImplicit false

namespace PlainC

/-! ### Names of trees -/

namespace Parser

/-- Names that decide what a renamed tree is are the names of the tree. -/
theorem names_subset_of_among {N : List String} {tree : Node String}
    (among : Among Node.map N tree) : tree.names ⊆ N := by
  intro x hx
  by_contra absent
  -- two ways to replace names that differ at `x` only
  let f : String → Symbol := fun _ => ⟨0, 0, ""⟩
  let g : String → Symbol := fun y => if y = x then ⟨1, 0, ""⟩ else f y
  have same : ∀ y ∈ N, f y = g y := by
    intro y hy
    have other : y ≠ x := fun h => absent (h ▸ hy)
    exact (if_neg other).symm
  have agree := Node.map_eq_map_iff.1 (among f g same) x hx
  simp [f, g] at agree

theorem program_notes {N : List String} : Notes N program (Among Program.map N) := by
  intro s p P q read
  unfold program units at read
  dsimp only at read
  split at read
  · rename_i whole
    cases read
    obtain ⟨before, units⟩ := unitsWithin_notes whole
    refine ⟨before, fun noted f g same => ?_⟩
    have each : (unitsWithin s (p.rest.length + 1) p).completed.map (TopLevel.map f) =
        (unitsWithin s (p.rest.length + 1) p).completed.map (TopLevel.map g) :=
      map_eq_of_among units fun name member => same name (noted member)
    rw [Program.map, Program.map, each]
  · cases read

theorem wholeStatement_notes {N : List String} : Notes N wholeStatement (Among Stmt.map N) := by
  have statement : Notes N statement (Among Stmt.map N) := by
    have all (n : Nat) : Notes N (statementWithin n) (Among Stmt.map N) := by
      induction n with
      | zero => exact .never fun _ _ _ _ => exhausted_ne_ok
      | succ n ih => exact statementWith_notes ih
    exact .budgeted all
  have done (st : Stmt String) : Notes N (finish >>= fun _ => pure st)
      fun b => Among Stmt.map N st → Among Stmt.map N b :=
    .skip finish_alike fun _ => .pure id
  refine .skip .current fun token => .ite ?_ (.bind statement done)
  refine .bind (.locatedAt ?_ _) done
  refine .bind localVariables_notes fun vs => ?_
  split
  · rename_i v
    refine .pure fun all f g same => congrArg Stmt.declaration ?_
    exact all v (List.mem_singleton_self v) f g same
  · exact .fail _ _

/-- Every name in a tree that is read as a whole was noted. -/
theorem whole_notes {N : List String} (goal : Goal) : Notes N (whole goal) (Among Node.map N) := by
  cases goal with
  | program =>
      exact .bind program_notes fun P => .pure fun inside f g same =>
        congrArg Node.program (inside f g same)
  | statement =>
      exact .bind wholeStatement_notes fun st => .pure fun inside f g same =>
        congrArg Node.statement (inside f g same)
  | expression =>
      have read : Notes N wholeExpression (Among Expr.map N) :=
        .bind expression_notes fun e => .skip finish_alike fun _ => .pure id
      exact .bind read fun e => .pure fun inside f g same =>
        congrArg Node.expression (inside f g same)

end Parser

/-- Every name in the tree that a call ends with was noted. -/
theorem Reader.names_subset_of_call {r : Reader} {goal : Goal} {tree : Node String}
    (read : (r.call (Parser.whole goal)).1 = .ok tree) :
    tree.names ⊆ (r.call (Parser.whole goal)).2.progress.names := by
  unfold call at read ⊢
  cases whole : Parser.whole goal r.setting r.progress with
  | error stop q =>
      rw [whole] at read
      cases read
  | ok other q =>
      rw [whole] at read
      cases read
      obtain ⟨-, among⟩ := Parser.whole_notes goal r.setting r.progress tree q whole
      exact Parser.names_subset_of_among (among (List.Subset.refl _))

/-! ### Calls -/

/-- What a call from the start of a row of tokens comes to: the table that has taken in the names
met, and the tree with the symbols of the table or the reason to stop.  The row must hold an end. -/
def NameTable.whole? (t : NameTable) (file : String) (lines : List String) (options : Options)
    (tokens : List Token) (goal : Goal) : Option (NameTable × Except Stop (Node Symbol)) :=
  (Reader.ofTokens file lines options tokens).map fun r =>
    let (result, r') := r.call (Parser.whole goal)
    Outcome.interned Node.map t ⟨result, r'.progress.names⟩

/-- **A call only adds to the table**, behind what it holds, identifiers of the row of tokens that
it did not hold, each of them once.  If the call ends with a tree, the table holds what it held
before and all identifiers in front of the first end, and every symbol in the tree was issued by the
table, which has its text at its place. -/
theorem NameTable.whole?_names {t t' : NameTable} {file : String} {lines : List String}
    {options : Options} {tokens : List Token} {goal : Goal} {outcome : Except Stop (Node Symbol)}
    (called : t.whole? file lines options tokens goal = some (t', outcome)) :
    (∃ new, t' = ⟨t.owner, t.texts ++ new⟩ ∧ new.Nodup ∧
      ∀ text ∈ new, text ∉ t.texts ∧ ∃ token ∈ tokens, token.lexeme = .identifier text) ∧
    ∀ tree, outcome = .ok tree →
      (∀ text, text ∈ t'.texts ↔
        text ∈ t.texts ∨ ∃ token ∈ tokensBeforeEnd tokens, token.lexeme = .identifier text) ∧
      ∀ s ∈ tree.names, s.owner = t'.owner ∧ t'.texts[s.index]? = some s.text := by
  obtain ⟨r, opened, ended⟩ := Option.map_eq_some_iff.1 called
  obtain ⟨met, whole⟩ := r.call_whole_keeps opened goal
  obtain ⟨new, grown, once, fresh, all⟩ :=
    t.exists_internAll_eq (r.call (Parser.whole goal)).2.progress.names
  dsimp only [Outcome.interned] at ended
  rw [grown, Prod.mk.injEq] at ended
  obtain ⟨rfl, rfl⟩ := ended
  -- the identifiers that were noted are among the tokens in front of the end
  have identifier (text : String) :
      .identifier text ∈ (tokensBeforeEnd tokens).map Token.lexeme ↔
        ∃ token ∈ tokensBeforeEnd tokens, token.lexeme = .identifier text := List.mem_map
  refine ⟨⟨new, rfl, once, fun text hx => ⟨(fresh text hx).1, ?_⟩⟩, fun tree ok => ?_⟩
  · obtain ⟨token, before, same⟩ := (identifier text).1 (met text (fresh text hx).2)
    exact ⟨token, (List.takeWhile_sublist _).subset before, same⟩
  cases read : (r.call (Parser.whole goal)).1 with
  | error stop =>
      rw [read] at ok
      cases ok
  | ok texts =>
      rw [read] at ok
      cases ok
      refine ⟨fun text => ?_, fun s hs => ?_⟩
      · rw [← identifier]
        refine ⟨fun hx => (List.mem_append.1 hx).imp_right fun added => ?_, ?_⟩
        · exact met text (fresh text added).2
        · rintro (before | here)
          · exact List.mem_append_left _ before
          · exact all ((whole texts read).2 text here)
      · rw [Node.names_map] at hs
        obtain ⟨text, hx, rfl⟩ := List.mem_map.1 hs
        exact issued_symbol (all (r.names_subset_of_call read hx))

/-- The tokens of `int f(struct s *p) { return p->n + f(p); }`, and of the same with a brace for the
semicolon, behind a table that holds some of the names; `z` stands behind the end. -/
theorem NameTable.whole?_names_function :
    let tokens := fun last : Punctuator => ([.keyword .int, .identifier "f", .punctuator .parenOpen,
      .keyword .structWord, .identifier "s", .punctuator .star, .identifier "p",
      .punctuator .parenClose, .punctuator .braceOpen, .keyword .returnWord, .identifier "p",
      .punctuator .arrow, .identifier "n", .punctuator .plus, .identifier "f",
      .punctuator .parenOpen, .identifier "p", .punctuator .parenClose, .punctuator last,
      .punctuator .braceClose, .ending, .identifier "z"] : List Lexeme).map
        fun lexeme => (⟨lexeme, 1, 1⟩ : Token)
    let t : NameTable := ⟨0, ["n", "x"]⟩
    (∃ tree, t.whole? "" [] {} (tokens .semicolon) .program =
      some (⟨0, ["n", "x", "s", "p", "f"]⟩, .ok tree) ∧
        ∀ s ∈ tree.names, s.owner = 0 ∧ ["n", "x", "s", "p", "f"][s.index]? = some s.text) ∧
    ∃ stop new, t.whole? "" [] {} (tokens .braceClose) .program =
      some (⟨0, ["n", "x"] ++ new⟩, .error stop) ∧
        ∀ text ∈ new, text ∉ ["n", "x"] ∧
          ∃ token ∈ tokens .braceClose, token.lexeme = .identifier text := by
  intro tokens t
  have reads : (t.whole? "" [] {} (tokens .semicolon) .program).map
      (fun o => (o.1, o.2.isOk)) = some (⟨0, ["n", "x", "s", "p", "f"]⟩, true) := by
    decide +kernel
  have stops : (t.whole? "" [] {} (tokens .braceClose) .program).map
      (fun o => o.2.isOk) = some false := by decide +kernel
  constructor
  · obtain ⟨⟨t', outcome⟩, called, same⟩ := Option.map_eq_some_iff.1 reads
    obtain ⟨rfl, ok⟩ := Prod.mk.inj same
    cases outcome with
    | error stop => cases ok
    | ok tree => exact ⟨tree, called, ((NameTable.whole?_names called).2 tree rfl).2⟩
  · obtain ⟨⟨t', outcome⟩, called, ok⟩ := Option.map_eq_some_iff.1 stops
    cases outcome with
    | ok tree => cases ok
    | error stop =>
        obtain ⟨new, rfl, -, fresh⟩ := (NameTable.whole?_names called).1
        exact ⟨stop, new, called, fresh⟩

end PlainC
