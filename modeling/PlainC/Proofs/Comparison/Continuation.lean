/-
**Programs one behind the other.**

A row of tokens that is a program can be continued by another row.  Read as a whole, the two are the
units of the first program, and behind them what reading the second row comes to with the name table
that the first one has left: the same units with the same symbols, or the same fault.

Main results:

* `PlainC.Units.interned_behind` — units behind others have the symbols that the table would give
  them behind the names of those others;
* `PlainC.NameTable.program?_append` — **a program that is continued is read as it was, and then
  the rest is read**.
-/

import PlainC.Proofs.Comparison.Extension
import PlainC.Proofs.Comparison.Noting
import PlainC.Proofs.Naming.Table

set_option relaxedAutoImplicit false
set_option autoImplicit false

namespace PlainC

/-! ### Units and tables -/

/-- What reading some units comes to: the table that has taken in the names met, and the program
with the symbols of the table or the reason to stop. -/
def Units.interned (t : NameTable) (u : Units) : NameTable × Except Stop (Program Symbol) :=
  let t' := t.internAll u.progress.names
  (t', match u.stop with
    | none => .ok ((⟨u.completed⟩ : Program String).map t'.symbol)
    | some stop => .error stop)

/-- Reading a row of tokens as a program comes to its units, taken into the table. -/
theorem NameTable.program?_of_opened (t : NameTable) {file : String} {lines : List String}
    {o : Options} {tokens : List Token} {r : Reader}
    (opened : Reader.ofTokens file lines o tokens = some r) :
    t.program? file lines o tokens = some ((Parser.units r.setting r.progress).interned t) := by
  rw [program?, opened, Option.map_some, Reader.call, Parser.program]
  generalize Parser.units r.setting r.progress = u
  rcases u with ⟨completed, _ | stop, progress⟩ <;> rfl

theorem NameTable.program?_closed (t : NameTable) (file : String) (lines : List String)
    (o : Options) {ts : List Token} {e : Token} (inside : ∀ t ∈ ts, t.lexeme ≠ .ending)
    (last : e.lexeme = .ending) :
    t.program? file lines o (ts ++ [e]) =
      some ((Parser.units ⟨file, lines, o, e⟩ ⟨ts, []⟩).interned t) :=
  t.program?_of_opened (Reader.ofTokens_closed file lines o inside last)

/-- The units of two rows of tokens, the first of which is read up to its end. -/
theorem Parser.units_append {s : Setting} (closed : s.Closed) {ts : List Token}
    (whole : (units s ⟨ts, []⟩).stop = none) {ending : Token} (closed' : ending.lexeme = .ending)
    (ts' : List Token) :
    units (s.endingAt ending) ⟨ts ++ ts', []⟩ =
      ((units (s.endingAt ending) ⟨ts', []⟩).retold id (units s ⟨ts, []⟩).progress.names).behind
        (units s ⟨ts, []⟩).completed := by
  have both := unitsWithin_extends closed whole closed' ts'
  have behind : units (s.endingAt ending) ⟨ts', (units s ⟨ts, []⟩).progress.names⟩ =
      (units (s.endingAt ending) ⟨ts', []⟩).retold id (units s ⟨ts, []⟩).progress.names := by
    have told := unitsWithin_retells .same (s.endingAt ending) (units s ⟨ts, []⟩).progress.names
      (ts'.length + 1) ⟨ts', []⟩
    rwa [Progress.after, List.append_nil] at told
  rw [← behind]
  exact both

/-- Units behind others have the symbols that the table would give them behind the names of those
others, and these keep the symbols that they have. -/
theorem Units.interned_behind (t : NameTable) {completed : List (TopLevel String)}
    {names : List String} (noted : ∀ u ∈ completed, Among TopLevel.map names u) (u : Units) :
    ((u.retold id names).behind completed).interned t =
      let (t₂, result) := u.interned (t.internAll names)
      (t₂, result.map fun P =>
        ⟨completed.map (TopLevel.map (t.internAll names).symbol) ++ P.units⟩) := by
  rcases u with ⟨more, stop, q⟩
  have table : t.internAll (names ++ q.names) = (t.internAll names).internAll q.names :=
    NameTable.internAll_append t names q.names
  have first : completed.map (TopLevel.map ((t.internAll names).internAll q.names).symbol) =
      completed.map (TopLevel.map (t.internAll names).symbol) :=
    List.map_congr_left fun u member =>
      noted u member _ _ fun name inside => NameTable.symbol_internAll inside q.names
  cases stop with
  | none =>
      simp only [interned, retold, behind, Progress.after, table, Except.map, Program.map,
        List.map_append, first, TopLevel.mapStmts_id, List.map_id_fun, id]
  | some stop =>
      simp only [interned, retold, behind, Progress.after, table, Except.map]

/-- **A program that is continued is read as it was, and then the rest is read**, with the name
table that the program has left. -/
theorem NameTable.program?_append {t t₁ : NameTable} {file : String} {lines : List String}
    {o : Options} {ts₁ ts₂ : List Token} {e₁ e₂ : Token} {P₁ : Program Symbol}
    (inside₁ : ∀ t ∈ ts₁, t.lexeme ≠ .ending) (inside₂ : ∀ t ∈ ts₂, t.lexeme ≠ .ending)
    (last₁ : e₁.lexeme = .ending) (last₂ : e₂.lexeme = .ending)
    (read : t.program? file lines o (ts₁ ++ [e₁]) = some (t₁, .ok P₁)) :
    t.program? file lines o (ts₁ ++ ts₂ ++ [e₂]) =
      (t₁.program? file lines o (ts₂ ++ [e₂])).map fun (t₂, result) =>
        (t₂, result.map fun P₂ => ⟨P₁.units ++ P₂.units⟩) := by
  have insideBoth : ∀ t ∈ ts₁ ++ ts₂, t.lexeme ≠ .ending :=
    List.forall_mem_append.2 ⟨inside₁, inside₂⟩
  rw [program?_closed t file lines o inside₁ last₁, Option.some.injEq] at read
  rw [program?_closed t file lines o insideBoth last₂,
    program?_closed t₁ file lines o inside₂ last₂, Option.map_some, Option.some.injEq]
  cases whole : (Parser.units ⟨file, lines, o, e₁⟩ ⟨ts₁, []⟩).stop with
  | some stop =>
      rw [Units.interned, whole] at read
      cases read
  | none =>
      rw [Units.interned, whole] at read
      cases read
      have both := Parser.units_append (s := ⟨file, lines, o, e₁⟩) last₁ whole last₂ ts₂
      rw [Setting.endingAt] at both
      rw [both]
      exact Units.interned_behind t (unitsWithin_notes whole).2 _

/-- The tokens of `int x;` and of `int y = x;`, behind a name that the table holds before. -/
theorem NameTable.program?_append_variables :
    let tokens := (fun lexemes => List.map (⟨·, 1, 1⟩) lexemes : List Lexeme → List Token)
    let ts₁ := tokens [.keyword .int, .identifier "x", .punctuator .semicolon]
    let ts₂ := tokens [.keyword .int, .identifier "y", .punctuator .assign, .identifier "x",
      .punctuator .semicolon]
    let ending : Token := ⟨.ending, 1, 1⟩
    let t : NameTable := ⟨0, ["z"]⟩
    let x : Symbol := ⟨0, 1, "x"⟩
    let y : Symbol := ⟨0, 2, "y"⟩
    let first : TopLevel Symbol := .var ⟨⟨⟨false, false, [.int]⟩, .plain, some x⟩, none⟩
    let second : TopLevel Symbol :=
      .var ⟨⟨⟨false, false, [.int]⟩, .plain, some y⟩, some (.var x)⟩
    (∀ t ∈ ts₁, t.lexeme ≠ .ending) ∧ (∀ t ∈ ts₂, t.lexeme ≠ .ending) ∧
      t.program? "" [] {} (ts₁ ++ [ending]) = some (⟨0, ["z", "x"]⟩, .ok ⟨[first]⟩) ∧
      t.program? "" [] {} (ts₁ ++ ts₂ ++ [ending]) =
        some (⟨0, ["z", "x", "y"]⟩, .ok ⟨[first, second]⟩) := by
  intro tokens ts₁ ts₂ ending t x y first second
  have inside₁ : ∀ t ∈ ts₁, t.lexeme ≠ .ending := by decide
  have inside₂ : ∀ t ∈ ts₂, t.lexeme ≠ .ending := by decide
  have before : t.program? "" [] {} (ts₁ ++ [ending]) =
      some (⟨0, ["z", "x"]⟩, .ok ⟨[first]⟩) := by decide +kernel
  have behind : (⟨0, ["z", "x"]⟩ : NameTable).program? "" [] {} (ts₂ ++ [ending]) =
      some (⟨0, ["z", "x", "y"]⟩, .ok ⟨[second]⟩) := by decide +kernel
  refine ⟨inside₁, inside₂, before, ?_⟩
  exact (program?_append inside₁ inside₂ rfl rfl before).trans (by rw [behind]; rfl)

end PlainC
