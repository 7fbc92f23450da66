/-
**A row of declarators behind one specifier.**

Rows of declarators are read in three places: at the outermost level, where the first declarator
could still be that of a function; in a block; and in a struct, where no initial values stand.  All
three go on behind a comma with the same specifier and a declarator of its own, so what each
declarator declares does not depend on those in front of it.  A row of tokens that declare variables
is therefore read as these variables, in their order, in each of the three places.

Main definitions:

* `PlainC.SpecifierTokens` — the tokens of a specifier;
* `PlainC.behindCommas` — the tokens of a row, a comma in front of each part;
* `PlainC.Parser.RowTokens` — a row of tokens that declare variables behind the same specifier.

Main results:

* `PlainC.Parser.moreAfterCommas_of_row` — a row is read part by part;
* `PlainC.Parser.unit_of_row`, `PlainC.Parser.localVariables_of_row`,
  `PlainC.Parser.structMembers_of_row` — **a row of tokens that declare variables is read as these
  variables** at the outermost level, in a block and in a struct.
-/

import PlainC.Proofs.Declaring.Variable

set_option relaxedAutoImplicit false
set_option autoImplicit false

namespace PlainC

/-- What begins a declarator begins no declaration. -/
theorem Parser.startsDeclaration_of_opens {l : Lexeme} (opens : opensDeclarator l = true) :
    l.startsDeclaration = false ∧ l ≠ .punctuator .braceOpen := by
  unfold opensDeclarator at opens
  split at opens <;> first | exact ⟨rfl, by simp⟩ | cases opens

/-! ### The tokens of a specifier -/

/-- The tokens of a specifier, whose words name a type. -/
structure SpecifierTokens (words : List Token) (sp : Specifier String) : Prop where
  items : ∃ items : List SpecifierItem, .ofItems items = sp ∧ items.all SpecifierItem.hasSpelling ∧
    words.map Token.lexeme = items.flatMap SpecifierItem.spelling
  resolved : (TypeWord.resolve sp.words).isOk

namespace SpecifierTokens

variable {s : Setting} {words rest : List Token} {sp : Specifier String}

/-- What is read as a specifier up to the end of a source are the tokens of this specifier. -/
theorem of_specifier (hs : s.Closed) {names names' : List String}
    (read : Parser.specifier s ⟨words, names⟩ = .ok sp ⟨[], names'⟩) :
    SpecifierTokens words sp := by
  obtain ⟨items, whole, spelled, lexemes, resolved⟩ := Parser.exists_items hs read
  exact ⟨⟨items, whole, spelled, lexemes.trans (List.append_nil _)⟩, resolved⟩

/-- The tokens of a specifier are read in front of any declarator. -/
theorem reads (h : SpecifierTokens words sp)
    (opens : Parser.opensDeclarator (s.front (rest.map Token.lexeme)) = true)
    (names : List String) :
    ∃ names', Parser.specifier s ⟨words ++ rest, names⟩ = .ok sp ⟨rest, names'⟩ := by
  obtain ⟨⟨items, rfl, spelled, lexemes⟩, resolved⟩ := h
  obtain ⟨stop, noBrace⟩ := Parser.startsDeclaration_of_opens opens
  have takes := Parser.takes_specifier_of_items spelled resolved stop noBrace
  rw [← lexemes, ← List.map_append] at takes
  obtain ⟨_, names', read, rfl⟩ := takes.leaves Parser.specifier_advances names
  exact ⟨names', read⟩

/-- A specifier begins like a declaration. -/
theorem exists_cons (h : SpecifierTokens words sp) :
    ∃ t more, words = t :: more ∧ t.lexeme.startsDeclaration = true := by
  obtain ⟨⟨items, rfl, spelled, lexemes⟩, resolved⟩ := h
  rcases items with _ | ⟨item, items⟩
  · cases resolved
  rw [List.all_cons, Bool.and_eq_true] at spelled
  obtain ⟨l, ls, first, starts⟩ : ∃ l ls, item.spelling = l :: ls ∧ l.startsDeclaration = true := by
    cases item with
    | static | const => exact ⟨_, _, rfl, rfl⟩
    | word w => cases w <;> first | exact ⟨_, _, rfl, rfl⟩ | cases spelled.1
  rw [List.flatMap_cons, first, List.cons_append] at lexemes
  obtain ⟨t, more, rfl, same, -⟩ := List.map_eq_cons_iff.1 lexemes
  exact ⟨t, more, rfl, same ▸ starts⟩

/-- There is no end of a source in a specifier. -/
theorem noEnding (h : SpecifierTokens words sp) : ∀ t ∈ words, t.lexeme ≠ .ending := by
  obtain ⟨⟨items, -, -, lexemes⟩, -⟩ := h
  intro t inside same
  have met : Lexeme.ending ∈ words.map Token.lexeme := same ▸ List.mem_map_of_mem inside
  rw [lexemes] at met
  obtain ⟨item, -, met⟩ := List.mem_flatMap.1 met
  cases item with
  | static | const => simp [SpecifierItem.spelling] at met
  | word w => cases w <;> simp [SpecifierItem.spelling, TypeWord.spelling] at met

end SpecifierTokens

/-! ### Rows -/

/-- The tokens of a row of parts, each of which is given with the comma in front of it. -/
def behindCommas (more : List (Token × List Token)) : List Token :=
  more.flatMap fun part => part.1 :: part.2

namespace Parser

variable {α : Type} {s : Setting} {sp : Specifier String} {words first : List Token}
variable {more : List (Token × List Token)} {v : Variable String} {vs : List (Variable String)}
variable {semicolon : Token}

/-- In front of a semicolon, a row begins with a comma or is nothing. -/
theorem behindCommas_append (commas : ∀ part ∈ more, part.1.lexeme = .punctuator .comma)
    (mark : semicolon.lexeme = .punctuator .semicolon) (after : List Token) :
    ∃ t rest, behindCommas more ++ semicolon :: after = t :: rest ∧ endsVariable t.lexeme := by
  cases more with
  | nil => exact ⟨semicolon, after, rfl, .inl mark⟩
  | cons part more =>
      exact ⟨part.1, _, rfl, .inr (commas part (List.mem_cons_self ..))⟩

theorem Finds.in_row {item : Parser α} {ts : List Token} {a : α} (h : Finds s item ts a)
    (commas : ∀ part ∈ more, part.1.lexeme = .punctuator .comma)
    (mark : semicolon.lexeme = .punctuator .semicolon) (after : List Token) (names : List String) :
    ∃ names', item s ⟨ts ++ (behindCommas more ++ semicolon :: after), names⟩ =
      .ok a ⟨behindCommas more ++ semicolon :: after, names'⟩ := by
  obtain ⟨t, rest, behind, ends⟩ := behindCommas_append commas mark after
  rw [behind]
  exact h t rest names ends

section

variable {item : Parser α} {as : List α} (hs : s.Closed) (advances : Advances item)
  (commas : ∀ part ∈ more, part.1.lexeme = .punctuator .comma)
  (row : List.Forall₂ (fun part a => Finds s item part.2 a) more as)
  (mark : semicolon.lexeme = .punctuator .semicolon)
include hs advances commas row mark

/-- A row is read part by part. -/
theorem moreAfterCommas_of_row (after : List Token) (before : List α) (names : List String) :
    ∃ names', moreAfterCommas item before s ⟨behindCommas more ++ semicolon :: after, names⟩ =
      .ok (before ++ as) ⟨semicolon :: after, names'⟩ := by
  simp only [moreAfterCommas_eq_ok_iff hs advances.length_le]
  induction row generalizing before names with
  | nil =>
      rw [List.append_nil]
      refine ⟨names, .last ?_⟩
      change semicolon.lexeme ≠ _
      simp [mark]
  | @cons part a more as here _ ih =>
      obtain ⟨comma, commas⟩ := List.forall_mem_cons.1 commas
      obtain ⟨names₁, read⟩ := here.in_row commas mark after names
      obtain ⟨names₂, others⟩ := ih commas (before ++ [a]) names₁
      rw [List.append_assoc] at others
      have whole : behindCommas (part :: more) ++ semicolon :: after =
          part.1 :: (part.2 ++ (behindCommas more ++ semicolon :: after)) := by
        simp [behindCommas]
      rw [whole]
      exact ⟨names₂, .next comma read others⟩

/-- So is a row with a first part that has no comma in front of it. -/
theorem commaSeparated_of_row {a : α} (here : Finds s item first a) (after : List Token)
    (names : List String) :
    ∃ names', commaSeparated item s ⟨first ++ (behindCommas more ++ semicolon :: after), names⟩ =
      .ok (a :: as) ⟨semicolon :: after, names'⟩ := by
  obtain ⟨names₁, read⟩ := here.in_row commas mark after names
  obtain ⟨names₂, others⟩ :=
    moreAfterCommas_of_row hs advances commas row mark after [a] names₁
  exact ⟨names₂, (bind_of_ok read _).trans others⟩

end

/-! ### The three places -/

/-- A row of tokens that declare the variables `v :: vs` behind the specifier `sp`. -/
structure RowTokens (s : Setting) (sp : Specifier String) (first : List Token)
    (more : List (Token × List Token)) (v : Variable String) (vs : List (Variable String)) :
    Prop where
  first : VariableTokens s sp first v
  commas : ∀ part ∈ more, part.1.lexeme = .punctuator .comma
  more : List.Forall₂ (fun part u => VariableTokens s sp part.2 u) more vs

section

variable (hs : s.Closed) (hw : SpecifierTokens words sp) (row : RowTokens s sp first more v vs)
  (mark : semicolon.lexeme = .punctuator .semicolon) (after : List Token) (names : List String)
include hs hw row mark

/-- **At the outermost level a row is read as its variables**, though its first declarator could be
that of a function. -/
theorem unit_of_row :
    ∃ names', unit s ⟨words ++ (first ++ (behindCommas more ++ semicolon :: after)), names⟩ =
      .ok ((v :: vs).map .var) ⟨after, names'⟩ := by
  obtain ⟨names₁, specifier⟩ := hw.reads (row.first.opens _) names
  obtain ⟨t, rest, behind, ends⟩ := behindCommas_append row.commas mark after
  obtain ⟨d, r, names₂, declarator, plain, variable₁⟩ :=
    row.first.reads hs topDeclarator_readsForms ends rest names₁
  rw [← behind] at declarator variable₁
  have finds := row.more.imp fun part u declares => declares.finds_variable hs
  obtain ⟨names₃, others⟩ := moreAfterCommas_of_row hs
    variableOf_advances row.commas finds mark after [v] names₂
  refine ⟨names₃, ?_⟩
  rw [unit_of_declarator hs specifier declarator]
  exact unitAfter_of_vars plain variable₁ others mark

/-- **In a block a row is read as the same variables.** -/
theorem localVariables_of_row :
    ∃ names',
      localVariables s ⟨words ++ (first ++ (behindCommas more ++ semicolon :: after)), names⟩ =
        .ok (v :: vs) ⟨after, names'⟩ := by
  obtain ⟨names₁, specifier⟩ := hw.reads (row.first.opens _) names
  have finds := row.more.imp fun part u declares => declares.finds_variable hs
  obtain ⟨names₂, all⟩ := commaSeparated_of_row hs
    variableOf_advances row.commas finds mark
    (row.first.finds_variable hs) after names₁
  have close : expect .semicolon s ⟨semicolon :: after, names₂⟩ = .ok () ⟨after, names₂⟩ :=
    expect_of_front mark
  exact ⟨names₂, (bind_of_ok specifier _).trans ((bind_of_ok all _).trans (bind_of_ok close _))⟩

omit hs hw row mark in
theorem finds_members (row : List.Forall₂ (fun part u => VariableTokens s sp part.2 u) more vs)
    (bare : ∀ u ∈ vs, u.initializer = none) :
    List.Forall₂ (fun part d => Finds s (do declarationOf sp (← declarator false)) part.2 d) more
      (vs.map Variable.declaration) := by
  induction row with
  | nil => exact .nil
  | cons declares _ ih =>
      obtain ⟨bare, others⟩ := List.forall_mem_cons.1 bare
      exact .cons (declares.finds_member bare) (ih others)

/-- **In a struct a row without initial values is read as the declarations of the same
variables.** -/
theorem structMembers_of_row (dynamic : sp.isStatic = false)
    (bare : ∀ u ∈ v :: vs, u.initializer = none) (struct : String)
    (members : List (Declaration String)) :
    ∃ names', structMembers struct members s
        ⟨words ++ (first ++ (behindCommas more ++ semicolon :: after)), names⟩ =
      .ok (.yield (members ++ (v :: vs).map Variable.declaration)) ⟨after, names'⟩ := by
  obtain ⟨names₁, specifier⟩ :=
    hw.reads (row.first.opens (behindCommas more ++ semicolon :: after)) names
  obtain ⟨bareFirst, bareMore⟩ := List.forall_mem_cons.1 bare
  have item : Alike id False id (do declarationOf sp (← declarator false)) _ :=
    .bind (declarator_alike false) fun d => declarationOf_alike sp d
  obtain ⟨names₂, all⟩ := commaSeparated_of_row hs item.advances row.commas
    (finds_members row.more bareMore) mark (row.first.finds_member bareFirst) after names₁
  have close : expect .semicolon s ⟨semicolon :: after, names₂⟩ = .ok () ⟨after, names₂⟩ :=
    expect_of_front mark
  let p : Progress := ⟨words ++ (first ++ (behindCommas more ++ semicolon :: after)), names⟩
  have goesOn : ¬ (decide (p.front s = .punctuator .braceClose) || p.rest.isEmpty) = true := by
    obtain ⟨t, words', rfl, starts⟩ := hw.exists_cons
    have notClose : t.lexeme ≠ .punctuator .braceClose := by
      intro brace
      rw [brace] at starts
      cases starts
    simp [notClose, p]
  refine ⟨names₂, (current_bind _).trans ((atEnd_bind _).trans ?_)⟩
  rw [lexeme_headD, if_neg goesOn, bind_of_ok specifier, dynamic, if_neg Bool.false_ne_true]
  exact (bind_of_ok all _).trans (bind_of_ok close _)

end

end Parser

end PlainC
