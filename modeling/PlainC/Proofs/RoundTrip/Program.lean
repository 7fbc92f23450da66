/-
**Programs that are read back.**

The first three lexemes of a unit tell the definition of a struct from everything else, and what
stands behind its first declarator tells a function from a variable.  A unit is read up to its own
end, so the units of a program are read back one by one.

Main results:

* `PlainC.Parser.takes_structDefinition`, `PlainC.Parser.takes_functionAfter` — structs and
  functions are read back;
* `PlainC.Parser.takes_unit` — a unit is read back;
* `PlainC.Reader.program_of_spelling` — **a program is read back from its spelling**.
-/

import PlainC.Proofs.RoundTrip.Statement
import PlainC.Source

set_option relaxedAutoImplicit false
set_option autoImplicit false

namespace PlainC

namespace Parser

variable {s : Setting} {ls after : List Lexeme}

/-! ### Structs -/

/-- A member of a struct is read back. -/
theorem takes_structMembers (struct : String) {d : Declaration String} (readable : d.isReadable)
    (noStatic : d.specifier.isStatic = false) (members : List (Declaration String)) :
    Takes s (structMembers struct members) (d.spelling ++ .punctuator .semicolon :: ls)
      (· = .yield (members ++ [d])) ls := by
  have spelled := readable
  rw [Declaration.isReadable, Bool.and_eq_true] at spelled
  have starts := startsDeclaration_front (s := s) spelled.1 (.punctuator .semicolon :: ls)
  refine takes_current.bind fun t ht => takes_atEnd.bind ?_
  rintro _ rfl
  rw [← ht] at starts
  have noBrace : t.lexeme ≠ .punctuator .braceClose := by
    intro brace
    rw [brace] at starts
    cases starts
  have some : (d.spelling ++ .punctuator .semicolon :: ls).isEmpty = false := by simp
  simp only [noBrace, some, decide_false, Bool.false_or, Bool.false_eq_true, if_false]
  refine (takes_specifier_of_declaration spelled.1 ⟨rfl, by simp⟩).bind ?_
  rintro _ rfl
  simp only [noStatic, Bool.false_eq_true, if_false]
  have one : Takes s
      (commaSeparated (do declarationOf d.specifier (← declarator false)))
      ((d.shape.form d.name).spelling ++ .punctuator .semicolon :: ls) (· = [d])
      (.punctuator .semicolon :: ls) := by
    refine ((takes_declarator_of_declaration d (.inr spelled.2) rfl).bind
      fun read stands => takes_declarationOf readable stands).bind ?_
    rintro _ rfl
    exact takes_moreAfterCommas_nil (by simp) _
  refine one.bind ?_
  rintro _ rfl
  exact takes_expect.bind fun _ _ => .pure rfl

/-- The members of a struct are read back. -/
theorem takes_members (struct : String) {ds : List (Declaration String)}
    (readable : ∀ d ∈ ds, d.isReadable = true ∧ d.specifier.isStatic = false)
    (members : List (Declaration String)) :
    Takes s (loop (structMembers struct) members)
      (ds.flatMap (fun d => d.spelling ++ [.punctuator .semicolon])
        ++ .punctuator .braceClose :: after)
      (· = members ++ ds) (.punctuator .braceClose :: after) := by
  induction ds generalizing members with
  | nil =>
      refine Takes.loop_last (c := members) (takes_current.bind fun t ht => takes_atEnd.bind ?_)
        (by simp)
      rintro _ rfl
      simp only [ht, List.flatMap_nil, List.nil_append, Setting.front_cons, decide_true,
        Bool.true_or, if_true]
      exact .pure rfl
  | cons d ds ih =>
      simp only [List.flatMap_cons, List.append_assoc, List.singleton_append]
      have hd := readable d (List.mem_cons_self ..)
      refine Takes.loop_next (ds.flatMap (fun d => d.spelling ++ [.punctuator .semicolon])
        ++ .punctuator .braceClose :: after) (takes_structMembers struct hd.1 hd.2 members) ?_ ?_
      · simp only [List.length_append, List.length_cons]
        omega
      · have rest := ih (fun e he => readable e (List.mem_cons_of_mem _ he)) (members ++ [d])
        rwa [List.append_assoc] at rest

/-- The definition of a struct is read back. -/
theorem takes_structDefinition (allowed : s.options.allowEmptyStructs = true) {u : Struct String}
    (readable : u.isReadable) :
    Takes s structDefinition (u.spelling ++ ls) (· = u) ls := by
  obtain ⟨name, members⟩ := u
  simp only [Struct.isReadable, List.all_eq_true, Bool.and_eq_true, Bool.not_eq_true'] at readable
  simp only [Struct.spelling, List.cons_append, List.append_assoc, List.nil_append]
  refine takes_current.bind fun start _ => takes_advance.bind fun _ _ => ?_
  refine (takes_identifier _ name).bind ?_
  rintro _ rfl
  refine takes_expect.bind fun _ _ => (takes_members _ readable []).bind ?_
  rintro _ rfl
  refine takes_expect.bind fun _ _ => takes_current.bind fun t ht => ?_
  simp only [ht, Setting.front_cons]
  refine (takes_expectAs _).bind fun _ _ => ?_
  refine (takes_read.bind fun o ho => .pure (P := (· = s.options)) (by rw [ho])).bind ?_
  rintro _ rfl
  simp only [allowed, Bool.not_true, Bool.and_false, Bool.false_eq_true, if_false]
  exact (takes_note _).bind fun _ _ => .pure rfl

/-! ### What tells a struct from a declaration -/

theorem takes_atStructDefinition (name : String) :
    Takes s atStructDefinition
      (.keyword .structWord :: .identifier name :: .punctuator .braceOpen :: ls) (· = true)
      (.keyword .structWord :: .identifier name :: .punctuator .braceOpen :: ls) := by
  refine takes_current.bind fun t ht => (takes_ahead 1).bind fun u hu =>
    (takes_ahead 2).bind fun v hv => .pure ?_
  simp [ht, hu, hv]

/-- A declaration does not begin like the definition of a struct. -/
theorem takes_atStructDefinition_other {d : Declaration String} (hd : d.hasSpelling)
    (h : (s.front after).startsDeclaration = false ∧ s.front after ≠ .punctuator .braceOpen) :
    Takes s atStructDefinition (d.spelling ++ after) (· = false) (d.spelling ++ after) := by
  refine takes_current.bind fun t ht => (takes_ahead 1).bind fun u hu =>
    (takes_ahead 2).bind fun v hv => .pure ?_
  split
  · rename_i word _ brace
    -- behind `struct` and its name stands another word or the declarator
    rw [ht] at word
    rw [hv] at brace
    have behind := (front_declarator (s := s) (d.shape.form d.name) h).2
    obtain ⟨⟨isStatic, isConst, words⟩, shape, name⟩ := d
    simp only [Declaration.hasSpelling, Specifier.hasSpelling, Bool.and_eq_true] at hd
    obtain ⟨⟨hw, resolved⟩, -⟩ := hd
    cases isStatic with
    | true => cases word
    | false =>
    cases isConst with
    | true => cases word
    | false =>
    rcases words with _ | ⟨first, words⟩
    · cases resolved
    rw [List.all_cons, Bool.and_eq_true] at hw
    cases first with
    | struct tag =>
        have others : (⟨false, false, words⟩ : Specifier String).words.all TypeWord.hasSpelling :=
          hw.2
        have third := front_items_ne_brace (Specifier.hasSpelling_toItems others) behind
        rw [Specifier.spelling_toItems] at third
        refine absurd ?_ third
        simpa [Declaration.spelling, Specifier.spelling, TypeWord.spelling,
          List.getD_eq_getElem?_getD, Setting.front, List.headD_eq_head?_getD,
          List.head?_eq_getElem?] using brace
    | tagged | foreign => cases hw.1
    | _ => cases word
  · rfl

/-! ### Functions -/

/-- Pointers around a name are written in front of it. -/
theorem around_of_isPointers {shape : Shape} (h : shape.isPointers) (n : Nat)
    (name : Option String) :
    shape.around (.direct n name []) = .direct (n + shape.depth) name [] := by
  induction shape generalizing n with
  | plain => rfl
  | pointer target ih =>
      have inner := ih h (n + 1)
      rw [Nat.add_right_comm] at inner
      exact inner
  | unspecified | array => cases h

theorem layers_of_isPointers {shape : Shape} (h : shape.isPointers) :
    shape.layers = List.replicate shape.depth ⟨.pointer, none⟩ := by
  induction shape with
  | plain => rfl
  | pointer target ih =>
      have inner := ih h
      change _ :: target.layers = List.replicate (target.depth + 1) _
      rw [inner, List.replicate_succ]
  | unspecified | array => cases h

/-- What was read stands for a name behind pointers, and declares a function with the given
parameters. -/
structure Declares (d : Declaration String) (parameters : List (Declaration String))
    (read : Declarator) : Prop where
  stands : Declarator.Stands d.name d.shape.layers { read with parameters := none }
  parameters : read.parameters = some parameters

/-- The parameters behind a name are read as its one suffix. -/
theorem takes_parametersBehind {core : Declarator} {name : String}
    (stands : core.Stands (some name) []) {ps : List (Declaration String)}
    (hps : ∀ p ∈ ps, p.hasSpelling) (noMark : ps ≠ [.loneVoid])
    (noBracket : s.front after ≠ .punctuator .bracketOpen)
    (noParen : s.front after ≠ .punctuator .parenOpen) :
    Takes s (loop (declaratorSuffix (some parameterList) false) core)
      (.punctuator .parenOpen :: (Declaration.rowSpelling ps ++ .punctuator .parenClose :: after))
      (· = { core with parameters := some ps }) after := by
  have ident : core.ident.isNone = false := by
    have same := stands.ident
    cases hi : core.ident with
    | none => rw [hi] at same; cases same
    | some token => rfl
  refine Takes.loop_next (c := { core with parameters := some ps }) after ?_ ?_ ?_
  · refine takes_current.bind fun t _ => (takes_accept_other (by simp)).bind ?_
    rintro _ rfl
    refine (takes_nextIs _).bind ?_
    rintro _ rfl
    simp only [Setting.front_cons, decide_true, if_true, Bool.false_eq_true, if_false,
      stands.layers, List.map_nil, List.isEmpty_nil, Bool.not_true, stands.parameters,
      Option.isSome_none, Bool.or_self, ident]
    refine takes_advance.bind fun _ _ => (takes_parameterList hps noMark).bind ?_
    rintro _ rfl
    exact .pure rfl
  · simp only [List.length_cons, List.length_append]
    omega
  · exact Takes.loop_last (takes_declaratorSuffix_done _ _ noBracket noParen) rfl

/-- The declarator of a function is read back with its parameters. -/
theorem takes_topDeclarator_function {d : Declaration String} (named : d.name.isSome)
    (pointers : d.shape.isPointers) {ps : List (Declaration String)}
    (hps : ∀ p ∈ ps, p.hasSpelling) (noMark : ps ≠ [.loneVoid])
    (noBracket : s.front after ≠ .punctuator .bracketOpen)
    (noParen : s.front after ≠ .punctuator .parenOpen) :
    Takes s topDeclarator
      ((d.shape.form d.name).spelling ++ .punctuator .parenOpen ::
        (Declaration.rowSpelling ps ++ .punctuator .parenClose :: after))
      (Declares d ps) after := by
  obtain ⟨sp, shape, _ | name⟩ := d
  · cases named
  rw [Shape.form, around_of_isPointers pointers, DeclaratorForm.spelling]
  simp only [Option.map_some, Option.toList_some, List.flatMap_nil, List.append_nil,
    List.append_assoc, List.singleton_append, Nat.zero_add]
  refine (takes_pointers shape.depth (by simp) (by simp)).bind ?_
  rintro _ rfl
  refine (takes_declaratorCore_name _ _ name).bind ?_
  rintro ⟨core, _⟩ ⟨stands, rfl⟩
  refine (takes_parametersBehind stands hps noMark noBracket noParen).bind ?_
  rintro _ rfl
  refine .pure ⟨⟨stands.ident, ?_, rfl⟩, rfl⟩
  replace stands : core.Stands (some name) [] := stands
  simp [stands.layers, layers_of_isPointers pointers, Layer.toInt]

theorem takes_namedParameters (ident : Token) {ps : List (Declaration String)}
    (named : ∀ p ∈ ps, p.name.isSome) :
    Takes s (namedParameters ident ps) ls (fun _ => True) ls := by
  have none : ps.findIdx? Declaration.isAbstract = none := by
    rw [List.findIdx?_eq_none_iff]
    intro p hp
    simpa [Declaration.isAbstract] using named p hp
  rw [namedParameters, none]
  exact .pure trivial

/-- Behind its declarator, a function is read back. -/
theorem takes_functionAfter (hs : s.Closed) (allowed : s.options.allowPrototypes = true)
    {f : Function String} (readable : f.isReadable) {read : Declarator}
    (declares : Declares f.declaration f.parameters read) (ident : Token) :
    Takes s (functionAfter f.declaration.specifier read ident f.parameters)
      (f.bodySpelling ++ ls) (· = f) ls := by
  obtain ⟨d, ps, variadic, body⟩ := f
  simp only [Function.isReadable, Bool.and_eq_true, List.all_eq_true, beq_iff_eq] at readable
  obtain ⟨⟨⟨⟨⟨readable, -⟩, -⟩, -⟩, rfl⟩, readableBody⟩ := readable
  have declaration (ls' : List Lexeme) :
      Takes s (declarationOf d.specifier { read with parameters := none }) ls' (· = d) ls' :=
    takes_declarationOf readable declares.stands
  refine (declaration _).bind ?_
  rintro _ rfl
  refine (takes_nextIs _).bind ?_
  rintro _ rfl
  cases body with
  | none =>
      simp only [Function.bodySpelling, List.cons_append, List.nil_append, Setting.front_cons]
      refine takes_current.bind fun t _ => (takes_expectAs _).bind fun _ _ => ?_
      refine (takes_read.bind fun o ho => .pure (P := (· = s.options)) (by rw [ho])).bind ?_
      rintro _ rfl
      simp only [allowed, if_true]
      exact .pure rfl
  | some body =>
      simp only [Bool.and_eq_true, List.all_eq_true] at readableBody
      have brace : s.front (body.spelling ++ ls) = .punctuator .braceOpen := rfl
      simp only [Function.bodySpelling, brace, decide_true, if_true]
      refine (takes_namedParameters ident ?_).bind fun _ _ => ?_
      · intro p hp
        have both := readableBody.1 p hp
        rw [Declaration.isReadable, Bool.and_eq_true] at both
        exact both.2
      refine (takes_block hs readableBody.2).bind ?_
      rintro _ rfl
      exact .pure rfl

/-! ### Units -/

/-- A declarator with a name does not begin with a semicolon. -/
theorem front_named_ne_semicolon {w : DeclaratorForm} (named : w.name.isSome) :
    s.front (w.spelling ++ ls) ≠ .punctuator .semicolon := by
  rcases w with ⟨_ | n, _ | name, arrays⟩ | ⟨_ | n, inner, arrays⟩ <;>
    simp_all [DeclaratorForm.name, DeclaratorForm.spelling, List.replicate_succ]

/-- A declarator without parameters is read back at the outermost level too, however it is
written. -/
theorem takes_topDeclarator_plain {w : DeclaratorForm} (sound : w.isSound) (named : w.name.isSome)
    (stop : continuesDeclarator (s.front after) = false) :
    Takes s topDeclarator (w.spelling ++ after) (Declarator.Stands w.name w.layers) after := by
  refine takes_declaratorWith (some parameterList) sound (.inr named) stop ?_
  rintro n inner arrays _ rfl rfl
  rw [DeclaratorForm.isSound, Bool.and_eq_true] at sound
  exact takes_declarator sound.2 (.inr named) rfl

/-- So is the canonical declarator of a variable. -/
theorem takes_topDeclarator_variable {d : Declaration String} (named : d.name.isSome)
    (stop : closesDeclaration (s.front after) = true) :
    Takes s topDeclarator ((d.shape.form d.name).spelling ++ after)
      (Declarator.Stands d.name d.shape.layers) after := by
  have named' : (d.shape.form d.name).name.isSome := by rwa [Shape.name_form]
  have read := takes_topDeclarator_plain (s := s) (d.shape.isSound_form d.name) named'
    (continuesDeclarator_of_closes stop)
  rwa [Shape.name_form, Shape.layers_form] at read

theorem takes_unit_variable (hs : s.Closed) {v : Variable String} (readable : v.isReadable) :
    Takes s unit ((TopLevel.var v).spelling ++ ls) (· = [.var v]) ls := by
  have parts := readable
  simp only [Variable.isReadable, Declaration.isReadable, Bool.and_eq_true] at parts
  obtain ⟨⟨spelled, named⟩, -⟩ := parts
  rw [TopLevel.spelling, List.append_assoc, List.singleton_append]
  have closes : closesDeclaration (s.front (v.initialSpelling ++ .punctuator .semicolon :: ls)) =
      true := closesDeclaration_front (.inl rfl)
  have noStruct := takes_atStructDefinition_other spelled (startsDeclaration_of_closes closes)
  rw [← List.append_assoc, ← Variable.spelling] at noStruct
  refine noStruct.bind ?_
  rintro _ rfl
  refine takes_current.bind fun start _ => ?_
  refine (takes_specifier_of_variable readable (.inl rfl)).bind ?_
  rintro _ rfl
  refine (takes_nextIs _).bind ?_
  rintro _ rfl
  have noSemicolon : s.front ((v.declaration.shape.form v.declaration.name).spelling
      ++ (v.initialSpelling ++ .punctuator .semicolon :: ls)) ≠ .punctuator .semicolon :=
    front_named_ne_semicolon (by rwa [Shape.name_form])
  simp only [noSemicolon, decide_false, Bool.false_eq_true, if_false]
  refine (takes_topDeclarator_variable named closes).bind fun read stands => ?_
  have vars : Takes s (do
      let found ← moreAfterCommas (variableOf v.declaration.specifier)
        [← variableAfter v.declaration.specifier read]
      expect .semicolon
      return found.map .var) (v.initialSpelling ++ .punctuator .semicolon :: ls)
      (· = [TopLevel.var v]) ls := by
    refine (takes_variableAfter hs readable stands (.inl rfl)).bind ?_
    rintro _ rfl
    refine (takes_moreAfterCommas_nil (by simp) _).bind ?_
    rintro _ rfl
    exact takes_expect.bind fun _ _ => .pure rfl
  obtain ⟨ident, layers, parameters⟩ := read
  obtain rfl : parameters = none := stands.parameters
  cases ident <;> exact vars

theorem takes_unit_function (hs : s.Closed) (allowed : s.options.allowPrototypes = true)
    {f : Function String} (readable : f.isReadable) :
    Takes s unit (f.spelling ++ ls) (· = [.function f]) ls := by
  have parts := readable
  simp only [Function.isReadable, Declaration.isReadable, Bool.and_eq_true, List.all_eq_true,
    bne_iff_ne] at parts
  obtain ⟨⟨⟨⟨⟨⟨spelled, named⟩, pointers⟩, parameters⟩, noMark⟩, -⟩, -⟩ := parts
  simp only [Function.spelling, List.append_assoc, List.cons_append]
  have ahead : ∀ ls', (s.front (.punctuator .parenOpen :: ls')).startsDeclaration = false ∧
      s.front (.punctuator .parenOpen :: ls') ≠ .punctuator .braceOpen :=
    fun _ => ⟨rfl, by simp⟩
  refine (takes_atStructDefinition_other spelled (ahead _)).bind ?_
  rintro _ rfl
  refine takes_current.bind fun start _ => ?_
  refine (takes_specifier_of_declaration spelled (ahead _)).bind ?_
  rintro _ rfl
  refine (takes_nextIs _).bind ?_
  rintro _ rfl
  have noSemicolon : ∀ ls', s.front ((f.declaration.shape.form f.declaration.name).spelling
      ++ ls') ≠ .punctuator .semicolon :=
    fun _ => front_named_ne_semicolon (by rwa [Shape.name_form])
  simp only [noSemicolon, decide_false, Bool.false_eq_true, if_false]
  have noSuffix : s.front (f.bodySpelling ++ ls) ≠ .punctuator .bracketOpen ∧
      s.front (f.bodySpelling ++ ls) ≠ .punctuator .parenOpen := by
    obtain ⟨d, ps, variadic, _ | body⟩ := f
    · exact ⟨by simp [Function.bodySpelling], by simp [Function.bodySpelling]⟩
    · simp [Function.bodySpelling, Block.spelling, Stmt.spelling]
  refine (takes_topDeclarator_function named pointers parameters noMark noSuffix.1
    noSuffix.2).bind fun read declares => ?_
  obtain ⟨ident, layers, found⟩ := read
  obtain rfl : found = some f.parameters := declares.parameters
  cases ident with
  | none =>
      have same := declares.stands.ident
      rw [Option.isSome_iff_exists] at named
      obtain ⟨name, named⟩ := named
      rw [named] at same
      cases same
  | some ident =>
      refine (takes_functionAfter hs allowed readable declares ident).bind ?_
      rintro _ rfl
      exact .pure rfl

/-- A unit is read back. -/
theorem takes_unit (hs : s.Closed) (allowed : s.options.allowPrototypes = true)
    (allowed' : s.options.allowEmptyStructs = true) {u : TopLevel String}
    (readable : u.isReadable) : Takes s unit (u.spelling ++ ls) (· = [u]) ls := by
  cases u with
  | blank => cases readable
  | var v => exact takes_unit_variable hs readable
  | function f => exact takes_unit_function hs allowed readable
  | struct u =>
      refine (takes_atStructDefinition u.name).bind ?_
      rintro _ rfl
      refine (takes_structDefinition allowed' readable).bind ?_
      rintro _ rfl
      exact .pure rfl

theorem length_spelling_unit_pos {u : TopLevel String} (readable : u.isReadable) :
    0 < u.spelling.length := by
  cases u with
  | blank => cases readable
  | var v => simp [TopLevel.spelling]
  | function f =>
      simp only [TopLevel.spelling, Function.spelling, List.length_append, List.length_cons]
      omega
  | struct u => simp [TopLevel.spelling, Struct.spelling]

/-- The units of a program are read back one by one. -/
theorem unitsWithin_of_lexemes (hs : s.Closed) (allowed : s.options.allowPrototypes = true)
    (allowed' : s.options.allowEmptyStructs = true) {us : List (TopLevel String)}
    (readable : ∀ u ∈ us, u.isReadable) {p : Progress}
    (hp : p.lexemes = us.flatMap TopLevel.spelling) {n : Nat} (hn : p.lexemes.length < n) :
    (unitsWithin s n p).completed = us ∧ (unitsWithin s n p).stop = none := by
  induction us generalizing p n with
  | nil =>
      obtain ⟨m, rfl⟩ : ∃ m, n = m + 1 := ⟨n - 1, by omega⟩
      have empty : p.rest.isEmpty = true := by
        rw [List.isEmpty_iff, ← List.map_eq_nil_iff (f := Token.lexeme)]
        exact hp
      simp [unitsWithin, empty]
  | cons u us ih =>
      obtain ⟨m, rfl⟩ : ∃ m, n = m + 1 := ⟨n - 1, by omega⟩
      have hu := readable u (List.mem_cons_self ..)
      have pos := length_spelling_unit_pos hu
      rw [List.flatMap_cons] at hp
      have some : p.rest.isEmpty = false := by
        rw [← List.isEmpty_map (f := Token.lexeme)]
        change p.lexemes.isEmpty = false
        rw [hp]
        cases h : u.spelling with
        | nil => rw [h] at pos; cases pos
        | cons => rfl
      obtain ⟨_, q, read, rfl, hq⟩ :=
        (takes_unit hs allowed allowed' hu).locatedAt (p.rest.headD s.ending) p hp
      have shorter : q.lexemes.length < m := by
        rw [hp, List.length_append] at hn
        rw [hq]
        omega
      have rest := ih (fun v hv => readable v (List.mem_cons_of_mem _ hv)) hq shorter
      simp only [unitsWithin, some, Bool.false_eq_true, if_false, read]
      exact ⟨by rw [rest.1]; rfl, rest.2⟩

end Parser

/-- **A program is read back from its spelling**, whatever the places of its tokens are. -/
theorem Reader.program_of_spelling (file : String) (lines : List String) {P : Program String}
    (readable : P.isReadable) {ts : List Token} (spelled : ts.map Token.lexeme = P.spelling)
    {ending : Token} (last : ending.lexeme = .ending) :
    (Reader.ofTokens file lines {} (ts ++ [ending])).map (fun r => (r.call Parser.program).1) =
      some (.ok P) := by
  have inside : ∀ t ∈ ts, t.lexeme ≠ .ending := by
    intro t ht same
    have member := List.mem_map_of_mem (f := Token.lexeme) ht
    rw [spelled, same] at member
    exact P.ending_notMem_spelling member
  rw [Reader.ofTokens_closed file lines {} inside last, Option.map_some, Option.some.injEq,
    Reader.call_eq_ok_iff]
  obtain ⟨us⟩ := P
  have units := Parser.unitsWithin_of_lexemes (s := ⟨file, lines, {}, ending⟩) last rfl rfl
    (List.all_eq_true.1 readable) (p := ⟨ts, []⟩) spelled (n := ts.length + 1)
    (by rw [Progress.length_lexemes]; exact Nat.lt_succ_self _)
  refine ⟨(Parser.units ⟨file, lines, {}, ending⟩ ⟨ts, []⟩).progress, ?_⟩
  simp [Parser.program, Parser.units, units.1, units.2]

/-- The tokens of `struct p { int x[2]; }; int f(struct p *q) { while (q->x[0]) { } return 0; }`. -/
theorem Reader.program_of_struct_and_function :
    (Reader.ofTokens "" [] {}
        (([.keyword .structWord, .identifier "p", .punctuator .braceOpen, .keyword .int,
            .identifier "x", .punctuator .bracketOpen, .number 2, .punctuator .bracketClose,
            .punctuator .semicolon, .punctuator .braceClose, .punctuator .semicolon,
            .keyword .int, .identifier "f", .punctuator .parenOpen, .keyword .structWord,
            .identifier "p", .punctuator .star, .identifier "q", .punctuator .parenClose,
            .punctuator .braceOpen, .keyword .whileWord, .punctuator .parenOpen, .identifier "q",
            .punctuator .arrow, .identifier "x", .punctuator .bracketOpen, .number 0,
            .punctuator .bracketClose, .punctuator .parenClose, .punctuator .braceOpen,
            .punctuator .braceClose, .keyword .returnWord, .number 0, .punctuator .semicolon,
            .punctuator .braceClose] : List Lexeme).map (⟨·, 1, 1⟩) ++ [⟨.ending, 1, 1⟩])).map
        (fun r => (r.call Parser.program).1) =
      some (.ok ⟨[
        .struct ⟨"p", [⟨⟨false, false, [.int]⟩, .array .plain (some 2), some "x"⟩]⟩,
        .function {
          declaration := ⟨⟨false, false, [.int]⟩, .plain, some "f"⟩
          parameters := [⟨⟨false, false, [.struct "p"]⟩, .pointer .plain, some "q"⟩]
          body := some ⟨[
            .whileLoop (.index (.pointerMember (.var "q") "x") (.literal (.int 0))) (.block []),
            .returnWith (some (.literal (.int 0)))]⟩ }]⟩) :=
  Reader.program_of_spelling "" [] (by decide) rfl rfl

end PlainC
