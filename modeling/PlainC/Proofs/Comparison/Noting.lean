/-
**Every name in a tree was noted.**

A parser notes the names that it meets, and the name table that takes them in afterwards gives each
of them its symbol.  A name that stands in the tree but was not noted would have a symbol that the
table does not hold.  There is none: two ways to replace names that agree on the names noted turn
the tree into the same one.

Main definitions:

* `PlainC.Among` — a value has no other names than some given ones;
* `PlainC.Parser.Notes` — a rule whose result has no other names than those noted up to its end.

Main results:

* `PlainC.Parser.Alike.notes` — names are only ever added to those that were met;
* `PlainC.Parser.unit_notes`, `PlainC.unitsWithin_notes` — **every name in a unit, and in a program,
  was noted**.
-/

import PlainC.Proofs.Comparison.Retelling
import PlainC.Proofs.Parsing.Success

set_option relaxedAutoImplicit false
set_option autoImplicit false

namespace PlainC

/-- The value `a` has no other names than those in `N`: two ways to replace names that agree on `N`
turn it into the same value. -/
def Among {α β : Type} (map : (String → Symbol) → α → β) (N : List String) (a : α) : Prop :=
  ∀ f g : String → Symbol, (∀ name ∈ N, f name = g name) → map f a = map g a

/-- Values that hold no other names than those in `N` are all turned into the same ones. -/
theorem map_eq_of_among {α β : Type} {map : (String → Symbol) → α → β} {N : List String}
    {as : List α} (h : ∀ a ∈ as, Among map N a) {f g : String → Symbol}
    (same : ∀ name ∈ N, f name = g name) : as.map (map f) = as.map (map g) :=
  List.map_congr_left fun a member => h a member f g same

namespace Parser

variable {α β : Type} {N : List String} {P : α → Prop} {Q : β → Prop}

/-! ### What is noted -/

/-- Names are only added to those that were met, and if all of them are in `N` at the end of a
reading, its result has the property `Q`. -/
def Notes (N : List String) (x : Parser β) (Q : β → Prop) : Prop :=
  ∀ s p b q, x s p = .ok b q → p.names ⊆ q.names ∧ (q.names ⊆ N → Q b)

/-- Names are only ever added to those that were met. -/
theorem Alike.notes {x : Parser β} (h : Alike id False id x x) : Notes N x fun _ => True := by
  intro s p b q read
  -- a run before which no names were met, told again behind those of `p`
  have told : x s (Progress.after p.names ⟨p.rest, []⟩) = retell id p.names (x s ⟨p.rest, []⟩) :=
    h.retells s p.names ⟨p.rest, []⟩
  rw [Progress.after, List.append_nil, read] at told
  refine ⟨?_, fun _ => trivial⟩
  cases found : x s ⟨p.rest, []⟩ with
  | ok c r =>
      rw [found] at told
      cases told
      exact List.subset_append_left ..
  | error stop r =>
      rw [found] at told
      cases told

namespace Notes

theorem pure {b : β} (h : Q b) : Notes N (pure b) Q := by
  intro s p c q read
  obtain ⟨rfl, rfl⟩ := pure_eq_ok_iff.1 read
  exact ⟨List.Subset.refl _, fun _ => h⟩

/-- What is known of the first result is there when the second one is put together. -/
theorem bind {x : Parser α} {k : α → Parser β} (hx : Notes N x P)
    (hk : ∀ a, Notes N (k a) fun b => P a → Q b) : Notes N (x >>= k) Q := by
  intro s p b q read
  obtain ⟨a, r, first, rest⟩ := bind_eq_ok_iff.1 read
  obtain ⟨before, here⟩ := hx s p a r first
  obtain ⟨between, there⟩ := hk a s r b q rest
  exact ⟨List.Subset.trans before between,
    fun noted => there noted (here (List.Subset.trans between noted))⟩

/-- A rule whose result holds no names. -/
theorem skip {x : Parser α} {k : α → Parser β} (hx : Alike id False id x x)
    (hk : ∀ a, Notes N (k a) Q) : Notes N (x >>= k) Q :=
  bind (Alike.notes hx) fun a => by simpa using hk a

theorem mono {x : Parser β} {Q' : β → Prop} (hx : Notes N x Q) (h : ∀ b, Q b → Q' b) :
    Notes N x Q' :=
  fun s p b q read => (hx s p b q read).imp_right fun has noted => h b (has noted)

theorem ite {c : Prop} [Decidable c] {x y : Parser β} (hx : Notes N x Q) (hy : Notes N y Q) :
    Notes N (if c then x else y) Q := by
  split
  · exact hx
  · exact hy

/-- A rule behind a check that may stop the reading. -/
theorem checked {c : Prop} [Decidable c] {check : Parser Unit} {x : Parser β}
    (hc : Alike id False id check check) (hx : Notes N x Q) :
    Notes N (if c then check >>= fun _ => x else x) Q :=
  ite (skip hc fun _ => hx) hx

/-- A rule in front of which something must hold, or the reading may stop. -/
theorem required {c : Prop} [Decidable c] {check : Parser Unit} {x : Parser β} (hx : Notes N x Q)
    (hc : Alike id False id check check) : Notes N (if c then x else check >>= fun _ => x) Q :=
  ite hx (skip hc fun _ => hx)

/-- A rule that never succeeds. -/
theorem never {x : Parser β} (h : ∀ s p b q, x s p ≠ .ok b q) : Notes N x Q :=
  fun s p b q read => absurd read (h s p b q)

theorem fail (fault : Fault) (t : Token) : Notes N (fail fault t) Q :=
    never fun _ _ _ _ => fail_ne_ok

theorem note (name : String) : Notes N (note name) fun _ => name ∈ N := by
  intro s p u q read
  obtain rfl := note_eq_ok_iff.1 read
  refine ⟨List.subset_append_left .., fun noted => noted ?_⟩
  exact List.mem_append_right _ (List.mem_singleton_self name)

theorem locatedAt {x : Parser β} (hx : Notes N x Q) (t : Token) : Notes N (locatedAt t x) Q :=
  fun s p b q read => hx s p b q (locatedAt_eq_ok_iff.1 read)

theorem budgeted {x : Nat → Parser β} (hx : ∀ n, Notes N (x n) Q) : Notes N (budgeted x) Q :=
  fun s p b q read => hx _ s p b q read

/-- What a turn of a loop keeps, the loop keeps. -/
theorem loop {step : β → Parser (ForInStep β)}
    (h : ∀ b, Notes N (step b) fun turn => Q b → TurnHas Q turn) (b : β) :
    Notes N (loop step b) fun c => Q b → Q c := by
  have all (n : Nat) (b : β) : Notes N (iterate step n b) fun c => Q b → Q c := by
    induction n generalizing b with
    | zero => exact never fun _ _ _ _ => exhausted_ne_ok
    | succ n ih =>
        refine bind (h b) fun turn => ?_
        cases turn with
        | done c => exact pure fun kept => kept
        | yield c => exact (ih c).mono fun d next kept first => next (kept first)
  exact budgeted fun n => all n b

theorem moreAfterCommas {item : Parser β} (h : Notes N item Q) (first : List β) :
    Notes N (moreAfterCommas item first) fun all => (∀ b ∈ first, Q b) → ∀ b ∈ all, Q b := by
  refine loop (Q := fun found => ∀ b ∈ found, Q b) (fun found => ?_) first
  refine .skip (.accept _) fun _ => .ite ?_ (.pure fun kept => kept)
  refine .bind h fun b => .pure fun hb kept => ?_
  exact List.forall_mem_append.2 ⟨kept, List.forall_mem_singleton.2 hb⟩

theorem commaSeparated {item : Parser β} (h : Notes N item Q) :
    Notes N (commaSeparated item) fun all => ∀ b ∈ all, Q b :=
  .bind h fun b => (moreAfterCommas h [b]).mono fun _ kept hb =>
    kept (List.forall_mem_singleton.2 hb)

end Notes

/-! ### Specifiers and declarators -/

/-- A specifier whose words hold no other names than those in `N`. -/
def SpecifierAmong (N : List String) (sp : Specifier String) : Prop :=
  ∀ word ∈ sp.words, Among TypeWord.map N word

theorem SpecifierAmong.append {sp : Specifier String} {word : TypeWord String}
    (h : SpecifierAmong N sp) (hw : Among TypeWord.map N word) :
    SpecifierAmong N { sp with words := sp.words ++ [word] } :=
  List.forall_mem_append.2 ⟨h, List.forall_mem_singleton.2 hw⟩

theorem SpecifierAmong.among {sp : Specifier String} (h : SpecifierAmong N sp) :
    Among Specifier.map N sp := by
  intro f g same
  rw [Specifier.map, Specifier.map, map_eq_of_among h same]

/-- A declaration has the names of its specifier and its own. -/
theorem SpecifierAmong.declaration {sp : Specifier String} (h : SpecifierAmong N sp)
    (shape : Shape) {ident : Option String} (noted : ∀ name ∈ ident, name ∈ N) :
    Among Declaration.map N ⟨sp, shape, ident⟩ := by
  intro f g same
  have own : ident.map f = ident.map g :=
    Option.map_congr fun name member => same name (noted name member)
  rw [Declaration.map, Declaration.map, h.among f g same, own]

/-- A word that is a lexeme of its own has no name. -/
theorem among_of_lexeme {lexeme : Lexeme} {word : TypeWord String}
    (h : TypeWord.ofLexeme? lexeme = some word) : Among TypeWord.map N word := by
  intro f g _
  revert h
  fun_cases TypeWord.ofLexeme? lexeme <;> intro h <;> cases h <;> rfl

theorem specifierWord_notes (sp : Specifier String) :
    Notes N (specifierWord sp) fun turn => SpecifierAmong N sp →
      TurnHas (SpecifierAmong N) turn := by
  refine .skip .current fun token => ?_
  split
  · exact .skip .advance fun _ => .pure fun inside => inside
  · exact .skip .advance fun _ => .pure fun inside => inside
  · refine .skip .advance fun _ => .skip (.identifier _) fun name => .skip (.nextIs _) fun _ => ?_
    refine .checked (.fail _ _) (.bind (.note name) fun _ => .pure fun noted inside => ?_)
    exact inside.append fun f g same => congrArg TypeWord.struct (same name noted)
  · split
    · rename_i found
      exact .skip .advance fun _ => .pure fun inside => inside.append (among_of_lexeme found)
    · exact .pure fun inside => inside

theorem specifier_notes : Notes N specifier (SpecifierAmong N) := by
  refine .skip .current fun start => .bind (.loop specifierWord_notes _) fun sp => ?_
  refine .checked (.missing _) (.skip (.locatedAt _ (.ofExcept _)) fun _ => .pure fun kept => ?_)
  exact kept fun word none => by cases none

theorem declarationOf_notes (sp : Specifier String) (d : Declarator) :
    Notes N (declarationOf sp d) fun declaration =>
      SpecifierAmong N sp → Among Declaration.map N declaration := by
  refine .skip (shapeOf_alike _) fun shape => ?_
  split
  · rename_i name found
    refine .bind (.note name) fun _ => .pure fun noted inside => ?_
    exact inside.declaration shape fun _ there => Option.some.inj (found.symm.trans there) ▸ noted
  · rename_i none
    exact .pure fun inside => inside.declaration shape fun name there => absurd there (none name)

/-! ### Parameters -/

theorem parameter_notes : Notes N parameter (Among Declaration.map N) := by
  refine .bind specifier_notes fun sp => .skip (declarator_alike _) fun d => ?_
  split
  · rename_i name found
    refine .bind (.note name) fun _ => .skip (shapeOf_alike _) fun shape => ?_
    refine .pure fun noted inside => inside.declaration shape fun _ there => ?_
    exact Option.some.inj (found.symm.trans there) ▸ noted
  · rename_i none
    refine .skip (shapeOf_alike _) fun shape => .pure fun inside => ?_
    exact inside.declaration shape fun name there => absurd there (none name)

theorem parameterList_notes :
    Notes N parameterList fun ds => ∀ d ∈ ds, Among Declaration.map N d := by
  refine .skip (.accept _) fun _ => .ite (.pure (by simp)) ?_
  refine .skip .current fun token => .skip (.ahead id) fun second => .ite ?_ ?_
  · exact .skip .advance fun _ => .skip .advance fun _ => .pure (by simp)
  · refine .bind (.commaSeparated (.skip .current fun token =>
      .checked (.fail _ _) parameter_notes)) fun ds => ?_
    exact .skip (.expect _) fun _ => .pure fun inside => inside

/-- A declarator whose parameters hold no other names than those in `N`. -/
def DeclaratorAmong (N : List String) (d : Declarator) : Prop :=
  ∀ ds, d.parameters = some ds → ∀ x ∈ ds, Among Declaration.map N x

theorem declaratorCore_notes {nested : Parser Declarator} (hn : Alike id False id nested nested)
    (nameless : Bool) :
    Notes N (declaratorCore nested nameless) fun core => core.1.parameters = none := by
  refine .skip .current fun token => ?_
  split
  · exact .skip .advance fun _ => .pure rfl
  · refine .skip (.ahead id) fun second => .ite ?_ ?_
    · exact .skip .advance fun _ => .skip hn fun _ => .skip (.expect _) fun _ => .pure rfl
    · exact .ite (.pure rfl) (.skip (.missing _) fun _ => .pure rfl)

theorem declaratorSuffix_notes (inParentheses : Bool) (d : Declarator) :
    Notes N (declaratorSuffix (some parameterList) inParentheses d) fun turn =>
      DeclaratorAmong N d → TurnHas (DeclaratorAmong N) turn := by
  refine .skip .current fun token => .skip (.accept _) fun bracket => .ite ?_ ?_
  · exact .checked (.fail _ _) (.skip arraySuffix_alike fun _ => .pure fun inside => inside)
  · refine .skip (.nextIs _) fun paren =>
      .ite (.checked (.fail _ _) ?_) (.pure fun inside => inside)
    refine .checked (.fail _ _) (.skip .advance fun _ => .bind parameterList_notes fun ds => ?_)
    refine .pure fun inside _ other there => ?_
    cases there
    exact inside

theorem topDeclarator_notes : Notes N topDeclarator (DeclaratorAmong N) := by
  refine .skip pointers_alike fun outer => .bind (declaratorCore_notes (declarator_alike _) _) ?_
  rintro ⟨core, inParentheses⟩
  refine .bind (.loop (declaratorSuffix_notes inParentheses) core) fun d => .pure ?_
  intro kept plain ds there
  refine kept (fun ds there => ?_) ds there
  rw [show core.parameters = none from plain] at there
  cases there

/-! ### Expressions -/

theorem sizeofType_notes : Notes N sizeofType (Among Expr.map N) := by
  refine .skip .advance fun _ => .bind specifier_notes fun sp =>
    .skip (declarator_alike _) fun d => ?_
  have close : Notes N (do
      expect .parenClose
      return Expr.sizeofType ⟨sp, ← shapeOf d.layers, none⟩) fun e =>
        SpecifierAmong N sp → Among Expr.map N e := by
    refine .skip (.expect _) fun _ => .skip (shapeOf_alike _) fun shape => ?_
    refine .pure fun inside f g same => congrArg Expr.sizeofType ?_
    exact inside.declaration shape (fun _ none => by cases none) f g same
  split
  · exact .skip (.fail _ _) fun _ => close
  · exact close

theorem memberName_notes : Notes N memberName (· ∈ N) :=
  .skip (.identifier _) fun name => .bind (.note name) fun _ => .pure id

section

variable {nested : Nat → Parser (Expr String)}
  (hn : ∀ level, Notes N (nested level) (Among Expr.map N))
include hn

theorem primaryWith_notes : Notes N (primaryWith nested) (Among Expr.map N) := by
  refine .skip .current fun token => ?_
  split
  · exact .skip .advance fun _ => .pure fun _ _ _ => rfl
  · split
    · rename_i name _
      refine .skip .advance fun _ => .bind (.note name) fun _ => .pure fun noted f g same => ?_
      exact congrArg Expr.var (same name noted)
    · refine .skip (.accept _) fun paren => .ite (.bind (hn _) fun e => ?_) ?_
      · refine .skip (.expect _) fun _ => .pure fun inside f g same => ?_
        exact congrArg Expr.parenthesized (inside f g same)
      · exact .never fun _ _ _ _ => unexpected_ne_ok

theorem argumentsWith_notes :
    Notes N (argumentsWith nested) fun es => ∀ e ∈ es, Among Expr.map N e := by
  refine .skip (.accept _) fun closed => .ite (.pure (by simp)) ?_
  refine .bind (.commaSeparated (hn _)) fun es => ?_
  exact .skip (.expect _) fun _ => .pure fun inside => inside

theorem suffixWith_notes (e : Expr String) :
    Notes N (suffixWith nested e) fun turn =>
      Among Expr.map N e → TurnHas (Among Expr.map N) turn := by
  refine .skip .current fun token => .skip (.accept _) fun paren => .ite ?_ ?_
  · split
    · rename_i callee
      refine .bind (argumentsWith_notes hn) fun es => .pure fun inside name f g same => ?_
      have callee := Expr.var.inj (name f g same)
      rw [Expr.map, Expr.map, callee, Expr.mapAll_eq_map, Expr.mapAll_eq_map,
        map_eq_of_among inside same]
    · exact .fail _ _
  refine .skip (.accept _) fun bracket => .ite ?_ ?_
  · refine .bind (hn _) fun subscript => .skip (.expect _) fun _ => ?_
    refine .pure fun inside target f g same => ?_
    rw [Expr.map, Expr.map, target f g same, inside f g same]
  refine .skip (.accept _) fun dot => .ite (.bind memberName_notes fun name => ?_) ?_
  · refine .pure fun noted target f g same => ?_
    rw [Expr.map, Expr.map, target f g same, same name noted]
  refine .skip (.accept _) fun arrow => .ite (.bind memberName_notes fun name => ?_) ?_
  · refine .pure fun noted target f g same => ?_
    rw [Expr.map, Expr.map, target f g same, same name noted]
  split
  · refine .skip .advance fun _ => .pure fun target f g same => ?_
    rw [Expr.map, Expr.map, target f g same]
  · exact .pure fun target => target

theorem suffixedWith_notes : Notes N (suffixedWith nested) (Among Expr.map N) :=
  .bind (primaryWith_notes hn) fun e => .loop (suffixWith_notes hn) e

theorem castWith_notes : Notes N (castWith nested) (Among Expr.map N) := by
  refine .skip .current fun start => .skip .advance fun _ => .bind specifier_notes fun sp => ?_
  split
  · rename_i word
    refine .skip .current fun token => .checked (.fail _ _) (.skip (.expect _) fun _ => ?_)
    refine .bind (hn _) fun operand => .pure fun inside words f g same => ?_
    rw [Expr.map, Expr.map, inside f g same, words word (List.mem_singleton_self word) f g same]
  · exact .fail _ _

theorem operandWith_notes : Notes N (operandWith nested) (Among Expr.map N) := by
  refine .skip .current fun token => ?_
  split
  · refine .skip .advance fun _ => .bind (hn _) fun operand => .pure fun inside f g same => ?_
    rw [Expr.map, Expr.map, inside f g same]
  refine .ite (.skip .advance fun _ => .locatedAt ?_ _) ?_
  · refine .skip atParenthesizedType_alike fun type => .ite sizeofType_notes ?_
    refine .bind (hn _) fun operand => .pure fun inside f g same => ?_
    rw [Expr.map, Expr.map, inside f g same]
  · refine .skip atParenthesizedType_alike fun type => ?_
    exact .ite (castWith_notes hn) (suffixedWith_notes hn)

theorem operationWith_notes (level : Nat) (left : Expr String) :
    Notes N (operationWith nested level left) fun turn =>
      Among Expr.map N left → TurnHas (Among Expr.map N) turn := by
  refine .skip .current fun token => ?_
  split
  · exact .pure fun inside => inside
  · refine .ite (.pure fun inside => inside) (.skip .advance fun _ => .bind (hn _) fun right => ?_)
    refine .pure fun inside before f g same => ?_
    rw [Expr.map, Expr.map, before f g same, inside f g same]

theorem expressionWith_notes (level : Nat) :
    Notes N (expressionWith nested level) (Among Expr.map N) :=
  .bind (operandWith_notes hn) fun e => .loop (operationWith_notes hn level) e

end

theorem expression_notes : Notes N expression (Among Expr.map N) := by
  have all (n level : Nat) : Notes N (expressionWithin n level) (Among Expr.map N) := by
    induction n generalizing level with
    | zero => exact .never fun _ _ _ _ => exhausted_ne_ok
    | succ n ih => exact expressionWith_notes ih level
  exact .budgeted fun n => all n _

/-! ### Statements -/

theorem variableAfter_notes (sp : Specifier String) (d : Declarator) :
    Notes N (variableAfter sp d) fun v => SpecifierAmong N sp → Among Variable.map N v := by
  refine .bind (declarationOf_notes sp d) fun declaration => ?_
  refine .skip (.accept _) fun _ => .ite (.skip .current fun token => ?_) ?_
  · refine .checked (.fail _ _) (.bind expression_notes fun e => .pure ?_)
    intro value declared inside f g same
    simp [Variable.map, declared inside f g same, value f g same]
  · refine .pure fun declared inside f g same => ?_
    simp [Variable.map, declared inside f g same]

theorem variableOf_notes (sp : Specifier String) :
    Notes N (variableOf sp) fun v => SpecifierAmong N sp → Among Variable.map N v :=
  .skip (declarator_alike _) fun d => variableAfter_notes sp d

theorem localVariables_notes :
    Notes N localVariables fun vs => ∀ v ∈ vs, Among Variable.map N v := by
  refine .bind specifier_notes fun sp => .bind (.commaSeparated (variableOf_notes sp)) fun vs => ?_
  exact .skip (.expect _) fun _ => .pure fun all inside v member => all v member inside

theorem condition_notes : Notes N condition (Among Expr.map N) :=
  .skip (.expect _) fun _ => .bind expression_notes fun _ => .skip (.expect _) fun _ =>
    .pure fun inside => inside

/-- What may be left out holds no other names than those in `N`. -/
def OptionAmong {α β : Type} (map : (String → Symbol) → α → β) (N : List String) (a : Option α) :
    Prop :=
  Among (fun f => Option.map (map f)) N a

theorem OptionAmong.none {α β : Type} {map : (String → Symbol) → α → β} :
    OptionAmong map N none :=
  fun _ _ _ => rfl

theorem OptionAmong.some {α β : Type} {map : (String → Symbol) → α → β} {a : α}
    (h : Among map N a) : OptionAmong map N (some a) :=
  fun f g same => congrArg Option.some (h f g same)

theorem expressionBefore_notes (m : Punctuator) :
    Notes N (expressionBefore m) (OptionAmong Expr.map N) :=
  .skip (.nextIs _) fun _ => .ite (.pure .none) (.bind expression_notes fun _ => .pure .some)

theorem loopVariable_notes : Notes N loopVariable (OptionAmong Variable.map N) := by
  refine .skip (.nextIs _) fun _ => .ite (.pure .none) (.skip .current fun token => ?_)
  refine .required (.bind specifier_notes fun sp => ?_) (.fail _ _)
  refine .bind (variableOf_notes sp) fun v => .skip .current fun next => ?_
  exact .checked (.fail _ _) (.pure fun declared inside => .some (declared inside))

theorem among_asBlock {st : Stmt String} (h : Among Stmt.map N st) :
    Among Stmt.map N (asBlock st) := by
  intro f g same
  rw [Stmt.map_asBlock, Stmt.map_asBlock, h f g same]

section

variable {nested : Parser (Stmt String)} (hn : Notes N nested (Among Stmt.map N))
include hn

theorem bodyWith_notes : Notes N (bodyWith nested) (Among Stmt.map N) := by
  refine .bind hn fun st => .skip .options fun o => .pure fun inside => ?_
  split
  · exact among_asBlock inside
  · exact inside

theorem blockItem_notes (statements : List (Stmt String)) :
    Notes N (blockItem nested statements) fun turn =>
      (∀ st ∈ statements, Among Stmt.map N st) →
        TurnHas (fun statements => ∀ st ∈ statements, Among Stmt.map N st) turn := by
  refine .skip .current fun token => .skip .atEnd fun _ => .ite (.pure fun kept => kept) ?_
  refine .locatedAt (.ite (.bind localVariables_notes fun vs => .pure ?_) ?_) _
  · intro inside kept
    refine List.forall_mem_append.2 ⟨kept, List.forall_mem_map.2 fun v declared f g same => ?_⟩
    exact congrArg Stmt.declaration (inside v declared f g same)
  refine .skip (.accept _) fun _ => .ite (.pure fun kept => kept) (.bind hn fun st => .pure ?_)
  intro inside kept
  exact List.forall_mem_append.2 ⟨kept, List.forall_mem_singleton.2 inside⟩

theorem blockWith_notes :
    Notes N (blockWith nested) fun statements => ∀ st ∈ statements, Among Stmt.map N st := by
  refine .skip (.expect _) fun _ => .bind (.loop (blockItem_notes hn) []) fun statements => ?_
  exact .skip (.expect _) fun _ => .pure fun kept => kept (by simp)

theorem conditionalWith_notes : Notes N (conditionalWith nested) (Among Stmt.map N) := by
  refine .bind condition_notes fun test => .bind (bodyWith_notes hn) fun thenBranch => ?_
  refine .skip (.acceptLexeme _) fun _ => .ite (.bind (bodyWith_notes hn) fun elseBranch => ?_) ?_
  · refine .pure fun last first inside f g same => ?_
    rw [Stmt.map, Stmt.map, inside f g same, first f g same, last f g same]
  · refine .pure fun first inside f g same => ?_
    rw [Stmt.map, Stmt.map, inside f g same, first f g same]

theorem forLoopWith_notes : Notes N (forLoopWith nested) (Among Stmt.map N) := by
  refine .skip (.expect _) fun _ => .bind loopVariable_notes fun first => ?_
  refine .skip (.expect _) fun _ => .bind (expressionBefore_notes _) fun test => ?_
  refine .skip (.expect _) fun _ => .bind (expressionBefore_notes _) fun step => ?_
  refine .skip (.expect _) fun _ => .bind (bodyWith_notes hn) fun body => ?_
  refine .pure fun inside stepped tested declared f g same => ?_
  have first : first.map (Variable.map f) = first.map (Variable.map g) := declared f g same
  have test : test.map (Expr.map f) = test.map (Expr.map g) := tested f g same
  have step : step.map (Expr.map f) = step.map (Expr.map g) := stepped f g same
  rw [Stmt.map, Stmt.map, first, test, step, inside f g same]

theorem statementWith_notes : Notes N (statementWith nested) (Among Stmt.map N) := by
  refine .skip .current fun token => .locatedAt ?_ _
  split
  · exact .skip .advance fun _ => conditionalWith_notes hn
  · refine .skip .advance fun _ => .bind condition_notes fun test => ?_
    refine .bind (bodyWith_notes hn) fun body => .pure fun inside tested f g same => ?_
    rw [Stmt.map, Stmt.map, tested f g same, inside f g same]
  · exact .skip .advance fun _ => forLoopWith_notes hn
  · refine .skip .advance fun _ => .bind (expressionBefore_notes _) fun value => ?_
    refine .skip (.expectAs _ _) fun _ => .pure fun inside f g same => ?_
    exact congrArg Stmt.returnWith (inside f g same)
  · exact .skip .advance fun _ => .skip (.expectAs _ _) fun _ => .pure fun _ _ _ => rfl
  · exact .skip .advance fun _ => .skip (.expectAs _ _) fun _ => .pure fun _ _ _ => rfl
  · refine .bind (blockWith_notes hn) fun statements => .pure fun inside f g same => ?_
    rw [Stmt.map, Stmt.map, Stmt.mapAll_eq_map, Stmt.mapAll_eq_map, map_eq_of_among inside same]
  · exact .skip .advance fun _ => .pure fun _ _ _ => rfl
  · refine .checked (.unexpected _) (.bind expression_notes fun e => ?_)
    refine .skip (.expect _) fun _ => .pure fun inside f g same => ?_
    exact congrArg Stmt.expression (inside f g same)

end

theorem block_notes : Notes N block (Among Block.map N) := by
  have all (n : Nat) : Notes N (statementWithin n) (Among Stmt.map N) := by
    induction n with
    | zero => exact .never fun _ _ _ _ => exhausted_ne_ok
    | succ n ih => exact statementWith_notes ih
  refine .bind (blockWith_notes (.budgeted all)) fun statements => .pure fun inside f g same => ?_
  rw [Block.map, Block.map, map_eq_of_among inside same]

/-! ### Units -/

theorem structMembers_notes (struct : String) (members : List (Declaration String)) :
    Notes N (structMembers struct members) fun turn =>
      (∀ d ∈ members, Among Declaration.map N d) →
        TurnHas (fun members => ∀ d ∈ members, Among Declaration.map N d) turn := by
  refine .skip .current fun start => .skip .atEnd fun _ => .ite (.pure fun kept => kept) ?_
  refine .bind specifier_notes fun sp => .checked (.fail _ _) ?_
  refine .bind (.commaSeparated (.skip (declarator_alike _) fun d =>
    declarationOf_notes sp d)) fun more => .skip (.expect _) fun _ => .pure ?_
  intro all inside kept
  exact List.forall_mem_append.2 ⟨kept, fun d member => all d member inside⟩

theorem structEnd_notes (start : Token) (name : String) (members : List (Declaration String)) :
    Notes N (structEnd start name members) fun u =>
      (∀ d ∈ members, Among Declaration.map N d) → Among Struct.map N u := by
  refine .skip (.expectAs _ _) fun _ => .skip .options fun o => .checked (.fail _ _) ?_
  refine .bind (.note name) fun _ => .pure fun noted inside f g same => ?_
  rw [Struct.map, Struct.map, same name noted, map_eq_of_among inside same]

theorem structDefinition_notes : Notes N structDefinition (Among Struct.map N) := by
  refine .skip .current fun start => .skip .advance fun _ => .skip (.identifier _) fun name => ?_
  refine .skip (.expect _) fun _ => .bind (.loop (structMembers_notes name) []) fun members => ?_
  refine .skip (.expect _) fun _ => .skip .current fun token => ?_
  have last : Notes N (structEnd start name members) fun u =>
      ((∀ d ∈ [], Among Declaration.map N d) → ∀ d ∈ members, Among Declaration.map N d) →
        Among Struct.map N u :=
    (structEnd_notes start name members).mono fun _ inside kept => inside (kept (by simp))
  split
  · exact .skip (.fail _ _) fun _ => last
  · exact .skip (.fail _ _) fun _ => last
  · exact last

theorem functionAfter_notes (sp : Specifier String) (d : Declarator) (ident : Token)
    (parameters : List (Declaration String)) :
    Notes N (functionAfter sp d ident parameters) fun u =>
      SpecifierAmong N sp → (∀ d ∈ parameters, Among Declaration.map N d) →
        Among Function.map N u := by
  refine .bind (declarationOf_notes sp d) fun declaration => .skip (.nextIs _) fun _ => .ite ?_ ?_
  · refine .skip (namedParameters_alike _ _) fun _ => .bind block_notes fun b => .pure ?_
    intro body declared inside all f g same
    simp [Function.map, declared inside f g same, body f g same, map_eq_of_among all same]
  · refine .skip .current fun semicolon => .skip (.expectAs _ _) fun _ => .skip .options fun o => ?_
    refine .required (.pure fun declared inside all f g same => ?_) (.fail _ _)
    simp [Function.map, declared inside f g same, map_eq_of_among all same]

/-- **Every name in a unit was noted.** -/
theorem unit_notes : Notes N unit fun us => ∀ u ∈ us, Among TopLevel.map N u := by
  refine .skip (atStructDefinition_alike id) fun _ => .ite ?_ ?_
  · refine .bind structDefinition_notes fun u => .pure fun inside => ?_
    exact List.forall_mem_singleton.2 fun f g same => congrArg TopLevel.struct (inside f g same)
  refine .skip .current fun start => .bind specifier_notes fun sp => .skip (.nextIs _) fun _ => ?_
  refine .checked (.fail _ _) (.bind topDeclarator_notes fun d => ?_)
  split
  · rename_i ident parameters found
    refine .bind (functionAfter_notes sp d ident parameters) fun u => .pure ?_
    refine fun whole declared inside => List.forall_mem_singleton.2 fun f g same => ?_
    exact congrArg TopLevel.function (whole inside (declared _ (congrArg Prod.snd found)) f g same)
  · refine .bind (variableAfter_notes sp d) fun first => ?_
    refine .bind (.moreAfterCommas (variableOf_notes sp) [first]) fun found => ?_
    refine .skip (.expect _) fun _ => .pure fun all single _ inside => ?_
    refine List.forall_mem_map.2 fun v member f g same => congrArg TopLevel.var ?_
    exact all (List.forall_mem_singleton.2 single) v member inside f g same

end Parser

/-- **Every name in the units of a source that is read up to its end was noted.** -/
theorem unitsWithin_notes {s : Setting} {n : Nat} {p : Progress}
    (whole : (unitsWithin s n p).stop = none) :
    p.names ⊆ (unitsWithin s n p).progress.names ∧
      ∀ u ∈ (unitsWithin s n p).completed,
        Among TopLevel.map (unitsWithin s n p).progress.names u := by
  induction n generalizing p with
  | zero => cases whole
  | succ n ih =>
      unfold unitsWithin at whole ⊢
      by_cases none : p.rest.isEmpty
      · rw [if_pos none]
        exact ⟨List.Subset.refl _, fun u member => by cases member⟩
      rw [if_neg none] at whole ⊢
      cases read : Parser.locatedAt (p.rest.headD s.ending) Parser.unit s p with
      | error stop r =>
          rw [read] at whole
          cases whole
      | ok us r =>
          rw [read] at whole
          obtain ⟨before, units⟩ := ih whole
          have unit := Parser.locatedAt_eq_ok_iff.1 read
          obtain ⟨first, inside⟩ := Parser.unit_notes s p us r unit
          exact ⟨List.Subset.trans first before, List.forall_mem_append.2 ⟨inside before, units⟩⟩

end PlainC
