/-
**The tokens that declare a variable.**

Behind a specifier a variable is declared by its declarator and its initial value.  Which tokens do
so is told once and for all by the way in which they are read when nothing else is declared with
them.  The same tokens are then read anywhere: as the first declarator of a unit or behind a comma,
in a block or, without an initial value, in a struct, and in front of a comma just as in front of a
semicolon.

Main definitions:

* `PlainC.Parser.ReadsForms` — a rule that reads declarators however they are written;
* `PlainC.Parser.InitialTokens`, `PlainC.Parser.DeclaratorTokensOf`, `PlainC.Parser.VariableTokens`
  — the tokens that are an initial value, a declarator, and both;
* `PlainC.Parser.Finds` — a rule that reads some tokens in front of any comma or semicolon.

Main results:

* `PlainC.Parser.VariableTokens.of_variableAfter` — **what is read as a variable in front of a
  semicolon are tokens that declare it**;
* `PlainC.Parser.VariableTokens.finds_variable`, `PlainC.Parser.VariableTokens.finds_member` —
  **tokens that declare a variable are read as this variable, in front of any comma or semicolon**.
-/

import PlainC.Proofs.Comparison.Retelling
import PlainC.Proofs.Comparison.Shortening
import PlainC.Proofs.Declaring.Unit

set_option relaxedAutoImplicit false
set_option autoImplicit false

namespace PlainC

theorem Layer.toInt_injective : Function.Injective Layer.toInt := by
  rintro ⟨kind, size⟩ ⟨kind', size'⟩ same
  simp only [toInt, mk.injEq] at same ⊢
  exact ⟨same.1, Option.map_injective (fun _ _ => Int.ofNat.inj) same.2⟩

namespace Parser

variable {s : Setting} {p q : Progress} {sp : Specifier String} {d : Declarator}
variable {v : Variable String} {declaration : Declaration String} {e : Option (Expr String)}
variable {ts after : List Token} {t : Token}

/-! ### Tokens that declare -/

/-- The tokens behind the declarator of a variable with a given initial value: none, or an equals
sign and an expression. -/
inductive InitialTokens (s : Setting) : List Token → Option (Expr String) → Prop
  | none : InitialTokens s [] none
  | some {assign : Token} {ts : List Token} {e : Expr String} :
      assign.lexeme = .punctuator .assign →
      (∀ names, ∃ names', Reads s (.expression expressionLevel) ⟨ts, names⟩ e ⟨[], names'⟩) →
      InitialTokens s (assign :: ts) (some e)

/-- The tokens behind a specifier that are the declarator of a declaration, written in some way. -/
structure DeclaratorTokensOf (declaration : Declaration String) (ts : List Token) : Prop where
  readable : declaration.isReadable
  form : ∃ w : DeclaratorForm, w.isSound ∧ w.name = declaration.name ∧
    w.layers = declaration.shape.layers ∧ ts.map Token.lexeme = w.spelling

/-- The tokens behind the specifier `sp` that declare a variable. -/
structure VariableTokens (s : Setting) (sp : Specifier String) (ts : List Token)
    (v : Variable String) : Prop where
  specifier : v.declaration.specifier = sp
  parts : ∃ front initial, front ++ initial = ts ∧ DeclaratorTokensOf v.declaration front ∧
    InitialTokens s initial v.initializer

/-! ### Declarators -/

/-- A rule that reads declarators with a name, however they are written, in front of anything that
does not go on with them. -/
structure ReadsForms (s : Setting) (x : Parser Declarator) : Prop where
  advances : Advances x
  takes : ∀ {w : DeclaratorForm} {after : List Lexeme}, w.isSound → w.name.isSome →
    continuesDeclarator (s.front after) = false →
    Takes s x (w.spelling ++ after) (Declarator.Stands w.name w.layers) after

theorem declarator_readsForms : ReadsForms s (declarator false) where
  advances := declarator_advances false
  takes sound named stop := takes_declarator sound (.inr named) stop

theorem topDeclarator_readsForms : ReadsForms s topDeclarator where
  advances := topDeclarator_advances
  takes sound named stop := takes_topDeclarator_plain sound named stop

theorem ReadsForms.of_tokens {x : Parser Declarator} (hx : ReadsForms s x) {front rest : List Token}
    (h : DeclaratorTokensOf declaration front)
    (stop : continuesDeclarator (s.front (rest.map Token.lexeme)) = false) (names : List String) :
    ∃ d names', x s ⟨front ++ rest, names⟩ = .ok d ⟨rest, names'⟩ ∧
      d.Stands declaration.name declaration.shape.layers := by
  obtain ⟨readable, w, sound, name, layers, spelled⟩ := h
  rw [Declaration.isReadable, Bool.and_eq_true] at readable
  have takes := hx.takes sound (name ▸ readable.2) stop
  rw [name, layers, ← spelled, ← List.map_append] at takes
  exact takes.leaves hx.advances names

/-- Behind a declarator that stands for a declaration, this declaration is made. -/
theorem declarationOf_of_stands (readable : declaration.isReadable)
    (stands : d.Stands declaration.name declaration.shape.layers) (ts : List Token)
    (names : List String) :
    ∃ names', declarationOf declaration.specifier d s ⟨ts, names⟩ =
      .ok declaration ⟨ts, names'⟩ := by
  have takes : Takes s (declarationOf declaration.specifier d) (([] ++ ts).map Token.lexeme)
      (· = declaration) (ts.map Token.lexeme) := takes_declarationOf readable stands
  obtain ⟨_, names', read, rfl⟩ := takes.leaves declarationOf_advances names
  exact ⟨names', read⟩

/-! ### Initial values -/

/-- An initial value, or what stands behind a declarator without one, does not go on with it. -/
theorem InitialTokens.stops (h : InitialTokens s ts e) (stop : endsVariable t.lexeme) :
    continuesDeclarator (s.front ((ts ++ t :: after).map Token.lexeme)) = false := by
  cases h with
  | none => rcases stop with semicolon | comma <;> simp [continuesDeclarator, *]
  | some assign _ => simp [continuesDeclarator, assign]

/-- What ends a variable ends the expression for its initial value. -/
theorem stopsExpression_of_endsVariable (stop : endsVariable t.lexeme) :
    StopsExpression t.lexeme := by
  rcases stop with semicolon | comma
  · exact semicolon ▸ stopsExpression_separator (.inl rfl)
  · exact comma ▸ stopsExpression_separator (.inr rfl)

/-- Behind a declarator an initial value is read, in front of a comma or a semicolon. -/
theorem InitialTokens.variableAfter (hs : s.Closed) (h : InitialTokens s ts e)
    (readable : declaration.isReadable)
    (stands : d.Stands declaration.name declaration.shape.layers) (stop : endsVariable t.lexeme)
    (names : List String) :
    ∃ names', variableAfter declaration.specifier d s ⟨ts ++ t :: after, names⟩ =
      .ok ⟨declaration, e⟩ ⟨t :: after, names'⟩ := by
  obtain ⟨names₁, declared⟩ :=
    declarationOf_of_stands (s := s) readable stands (ts ++ t :: after) names
  cases h with
  | none =>
      refine ⟨names₁, variableAfter_eq_ok_iff.2 ⟨_, declared, .inr ⟨?_, rfl, rfl⟩⟩⟩
      rcases stop with semicolon | comma <;> simp [*]
  | @some assign ts e isAssign reads =>
      obtain ⟨names₂, read⟩ := reads names₁
      have plain (p : Progress) : p = p.followed [] := by
        rw [Progress.followed, List.append_nil]
      have there : Reads (s.endingAt s.ending) (.expression expressionLevel)
          (Progress.followed (t :: after) ⟨ts, names₁⟩) e
          (Progress.followed (t :: after) ⟨[], names₂⟩) :=
        read.exchange hs (stopsExpression_of_endsVariable stop) (plain _) (plain _)
      refine ⟨names₂, variableAfter_eq_ok_iff.2 ⟨_, declared, .inl ⟨isAssign, ?_, e, ?_, rfl⟩⟩⟩
      · intro brace
        have begins := there.startsExpression_front
        change startsExpression ((⟨ts ++ t :: after, names₁⟩ : Progress).front s) = true at begins
        rw [show (⟨ts ++ t :: after, names₁⟩ : Progress).front s = _ from brace] at begins
        cases begins
      · exact (expression_eq_ok_iff hs).2 there

/-! ### Variables -/

/-- In front of any comma or semicolon the rule reads `a` off the tokens `ts`. -/
def Finds {α : Type} (s : Setting) (item : Parser α) (ts : List Token) (a : α) : Prop :=
  ∀ t after names, endsVariable t.lexeme →
    ∃ names', item s ⟨ts ++ t :: after, names⟩ = .ok a ⟨t :: after, names'⟩

namespace VariableTokens

/-- Tokens that declare a variable are read as this variable, by any rule for its declarator. -/
theorem reads {x : Parser Declarator} (hs : s.Closed) (hx : ReadsForms s x)
    (h : VariableTokens s sp ts v) (stop : endsVariable t.lexeme) (after : List Token)
    (names : List String) :
    ∃ d r names', x s ⟨ts ++ t :: after, names⟩ = .ok d r ∧ d.parameters = none ∧
      variableAfter sp d s r = .ok v ⟨t :: after, names'⟩ := by
  obtain ⟨rfl, front, initial, rfl, declarator, value⟩ := h
  rw [List.append_assoc]
  obtain ⟨d, names₁, read, stands⟩ := hx.of_tokens declarator (value.stops stop) names
  obtain ⟨names₂, whole⟩ := value.variableAfter hs declarator.readable stands stop names₁
  exact ⟨d, _, names₂, read, stands.parameters, whole⟩

/-- **Tokens that declare a variable are read as this variable behind its specifier.** -/
theorem finds_variable (hs : s.Closed) (h : VariableTokens s sp ts v) :
    Finds s (variableOf sp) ts v := by
  intro t after names stop
  obtain ⟨d, r, names', read, -, whole⟩ := h.reads hs declarator_readsForms stop after names
  exact ⟨names', (bind_of_ok read _).trans whole⟩

/-- Without an initial value they are read as a member of a struct as well. -/
theorem finds_member (h : VariableTokens s sp ts v) (bare : v.initializer = none) :
    Finds s (do declarationOf sp (← declarator false)) ts v.declaration := by
  intro t after names stop
  obtain ⟨rfl, front, initial, rfl, declarator, value⟩ := h
  rw [bare] at value
  cases value
  rw [List.append_nil]
  have nothing : InitialTokens s [] none := .none
  obtain ⟨d, names₁, read, stands⟩ :=
    declarator_readsForms.of_tokens declarator (nothing.stops stop) names
  obtain ⟨names₂, whole⟩ := declarationOf_of_stands declarator.readable stands _ names₁
  exact ⟨names₂, (bind_of_ok read _).trans whole⟩

/-- What declares a variable begins like a declarator. -/
theorem opens (h : VariableTokens s sp ts v) (rest : List Token) :
    opensDeclarator (s.front ((ts ++ rest).map Token.lexeme)) = true := by
  obtain ⟨rfl, front, initial, rfl, ⟨readable, w, -, name, -, spelled⟩, -⟩ := h
  rw [Declaration.isReadable, Bool.and_eq_true, ← name] at readable
  rw [List.append_assoc, List.map_append, spelled]
  exact DeclaratorForm.opensDeclarator_front s (DeclaratorForm.opens_of_named readable.2) _

end VariableTokens

/-! ### Variables that were read -/

variable {ending : Token} {names names' : List String}

/-- What was read behind a declarator as a variable, in front of a semicolon, is an initial value,
also in a source with another end. -/
theorem InitialTokens.of_variableAfter (hs : s.Closed) (closed : ending.lexeme = .ending)
    (semicolon : t.lexeme = .punctuator .semicolon)
    (read : Parser.variableAfter sp d s ⟨ts ++ [t], names⟩ = .ok v ⟨[t], names'⟩) :
    InitialTokens (s.endingAt ending) ts v.initializer := by
  obtain ⟨r, declared, rest⟩ := variableAfter_eq_ok_iff.1 read
  obtain ⟨left, names₁⟩ := r
  obtain rfl : left = ts ++ [t] := rest_of_declarationOf declared
  rcases rest with ⟨assign, -, e, value, same⟩ | ⟨-, same, left⟩
  · rcases ts with _ | ⟨u, ts⟩
    · rw [List.nil_append, Progress.front_cons, semicolon] at assign
      cases assign
    rw [same]
    refine .some assign fun names₂ => ?_
    -- up to the semicolon is as good as up to the end of the source
    have closed' : (s.endingAt ending).Closed := closed
    have stop : StopsExpression (([] : List Token).headD ending).lexeme := by
      rw [List.headD_nil, closed]
      exact stopsExpression_ending
    have there : Reads (s.endingAt ending) (.expression expressionLevel)
        (Progress.followed [] ⟨ts, names₁⟩) e (Progress.followed [] ⟨[], names'⟩) :=
      ((expression_eq_ok_iff hs).1 value).exchange hs stop rfl rfl
    rw [Progress.followed, List.append_nil] at there
    obtain ⟨names₃, again⟩ :=
      expression_alike.reads_after ((expression_eq_ok_iff closed').2 there) names₂
    exact ⟨names₃, (expression_eq_ok_iff closed').1 again⟩
  · have nothing : ts = [] := by
      have length := congrArg (fun r => r.rest.length) left
      simpa using length
    rw [same, nothing]
    exact .none

/-- **What was read as a variable in front of a semicolon, at the outermost level, are tokens that
declare it.** -/
theorem VariableTokens.of_variableAfter (hs : s.Closed) (closed : ending.lexeme = .ending)
    (semicolon : t.lexeme = .punctuator .semicolon) (spelled : sp.hasSpelling) {r : Progress}
    (inside : topDeclarator s ⟨ts ++ [t], names⟩ = .ok d r) (plain : d.parameters = none)
    (read : Parser.variableAfter sp d s r = .ok v ⟨[t], names'⟩) :
    VariableTokens (s.endingAt ending) sp ts v := by
  -- the tokens of the declarator, and behind them those of the initial value
  obtain ⟨front, whole⟩ := topDeclarator_advances.of_ok inside
  obtain ⟨initial, left⟩ := variableAfter_advances.of_ok read
  obtain ⟨rest, names₁⟩ := r
  obtain rfl : initial ++ [t] = rest := left
  obtain rfl : front ++ initial = ts := by
    rw [← List.append_assoc] at whole
    exact List.append_cancel_right whole
  obtain ⟨r₁, declared, -⟩ := variableAfter_eq_ok_iff.1 read
  obtain ⟨shape, composed, same, -⟩ := declarationOf_eq_ok_iff.1 declared
  obtain ⟨w, form⟩ := spelled_of_topDeclarator hs inside plain (Shape.allSound_of_ofLayers composed)
  obtain ⟨layers, known⟩ := Shape.layers_of_ofLayers composed
  have name : d.name = w.name := form.stands.name
  refine ⟨by rw [← same], front, initial, rfl, ⟨?_, w, form.sound, ?_, ?_, ?_⟩,
    .of_variableAfter hs closed semicolon read⟩
  · rw [← same, Declaration.isReadable, Declaration.hasSpelling_of_isKnown spelled known, name,
      form.named]
    rfl
  · rw [← same, name]
  · rw [← same]
    refine List.map_injective_iff.2 Layer.toInt_injective ?_
    rw [← form.stands.layers, layers]
  · have lexemes := form.lexemes
    simp only [Progress.lexemes, List.append_assoc, List.map_append] at lexemes
    simpa using lexemes

end Parser

end PlainC
