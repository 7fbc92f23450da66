/-
**Declarations that are read are sound.**

The checks on a declaration stand in different rules.  The words of a specifier are resolved where
it ends, a name is asked for in the core of a declarator, the layers are put together by whoever has
the declarator, and parameters are kept out of nested declarators by handing no rule for them down.
Together they give declarations that could be written as they stand.

A lone `void` between the parentheses of a function stands for no parameters.  No parameter is just
such a `void`: to read it the rule for parameters would have to stop right behind the word, in front
of the closing parenthesis, and in this case the word was taken for the mark.

Main definitions:

* `PlainC.Parser.ParametersFit`, `PlainC.Parser.DeclaratorFits` — what holds of the parameters and
  of the declarator of a function.

Main results:

* `PlainC.Shape.layers_of_ofLayers` — a shape has the layers that were given, and no negative size
  among them;
* `PlainC.Parser.specifier_yields`, `PlainC.Parser.sizeofType_yields` — specifiers, and the types
  whose size is taken;
* `PlainC.Parser.declaratorWithin_stays` — a declarator of nothing reads nothing;
* `PlainC.Parser.topDeclarator_yields` — **the declarator of a function has pointers only, and a
  parameter list that is not a lone `void`**.
-/

import PlainC.Proofs.Parsing.Yielding
import PlainC.Proofs.RoundTrip.Declaration
import PlainC.Proofs.Spelling.Program

set_option relaxedAutoImplicit false
set_option autoImplicit false

namespace PlainC

/-! ### Shapes -/

namespace Shape

variable {inner shape : Shape}

/-- A layer that is put around a shape has no size, or one that is not negative. -/
theorem wrap_eq_ok {layer : Layer Int} (h : wrap sizeOfInt layer inner = .ok shape) :
    ∃ sound : Layer Nat, layer = sound.toInt ∧ shape.layers = sound :: inner.layers ∧
      shape.isKnown = inner.isKnown := by
  obtain ⟨_ | _, _ | size⟩ := layer
  · cases h
    exact ⟨⟨.pointer, none⟩, rfl, rfl, rfl⟩
  · cases h
  · cases h
    exact ⟨⟨.array, none⟩, rfl, rfl, rfl⟩
  · simp only [wrap, sizeOfInt] at h
    split at h
    · cases h
    · rename_i sound
      cases h
      refine ⟨⟨.array, some size.toNat⟩, ?_, rfl, rfl⟩
      rw [Layer.toInt, Option.map_some, Int.ofNat_eq_natCast, Int.toNat_of_nonneg (by omega)]

/-- A shape that is put together is known, and its layers are the ones that were given. -/
theorem layers_of_ofLayers {layers : List (Layer Int)} (h : ofLayers layers = .ok shape) :
    layers = shape.layers.map Layer.toInt ∧ shape.isKnown := by
  induction layers generalizing shape with
  | nil =>
      cases h
      exact ⟨rfl, rfl⟩
  | cons layer layers ih =>
      rw [ofLayers, compose] at h
      cases rest : compose sizeOfInt layers with
      | error fault => rw [rest] at h; cases h
      | ok inner =>
          rw [rest] at h
          obtain ⟨same, known⟩ := ih rest
          obtain ⟨sound, rfl, row, stays⟩ := wrap_eq_ok h
          exact ⟨by rw [row, List.map_cons, ← same], stays.trans known⟩

end Shape

/-- A declaration can be written if its specifier can and its shape is known, with a name or without
one. -/
theorem Declaration.hasSpelling_of_isKnown {sp : Specifier String} (spelled : sp.hasSpelling)
    {shape : Shape} (known : shape.isKnown) (name : Option String) :
    Declaration.hasSpelling ⟨sp, shape, name⟩ := by
  rw [hasSpelling, spelled, known]
  rfl

namespace Parser

variable {s : Setting} {p q : Progress}

/-! ### Specifiers -/

/-- A word that is a lexeme of its own can be written. -/
theorem hasSpelling_of_ofLexeme? {lexeme : Lexeme} {word : TypeWord String}
    (h : TypeWord.ofLexeme? lexeme = some word) : word.hasSpelling := by
  cases lexeme with
  | keyword k => cases k <;> cases h <;> rfl
  | _ => cases h

theorem specifierWord_yields {sp : Specifier String} (spelled : sp.words.all TypeWord.hasSpelling) :
    Yields s (specifierWord sp) (TurnHas fun sp => sp.words.all TypeWord.hasSpelling) := by
  have append {word : TypeWord String} (h : word.hasSpelling) :
      (sp.words ++ [word]).all TypeWord.hasSpelling := by
    simp [spelled, h]
  refine .skip fun token => ?_
  split
  · exact .skip fun _ => .pure spelled
  · exact .skip fun _ => .pure spelled
  · refine .skip fun _ => .skip fun name => .skip fun _ => ?_
    exact .passed (.fail _ _) fun _ => .skip fun _ => .pure (append rfl)
  · split
    · rename_i found
      exact .skip fun _ => .pure (append (hasSpelling_of_ofLexeme? found))
    · exact .pure spelled

/-- The words of a specifier that was read can be written, and name a type. -/
theorem specifier_yields : Yields s specifier fun sp => sp.hasSpelling := by
  refine .skip fun start => .bind (.loop (fun _ => specifierWord_yields) rfl) fun sp spelled => ?_
  refine .passed (.missing _) fun _ => ?_
  refine .bind (.locatedAt (.ofExcept _) _) fun type resolved => .pure ?_
  rw [Specifier.hasSpelling, spelled, resolved]
  rfl

/-! ### Declarators -/

theorem shapeOf_yields (layers : List (Layer Int)) :
    Yields s (shapeOf layers) fun shape =>
      layers = shape.layers.map Layer.toInt ∧ shape.isKnown := by
  refine (Yields.ofExcept _).mono fun shape composed => ?_
  cases found : Shape.ofLayers layers with
  | error fault => rw [found] at composed; cases composed
  | ok other =>
      rw [found] at composed
      cases composed
      exact Shape.layers_of_ofLayers found

theorem pointers_yields : Yields s pointers fun layers => ∀ l ∈ layers, l.kind = .pointer := by
  refine .loop (fun layers kept => .skip fun more => .ite (fun _ => ?_) fun _ => .pure kept)
    (List.forall_mem_nil _)
  refine .skip fun token => .passed (.fail _ _) fun _ => .pure ?_
  exact List.forall_mem_append.2 ⟨kept, List.forall_mem_singleton.2 rfl⟩

/-- What holds of the parameters of a function. -/
def ParametersFit (ds : List (Declaration String)) : Prop :=
  (∀ d ∈ ds, d.hasSpelling) ∧ ds ≠ [Declaration.loneVoid]

/-- What holds of a declarator that need not be abstract: it has a name, and if it declares a
function it has pointers only and its parameters fit. -/
structure DeclaratorFits (d : Declarator) : Prop where
  named : d.name.isSome
  pointers : d.parameters.isSome → ∀ layer ∈ d.layers, layer.kind = .pointer
  parameters : ∀ ds ∈ d.parameters, ParametersFit ds

theorem declaratorSuffix_yields {list : Option (Parser (List (Declaration String)))}
    (hl : ∀ x ∈ list, Yields s x ParametersFit) (inParentheses : Bool) {d : Declarator}
    (fits : DeclaratorFits d) :
    Yields s (declaratorSuffix list inParentheses d) (TurnHas DeclaratorFits) := by
  refine .skip fun token => .skip fun array => .ite (fun _ => ?_) fun _ => .skip fun paren => ?_
  · refine .passed (.fail _ _) fun noFunction => .skip fun size => .pure ?_
    exact ⟨fits.named, fun function => absurd function noFunction, fits.parameters⟩
  refine .ite (fun _ => .passed (.fail _ _) fun _ => ?_) fun _ => .pure fits
  cases list with
  | none => exact .fail _ _
  | some x =>
      refine .passed (.fail _ _) fun right => .skip fun _ => .bind (hl x rfl) fun ds hds => .pure ?_
      simp only [Bool.or_eq_true, not_or, Bool.not_eq_true, Bool.not_eq_false',
        List.isEmpty_iff] at right
      refine ⟨fits.named, fun _ => ?_, by rintro _ ⟨⟩; exact hds⟩
      rw [right.1.1]
      exact List.forall_mem_nil _

section

variable {nested : Parser Declarator} (hn : Yields s nested DeclaratorFits)
include hn

theorem declaratorCore_yields :
    Yields s (declaratorCore nested false) fun core => DeclaratorFits core.1 := by
  have plain {ident : Option Token} {layers : List (Layer Int)} (h : ident.isSome) :
      DeclaratorFits { ident := ident, layers := layers } := by
    refine ⟨?_, fun function => ?_, fun ds none => ?_⟩
    · rwa [Declarator.name, Option.isSome_map]
    · cases function
    · cases none
  refine .skip fun token => ?_
  split
  · exact .skip fun _ => .pure (plain rfl)
  · refine .skip fun second => .ite (fun _ => ?_) fun _ => ?_
    · refine .skip fun _ => .bind hn fun inner fits => .skip fun _ => .pure (plain ?_)
      have named := fits.named
      rwa [Declarator.name, Option.isSome_map] at named
    · exact .required (fun named => by cases named) (.missing _)

theorem declaratorWith_yields {list : Option (Parser (List (Declaration String)))}
    (hl : ∀ x ∈ list, Yields s x ParametersFit) :
    Yields s (declaratorWith nested list false) DeclaratorFits := by
  refine .bind pointers_yields fun outer isPointer => .bind (declaratorCore_yields hn) ?_
  intro core fits
  refine .bind (.loop (fun _ => declaratorSuffix_yields hl core.2) fits) fun d fits => .pure ?_
  refine ⟨fits.named, fun function => ?_, fits.parameters⟩
  exact List.forall_mem_append.2 ⟨fits.pointers function, isPointer⟩

end

/-- A declarator that is not abstract has a name. -/
theorem declarator_yields : Yields s (declarator false) DeclaratorFits := by
  refine .budgeted fun n => ?_
  induction n with
  | zero => exact .exhausted
  | succ n ih => exact declaratorWith_yields ih (by rintro _ ⟨⟩)

/-! ### Declarators of nothing -/

/-- A loop that ends with the value that it has, where it has arrived, and whose value has grown in
every other turn, has read nothing unless its value has grown. -/
theorem grows_or_stays {β : Type} (grown : β → Prop) {step : β → Parser (ForInStep β)}
    (turns : ∀ b p turn q, step b s p = .ok turn q →
      (∃ c, turn = .yield c ∧ grown c) ∨ turn = .done b ∧ q = p)
    {b c : β} (h : loop step b s p = .ok c q) : grown c ∨ c = b ∧ q = p := by
  unfold loop budgeted at h
  generalize p.rest.length + 1 = n at h
  induction n generalizing b p with
  | zero => exact absurd h exhausted_ne_ok
  | succ n ih =>
      rcases iterate_succ_eq_ok_iff.1 h with last | ⟨d, r, turn, rest⟩
      · rcases turns b p _ q last with ⟨_, other, -⟩ | ⟨same, stays⟩
        · cases other
        · cases same
          exact .inr ⟨rfl, stays⟩
      · rcases turns b p _ r turn with ⟨_, same, grows⟩ | ⟨other, -⟩
        · cases same
          rcases ih rest with more | ⟨rfl, -⟩
          · exact .inl more
          · exact .inl grows
        · cases other

/-- Where no pointers are read, nothing is. -/
theorem pointers_stays (h : pointers s p = .ok [] q) : q = p := by
  refine (grows_or_stays (· ≠ []) ?_ h).elim (fun grows => absurd rfl grows) And.right
  intro layers p turn q read
  rw [pointerMark, accept_bind] at read
  split at read
  · rw [if_pos rfl] at read
    refine .inl (Yields.holds (fun turn => ∃ c, turn = .yield c ∧ c ≠ []) read ?_)
    refine .skip fun token => .passed (.fail _ _) fun _ => .pure ⟨_, rfl, ?_⟩
    exact List.append_ne_nil_of_right_ne_nil _ (List.cons_ne_nil _ _)
  · obtain ⟨rfl, rfl⟩ := pure_eq_ok_iff.1 read
    exact .inr ⟨rfl, rfl⟩

/-- Where no layers are read behind a declarator, nothing is. -/
theorem suffixes_stays {inParentheses : Bool} {core d : Declarator}
    (h : loop (declaratorSuffix none inParentheses) core s p = .ok d q) (bare : d.layers = []) :
    d = core ∧ q = p := by
  refine (grows_or_stays (fun d => d.layers ≠ []) ?_ h).resolve_left fun grows => grows bare
  intro d p turn q read
  rw [declaratorSuffix, current_bind, accept_bind] at read
  split at read
  · rw [if_pos rfl] at read
    refine .inl (Yields.holds
      (fun turn => ∃ c : Declarator, turn = .yield c ∧ c.layers ≠ []) read ?_)
    refine .passed (.fail _ _) fun _ => .skip fun size => .pure ⟨_, rfl, ?_⟩
    exact List.append_ne_nil_of_right_ne_nil _ (List.cons_ne_nil _ _)
  · rw [if_neg Bool.false_ne_true, nextIs_bind] at read
    split at read
    · exact (Yields.holds (fun _ => False) read (.passed (.fail _ _) fun _ => .fail _ _)).elim
    · obtain ⟨rfl, rfl⟩ := pure_eq_ok_iff.1 read
      exact .inr ⟨rfl, rfl⟩

/-- The core of a declarator that need not have a name: a name, or a declarator in parentheses with
a lexeme of its own behind the opening one, or nothing. -/
theorem declaratorCore_eq_ok {nested : Parser Declarator} {core : Declarator × Bool}
    (h : declaratorCore nested true s p = .ok core q) :
    core.1.ident.isSome ∨
      (opensDeclarator (p.behind.front s) ∧ ∃ inner r, nested s p.behind = .ok inner r ∧
        r.front s = .punctuator .parenClose ∧ core.1.ident = inner.ident ∧
        core.1.layers = inner.layers) ∨
      q = p := by
  rw [declaratorCore, current_bind, lexeme_headD] at h
  cases front : p.front s
  case identifier name =>
    simp only [front] at h
    obtain ⟨_, _, -, h⟩ := bind_eq_ok_iff.1 h
    obtain ⟨rfl, -⟩ := pure_eq_ok_iff.1 h
    exact .inl rfl
  all_goals
    simp only [front] at h
    obtain ⟨second, _, next, h⟩ := bind_eq_ok_iff.1 h
    obtain ⟨rfl, rfl⟩ := ahead_eq_ok_iff.1 next
    rw [lexeme_getD_one] at h
    split at h
    · rename_i opens
      obtain ⟨_, r, past, h⟩ := bind_eq_ok_iff.1 h
      obtain ⟨inner, r', read, h⟩ := bind_eq_ok_iff.1 h
      obtain ⟨_, _, close, h⟩ := bind_eq_ok_iff.1 h
      obtain ⟨rfl, -⟩ := pure_eq_ok_iff.1 h
      obtain rfl := advance_eq_ok_iff.1 past
      rw [Bool.and_eq_true] at opens
      exact .inr (.inl ⟨opens.2, inner, r', read, (expect_eq_ok_iff.1 close).1, rfl, rfl⟩)
    · simp only [if_true, pure_eq_ok_iff] at h
      exact .inr (.inr h.2.symm)

/-- **A declarator without a name and without layers reads nothing.** -/
theorem declaratorWithin_stays {n : Nat} {d : Declarator}
    (h : declaratorWithin true n s p = .ok d q) (nameless : d.ident = none) (bare : d.layers = []) :
    q = p := by
  induction n generalizing p q d with
  | zero => exact absurd h exhausted_ne_ok
  | succ n ih =>
      obtain ⟨outer, r, stars, h⟩ := bind_eq_ok_iff.1 h
      obtain ⟨core, r', inside, h⟩ := bind_eq_ok_iff.1 h
      obtain ⟨d', r'', suffixes, h⟩ := bind_eq_ok_iff.1 h
      obtain ⟨rfl, rfl⟩ := pure_eq_ok_iff.1 h
      obtain ⟨noArrays, rfl⟩ := List.append_eq_nil_iff.1 bare
      obtain rfl := pointers_stays stars
      obtain ⟨rfl, rfl⟩ := suffixes_stays suffixes noArrays
      rcases declaratorCore_eq_ok inside with
        named | ⟨opens, inner, r, read, close, same, same'⟩ | stays
      · rw [show core.1.ident = none from nameless] at named
        cases named
      · -- what is in parentheses begins with a lexeme of its own, so it cannot be empty
        obtain rfl := ih read (same.symm.trans nameless) (same'.symm.trans noArrays)
        rw [close] at opens
        cases opens
      · exact stays

/-! ### Parameters -/

theorem parameter_yields : Yields s parameter fun d => d.hasSpelling := by
  refine .bind specifier_yields fun sp spelled => .skip fun d => ?_
  have whole : Yields s (do return ⟨sp, ← shapeOf d.layers, d.name⟩)
      fun d : Declaration String => d.hasSpelling :=
    .bind (shapeOf_yields _) fun _ ⟨_, known⟩ => .pure
      (Declaration.hasSpelling_of_isKnown spelled known _)
  split
  · exact .skip fun _ => whole
  · exact whole

/-- Where a lone `void` is read as a parameter, nothing but the word stands. -/
theorem parameter_of_loneVoid (hs : s.Closed) (h : parameter s p = .ok Declaration.loneVoid q) :
    p.lexemes = .keyword .void :: q.lexemes := by
  obtain ⟨sp, r, words, h⟩ := bind_eq_ok_iff.1 h
  obtain ⟨d, r', read, h⟩ := bind_eq_ok_iff.1 h
  cases name : d.name with
  | some text =>
      simp only [name, bind_eq_ok_iff, pure_eq_ok_iff] at h
      obtain ⟨_, _, -, shape, _, -, same, -⟩ := h
      cases congrArg Declaration.name same
  | none =>
      simp only [name, bind_eq_ok_iff, pure_eq_ok_iff] at h
      obtain ⟨shape, _, composed, same, rfl⟩ := h
      obtain rfl : sp = ⟨false, false, [.void]⟩ := congrArg Declaration.specifier same
      obtain rfl : shape = .plain := congrArg Declaration.shape same
      obtain ⟨bare, -⟩ := shapeOf_yields _ _ _ _ composed
      obtain ⟨-, rfl⟩ := ofExcept_eq_ok_iff.1 composed
      obtain rfl := declaratorWithin_stays read (Option.map_eq_none_iff.1 name) bare
      exact (lexemes_of_castWord hs words).2

/-- A row of one item is that item, with no comma behind it. -/
theorem commaSeparated_eq_singleton {α : Type} {item : Parser α} {a : α}
    (h : commaSeparated item s p = .ok [a] q) : item s p = .ok a q := by
  obtain ⟨first, r, read, more⟩ := bind_eq_ok_iff.1 h
  obtain ⟨rfl, rfl⟩ := (AfterCommas.of_moreAfterCommas more).eq_of_singleton
  exact read

/-- Parameters fit behind a function: a lone `void` would have been taken for the mark that there
are none. -/
theorem parameterList_yields (hs : s.Closed) : Yields s parameterList ParametersFit := by
  have none : ParametersFit [] :=
    ⟨List.forall_mem_nil _, (List.cons_ne_nil _ _).symm⟩
  intro p ds q h
  rw [parameterList, accept_bind] at h
  split at h
  · obtain ⟨rfl, -⟩ := pure_eq_ok_iff.1 h
    exact none
  simp only [Bool.false_eq_true, if_false, bind_eq_ok_iff, current_eq_ok_iff, ahead_eq_ok_iff] at h
  obtain ⟨_, _, ⟨rfl, rfl⟩, _, _, ⟨rfl, rfl⟩, h⟩ := h
  rw [lexeme_headD, lexeme_getD_one] at h
  split at h
  · obtain ⟨_, _, -, h⟩ := bind_eq_ok_iff.1 h
    obtain ⟨_, _, -, h⟩ := bind_eq_ok_iff.1 h
    obtain ⟨rfl, -⟩ := pure_eq_ok_iff.1 h
    exact none
  rename_i noMark
  obtain ⟨parameters, r, row, h⟩ := bind_eq_ok_iff.1 h
  obtain ⟨_, _, close, h⟩ := bind_eq_ok_iff.1 h
  obtain ⟨rfl, -⟩ := pure_eq_ok_iff.1 h
  refine ⟨Yields.holds _ row (.commaSeparated ?_), ?_⟩
  · exact .skip fun token => .passed (.fail _ _) fun _ => parameter_yields
  rintro rfl
  have item := commaSeparated_eq_singleton row
  rw [current_bind] at item
  split at item
  · exact (Yields.holds (fun _ => False) item (.bind (.fail _ _) fun _ => False.elim)).elim
  have void := parameter_of_loneVoid hs item
  refine noMark ?_
  rw [Progress.front_of_lexemes void, Progress.front_eq, Progress.behind_of_lexemes void,
    ← Progress.front_eq, (expect_eq_ok_iff.1 close).1]
  rfl

/-- **The declarator of a function has pointers only**, and parameters that fit. -/
theorem topDeclarator_yields (hs : s.Closed) : Yields s topDeclarator DeclaratorFits := by
  refine declaratorWith_yields declarator_yields ?_
  rintro x ⟨⟩
  exact parameterList_yields hs

/-- The type whose size is taken has no name. -/
theorem sizeofType_yields : Yields s sizeofType fun e => e.hasSpelling := by
  refine .skip fun _ => .bind specifier_yields fun sp spelled => .skip fun d => ?_
  split
  · exact .bind (.fail _ _) fun _ => False.elim
  · refine .skip fun _ => .bind (shapeOf_yields _) fun shape ⟨_, known⟩ => .pure ?_
    exact Declaration.hasSpelling_of_isKnown spelled known none

end Parser

end PlainC
