/-
**Declarations that are read back.**

A declarator is read back with its name and its layers, whatever parentheses it is written with, as
long as nothing behind it could belong to it.  Together with its specifier it makes up a declaration
again, and so do the parameters of a function, unless they are the mark for none.

Main definitions:

* `PlainC.DeclaratorForm.opens`, `PlainC.DeclaratorForm.isSound` — the declarators that are
  recognised inside parentheses, and those that hold no others there;
* `PlainC.Declarator.Stands` — a declarator that was read has a given name and given layers.

Main results:

* `PlainC.Parser.takes_declaratorWithin` — a declarator is read back, however it is written;
* `PlainC.Parser.takes_shapeOf` — a shape is made up of its layers again;
* `PlainC.Parser.takes_parameterList` — parameters are read back.
-/

import PlainC.Proofs.RoundTrip.Specifier

set_option relaxedAutoImplicit false
set_option autoImplicit false

namespace PlainC

/-! ### Layers and forms -/

/-- A layer whose size is sound, among those whose sizes need not be. -/
def Layer.toInt (layer : Layer Nat) : Layer Int := ⟨layer.kind, layer.size.map Int.ofNat⟩

/-- The sizes of a shape are sound. -/
theorem Shape.ofLayers_toInt (layers : List (Layer Nat)) :
    ofLayers (layers.map Layer.toInt) = compose .ok layers := by
  induction layers with
  | nil => rfl
  | cons layer layers ih =>
      have wraps : ∀ inner, wrap sizeOfInt layer.toInt inner = wrap .ok layer inner := by
        intro inner
        rcases layer with ⟨_ | _, _ | size⟩ <;> rfl
      change (ofLayers (layers.map Layer.toInt)).bind (wrap sizeOfInt layer.toInt) =
        (compose .ok layers).bind (wrap .ok layer)
      rw [ih, show wrap sizeOfInt layer.toInt = wrap .ok layer from funext wraps]

namespace DeclaratorForm

/-- Whether a declarator is recognised behind an opening parenthesis. -/
def opens : DeclaratorForm → Bool
  | direct 0 none _ => false
  | _ => true

/-- Whether every declarator in parentheses is recognised there. -/
def isSound : DeclaratorForm → Bool
  | direct .. => true
  | nested _ inner _ => inner.opens && inner.isSound

/-- What is recognised behind an opening parenthesis begins in one of three ways. -/
theorem opensDeclarator_front (s : Setting) {w : DeclaratorForm} (h : w.opens) (ls : List Lexeme) :
    Parser.opensDeclarator (s.front (w.spelling ++ ls)) = true := by
  rcases w with ⟨_ | n, _ | name, arrays⟩ | ⟨_ | n, inner, arrays⟩ <;> first | rfl | cases h

theorem isSound_point {w : DeclaratorForm} (h : w.isSound) : w.point.isSound := by
  cases w <;> exact h

theorem isSound_arrayOf {w : DeclaratorForm} (h : w.isSound) (size : Option Nat) :
    (w.arrayOf size).isSound := by
  rcases w with ⟨_ | n, name, arrays⟩ | ⟨_ | n, inner, arrays⟩ <;> first | rfl | exact h

end DeclaratorForm

theorem Shape.isSound_around (shape : Shape) {w : DeclaratorForm} (h : w.isSound) :
    (shape.around w).isSound := by
  induction shape generalizing w with
  | plain | unspecified => exact h
  | pointer target ih => exact ih (DeclaratorForm.isSound_point h)
  | array element size ih => exact ih (DeclaratorForm.isSound_arrayOf h size)

/-- The canonical way to write a declarator is recognised. -/
theorem Shape.isSound_form (shape : Shape) (name : Option String) : (shape.form name).isSound :=
  shape.isSound_around rfl

/-- What was read stands for a name, or none, with given layers, and declares no function. -/
structure Declarator.Stands (name : Option String) (layers : List (Layer Nat)) (d : Declarator) :
    Prop where
  ident : d.ident.map Token.lexeme = name.map Lexeme.identifier
  layers : d.layers = layers.map Layer.toInt
  parameters : d.parameters = none

theorem Declarator.Stands.name {name : Option String} {layers : List (Layer Nat)} {d : Declarator}
    (h : d.Stands name layers) : d.name = name := by
  have same := congrArg (Option.map Lexeme.text) h.ident
  simpa [Declarator.name, Option.map_map, Function.comp_def, Lexeme.text] using same

namespace Parser

variable {s : Setting} {ls after : List Lexeme}

/-! ### Declarators -/

/-- Whether a lexeme behind a declarator could belong to it. -/
def continuesDeclarator : Lexeme → Bool
  | .identifier _ | .keyword .const | .punctuator .star | .punctuator .parenOpen
  | .punctuator .bracketOpen => true
  | _ => false

theorem takes_pointers (n : Nat) (noStar : s.front ls ≠ .punctuator .star)
    (noConst : s.front ls ≠ .keyword .const) :
    Takes s pointers (List.replicate n (.punctuator .star) ++ ls)
      (· = List.replicate n ⟨.pointer, none⟩) ls := by
  rw [← List.nil_append (List.replicate n (⟨.pointer, none⟩ : Layer Int))]
  refine (?_ : ∀ found, Takes s (loop _ found) _ (· = found ++ List.replicate n _) ls) []
  intro found
  induction n generalizing found with
  | zero =>
      refine Takes.loop_last (c := found) ((takes_accept_other noStar).bind ?_) (by simp)
      rintro _ rfl
      exact .pure rfl
  | succ n ih =>
      refine Takes.loop_next (c := found ++ [⟨.pointer, none⟩])
        (List.replicate n (.punctuator .star) ++ ls) (takes_accept.bind ?_) (Nat.lt_succ_self _) ?_
      · rintro _ rfl
        refine takes_current.bind fun t ht => ?_
        have behindStar : t.lexeme ≠ .keyword .const := by
          rw [ht]
          cases n with
          | zero => exact noConst
          | succ n => simp [List.replicate_succ]
        simp only [behindStar, if_false]
        exact .pure rfl
      · have rest := ih (found ++ [⟨.pointer, none⟩])
        rwa [List.append_assoc, List.singleton_append, ← List.replicate_succ] at rest

theorem takes_declaratorSuffix_array {d : Declarator} (plain : d.parameters = none)
    (list : Option (Parser (List (Declaration String)))) (inParentheses : Bool)
    (size : Option Nat) :
    Takes s (declaratorSuffix list inParentheses d) (DeclaratorForm.arraySpelling size ++ ls)
      (· = .yield { d with layers := d.layers ++ [Layer.toInt ⟨.array, size⟩] }) ls := by
  have suffix : Takes s arraySuffix ((DeclaratorForm.arraySpelling size).tail ++ ls)
      (· = Layer.toInt ⟨.array, size⟩) ls := by
    cases size with
    | none =>
        refine takes_accept.bind ?_
        rintro _ rfl
        exact .pure rfl
    | some size =>
        refine (takes_accept_other (by simp [DeclaratorForm.arraySpelling])).bind ?_
        rintro _ rfl
        refine takes_current.bind fun t ht => ?_
        simp only [ht, DeclaratorForm.arraySpelling, List.tail_cons, List.cons_append,
          Setting.front_cons]
        exact takes_advance.bind fun _ _ => takes_expect.bind fun _ _ => .pure rfl
  have brackets : DeclaratorForm.arraySpelling size ++ ls =
      .punctuator .bracketOpen :: ((DeclaratorForm.arraySpelling size).tail ++ ls) := by
    cases size <;> rfl
  rw [brackets]
  refine takes_current.bind fun t _ => takes_accept.bind ?_
  rintro _ rfl
  simp only [if_true, plain, Option.isSome_none, Bool.false_eq_true, if_false]
  refine suffix.bind ?_
  rintro _ rfl
  exact .pure rfl

theorem takes_declaratorSuffix_done {d : Declarator}
    (list : Option (Parser (List (Declaration String)))) (inParentheses : Bool)
    (noBracket : s.front ls ≠ .punctuator .bracketOpen)
    (noParen : s.front ls ≠ .punctuator .parenOpen) :
    Takes s (declaratorSuffix list inParentheses d) ls (· = .done d) ls := by
  refine takes_current.bind fun t _ => (takes_accept_other noBracket).bind ?_
  rintro _ rfl
  refine (takes_nextIs _).bind ?_
  rintro _ rfl
  simp only [noParen, decide_false, Bool.false_eq_true, if_false]
  exact .pure rfl

/-- The arrays behind the core of a declarator are read one by one. -/
theorem takes_arrays {d : Declarator} (plain : d.parameters = none)
    (list : Option (Parser (List (Declaration String)))) (inParentheses : Bool)
    (arrays : List (Option Nat)) (noBracket : s.front ls ≠ .punctuator .bracketOpen)
    (noParen : s.front ls ≠ .punctuator .parenOpen) :
    Takes s (loop (declaratorSuffix list inParentheses) d)
      (arrays.flatMap DeclaratorForm.arraySpelling ++ ls)
      (· = { d with layers := d.layers ++ arrays.map fun size => Layer.toInt ⟨.array, size⟩ })
      ls := by
  induction arrays generalizing d with
  | nil => exact Takes.loop_last (takes_declaratorSuffix_done _ _ noBracket noParen) (by simp)
  | cons size arrays ih =>
      rw [List.flatMap_cons, List.append_assoc]
      refine Takes.loop_next _ (takes_declaratorSuffix_array plain list inParentheses size) ?_ ?_
      · have pos : 0 < (DeclaratorForm.arraySpelling size).length := by
          cases size <;> exact Nat.succ_pos _
        simp only [List.length_append]
        omega
      · have rest := ih (d := { d with layers := d.layers ++ [Layer.toInt ⟨.array, size⟩] }) plain
        simpa only [List.append_assoc, List.singleton_append, List.map_cons] using rest

theorem takes_declaratorCore_name (nested : Parser Declarator) (nameless : Bool) (name : String) :
    Takes s (declaratorCore nested nameless) (.identifier name :: ls)
      (fun r => r.1.Stands (some name) [] ∧ r.2 = false) ls := by
  refine takes_current.bind fun t ht => ?_
  rw [Setting.front_cons] at ht
  simp only [ht]
  refine takes_advance.bind fun _ _ => .pure ⟨⟨?_, rfl, rfl⟩, rfl⟩
  simp [ht]

theorem takes_declaratorCore_nested {nested : Parser Declarator} (nameless : Bool)
    {name : Option String} {layers : List (Layer Nat)}
    (inside : opensDeclarator (s.front ls) = true)
    (read : Takes s nested ls (Declarator.Stands name layers) (.punctuator .parenClose :: after)) :
    Takes s (declaratorCore nested nameless) (.punctuator .parenOpen :: ls)
      (fun r => r.1.Stands name layers ∧ r.2 = true) after := by
  refine takes_current.bind fun t ht => ?_
  rw [Setting.front_cons] at ht
  simp only [ht]
  refine (takes_ahead 1).bind fun u hu => ?_
  have second : opensDeclarator u.lexeme = true := by
    rw [hu]
    cases ls with
    | nil => exact inside
    | cons l ls => exact inside
  simp only [second, decide_true, Bool.and_self, if_true]
  refine takes_advance.bind fun _ _ => read.bind fun inner stands => ?_
  exact takes_expect.bind fun _ _ => .pure ⟨⟨stands.ident, stands.layers, rfl⟩, rfl⟩

theorem takes_declaratorCore_nothing (nested : Parser Declarator)
    (stop : continuesDeclarator (s.front ls) = false ∨ s.front ls = .punctuator .bracketOpen) :
    Takes s (declaratorCore nested true) ls (fun r => r.1.Stands none [] ∧ r.2 = false) ls := by
  refine takes_current.bind fun t ht => ?_
  rw [← ht] at stop
  have noParen : t.lexeme ≠ .punctuator .parenOpen := by
    intro paren
    rw [paren] at stop
    simp [continuesDeclarator] at stop
  cases hl : t.lexeme with
  | identifier text =>
      rw [hl] at stop
      simp [continuesDeclarator] at stop
  | _ =>
      rw [hl] at noParen
      refine (takes_ahead 1).bind fun u _ => ?_
      simp only [noParen, decide_false, Bool.false_and, Bool.false_eq_true, if_false, if_true]
      exact .pure ⟨⟨rfl, rfl, rfl⟩, rfl⟩

theorem front_ne_of_stop (stop : continuesDeclarator (s.front ls) = false) {l : Lexeme}
    (continues : continuesDeclarator l = true) : s.front ls ≠ l := by
  rintro rfl
  rw [stop] at continues
  cases continues

/-- Where nothing continues a declarator behind arrays, only a bracket continues it in front of
them. -/
theorem front_arrays (arrays : List (Option Nat))
    (stop : continuesDeclarator (s.front after) = false) :
    continuesDeclarator (s.front (arrays.flatMap DeclaratorForm.arraySpelling ++ after)) = false ∨
      s.front (arrays.flatMap DeclaratorForm.arraySpelling ++ after) =
        .punctuator .bracketOpen := by
  rcases arrays with _ | ⟨_ | size, arrays⟩
  · exact .inl stop
  · exact .inr rfl
  · exact .inr rfl

/-- Around a core that is read back stand the pointers in front of it and the arrays behind it. -/
theorem takes_declaratorWith_around {nested : Parser Declarator}
    (list : Option (Parser (List (Declaration String)))) {nameless inParentheses : Bool}
    {name : Option String} {layers : List (Layer Nat)} (n : Nat) (arrays : List (Option Nat))
    (noStar : s.front ls ≠ .punctuator .star) (noConst : s.front ls ≠ .keyword .const)
    (core : Takes s (declaratorCore nested nameless) ls
      (fun r => r.1.Stands name layers ∧ r.2 = inParentheses)
      (arrays.flatMap DeclaratorForm.arraySpelling ++ after))
    (stop : continuesDeclarator (s.front after) = false) :
    Takes s (declaratorWith nested list nameless) (List.replicate n (.punctuator .star) ++ ls)
      (Declarator.Stands name
        (layers ++ arrays.map (⟨.array, ·⟩) ++ List.replicate n ⟨.pointer, none⟩)) after := by
  refine (takes_pointers n noStar noConst).bind ?_
  rintro _ rfl
  refine core.bind ?_
  rintro ⟨d, _⟩ ⟨stands, rfl⟩
  replace stands : d.Stands name layers := stands
  refine (takes_arrays stands.parameters list _ arrays (front_ne_of_stop stop rfl)
    (front_ne_of_stop stop rfl)).bind ?_
  rintro _ rfl
  refine .pure ⟨stands.ident, ?_, stands.parameters⟩
  simp [stands.layers, Layer.toInt]

/-- A declarator is read back, however it is written, if those in its parentheses are. -/
theorem takes_declaratorWith {nested : Parser Declarator}
    (list : Option (Parser (List (Declaration String)))) {nameless : Bool} {w : DeclaratorForm}
    (sound : w.isSound) (named : nameless = true ∨ w.name.isSome)
    (stop : continuesDeclarator (s.front after) = false)
    (read : ∀ n inner arrays ls, w = .nested n inner arrays →
      ls = .punctuator .parenClose :: (arrays.flatMap DeclaratorForm.arraySpelling ++ after) →
      Takes s nested (inner.spelling ++ ls) (Declarator.Stands inner.name inner.layers) ls) :
    Takes s (declaratorWith nested list nameless) (w.spelling ++ after)
      (Declarator.Stands w.name w.layers) after := by
  cases w with
  | direct n name arrays =>
      rw [DeclaratorForm.spelling, List.append_assoc, List.append_assoc]
      cases name with
      | some name =>
          exact takes_declaratorWith_around list n arrays (by simp) (by simp)
            (takes_declaratorCore_name nested nameless name) stop
      | none =>
          obtain rfl : nameless = true := named.resolve_right (by simp [DeclaratorForm.name])
          have ahead := front_arrays arrays stop
          have others : ∀ l, continuesDeclarator l = true → l ≠ .punctuator .bracketOpen →
              s.front (arrays.flatMap DeclaratorForm.arraySpelling ++ after) ≠ l := by
            rintro l continues other rfl
            rcases ahead with stops | bracket
            · exact front_ne_of_stop stops continues rfl
            · exact other bracket
          exact takes_declaratorWith_around list n arrays (others _ rfl (by simp))
            (others _ rfl (by simp)) (takes_declaratorCore_nothing nested ahead) stop
  | nested n inner arrays =>
      rw [DeclaratorForm.spelling]
      simp only [List.append_assoc, List.cons_append]
      rw [DeclaratorForm.isSound, Bool.and_eq_true] at sound
      have opens := DeclaratorForm.opensDeclarator_front s sound.1
        (.punctuator .parenClose :: (arrays.flatMap DeclaratorForm.arraySpelling ++ after))
      have core := takes_declaratorCore_nested nameless opens (read n inner arrays _ rfl rfl)
      exact takes_declaratorWith_around list n arrays (by simp) (by simp) core stop

/-- A declarator is read back, however it is written. -/
theorem takes_declaratorWithin {nameless : Bool} {w : DeclaratorForm} (sound : w.isSound)
    (named : nameless = true ∨ w.name.isSome) (stop : continuesDeclarator (s.front after) = false)
    {n : Nat} (hn : (w.spelling ++ after).length < n) :
    Takes s (declaratorWithin nameless n) (w.spelling ++ after)
      (Declarator.Stands w.name w.layers) after := by
  induction w generalizing n after with
  | direct m name arrays =>
      obtain ⟨n, rfl⟩ : ∃ k, n = k + 1 := ⟨n - 1, by omega⟩
      refine takes_declaratorWith none sound named stop ?_
      intro _ _ _ _ other
      cases other
  | nested m inner arrays ih =>
      obtain ⟨n, rfl⟩ : ∃ k, n = k + 1 := ⟨n - 1, by omega⟩
      refine takes_declaratorWith none sound named stop ?_
      rintro _ _ _ _ ⟨⟩ rfl
      rw [DeclaratorForm.isSound, Bool.and_eq_true] at sound
      refine ih sound.2 named rfl ?_
      simp only [DeclaratorForm.spelling, List.length_append, List.length_cons] at hn ⊢
      omega

/-- A declarator that declares no function is read back, however it is written. -/
theorem takes_declarator {nameless : Bool} {w : DeclaratorForm} (sound : w.isSound)
    (named : nameless = true ∨ w.name.isSome) (stop : continuesDeclarator (s.front after) = false) :
    Takes s (declarator nameless) (w.spelling ++ after) (Declarator.Stands w.name w.layers) after :=
  Takes.budgeted fun _ => takes_declaratorWithin sound named stop

/-- A shape is made up of its layers again. -/
theorem takes_shapeOf {shape : Shape} (known : shape.isKnown) :
    Takes s (shapeOf (shape.layers.map Layer.toInt)) ls (· = shape) ls := by
  refine takes_ofExcept ?_
  rw [Shape.ofLayers_toInt, Shape.compose_layers shape known]
  rfl

/-! ### Declarations -/

/-- Whether a lexeme behind a declaration ends it. -/
def closesDeclaration : Lexeme → Bool
  | .punctuator .comma | .punctuator .parenClose | .punctuator .semicolon | .punctuator .assign =>
      true
  | _ => false

theorem continuesDeclarator_of_closes {l : Lexeme} (h : closesDeclaration l = true) :
    continuesDeclarator l = false := by
  unfold closesDeclaration at h
  split at h <;> first | rfl | cases h

theorem startsDeclaration_of_closes {l : Lexeme} (h : closesDeclaration l = true) :
    l.startsDeclaration = false ∧ l ≠ .punctuator .braceOpen := by
  unfold closesDeclaration at h
  split at h <;> first | exact ⟨rfl, by simp⟩ | cases h

/-- What begins the spelling of a declarator, or stands behind an empty one, begins no
declaration. -/
theorem front_declarator (w : DeclaratorForm)
    (h : (s.front after).startsDeclaration = false ∧ s.front after ≠ .punctuator .braceOpen) :
    (s.front (w.spelling ++ after)).startsDeclaration = false ∧
      s.front (w.spelling ++ after) ≠ .punctuator .braceOpen := by
  rcases w with ⟨_ | n, _ | name, _ | ⟨_ | size, arrays⟩⟩ | ⟨_ | n, inner, arrays⟩
  case direct.zero.none.nil => exact h
  all_goals
    simp [DeclaratorForm.spelling, List.replicate_succ, Lexeme.startsDeclaration,
      DeclaratorForm.arraySpelling]

/-- The specifier of a declaration is read back in front of its declarator. -/
theorem takes_specifier_of_declaration {d : Declaration String} (hd : d.hasSpelling)
    (h : (s.front after).startsDeclaration = false ∧ s.front after ≠ .punctuator .braceOpen) :
    Takes s specifier (d.spelling ++ after) (· = d.specifier)
      ((d.shape.form d.name).spelling ++ after) := by
  rw [Declaration.hasSpelling, Bool.and_eq_true] at hd
  rw [Declaration.spelling, List.append_assoc]
  have ahead := front_declarator (s := s) (d.shape.form d.name) h
  exact takes_specifier hd.1 ahead.1 ahead.2

/-- The declarator of a declaration is read back with its name and its layers. -/
theorem takes_declarator_of_declaration {nameless : Bool} (d : Declaration String)
    (named : nameless = true ∨ d.name.isSome) (stop : closesDeclaration (s.front after) = true) :
    Takes s (declarator nameless) ((d.shape.form d.name).spelling ++ after)
      (Declarator.Stands d.name d.shape.layers) after := by
  have named' : nameless = true ∨ (d.shape.form d.name).name.isSome := by rwa [Shape.name_form]
  have read := takes_declarator (s := s) (d.shape.isSound_form d.name) named'
    (continuesDeclarator_of_closes stop)
  rwa [Shape.name_form, Shape.layers_form] at read

/-- A declaration begins like one. -/
theorem startsDeclaration_front {d : Declaration String} (hd : d.hasSpelling) (ls : List Lexeme) :
    (s.front (d.spelling ++ ls)).startsDeclaration = true := by
  obtain ⟨⟨isStatic, isConst, words⟩, shape, name⟩ := d
  simp only [Declaration.hasSpelling, Specifier.hasSpelling, Bool.and_eq_true] at hd
  obtain ⟨⟨hw, resolved⟩, -⟩ := hd
  cases isStatic with
  | true => rfl
  | false =>
      cases isConst with
      | true => rfl
      | false =>
          rcases words with _ | ⟨word, words⟩
          · cases resolved
          · rw [List.all_cons, Bool.and_eq_true] at hw
            cases word <;> first | rfl | cases hw.1

/-! ### Parameters -/

theorem takes_parameter {d : Declaration String} (hd : d.hasSpelling)
    (stop : closesDeclaration (s.front after) = true) :
    Takes s parameter (d.spelling ++ after) (· = d) after := by
  refine (takes_specifier_of_declaration hd (startsDeclaration_of_closes stop)).bind ?_
  rintro _ rfl
  refine (takes_declarator_of_declaration d (.inl rfl) stop).bind fun read stands => ?_
  have shape : Takes s (do return ⟨d.specifier, ← shapeOf read.layers, read.name⟩) after
      (· = d) after := by
    rw [Declaration.hasSpelling, Bool.and_eq_true] at hd
    rw [stands.layers, stands.name]
    refine (takes_shapeOf hd.2).bind ?_
    rintro _ rfl
    exact .pure rfl
  cases named : read.name with
  | none => simpa only [named] using shape
  | some name => simpa only [named] using (takes_note name).bind fun _ _ => shape

/-- A declarator is empty, or it begins with a lexeme that closes no parenthesis. -/
theorem declarator_eq_nil_or_cons (w : DeclaratorForm) :
    (w.spelling = [] ∧ w.name = none ∧ w.layers = []) ∨
      ∃ l ls, w.spelling = l :: ls ∧ l ≠ .punctuator .parenClose := by
  rcases w with ⟨_ | n, _ | name, _ | ⟨_ | size, arrays⟩⟩ | ⟨_ | n, inner, arrays⟩
  case direct.zero.none.nil => exact .inl ⟨rfl, rfl, rfl⟩
  all_goals exact .inr ⟨_, _, rfl, by simp⟩

/-- Only the mark for no parameters begins with `void` in front of the closing parenthesis. -/
theorem eq_loneVoid {d : Declaration String} (hd : d.hasSpelling) {ls : List Lexeme}
    (void : s.front (d.spelling ++ ls) = .keyword .void)
    (close : (d.spelling ++ ls).getD 1 s.ending.lexeme = .punctuator .parenClose) :
    d = .loneVoid ∧ s.front ls = .punctuator .parenClose := by
  obtain ⟨⟨isStatic, isConst, words⟩, shape, name⟩ := d
  simp only [Declaration.hasSpelling, Specifier.hasSpelling, Bool.and_eq_true] at hd
  obtain ⟨⟨hw, resolved⟩, known⟩ := hd
  cases isStatic with
  | true => cases void
  | false =>
  cases isConst with
  | true => cases void
  | false =>
  rcases words with _ | ⟨word, words⟩
  · cases resolved
  simp only [List.all_cons, Bool.and_eq_true] at hw
  obtain rfl : word = .void := by
    cases word <;> first | rfl | cases void | cases hw.1
  rcases words with _ | ⟨word, words⟩
  · obtain ⟨empty, noName, noLayers⟩ | ⟨l, ls', cons, other⟩ :=
      declarator_eq_nil_or_cons (shape.form name)
    · rw [Shape.name_form] at noName
      rw [Shape.layers_form] at noLayers
      have plain : shape = .plain := by cases shape <;> first | rfl | cases known | cases noLayers
      refine ⟨by rw [noName, plain, Declaration.loneVoid], ?_⟩
      rw [Declaration.spelling, empty] at close
      cases ls <;> exact close
    · rw [Declaration.spelling, cons] at close
      exact absurd close other
  · simp only [List.all_cons, Bool.and_eq_true] at hw
    cases word <;> first | cases close | cases hw.2.1

/-- A parameter is read back in a row, in front of a comma or a closing parenthesis. -/
theorem takes_parameterInRow {d : Declaration String} (hd : d.hasSpelling)
    (stop : s.front ls = .punctuator .comma ∨ s.front ls = .punctuator .parenClose) :
    Takes s (do
      let token ← current
      if token.lexeme = .punctuator .ellipsis then fail (.unsupported .variadicFunction) token
      parameter) (d.spelling ++ ls) (· = d) ls := by
  refine takes_current.bind fun t ht => ?_
  have begins := startsDeclaration_front (s := s) hd ls
  have noEllipsis : t.lexeme ≠ .punctuator .ellipsis := by
    intro ellipsis
    rw [← ht, ellipsis] at begins
    cases begins
  simp only [noEllipsis, if_false]
  refine takes_parameter hd ?_
  rcases stop with comma | close
  · rw [comma]; rfl
  · rw [close]; rfl

/-- Parameters are read back, unless they are the mark for none. -/
theorem takes_parameterList {ds : List (Declaration String)} (hd : ∀ d ∈ ds, d.hasSpelling)
    (noMark : ds ≠ [.loneVoid]) :
    Takes s parameterList (Declaration.rowSpelling ds ++ .punctuator .parenClose :: after) (· = ds)
      after := by
  cases ds with
  | nil =>
      refine takes_accept.bind ?_
      rintro _ rfl
      exact .pure rfl
  | cons d ds =>
      have hd' := hd d (List.mem_cons_self ..)
      rw [Declaration.rowSpelling, List.append_assoc]
      have starts := startsDeclaration_front (s := s) hd'
        (ds.flatMap (fun d => .punctuator .comma :: d.spelling)
          ++ .punctuator .parenClose :: after)
      refine (takes_accept_other ?_).bind ?_
      · intro close
        rw [close] at starts
        cases starts
      rintro _ rfl
      refine takes_current.bind fun t ht => (takes_ahead 1).bind fun u hu => ?_
      have noVoid : ¬ (t.lexeme = .keyword .void ∧ u.lexeme = .punctuator .parenClose) := by
        rintro ⟨void, close⟩
        obtain ⟨rfl, last⟩ := eq_loneVoid hd' (ht.symm.trans void) (hu.symm.trans close)
        cases ds with
        | nil => exact noMark rfl
        | cons e ds => cases last
      simp only [if_false, Bool.and_eq_true, decide_eq_true_eq, noVoid]
      refine (takes_commaSeparated (by simp) d ds fun e he ls' stop => ?_).bind ?_
      · refine takes_parameterInRow (hd e he) (stop.imp_right ?_)
        rintro rfl
        rfl
      rintro _ rfl
      exact takes_expect.bind fun _ _ => .pure rfl

end Parser

end PlainC
