/-
**What a declarator declares.**

A declarator is written the way in which its name is used.  It is read from the inside out: what
stands in parentheses applies to the name first, then the arrays behind it, then the pointers in
front of it, at every level again.  The relation of this module says by the rules of the grammar
which tokens are a declarator, of which name, and with which layers; the parser gathers pointers,
parentheses and arrays in another order, and comes to the same layers.

Main definitions:

* `PlainC.DeclaratorTokens` — the tokens of a declarator, with the token of its name and the layers
  that it stands for;
* `PlainC.Parser.Gathers` — what the parser makes of them, whatever stands behind them.

Main results:

* `PlainC.Shape.ofLayers_layers` — sound layers make up a shape, which has just these layers;
* `PlainC.Parser.gathers_of_tokens` — what the parser makes of a declarator of either sort, by
  induction on the grammar;
* `PlainC.Parser.declarator_of_tokens` — **a declarator is read with the layers that it stands
  for**.
-/

import PlainC.Proofs.RoundTrip.Declaration

set_option relaxedAutoImplicit false
set_option autoImplicit false

namespace PlainC

/-! ### The grammar of declarators -/

/-- The two sorts of declarator: with any pointers in front of it, and without. -/
inductive DeclaratorSort where
  | pointed | direct
deriving Repr, DecidableEq

/-- The tokens of a declarator, the token of its name, and the layers that it stands for, outermost
first. -/
inductive DeclaratorTokens : DeclaratorSort → List Token → Token → List (Layer Nat) → Prop
  | pointer {star ident : Token} {ts : List Token} {layers : List (Layer Nat)} :
      star.lexeme = .punctuator .star → DeclaratorTokens .pointed ts ident layers →
      DeclaratorTokens .pointed (star :: ts) ident (layers ++ [⟨.pointer, none⟩])
  | direct {ident : Token} {ts : List Token} {layers : List (Layer Nat)} :
      DeclaratorTokens .direct ts ident layers → DeclaratorTokens .pointed ts ident layers
  | array {ident : Token} {ts brackets : List Token} {layers : List (Layer Nat)}
      {size : Option Nat} :
      DeclaratorTokens .direct ts ident layers →
      brackets.map Token.lexeme = DeclaratorForm.arraySpelling size →
      DeclaratorTokens .direct (ts ++ brackets) ident (layers ++ [⟨.array, size⟩])
  | parenthesized {left right ident : Token} {ts : List Token} {layers : List (Layer Nat)} :
      left.lexeme = .punctuator .parenOpen → right.lexeme = .punctuator .parenClose →
      DeclaratorTokens .pointed ts ident layers →
      DeclaratorTokens .direct (left :: (ts ++ [right])) ident layers
  | name {ident : Token} {text : String} :
      ident.lexeme = .identifier text → DeclaratorTokens .direct [ident] ident []

variable {sort : DeclaratorSort} {ts after : List Token} {ident : Token} {layers : List (Layer Nat)}

/-- A declarator begins with a star, a parenthesis or a name, and one without pointers in front
does not begin with a star. -/
theorem DeclaratorTokens.exists_cons (h : DeclaratorTokens sort ts ident layers) :
    ∃ t more, ts = t :: more ∧ Parser.opensDeclarator t.lexeme = true ∧
      (sort = .direct → t.lexeme ≠ .punctuator .star) := by
  induction h with
  | @pointer star _ ts _ isStar => exact ⟨star, ts, rfl, by rw [isStar]; rfl, by simp⟩
  | direct _ ih =>
      obtain ⟨t, more, cons, opens, -⟩ := ih
      exact ⟨t, more, cons, opens, by simp⟩
  | @array _ _ brackets _ _ _ _ ih =>
      obtain ⟨t, more, cons, opens, noStar⟩ := ih
      exact ⟨t, more ++ brackets, by rw [cons, List.cons_append], opens, noStar⟩
  | @parenthesized left right _ ts _ isOpen =>
      exact ⟨left, ts ++ [right], rfl, by rw [isOpen]; rfl, by simp [isOpen]⟩
  | @name ident _ isName => exact ⟨ident, [], rfl, by rw [isName]; rfl, by simp [isName]⟩

/-! ### Shapes of sound layers -/

/-- A layer of a declarator: an array, or a pointer, which has no size. -/
def Layer.isSound {σ : Type} (layer : Layer σ) : Bool :=
  match layer.kind with
  | .pointer => layer.size.isNone
  | .array => true

/-- Sound layers make up a shape, and it has just these layers. -/
theorem Shape.ofLayers_layers {layers : List (Layer Nat)} (sound : ∀ l ∈ layers, l.isSound) :
    ∃ shape, ofLayers (layers.map Layer.toInt) = .ok shape ∧ shape.layers = layers := by
  rw [ofLayers_toInt]
  induction layers with
  | nil => exact ⟨.plain, rfl, rfl⟩
  | cons layer layers ih =>
      obtain ⟨inner, composed, same⟩ := ih fun l hl => sound l (List.mem_cons_of_mem _ hl)
      have whole : compose .ok (layer :: layers) = wrap .ok layer inner := by
        rw [compose, composed]
        rfl
      have soundLayer := sound layer (List.mem_cons_self ..)
      rw [whole]
      rcases layer with ⟨_ | _, _ | size⟩
      · exact ⟨.pointer inner, rfl, by rw [Shape.layers, same]⟩
      · cases soundLayer
      · exact ⟨.array inner none, rfl, by rw [Shape.layers, same]⟩
      · exact ⟨.array inner (some size), rfl, by rw [Shape.layers, same]⟩

/-- The layers of a declarator are sound. -/
theorem DeclaratorTokens.isSound (h : DeclaratorTokens sort ts ident layers) :
    ∀ l ∈ layers, l.isSound := by
  induction h with
  | pointer _ _ ih | array _ _ ih =>
      intro l hl
      rcases List.mem_append.1 hl with inside | last
      · exact ih l inside
      · rw [List.mem_singleton.1 last]
        rfl
  | direct _ ih | parenthesized _ _ _ ih => exact ih
  | name => exact fun _ hl => by cases hl

namespace Parser

variable {s : Setting} {names : List String} {d d' : Declarator} {q : Progress}

/-! ### Pointers, names, parentheses and arrays -/

theorem pointerMark_of_star {p : Progress} (isStar : p.front s = .punctuator .star)
    (noConst : p.behind.front s ≠ .keyword .const) (found : List (Layer Int)) :
    pointerMark found s p = .ok (.yield (found ++ [⟨.pointer, none⟩])) p.behind := by
  rw [pointerMark, accept_bind, if_pos isStar, if_pos rfl, current_bind]
  simp only [lexeme_headD, if_neg noConst]
  rfl

theorem pointerMark_of_other {p : Progress} (noStar : p.front s ≠ .punctuator .star)
    (found : List (Layer Int)) : pointerMark found s p = .ok (.done found) p := by
  rw [pointerMark, accept_bind, if_neg noStar]
  rfl

/-- The stars in front of a declarator are all read. -/
theorem pointers_of_stars {stars : List Token} (hstars : ∀ t ∈ stars, t.lexeme = .punctuator .star)
    (noStar : (after.headD s.ending).lexeme ≠ .punctuator .star)
    (noConst : (after.headD s.ending).lexeme ≠ .keyword .const) :
    pointers s ⟨stars ++ after, names⟩ =
      .ok (List.replicate stars.length ⟨.pointer, none⟩) ⟨after, names⟩ := by
  have all : ∀ found, loop pointerMark found s ⟨stars ++ after, names⟩ =
      .ok (found ++ List.replicate stars.length ⟨.pointer, none⟩) ⟨after, names⟩ := by
    induction stars with
    | nil =>
        intro found
        rw [List.length_nil, List.replicate_zero, List.append_nil]
        have turn : pointerMark found s ⟨after, names⟩ = .ok (.done found) ⟨after, names⟩ :=
          pointerMark_of_other (p := ⟨after, names⟩) noStar found
        exact loop_done turn
    | cons star stars ih =>
        intro found
        have isStar := hstars star (List.mem_cons_self ..)
        let p : Progress := ⟨star :: (stars ++ after), names⟩
        have behindStar : p.behind.front s ≠ .keyword .const := by
          cases stars with
          | nil => exact noConst
          | cons next stars => simp [p, hstars next (by simp)]
        have more := ih (fun t ht => hstars t (List.mem_cons_of_mem _ ht))
          (found ++ [⟨.pointer, none⟩])
        rw [List.append_assoc, List.singleton_append, ← List.replicate_succ] at more
        have turn : pointerMark found s p = .ok (.yield (found ++ [⟨.pointer, none⟩])) p.behind :=
          pointerMark_of_star (p := p) isStar behindStar found
        exact loop_yield turn (Nat.lt_succ_self _) more
  rw [pointers, all, List.nil_append]

theorem declaratorCore_of_name {nested : Parser Declarator} {text : String}
    (isName : ident.lexeme = .identifier text) :
    declaratorCore nested false s ⟨ident :: after, names⟩ =
      .ok ({ ident := some ident }, false) ⟨after, names⟩ := by
  rw [declaratorCore, current_bind]
  simp only [List.headD_cons, isName]
  rfl

/-- Behind a parenthesis that opens a nested declarator, that one is read. -/
theorem declaratorCore_of_paren {nested : Parser Declarator} {left right : Token}
    {inside : List Token} (isOpen : left.lexeme = .punctuator .parenOpen)
    (isClose : right.lexeme = .punctuator .parenClose)
    (opens : opensDeclarator (inside.headD s.ending).lexeme = true)
    (read : nested s ⟨inside, names⟩ = .ok d ⟨right :: after, names⟩) :
    declaratorCore nested false s ⟨left :: inside, names⟩ =
      .ok ({ ident := d.ident, layers := d.layers }, true) ⟨after, names⟩ := by
  have second : ahead 1 s ⟨left :: inside, names⟩ =
      .ok (inside.headD s.ending) ⟨left :: inside, names⟩ := by
    cases inside <;> rfl
  have close : expect .parenClose s ⟨right :: after, names⟩ = .ok () ⟨after, names⟩ :=
    expect_of_front isClose
  rw [declaratorCore, current_bind]
  simp only [List.headD_cons, isOpen, bind_of_ok second, opens, decide_true, Bool.and_self, if_true]
  refine bind_eq_ok_iff.2 ⟨(), ⟨inside, names⟩, rfl, ?_⟩
  exact bind_eq_ok_iff.2 ⟨d, _, read, bind_eq_ok_iff.2 ⟨(), _, close, rfl⟩⟩

/-- What stands in the brackets of an array is its size, or nothing. -/
theorem arraySuffix_of_brackets {brackets : List Token} {size : Option Nat}
    (spelled : brackets.map Token.lexeme = (DeclaratorForm.arraySpelling size).tail) :
    arraySuffix s ⟨brackets ++ after, names⟩ = .ok (Layer.toInt ⟨.array, size⟩) ⟨after, names⟩ := by
  cases size with
  | none =>
      obtain ⟨right, rfl, isClose⟩ := List.map_eq_singleton_iff.1 spelled
      refine (accept_bind ..).trans ?_
      rw [if_pos (by exact isClose)]
      rfl
  | some size =>
      obtain ⟨number, more, rfl, isNumber, spelled⟩ := List.map_eq_cons_iff.1 spelled
      obtain ⟨right, rfl, isClose⟩ := List.map_eq_singleton_iff.1 spelled
      have close : expect .bracketClose s ⟨right :: after, names⟩ = .ok () ⟨after, names⟩ :=
        expect_of_front isClose
      refine (accept_bind ..).trans ?_
      rw [if_neg (by simp [isNumber]), if_neg (by simp), current_bind]
      simp only [List.cons_append, List.headD_cons, isNumber]
      exact bind_eq_ok_iff.2 ⟨(), ⟨right :: after, names⟩, rfl,
        bind_eq_ok_iff.2 ⟨(), _, close, rfl⟩⟩

/-- An array behind the core of a declarator is one more layer. -/
theorem declaratorSuffix_of_brackets {brackets : List Token} {size : Option Nat}
    (spelled : brackets.map Token.lexeme = DeclaratorForm.arraySpelling size)
    (plain : d.parameters = none) (inParentheses : Bool) :
    declaratorSuffix none inParentheses d s ⟨brackets ++ after, names⟩ =
      .ok (.yield { d with layers := d.layers ++ [Layer.toInt ⟨.array, size⟩] })
        ⟨after, names⟩ := by
  obtain ⟨left, more, rfl, isOpen, spelled⟩ : ∃ left more, brackets = left :: more ∧
      left.lexeme = .punctuator .bracketOpen ∧
      more.map Token.lexeme = (DeclaratorForm.arraySpelling size).tail := by
    cases size <;> exact List.map_eq_cons_iff.1 spelled
  rw [declaratorSuffix, current_bind, accept_bind, if_pos (by exact isOpen)]
  simp only [if_true, plain, Option.isSome_none, Bool.false_eq_true, if_false]
  exact bind_eq_ok_iff.2 ⟨_, _, arraySuffix_of_brackets spelled, rfl⟩

/-- In front of anything but a bracket and a parenthesis, a declarator has no further suffix. -/
theorem declaratorSuffix_of_other
    (noBracket : (after.headD s.ending).lexeme ≠ .punctuator .bracketOpen)
    (noParen : (after.headD s.ending).lexeme ≠ .punctuator .parenOpen) (inParentheses : Bool) :
    declaratorSuffix none inParentheses d s ⟨after, names⟩ = .ok (.done d) ⟨after, names⟩ := by
  have noNext : nextIs .parenOpen s ⟨after, names⟩ = .ok false ⟨after, names⟩ :=
    nextIs_eq_ok_iff.2 ⟨decide_eq_false noParen, rfl⟩
  rw [declaratorSuffix, current_bind, accept_bind, if_neg (by exact noBracket)]
  simp only [Bool.false_eq_true, if_false]
  exact bind_eq_ok_iff.2 ⟨false, _, noNext, rfl⟩

/-! ### The parser and the grammar -/

/-- What the parser makes of a declarator of either sort, whatever stands behind it.  One with
pointers is read as a whole, also behind further stars; without pointers in front it is read up to
the further suffixes behind it. -/
def Gathers (s : Setting) : DeclaratorSort → List Token → Token → List (Layer Nat) → Prop
  | .pointed, ts, ident, layers =>
      ∀ (stars after : List Token) (names : List String) (n : Nat),
        (∀ t ∈ stars, t.lexeme = .punctuator .star) →
        (after.headD s.ending).lexeme ≠ .punctuator .bracketOpen →
        (after.headD s.ending).lexeme ≠ .punctuator .parenOpen → ts.length ≤ n →
        declaratorWith (declaratorWithin false n) none false s ⟨stars ++ (ts ++ after), names⟩ =
          .ok { ident := some ident,
                layers := layers.map Layer.toInt ++ List.replicate stars.length ⟨.pointer, none⟩ }
            ⟨after, names⟩
  | .direct, ts, ident, layers =>
      ∀ (after : List Token) (names : List String) (n : Nat) (d : Declarator) (q : Progress),
        ts.length ≤ n →
        (∀ inParentheses, loop (declaratorSuffix none inParentheses)
          { ident := some ident, layers := layers.map Layer.toInt } s ⟨after, names⟩ = .ok d q) →
        ∃ core inParentheses r,
          declaratorCore (declaratorWithin false n) false s ⟨ts ++ after, names⟩ =
            .ok (core, inParentheses) r ∧
          loop (declaratorSuffix none inParentheses) core s r = .ok d q

/-- What the parser makes of a declarator is what it stands for. -/
theorem gathers_of_tokens (h : DeclaratorTokens sort ts ident layers) :
    Gathers s sort ts ident layers := by
  induction h with
  | @pointer star ident ts layers isStar _ ih =>
      intro stars after names n hstars noBracket noParen hn
      -- one star more in front of the declarator that the pointer is in front of
      have read := ih (stars ++ [star]) after names n ?_ noBracket noParen
        (by rw [List.length_cons] at hn; omega)
      · simpa [List.replicate_succ, Layer.toInt] using read
      · intro t ht
        rcases List.mem_append.1 ht with inside | last
        · exact hstars t inside
        · rw [List.mem_singleton.1 last, isStar]
  | @direct ident ts layers inner ih =>
      intro stars after names n hstars noBracket noParen hn
      obtain ⟨t, more, rfl, opens, noStar⟩ := inner.exists_cons
      have noConst : t.lexeme ≠ .keyword .const := by
        intro const
        rw [const] at opens
        cases opens
      obtain ⟨core, inParentheses, r, read, suffixes⟩ := ih after names n _ _ hn fun _ =>
        loop_done (declaratorSuffix_of_other noBracket noParen _)
      refine bind_eq_ok_iff.2 ⟨_, _, pointers_of_stars hstars (noStar rfl) noConst, ?_⟩
      exact bind_eq_ok_iff.2 ⟨_, r, read, bind_eq_ok_iff.2 ⟨_, _, suffixes, rfl⟩⟩
  | @array ident ts brackets layers size _ spelled ih =>
      intro after names n d q hn suffixes
      rw [List.length_append] at hn
      rw [List.append_assoc]
      -- to the declarator in front, the brackets are the first of the suffixes behind it
      refine ih (brackets ++ after) names n d q (by omega) fun inParentheses => ?_
      let core : Declarator := { ident := some ident, layers := layers.map Layer.toInt }
      have turn : declaratorSuffix none inParentheses core s ⟨brackets ++ after, names⟩ =
          .ok (.yield { core with layers := core.layers ++ [Layer.toInt ⟨.array, size⟩] })
            ⟨after, names⟩ :=
        declaratorSuffix_of_brackets spelled rfl inParentheses
      refine loop_yield turn ?_ ?_
      · have pos : 0 < brackets.length := by
          rw [← List.length_map Token.lexeme, spelled]
          cases size <;> exact Nat.succ_pos _
        change after.length < (brackets ++ after).length
        rw [List.length_append]
        omega
      · simpa using suffixes inParentheses
  | @parenthesized left right ident ts layers isOpen isClose inner ih =>
      intro after names n d q hn suffixes
      rw [List.length_cons, List.length_append] at hn
      obtain ⟨m, rfl⟩ : ∃ m, n = m + 1 := ⟨n - 1, by omega⟩
      have inside : declaratorWithin false (m + 1) s ⟨ts ++ right :: after, names⟩ =
          .ok { ident := some ident, layers := layers.map Layer.toInt }
            ⟨right :: after, names⟩ := by
        have read := ih [] (right :: after) names m (by simp) (by simp [isClose])
          (by simp [isClose]) (by omega)
        simpa [declaratorWithin] using read
      obtain ⟨t, more, rfl, opens, -⟩ := inner.exists_cons
      have core := declaratorCore_of_paren (s := s) isOpen isClose (by exact opens) inside
      refine ⟨_, true, _, ?_, suffixes true⟩
      simpa using core
  | @name ident text isName =>
      intro after names n d q _ suffixes
      exact ⟨_, false, _, declaratorCore_of_name isName, suffixes false⟩

/-- **A declarator is read with the layers that it stands for**, up to its end, in front of any
token that does not go on with it; and these layers make up a shape. -/
theorem declarator_of_tokens (s : Setting) {ts after : List Token} {ident : Token}
    {layers : List (Layer Nat)} (h : DeclaratorTokens .pointed ts ident layers)
    (noBracket : (after.headD s.ending).lexeme ≠ .punctuator .bracketOpen)
    (noParen : (after.headD s.ending).lexeme ≠ .punctuator .parenOpen) (names : List String) :
    ∃ d shape, declarator false s ⟨ts ++ after, names⟩ = .ok d ⟨after, names⟩ ∧
      d.ident = some ident ∧ d.layers = layers.map Layer.toInt ∧ d.parameters = none ∧
      Shape.ofLayers d.layers = .ok shape ∧ shape.layers = layers := by
  obtain ⟨shape, composed, same⟩ := Shape.ofLayers_layers h.isSound
  have read : declarator false s ⟨ts ++ after, names⟩ =
      .ok { ident := some ident, layers := layers.map Layer.toInt } ⟨after, names⟩ := by
    have whole := gathers_of_tokens (s := s) h [] after names (ts ++ after).length (by simp)
      noBracket noParen (by simp)
    rw [List.length_nil, List.replicate_zero, List.append_nil] at whole
    exact whole
  exact ⟨_, shape, read, rfl, rfl, rfl, composed, same⟩

/-- The declarator `*(*(x)[3])[]` in front of `const`: an array of three pointers to an array of
pointers. -/
theorem declarator_of_nested_tokens :
    let tokens := (fun lexemes => List.map (⟨·, 1, 1⟩) lexemes : List Lexeme → List Token)
    let ts := tokens [.punctuator .star, .punctuator .parenOpen, .punctuator .star,
      .punctuator .parenOpen, .identifier "x", .punctuator .parenClose, .punctuator .bracketOpen,
      .number 3, .punctuator .bracketClose, .punctuator .parenClose, .punctuator .bracketOpen,
      .punctuator .bracketClose]
    let const : Token := ⟨.keyword .const, 1, 1⟩
    let layers : List (Layer Nat) :=
      [⟨.array, some 3⟩, ⟨.pointer, none⟩, ⟨.array, none⟩, ⟨.pointer, none⟩]
    DeclaratorTokens .pointed ts ⟨.identifier "x", 1, 1⟩ layers ∧
      const.lexeme ≠ .punctuator .bracketOpen ∧ const.lexeme ≠ .punctuator .parenOpen ∧
      ∃ d shape, declarator false ⟨"", [], {}, ⟨.ending, 1, 1⟩⟩ ⟨ts ++ [const], []⟩ =
          .ok d ⟨[const], []⟩ ∧
        d.ident = some ⟨.identifier "x", 1, 1⟩ ∧ d.layers = layers.map Layer.toInt ∧
        d.parameters = none ∧ Shape.ofLayers d.layers = .ok shape ∧ shape.layers = layers := by
  intro tokens ts const layers
  have name : DeclaratorTokens .direct (tokens [.identifier "x"]) ⟨.identifier "x", 1, 1⟩ [] :=
    .name rfl
  have array : DeclaratorTokens .direct (tokens [.punctuator .parenOpen, .identifier "x",
      .punctuator .parenClose, .punctuator .bracketOpen, .number 3, .punctuator .bracketClose])
      ⟨.identifier "x", 1, 1⟩ [⟨.array, some 3⟩] :=
    .array (.parenthesized rfl rfl (.direct name))
      (show (tokens [.punctuator .bracketOpen, .number 3, .punctuator .bracketClose]).map
        Token.lexeme = DeclaratorForm.arraySpelling (some 3) from rfl)
  have whole : DeclaratorTokens .pointed ts ⟨.identifier "x", 1, 1⟩ layers :=
    .pointer rfl (.direct (.array (.parenthesized rfl rfl (.pointer rfl (.direct array)))
      (show (tokens [.punctuator .bracketOpen, .punctuator .bracketClose]).map Token.lexeme =
        DeclaratorForm.arraySpelling none from rfl)))
  exact ⟨whole, by decide, by decide,
    @declarator_of_tokens _ ts [const] _ layers whole (by decide) (by decide) []⟩

end Parser

end PlainC
