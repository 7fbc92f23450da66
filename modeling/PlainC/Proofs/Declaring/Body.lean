/-
**Another body for a function.**

Nothing in front of the body of a function depends on the body: the specifier and the declarator are
read up to the opening brace, and behind this brace they do not look.  So a function that is read
with nothing in its braces is read with any other block there.  That the braces in question are
those of the body, and not of a block somewhere inside it, is seen from the token in front of the
last one: every item of a block ends with a semicolon or a closing brace, and not with an opening
one.

Main definitions:

* `PlainC.Parser.BlockTurn` — what one turn of the loop over the items of a block reads.

Main results:

* `PlainC.Parser.blockItems_last` — what the items of a block end with;
* `PlainC.Parser.block_of_braces` — a block that ends with two braces is empty;
* `PlainC.Parser.unit_of_body` — **a function with an empty body is read with any other body**.
-/

import PlainC.Proofs.Comparison.Entries
import PlainC.Proofs.Declaring.Unit

set_option relaxedAutoImplicit false
set_option autoImplicit false

namespace PlainC.Parser

variable {s : Setting} {p q : Progress} {sp : Specifier String} {d : Declarator}
variable {ident : Token} {parameters : List (Declaration String)} {f : Function String}

/-! ### The items of a block -/

/-- What one turn of the loop over the items of a block reads: nothing in front of its end, or
something that ends with a token that ends a unit. -/
inductive BlockTurn (p q : Progress) : ForInStep (List (Stmt String)) → Prop
  | stop {statements : List (Stmt String)} : p = q → BlockTurn p q (.done statements)
  | item {statements : List (Stmt String)} {front : List Token} {t : Token} :
      p.rest = front ++ t :: q.rest → t.lexeme.endsUnit → BlockTurn p q (.yield statements)

theorem blockItem_turn (hs : s.Closed) {before : List (Stmt String)}
    {turn : ForInStep (List (Stmt String))}
    (read : blockItem statement before s p = .ok turn q) : BlockTurn p q turn := by
  rw [blockItem, current_bind, atEnd_bind] at read
  split at read
  · obtain ⟨rfl, rfl⟩ := pure_eq_ok_iff.1 read
    exact .stop rfl
  rw [locatedAt_eq_ok_iff] at read
  split at read
  · obtain ⟨vs, r, vars, last⟩ := bind_eq_ok_iff.1 read
    obtain ⟨rfl, rfl⟩ := pure_eq_ok_iff.1 last
    obtain ⟨front, t, here, ends⟩ := localVariables_closes.last hs vars
    exact .item here ends
  rw [accept_bind] at read
  split at read
  · rename_i semicolon
    rw [if_pos rfl] at read
    obtain ⟨rfl, rfl⟩ := pure_eq_ok_iff.1 read
    obtain ⟨t, here, same⟩ := p.exists_cons_of_front hs (by simp [semicolon])
    have alone : p.rest = [] ++ t :: p.behind.rest := here
    exact .item alone (by rw [same, semicolon]; rfl)
  · rw [if_neg Bool.false_ne_true] at read
    obtain ⟨st, r, inner, last⟩ := bind_eq_ok_iff.1 read
    obtain ⟨rfl, rfl⟩ := pure_eq_ok_iff.1 last
    have noElse : (([] : List Token).headD s.ending).lexeme ≠ .keyword .elseWord := by
      rw [List.headD_nil, hs]
      exact Lexeme.noConfusion
    obtain ⟨front, t, here, ends⟩ := (statement_settles hs noElse).last inner
    exact .item here ends

/-- The items of a block are none, or they end with a token that ends a unit. -/
theorem blockItems_last (hs : s.Closed) {before statements : List (Stmt String)}
    (read : loop (blockItem statement) before s p = .ok statements q) :
    p.rest = q.rest ∨ ∃ front t, p.rest = front ++ t :: q.rest ∧ t.lexeme.endsUnit := by
  unfold loop budgeted at read
  generalize p.rest.length + 1 = n at read
  induction n generalizing before p with
  | zero => exact absurd read exhausted_ne_ok
  | succ n ih =>
      rcases iterate_succ_eq_ok_iff.1 read with last | ⟨more, r, turn, rest⟩
      · cases blockItem_turn hs last with
        | stop same => exact .inl (congrArg Progress.rest same)
      · cases blockItem_turn hs turn with
        | @item _ front t here ends =>
            rcases ih rest with same | ⟨front', t', there, ends'⟩
            · exact .inr ⟨front, t, by rw [here, same], ends⟩
            · refine .inr ⟨front ++ t :: front', t', ?_, ends'⟩
              rw [here, there, List.append_assoc, List.cons_append]

/-- A block at the end of a source that ends with two braces is these braces. -/
theorem block_of_braces (hs : s.Closed) {header : List Token} {opening closing : Token}
    (brace : opening.lexeme = .punctuator .braceOpen) {b : Block String}
    (suffix : p.rest <:+ header ++ [opening, closing]) (read : block s p = .ok b q)
    (done : q.rest = []) : p.rest = [opening, closing] := by
  obtain ⟨statements, _, inside, last⟩ := bind_eq_ok_iff.1 read
  obtain ⟨rfl, rfl⟩ := pure_eq_ok_iff.1 last
  obtain ⟨_, r, opens, inside⟩ := bind_eq_ok_iff.1 inside
  obtain ⟨_, r', items, inside⟩ := bind_eq_ok_iff.1 inside
  obtain ⟨_, _, closes, last⟩ := bind_eq_ok_iff.1 inside
  obtain ⟨rfl, rfl⟩ := pure_eq_ok_iff.1 last
  obtain ⟨first, rfl⟩ := expect_eq_ok_iff.1 opens
  obtain ⟨second, rfl⟩ := expect_eq_ok_iff.1 closes
  obtain ⟨t, here, -⟩ := p.exists_cons_of_front hs (by simp [first])
  obtain ⟨u, there, -⟩ := r'.exists_cons_of_front hs (by simp [second])
  rw [show r'.behind.rest = [] from done] at there
  obtain ⟨before, whole⟩ := suffix
  rcases blockItems_last hs items with same | ⟨between, v, same, ends⟩
  · -- only the closing brace stands behind the opening one
    rw [here, same, there] at whole ⊢
    exact (List.append_inj' whole rfl).2
  · -- the token in front of the closing brace would be the opening one
    rw [here, same, there, ← List.cons_append, ← List.append_assoc] at whole
    obtain rfl : v = opening := (List.cons.inj (List.append_inj' whole rfl).2).1
    rw [brace] at ends
    cases ends

/-! ### Functions -/

/-- Behind its declarator a function has a body, or it ends with a semicolon. -/
theorem functionAfter_eq_ok (read : functionAfter sp d ident parameters s p = .ok f q) :
    ∃ declaration r, declarationOf sp d s p = .ok declaration r ∧
      ((r.front s = .punctuator .braceOpen ∧ parameters.findIdx? Declaration.isAbstract = none ∧
          ∃ b, block s r = .ok b q ∧ f = { declaration, parameters, body := some b }) ∨
        r.front s = .punctuator .semicolon ∧ r.behind = q) := by
  obtain ⟨declaration, r, declared, read⟩ := bind_eq_ok_iff.1 read
  refine ⟨declaration, r, declared, ?_⟩
  rw [nextIs_bind] at read
  split at read
  · rename_i brace
    obtain ⟨_, r', named, read⟩ := bind_eq_ok_iff.1 read
    obtain ⟨b, _, body, last⟩ := bind_eq_ok_iff.1 read
    obtain ⟨rfl, rfl⟩ := pure_eq_ok_iff.1 last
    rw [namedParameters] at named
    cases found : parameters.findIdx? Declaration.isAbstract with
    | some index =>
        rw [found] at named
        exact absurd named fail_ne_ok
    | none =>
        rw [found] at named
        obtain ⟨-, rfl⟩ := pure_eq_ok_iff.1 named
        exact .inl ⟨of_decide_eq_true brace, rfl, b, body, rfl⟩
  · rw [current_bind] at read
    obtain ⟨_, r', close, read⟩ := bind_eq_ok_iff.1 read
    obtain ⟨semicolon, rfl⟩ := expectAs_eq_ok_iff.1 close
    obtain ⟨o, r'', asked, read⟩ := bind_eq_ok_iff.1 read
    obtain ⟨-, rfl⟩ := options_eq_ok_iff.1 asked
    split at read
    · exact .inr ⟨semicolon, (pure_eq_ok_iff.1 read).2⟩
    · obtain ⟨_, _, stop, -⟩ := bind_eq_ok_iff.1 read
      exact absurd stop fail_ne_ok

theorem functionAfter_of_body {declaration : Declaration String} {r : Progress}
    (declared : declarationOf sp d s p = .ok declaration r)
    (brace : r.front s = .punctuator .braceOpen)
    (named : parameters.findIdx? Declaration.isAbstract = none) {b : Block String}
    (body : block s r = .ok b q) :
    functionAfter sp d ident parameters s p =
      .ok { declaration, parameters, body := some b } q := by
  have passed : namedParameters ident parameters s r = .ok () r := by
    rw [namedParameters, named]
    rfl
  rw [functionAfter, bind_of_ok declared, nextIs_bind, brace, decide_eq_true rfl, if_pos rfl]
  exact (bind_of_ok passed _).trans (bind_of_ok body _)

/-- The specifier and the declarator in front of the body of a function are read in front of any
other body. -/
theorem header_exchange (hs : s.Closed) {header : List Token} {opening closing : Token}
    (brace : opening.lexeme = .punctuator .braceOpen) {names names' : List String}
    (words : specifier s ⟨header ++ [opening, closing], names⟩ = .ok sp q)
    (inside : topDeclarator s q = .ok d ⟨[opening, closing], names'⟩) (ending : Token)
    (more : List Token) :
    ∃ r, specifier (s.endingAt ending) ⟨header ++ opening :: more, names⟩ = .ok sp r ∧
      topDeclarator (s.endingAt ending) r = .ok d ⟨opening :: more, names'⟩ := by
  have alike : Alike id True id topDeclarator topDeclarator := topDeclarator_alike
  have guarded : Progress.Guarded ⟨[opening], names'⟩ := Progress.guarded_cons (by rw [brace]; rfl)
  -- both readings end in front of the closing brace
  have suffix : (Progress.followed [closing] ⟨[opening], names'⟩).rest <:+ q.rest :=
    topDeclarator_advances.of_ok inside
  obtain ⟨r, rfl, left⟩ := Progress.exists_followed suffix
  have front (tail : List Token) : Progress.followed tail ⟨header ++ [opening], names⟩ =
      ⟨header ++ opening :: tail, names⟩ := by
    rw [Progress.followed, List.append_assoc, List.singleton_append]
  rw [← front] at words
  have words' := specifier_exchange hs words (guarded.of_suffix left) ending more
  have inside' : topDeclarator (s.endingAt ending) (r.followed more) =
      .ok d (Progress.followed more ⟨[opening], names'⟩) :=
    alike.exchange (fun _ => topDeclarator_ends.lasts hs) inside guarded ending more
  rw [front] at words'
  exact ⟨r.followed more, words', inside'⟩

/-- **A function that is read with an empty body is read with any other body**, also in front of
another end of the source. -/
theorem unit_of_body (hs : s.Closed) {ending : Token} (closed : (s.endingAt ending).Closed)
    {header : List Token} {opening closing : Token}
    (brace : opening.lexeme = .punctuator .braceOpen)
    (close : closing.lexeme = .punctuator .braceClose) {names names' : List String}
    (read : unit s ⟨header ++ [opening, closing], names⟩ = .ok [.function f] ⟨[], names'⟩)
    {b : Block String} {more rest : List Token}
    (body : ∀ names, ∃ names', block (s.endingAt ending) ⟨opening :: more, names⟩ =
      .ok b ⟨rest, names'⟩) :
    ∃ names', unit (s.endingAt ending) ⟨header ++ opening :: more, names⟩ =
      .ok [.function { f with body := some b }] ⟨rest, names'⟩ := by
  have whole := UnitRead.of_unit hs read
  generalize same : [TopLevel.function f] = us at whole
  cases whole with
  | struct => cases same
  | @vars _ _ _ _ _ _ _ found =>
      cases found with
      | nil => cases same
      | cons => cases same
  | @function sp d r r' ident parameters _ words inside hi hp behind =>
      cases same
      obtain ⟨r, names₁⟩ := r'
      have suffix : r <:+ header ++ [opening, closing] :=
        (topDeclarator_advances.of_ok inside).trans (specifier_advances.of_ok words)
      obtain ⟨declaration, ⟨left, names₂⟩, declared, after⟩ := functionAfter_eq_ok behind
      obtain rfl : left = r := rest_of_declarationOf declared
      rcases after with ⟨-, named, b₀, empty, rfl⟩ | ⟨semicolon, behind⟩
      · obtain rfl : left = [opening, closing] := block_of_braces hs brace suffix empty rfl
        obtain ⟨r, words', inside'⟩ := header_exchange hs brace words inside ending more
        obtain ⟨names₃, declared'⟩ :=
          declarationOf_anywhere declared (s.endingAt ending) (opening :: more) names₁
        obtain ⟨names₄, body'⟩ := body names₃
        refine ⟨names₄, ?_⟩
        rw [unit_of_declarator closed words' inside']
        exact unitAfter_of_function hi hp (functionAfter_of_body declared' brace named body')
      · -- the last token is the closing brace, and no semicolon
        rw [List.append_cons header] at suffix
        obtain rfl : left = [closing] := rest_eq_singleton hs suffix
          (show (⟨left, names₂⟩ : Progress).front s ≠ .ending by simp [semicolon]) (by rw [behind])
        rw [Progress.front_cons, close] at semicolon
        cases semicolon

end PlainC.Parser
