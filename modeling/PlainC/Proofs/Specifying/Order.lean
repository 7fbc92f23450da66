/-
**The order of the words of a specifier.**

The marks and the type words of a specifier may stand in any order.  Whether a row of them is
accepted, which marks the specifier has, and which type its words name, is the same for every order;
only the order of the words and the wording of a fault follow the row.

Main definitions:

* `PlainC.Fault.OfOneKind` — faults that differ in their wording only;
* `PlainC.Specifier.Reordered` — specifiers that differ in the order of their words only.

Main results:

* `PlainC.TypeWord.resolve_perm` — the order of words does not matter for the type;
* `PlainC.Parser.specifier_of_items` — what the reading of a row of items comes to;
* `PlainC.Parser.specifier_of_words` — **which words name a type, and that no order of the items of
  a specifier makes a difference to it**.
-/

import PlainC.Proofs.RoundTrip.Specifier
import PlainC.Proofs.Specifying.Words
import PlainC.Proofs.Parsing.Advance

set_option relaxedAutoImplicit false
set_option autoImplicit false

namespace PlainC

/-! ### Outcomes of one kind -/

/-- The same fault, or two constructs that are not supported. -/
def Fault.OfOneKind (f g : Fault) : Prop :=
  f = g ∨ ∃ c c', f = .unsupported c ∧ g = .unsupported c'

/-- The same value, or two faults of one kind. -/
def Fault.SameOutcome {α : Type} (x y : Except Fault α) : Prop :=
  (∃ a, x = .ok a ∧ y = .ok a) ∨ ∃ f g, x = .error f ∧ y = .error g ∧ f.OfOneKind g

/-- Specifiers with the same marks and the same words, in two orders. -/
structure Specifier.Reordered (sp sp' : Specifier String) : Prop where
  isStatic : sp.isStatic = sp'.isStatic
  isConst : sp.isConst = sp'.isConst
  words : sp.words.Perm sp'.words

/-- The order of words does not matter for the type, nor for the kind of fault. -/
theorem TypeWord.resolve_perm {words words' : List (TypeWord String)} (order : words.Perm words') :
    Fault.SameOutcome (resolve words) (resolve words') := by
  cases first : resolve words with
  | ok t =>
      have named := (names_of_resolve first).perm order
      exact .inl ⟨t, rfl, named.resolve⟩
  | error f =>
      cases second : resolve words' with
      | ok t =>
          have named := (names_of_resolve second).perm order.symm
          rw [named.resolve] at first
          cases first
      | error g =>
          refine .inr ⟨f, g, rfl, rfl, ?_⟩
          rcases resolve_error first with ⟨rfl, rfl⟩ | ⟨filled, c, rfl⟩
          · obtain rfl := order.nil_eq
            cases second
            exact .inl rfl
          · rcases resolve_error second with ⟨rfl, rfl⟩ | ⟨-, c', rfl⟩
            · exact absurd order.eq_nil filled
            · exact .inr ⟨c, c', rfl, rfl⟩

/-- Items in two orders make the same specifier but for the order of its words. -/
theorem Specifier.reordered_ofItems {items items' : List SpecifierItem}
    (order : items.Perm items') : (ofItems items).Reordered (ofItems items') := by
  rw [ofItems_eq, ofItems_eq]
  exact ⟨decide_eq_decide.2 order.mem_iff, decide_eq_decide.2 order.mem_iff,
    order.filterMap SpecifierItem.word?⟩

namespace Parser

variable {s : Setting} {items items' : List SpecifierItem} {ts ts' after : List Token}

/-! ### Items that are read -/

/-- What the reading of some items comes to: the specifier of these items if its words name a type,
and otherwise a fault, which is that of the words if there are any. -/
theorem specifier_of_items (sound : items.all SpecifierItem.hasSpelling)
    (spelled : ts.map Token.lexeme = items.flatMap SpecifierItem.spelling) (names : List String)
    (stop : (Progress.front s ⟨after, names⟩).startsDeclaration = false)
    (noBrace : Progress.front s ⟨after, names⟩ ≠ .punctuator .braceOpen) :
    (∃ t names', TypeWord.resolve (Specifier.ofItems items).words = .ok t ∧
      specifier s ⟨ts ++ after, names⟩ = .ok (.ofItems items) ⟨after, names'⟩) ∨
    ∃ fault d q, TypeWord.resolve (Specifier.ofItems items).words = .error fault ∧
      specifier s ⟨ts ++ after, names⟩ = .error (.fault d) q ∧
      d.fault = if (Specifier.ofItems items).words = [] then .missingToken "type specifier"
        else fault := by
  have stop' : (s.front (after.map Token.lexeme)).startsDeclaration = false := by
    rwa [Progress.front_eq] at stop
  have noBrace' : s.front (after.map Token.lexeme) ≠ .punctuator .braceOpen := by
    rwa [Progress.front_eq] at noBrace
  have takes := takes_specifierItems { words := [] } sound stop' noBrace'
  rw [← spelled, ← List.map_append] at takes
  have words : Alike id False id (loop specifierWord { words := [] }) _ :=
    .loop specifierWord_alike _
  obtain ⟨_, names', read, rfl⟩ := takes.leaves words.advances names
  have whole : specifier s ⟨ts ++ after, names⟩ = (do
      if (Specifier.ofItems items).words.isEmpty then missing "type specifier"
      let _ ← locatedAt ((ts ++ after).headD s.ending)
        (ofExcept (TypeWord.resolve (Specifier.ofItems items).words))
      return Specifier.ofItems items) s ⟨after, names'⟩ :=
    (current_bind _).trans (bind_of_ok read _)
  rw [whole]
  cases words : (Specifier.ofItems items).words with
  | nil => exact .inr ⟨_, _, _, rfl, rfl, rfl⟩
  | cons w words' =>
      rw [List.isEmpty_cons, if_neg Bool.false_ne_true]
      cases found : TypeWord.resolve (w :: words') with
      | ok t => exact .inl ⟨t, names', rfl, rfl⟩
      | error fault => exact .inr ⟨fault, _, _, rfl, rfl, rfl⟩

/-- The same items in two orders are both read, as specifiers that differ in the order of their
words and name the same type, or both refused for one kind of fault. -/
theorem specifier_of_perm (order : items.Perm items') (sound : items.all SpecifierItem.hasSpelling)
    (spelled : ts.map Token.lexeme = items.flatMap SpecifierItem.spelling)
    (spelled' : ts'.map Token.lexeme = items'.flatMap SpecifierItem.spelling)
    (names names' : List String)
    (stop : (Progress.front s ⟨after, names⟩).startsDeclaration = false)
    (noBrace : Progress.front s ⟨after, names⟩ ≠ .punctuator .braceOpen) :
    (∃ sp sp' t met met', specifier s ⟨ts ++ after, names⟩ = .ok sp ⟨after, met⟩ ∧
      specifier s ⟨ts' ++ after, names'⟩ = .ok sp' ⟨after, met'⟩ ∧ sp.Reordered sp' ∧
      TypeWord.resolve sp.words = .ok t ∧ TypeWord.resolve sp'.words = .ok t) ∨
    ∃ d d' q q', specifier s ⟨ts ++ after, names⟩ = .error (.fault d) q ∧
      specifier s ⟨ts' ++ after, names'⟩ = .error (.fault d') q' ∧ d.fault.OfOneKind d'.fault := by
  have sound' : items'.all SpecifierItem.hasSpelling :=
    List.all_eq_true.2 fun item hi => List.all_eq_true.1 sound item (order.mem_iff.2 hi)
  have reordered := Specifier.reordered_ofItems order
  have first := specifier_of_items sound spelled names stop noBrace
  have second := specifier_of_items sound' spelled' names' stop noBrace
  rcases TypeWord.resolve_perm reordered.words with ⟨t, ht, ht'⟩ | ⟨f, g, hf, hg, kind⟩
  · obtain ⟨_, met, -, read⟩ | ⟨_, _, _, failed, -⟩ := first
    · obtain ⟨_, met', -, read'⟩ | ⟨_, _, _, failed, -⟩ := second
      · exact .inl ⟨_, _, t, met, met', read, read', reordered, ht, ht'⟩
      · rw [ht'] at failed
        cases failed
    · rw [ht] at failed
      cases failed
  · obtain ⟨_, _, resolved, -⟩ | ⟨_, d, q, same, read, fault⟩ := first
    · rw [hf] at resolved
      cases resolved
    · obtain ⟨_, _, resolved, -⟩ | ⟨_, d', q', same', read', fault'⟩ := second
      · rw [hg] at resolved
        cases resolved
      · obtain rfl := Except.error.inj (hf.symm.trans same)
        obtain rfl := Except.error.inj (hg.symm.trans same')
        refine .inr ⟨d, d', q, q', read, read', ?_⟩
        have empty : (Specifier.ofItems items).words = [] ↔ (Specifier.ofItems items').words = [] :=
          ⟨fun none => (none ▸ reordered.words).nil_eq.symm,
            fun none => (none ▸ reordered.words).eq_nil⟩
        rw [fault, fault']
        by_cases none : (Specifier.ofItems items).words = []
        · rw [if_pos none, if_pos (empty.1 none)]
          exact .inl rfl
        · rw [if_neg none, if_neg (empty.not.1 none)]
          exact kind

/-- **Which words name a type, and that their order makes no difference.**  Words are resolved
exactly if they name a type; it is unsigned, or marked as signed, exactly if the word for it occurs.
Without any word there is nothing to resolve, and all other words are not supported.  In every order
words have the same type or one kind of fault; and in every order the items of a specifier are
accepted or refused alike, with the same marks and the same type. -/
theorem specifier_of_words :
    (∀ words t, TypeWord.resolve words = .ok t ↔ TypeWord.Names words t) ∧
    (∀ words t, TypeWord.Names words t →
      (t.isUnsigned ↔ .unsigned ∈ words) ∧ (t.isSigned ↔ .signed ∈ words)) ∧
    TypeWord.resolve [] = .error (.misfit .nothingToResolve) ∧
    (∀ words, words ≠ [] → (∀ t, ¬ TypeWord.Names words t) →
      ∃ construct, TypeWord.resolve words = .error (.unsupported construct)) ∧
    (∀ words words', words.Perm words' →
      Fault.SameOutcome (TypeWord.resolve words) (TypeWord.resolve words')) ∧
    ∀ (s : Setting) (items items' : List SpecifierItem) (ts ts' after : List Token)
      (names names' : List String), items.Perm items' → items.all SpecifierItem.hasSpelling →
      ts.map Token.lexeme = items.flatMap SpecifierItem.spelling →
      ts'.map Token.lexeme = items'.flatMap SpecifierItem.spelling →
      (Progress.front s ⟨after, names⟩).startsDeclaration = false →
      Progress.front s ⟨after, names⟩ ≠ .punctuator .braceOpen →
      (∃ sp sp' t met met', specifier s ⟨ts ++ after, names⟩ = .ok sp ⟨after, met⟩ ∧
        specifier s ⟨ts' ++ after, names'⟩ = .ok sp' ⟨after, met'⟩ ∧ sp.Reordered sp' ∧
        TypeWord.resolve sp.words = .ok t ∧ TypeWord.resolve sp'.words = .ok t) ∨
      ∃ d d' q q', specifier s ⟨ts ++ after, names⟩ = .error (.fault d) q ∧
        specifier s ⟨ts' ++ after, names'⟩ = .error (.fault d') q' ∧
        d.fault.OfOneKind d'.fault := by
  refine ⟨fun _ _ => TypeWord.resolve_eq_ok_iff, fun _ _ named => ?_, rfl, ?_,
    fun _ _ => TypeWord.resolve_perm, ?_⟩
  · exact ⟨named.isUnsigned_iff, named.isSigned_iff⟩
  · intro words filled nameless
    cases result : TypeWord.resolve words with
    | ok t => exact absurd (TypeWord.names_of_resolve result) (nameless t)
    | error fault =>
        rcases TypeWord.resolve_error result with ⟨empty, -⟩ | ⟨-, c, rfl⟩
        · exact absurd empty filled
        · exact ⟨c, rfl⟩
  · intro s items items' ts ts' after names names' order sound spelled spelled' stop noBrace
    exact specifier_of_perm order sound spelled spelled' names names' stop noBrace

/-- The words `long unsigned int` name an unsigned type, `long long` is not supported, and `static`
may stand between the words. -/
theorem specifier_of_words_long :
    (∃ t, TypeWord.resolve [.long, .unsigned, .int] = .ok t ∧ t.isUnsigned) ∧
    (∃ construct, TypeWord.resolve [.long, .long] = .error (.unsupported construct)) ∧
    ∃ sp sp' t met met',
      specifier ⟨"a.c", [], {}, ⟨.ending, 1, 30⟩⟩
        ⟨[⟨.keyword .long, 1, 1⟩, ⟨.keyword .static, 1, 6⟩, ⟨.keyword .unsigned, 1, 13⟩] ++
          [⟨.identifier "x", 1, 22⟩], []⟩ = .ok sp ⟨[⟨.identifier "x", 1, 22⟩], met⟩ ∧
      specifier ⟨"a.c", [], {}, ⟨.ending, 1, 30⟩⟩
        ⟨[⟨.keyword .static, 1, 1⟩, ⟨.keyword .unsigned, 1, 8⟩, ⟨.keyword .long, 1, 17⟩] ++
          [⟨.identifier "x", 1, 22⟩], []⟩ = .ok sp' ⟨[⟨.identifier "x", 1, 22⟩], met'⟩ ∧
      sp.Reordered sp' ∧ TypeWord.resolve sp.words = .ok t ∧
        TypeWord.resolve sp'.words = .ok t := by
  obtain ⟨resolves, flags, -, others, -, orders⟩ := specifier_of_words
  have named : TypeWord.Names [.long, .unsigned, .int]
      { base := .long, isUnsigned := true } :=
    ⟨[.unsigned] ++ [.long, .int], .swap .., .integer .unsigned .longInt⟩
  refine ⟨⟨_, (resolves _ _).2 named, rfl⟩, others _ (by simp) ?_, ?_⟩
  · intro t named
    have resolved := (resolves _ _).2 named
    cases resolved
  · have order : [SpecifierItem.word .long, .static, .word .unsigned].Perm
        [.static, .word .unsigned, .word .long] := by decide
    rcases orders ⟨"a.c", [], {}, ⟨.ending, 1, 30⟩⟩ _ _
      [⟨.keyword .long, 1, 1⟩, ⟨.keyword .static, 1, 6⟩, ⟨.keyword .unsigned, 1, 13⟩]
      [⟨.keyword .static, 1, 1⟩, ⟨.keyword .unsigned, 1, 8⟩, ⟨.keyword .long, 1, 17⟩]
      [⟨.identifier "x", 1, 22⟩] [] [] order rfl rfl rfl rfl (by simp) with both | neither
    · exact both
    · obtain ⟨d, _, q, _, failed, -⟩ := neither
      cases failed

end Parser

end PlainC
