/-
**Specifiers that are read back.**

A specifier is written as a row of items: its marks, which may stand anywhere, and its type words.
It is read item by item, up to the first lexeme that begins no declaration.  In the canonical order
the marks come first.

Main definitions:

* `PlainC.SpecifierItem` — a mark or a type word;
* `PlainC.Specifier.ofItems` — the specifier that is written as some items;
* `PlainC.Parser.ItemTurn` — what one turn of the loop over the items makes of a specifier.

Main results:

* `PlainC.Parser.takes_specifierItems` — items are read in any order;
* `PlainC.Parser.takes_specifier` — **a specifier is read back**;
* `PlainC.Parser.exists_items` — **what was read is a row of items that spell it**;
* `PlainC.Parser.lexemes_of_castWord` — the word of a cast spells what was read.
-/

import PlainC.Proofs.Parsing.Taking
import PlainC.Proofs.Spelling.Declarator
import PlainC.Tree.Parser.Declaration

set_option relaxedAutoImplicit false
set_option autoImplicit false

namespace PlainC

/-! ### The items of a specifier -/

/-- What a specifier is written with: one of its marks, or one of its type words. -/
inductive SpecifierItem where
  | static
  | const
  | word (word : TypeWord String)
deriving DecidableEq

namespace SpecifierItem

/-- The lexemes of an item. -/
def spelling : SpecifierItem → List Lexeme
  | static => [.keyword .static]
  | const => [.keyword .const]
  | word w => w.spelling

/-- Whether an item can be written in a source. -/
def hasSpelling : SpecifierItem → Bool
  | static | const => true
  | word w => w.hasSpelling

/-- The type word of an item, if it is one. -/
def word? : SpecifierItem → Option (TypeWord String)
  | static | const => none
  | word w => some w

theorem length_spelling_pos {item : SpecifierItem} (h : item.hasSpelling) :
    0 < item.spelling.length := by
  cases item with
  | static | const => exact Nat.succ_pos _
  | word w => cases w <;> first | exact Nat.succ_pos _ | cases h

end SpecifierItem

namespace Specifier

variable {sp : Specifier String} {items : List SpecifierItem}

/-- The specifier with one more item at its end. -/
def adding (sp : Specifier String) : SpecifierItem → Specifier String
  | .static => { sp with isStatic := true }
  | .const => { sp with isConst := true }
  | .word w => { sp with words := sp.words ++ [w] }

/-- The specifier that is written as some items. -/
def ofItems (items : List SpecifierItem) : Specifier String := items.foldl adding { words := [] }

/-- The items of a specifier, marks first. -/
def toItems (sp : Specifier String) : List SpecifierItem :=
  (if sp.isStatic then [.static] else []) ++ (if sp.isConst then [.const] else [])
    ++ sp.words.map .word

theorem foldl_adding : items.foldl adding sp =
    ⟨sp.isStatic || decide (.static ∈ items), sp.isConst || decide (.const ∈ items),
      sp.words ++ items.filterMap SpecifierItem.word?⟩ := by
  induction items generalizing sp with
  | nil => simp
  | cons item items ih =>
      rw [List.foldl_cons, ih]
      cases item <;> simp [adding, List.filterMap_cons, SpecifierItem.word?]

/-- Which marks there are, and which words in which order, is all that the items tell. -/
theorem ofItems_eq : ofItems items =
    ⟨decide (.static ∈ items), decide (.const ∈ items), items.filterMap SpecifierItem.word?⟩ := by
  rw [ofItems, foldl_adding]
  simp

theorem ofItems_toItems (sp : Specifier String) : ofItems sp.toItems = sp := by
  obtain ⟨isStatic, isConst, words⟩ := sp
  have kept : (words.map SpecifierItem.word).filterMap SpecifierItem.word? = words := by
    rw [List.filterMap_map]
    exact List.filterMap_some
  rw [ofItems_eq]
  cases isStatic <;> cases isConst <;>
    simp [toItems, List.filterMap_cons, SpecifierItem.word?, kept]

theorem spelling_toItems (sp : Specifier String) :
    sp.toItems.flatMap SpecifierItem.spelling = sp.spelling := by
  obtain ⟨isStatic, isConst, words⟩ := sp
  cases isStatic <;> cases isConst <;>
    simp [toItems, spelling, SpecifierItem.spelling, List.flatMap_map]

theorem hasSpelling_toItems (h : sp.words.all TypeWord.hasSpelling) :
    sp.toItems.all SpecifierItem.hasSpelling := by
  obtain ⟨isStatic, isConst, words⟩ := sp
  cases isStatic <;> cases isConst <;>
    simpa [toItems, SpecifierItem.hasSpelling] using h

end Specifier

namespace Parser

variable {s : Setting} {p q : Progress} {ls after : List Lexeme} {sp : Specifier String}
variable {items : List SpecifierItem}

/-! ### Specifiers that are read back -/

theorem takes_specifierWord_done (h : (s.front ls).startsDeclaration = false) :
    Takes s (specifierWord sp) ls (· = .done sp) ls := by
  refine takes_current.bind fun t ht => ?_
  rw [← ht] at h
  cases hl : t.lexeme with
  | keyword word =>
      rw [hl] at h
      cases word <;> first | exact .pure rfl | cases h
  | _ => exact .pure rfl

/-- An item is read, unless a brace behind it begins the members of a struct. -/
theorem takes_specifierItem {item : SpecifierItem} (h : item.hasSpelling)
    (noBrace : s.front ls ≠ .punctuator .braceOpen) :
    Takes s (specifierWord sp) (item.spelling ++ ls) (· = .yield (sp.adding item)) ls := by
  refine takes_current.bind fun t ht => ?_
  cases item with
  | static | const =>
      simp only [ht, SpecifierItem.spelling, List.cons_append, List.nil_append, Setting.front_cons]
      exact takes_advance.bind fun _ _ => .pure rfl
  | word w =>
      cases w with
      | struct name =>
          simp only [ht, SpecifierItem.spelling, TypeWord.spelling, List.cons_append,
            List.nil_append, Setting.front_cons]
          refine takes_advance.bind fun _ _ => (takes_identifier _ name).bind ?_
          rintro _ rfl
          refine (takes_nextIs _).bind ?_
          rintro _ rfl
          simp only [noBrace, decide_false, Bool.false_eq_true, if_false]
          exact (takes_note _).bind fun _ _ => .pure rfl
      | tagged | foreign => cases h
      | _ =>
          simp only [ht, SpecifierItem.spelling, TypeWord.spelling, List.cons_append,
            List.nil_append, Setting.front_cons]
          exact takes_advance.bind fun _ _ => .pure rfl

/-- No brace stands behind an item of a specifier. -/
theorem front_items_ne_brace (h : items.all SpecifierItem.hasSpelling)
    (noBrace : s.front after ≠ .punctuator .braceOpen) :
    s.front (items.flatMap SpecifierItem.spelling ++ after) ≠ .punctuator .braceOpen := by
  cases items with
  | nil => exact noBrace
  | cons item items =>
      rw [List.all_cons, Bool.and_eq_true] at h
      rw [List.flatMap_cons, List.append_assoc]
      cases item with
      | static | const => simp [SpecifierItem.spelling]
      | word w =>
          cases w <;> simp_all [SpecifierItem.spelling, SpecifierItem.hasSpelling,
            TypeWord.spelling, TypeWord.hasSpelling]

/-- The items of a specifier are read up to the first lexeme that begins no declaration. -/
theorem takes_specifierItems (sp : Specifier String) (h : items.all SpecifierItem.hasSpelling)
    (stop : (s.front after).startsDeclaration = false)
    (noBrace : s.front after ≠ .punctuator .braceOpen) :
    Takes s (loop specifierWord sp) (items.flatMap SpecifierItem.spelling ++ after)
      (· = items.foldl Specifier.adding sp) after := by
  induction items generalizing sp with
  | nil => exact Takes.loop_last (takes_specifierWord_done stop) rfl
  | cons item items ih =>
      rw [List.all_cons, Bool.and_eq_true] at h
      rw [List.flatMap_cons, List.append_assoc]
      have pos := SpecifierItem.length_spelling_pos h.1
      refine Takes.loop_next _ (takes_specifierItem h.1 (front_items_ne_brace h.2 noBrace)) ?_
        (ih _ h.2)
      simp only [List.length_append]
      omega

/-- A specifier is read off its items, in whatever order they stand. -/
theorem takes_specifier_of_items (h : items.all SpecifierItem.hasSpelling)
    (resolved : (TypeWord.resolve (Specifier.ofItems items).words).isOk)
    (stop : (s.front after).startsDeclaration = false)
    (noBrace : s.front after ≠ .punctuator .braceOpen) :
    Takes s specifier (items.flatMap SpecifierItem.spelling ++ after)
      (· = .ofItems items) after := by
  refine takes_current.bind fun start _ => ?_
  refine (takes_specifierItems { words := [] } h stop noBrace).bind ?_
  rintro _ rfl
  change (TypeWord.resolve (Specifier.ofItems items).words).isOk at resolved
  change Takes s (do
    if (Specifier.ofItems items).words.isEmpty then missing "type specifier"
    let _ ← locatedAt start (ofExcept (TypeWord.resolve (Specifier.ofItems items).words))
    return Specifier.ofItems items) after _ after
  cases words : (Specifier.ofItems items).words with
  | nil => simp [words, TypeWord.resolve, Except.isOk, Except.toBool] at resolved
  | cons word words' =>
      rw [words] at resolved
      cases found : TypeWord.resolve (word :: words') with
      | error fault => rw [found] at resolved; cases resolved
      | ok type =>
          simp only [List.isEmpty_cons, Bool.false_eq_true, if_false]
          exact ((takes_ofExcept rfl).locatedAt start).bind fun _ _ => .pure rfl

/-- A specifier is read back. -/
theorem takes_specifier (hsp : sp.hasSpelling) (stop : (s.front after).startsDeclaration = false)
    (noBrace : s.front after ≠ .punctuator .braceOpen) :
    Takes s specifier (sp.spelling ++ after) (· = sp) after := by
  rw [Specifier.hasSpelling, Bool.and_eq_true] at hsp
  have resolved := hsp.2
  rw [← sp.ofItems_toItems] at resolved
  have read := takes_specifier_of_items (Specifier.hasSpelling_toItems hsp.1) resolved stop noBrace
  rwa [sp.ofItems_toItems, sp.spelling_toItems] at read

/-! ### Specifiers that were read -/

/-- What one turn of the loop over the items of a specifier makes of it: nothing in front of
anything but an item, or one more item that stands there. -/
inductive ItemTurn (s : Setting) (sp : Specifier String) (p q : Progress) :
    ForInStep (Specifier String) → Prop
  | stop : p = q → ItemTurn s sp p q (.done sp)
  | item (item : SpecifierItem) : item.hasSpelling → p.lexemes = item.spelling ++ q.lexemes →
      ItemTurn s sp p q (.yield (sp.adding item))

theorem specifierWord_turn {turn : ForInStep (Specifier String)} (hs : s.Closed)
    (h : specifierWord sp s p = .ok turn q) : ItemTurn s sp p q turn := by
  simp only [specifierWord, current_bind, lexeme_headD] at h
  cases hf : p.front s with
  | keyword word =>
      have ahead := Progress.lexemes_eq_cons hs hf (by simp)
      simp only [hf] at h
      cases word
      case structWord =>
        simp only [bind_eq_ok_iff, advance_eq_ok_iff, identifier_eq_ok_iff, nextIs_eq_ok_iff] at h
        obtain ⟨_, _, rfl, name, r, ⟨found, rfl⟩, _, _, ⟨rfl, rfl⟩, h⟩ := h
        have ahead' := Progress.lexemes_eq_cons hs found (by simp)
        split at h
        · simp [bind_eq_ok_iff] at h
        · simp only [bind_eq_ok_iff, note_eq_ok_iff, pure_eq_ok_iff] at h
          obtain ⟨_, _, rfl, rfl, rfl⟩ := h
          refine .item (.word (.struct name)) rfl ?_
          rw [ahead, ahead']
          rfl
      case static =>
        simp only [bind_eq_ok_iff, advance_eq_ok_iff, pure_eq_ok_iff] at h
        obtain ⟨_, _, rfl, rfl, rfl⟩ := h
        exact .item .static rfl ahead
      case const =>
        simp only [bind_eq_ok_iff, advance_eq_ok_iff, pure_eq_ok_iff] at h
        obtain ⟨_, _, rfl, rfl, rfl⟩ := h
        exact .item .const rfl ahead
      case void | char | int | long | double | signed | unsigned =>
        simp only [TypeWord.ofLexeme?, bind_eq_ok_iff, advance_eq_ok_iff, pure_eq_ok_iff] at h
        obtain ⟨_, _, rfl, rfl, rfl⟩ := h
        exact .item (.word _) rfl ahead
      all_goals
        obtain ⟨rfl, rfl⟩ := pure_eq_ok_iff.1 h
        exact .stop rfl
  | _ =>
      simp only [hf, TypeWord.ofLexeme?, pure_eq_ok_iff] at h
      obtain ⟨rfl, rfl⟩ := h
      exact .stop rfl

/-- The items of a specifier that was read spell what was read. -/
theorem lexemes_of_specifierItems {sp' : Specifier String} (hs : s.Closed)
    (h : loop specifierWord sp s p = .ok sp' q) :
    ∃ items : List SpecifierItem, items.foldl Specifier.adding sp = sp' ∧
      items.all SpecifierItem.hasSpelling ∧
      p.lexemes = items.flatMap SpecifierItem.spelling ++ q.lexemes := by
  have turns (sp : Specifier String) (p : Progress) (turn) (q : Progress)
      (read : specifierWord sp s p = .ok turn q) : (turn = .done sp ∧ p = q) ∨
        ∃ item : SpecifierItem, item.hasSpelling = true ∧ turn = .yield (sp.adding item) ∧
          p.lexemes = item.spelling ++ q.lexemes := by
    cases specifierWord_turn hs read with
    | stop same => exact .inl ⟨rfl, same⟩
    | item item spelled ahead => exact .inr ⟨item, spelled, rfl, ahead⟩
  obtain ⟨items, sound, whole, left⟩ := loop_spells turns h
  exact ⟨items, whole, List.all_eq_true.2 sound, left⟩

/-- **What was read as a specifier is a row of items that spell it**, and its words name a type. -/
theorem exists_items (hs : s.Closed) (h : specifier s p = .ok sp q) :
    ∃ items : List SpecifierItem, .ofItems items = sp ∧ items.all SpecifierItem.hasSpelling ∧
      p.lexemes = items.flatMap SpecifierItem.spelling ++ q.lexemes ∧
      (TypeWord.resolve sp.words).isOk := by
  simp only [specifier, current_bind] at h
  obtain ⟨sp', r, read, h⟩ := bind_eq_ok_iff.1 h
  split at h
  · simp [bind_eq_ok_iff] at h
  · simp only [bind_eq_ok_iff, locatedAt_eq_ok_iff, ofExcept_eq_ok_iff, pure_eq_ok_iff] at h
    obtain ⟨type, _, ⟨resolved, rfl⟩, rfl, rfl⟩ := h
    obtain ⟨items, whole, spelled, left⟩ := lexemes_of_specifierItems hs read
    exact ⟨items, whole, spelled, left, by rw [resolved]; rfl⟩

/-- The word of a cast spells what was read. -/
theorem lexemes_of_castWord {word : TypeWord String} (hs : s.Closed)
    (h : specifier s p = .ok ⟨false, false, [word]⟩ q) :
    word.hasSpelling ∧ p.lexemes = word.spelling ++ q.lexemes := by
  obtain ⟨items, whole, spelled, left, -⟩ := exists_items hs h
  -- without marks there are only words, and there is one word
  have single : items = [.word word] := by
    rw [Specifier.ofItems_eq, Specifier.mk.injEq, decide_eq_false_iff_not,
      decide_eq_false_iff_not] at whole
    obtain ⟨noStatic, noConst, words⟩ := whole
    have only : ∀ item ∈ items, ∃ w, item = .word w := by
      intro item hi
      cases item with
      | static => exact absurd hi noStatic
      | const => exact absurd hi noConst
      | word w => exact ⟨w, rfl⟩
    have back : items = (items.filterMap SpecifierItem.word?).map .word := by
      clear words spelled left noStatic noConst
      induction items with
      | nil => rfl
      | cons item items ih =>
          obtain ⟨w, rfl⟩ := only item (List.mem_cons_self ..)
          have rest := ih fun item hi => only item (List.mem_cons_of_mem _ hi)
          exact congrArg (List.cons _) rest
    rw [back, words]
    rfl
  subst single
  exact ⟨by simpa [SpecifierItem.hasSpelling] using spelled,
    by simpa [SpecifierItem.spelling] using left⟩

end Parser

end PlainC
