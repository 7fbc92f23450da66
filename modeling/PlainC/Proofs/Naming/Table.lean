/-
**Name tables that grow.**

A table is only ever added to at its end, and by texts that it did not hold.  So a symbol that it
has issued stays the symbol of its text, however many names are interned afterwards, and a table
that starts without any name never holds a text twice.

Main results:

* `PlainC.NameTable.texts_intern` — what interning a text does to the texts of a table;
* `PlainC.NameTable.symbol_internAll` — a table keeps the symbols that it has issued;
* `PlainC.NameTable.exists_internAll_eq` — a table grows at its end, by each new name once;
* `PlainC.NameTable.lookup_eq_some_iff_resolve` — finding symbols and resolving them are inverse to
  each other.
-/

import PlainC.Name

set_option relaxedAutoImplicit false
set_option autoImplicit false

namespace PlainC.NameTable

variable {t : NameTable} {text name : String} {texts : List String}

/-! ### One name more -/

@[simp] theorem owner_intern (t : NameTable) (text : String) :
    (t.intern text).1.owner = t.owner := by
  unfold intern
  cases t.lookup text <;> rfl

/-- A text that is interned stands at the end if the table did not hold it before. -/
theorem texts_intern (t : NameTable) (text : String) :
    (t.intern text).1.texts = if text ∈ t.texts then t.texts else t.texts ++ [text] := by
  by_cases known : text ∈ t.texts
  · rw [intern_of_mem known, if_pos known]
  · rw [if_neg known, intern, (t.lookup_eq_none_iff text).2 known]

/-- A text that is interned is found, and its symbol is the one that was issued. -/
theorem lookup_intern_self (t : NameTable) (text : String) :
    (t.intern text).1.lookup text = some (t.intern text).2 := by
  cases found : t.lookup text with
  | some s => simp [intern, found]
  | none =>
      have absent := (t.lookup_eq_none_iff text).1 found
      rw [lookup_eq_some_iff]
      simp [intern, found, absent]

/-- A name that is interned keeps the symbols that were issued before. -/
theorem lookup_intern {s : Symbol} (h : t.lookup text = some s) (name : String) :
    (t.intern name).1.lookup text = some s := by
  unfold intern
  cases found : t.lookup name with
  | some _ => exact h
  | none =>
      obtain ⟨owner, same, place, first⟩ := (t.lookup_eq_some_iff text s).1 h
      -- the new text stands behind all others, so that the first place of `text` is the same
      have inside : s.index < t.texts.length := (List.getElem?_eq_some_iff.1 place).1
      refine (lookup_eq_some_iff _ text s).2 ⟨owner, same, ?_, ?_⟩
      · rw [List.getElem?_append_left inside]
        exact place
      · rw [List.take_append_of_le_length (Nat.le_of_lt inside)]
        exact first

/-! ### Any number of names more -/

theorem lookup_internAll {s : Symbol} (h : t.lookup text = some s) (texts : List String) :
    (t.internAll texts).lookup text = some s := by
  induction texts generalizing t with
  | nil => exact h
  | cons name texts ih => exact ih (lookup_intern h name)

theorem internAll_append (t : NameTable) (texts texts' : List String) :
    t.internAll (texts ++ texts') = (t.internAll texts).internAll texts' :=
  List.foldl_append

/-- A name that was interned is found. -/
theorem exists_lookup_internAll (h : text ∈ texts) :
    ∃ s, (t.internAll texts).lookup text = some s := by
  induction texts generalizing t with
  | nil => cases h
  | cons name texts ih =>
      rcases List.mem_cons.1 h with rfl | behind
      · exact ⟨_, lookup_internAll (lookup_intern_self t text) texts⟩
      · exact ih behind

/-- A table keeps the symbols that it has issued. -/
theorem symbol_internAll (h : text ∈ texts) (more : List String) :
    ((t.internAll texts).internAll more).symbol text = (t.internAll texts).symbol text := by
  obtain ⟨s, found⟩ := exists_lookup_internAll (t := t) h
  simp [symbol, intern, found, lookup_internAll found]

/-- A table grows at its end: every text that is interned and was not there is added once. -/
theorem exists_internAll_eq (t : NameTable) (texts : List String) :
    ∃ new, t.internAll texts = ⟨t.owner, t.texts ++ new⟩ ∧ new.Nodup ∧
      (∀ text ∈ new, text ∉ t.texts ∧ text ∈ texts) ∧ texts ⊆ t.texts ++ new := by
  induction texts generalizing t with
  | nil => exact ⟨[], by simp [internAll]⟩
  | cons text texts ih =>
      obtain ⟨new, grown, once, fresh, all⟩ := ih (t.intern text).1
      by_cases known : text ∈ t.texts
      · rw [intern_of_mem known] at grown fresh all
        refine ⟨new, ?_, once, fun x hx => ?_, List.cons_subset.2 ⟨?_, all⟩⟩
        · rw [← grown, internAll, List.foldl_cons, intern_of_mem known]
          rfl
        · exact ⟨(fresh x hx).1, List.mem_cons_of_mem _ (fresh x hx).2⟩
        · exact List.mem_append_left _ known
      · have added : (t.intern text).1 = ⟨t.owner, t.texts ++ [text]⟩ := by
          simp [intern, (t.lookup_eq_none_iff text).2 known]
        rw [added] at grown fresh all
        simp only [List.append_assoc, List.singleton_append] at grown all
        refine ⟨text :: new, ?_, List.nodup_cons.2 ⟨fun again => ?_, once⟩, ?_, ?_⟩
        · rw [← grown, internAll, List.foldl_cons, added]
          rfl
        · exact (fresh text again).1 (List.mem_append_right _ (List.mem_singleton_self text))
        · refine List.forall_mem_cons.2 ⟨⟨known, List.mem_cons_self ..⟩, fun x hx => ?_⟩
          refine ⟨fun before => (fresh x hx).1 (List.mem_append_left _ before), ?_⟩
          exact List.mem_cons_of_mem _ (fresh x hx).2
        · exact List.cons_subset.2 ⟨by simp, all⟩

/-! ### Symbols and their texts -/

/-- The symbol of a text carries the text. -/
@[simp] theorem text_symbol (t : NameTable) (text : String) : (t.symbol text).text = text := by
  cases found : t.lookup text with
  | some s =>
      have same := ((t.lookup_eq_some_iff text s).1 found).2.1
      simpa [symbol, intern, found] using same
  | none => simp [symbol, intern, found]

/-- The symbol of a text that the table holds was issued by the table, which has that text at its
place. -/
theorem issued_symbol (h : text ∈ t.texts) :
    (t.symbol text).owner = t.owner ∧
      t.texts[(t.symbol text).index]? = some (t.symbol text).text := by
  cases found : t.lookup text with
  | none => exact absurd h ((t.lookup_eq_none_iff text).1 found)
  | some s =>
      obtain ⟨owner, same, place, -⟩ := (t.lookup_eq_some_iff text s).1 found
      have symbol : t.symbol text = s := by rw [NameTable.symbol, intern, found]
      rw [symbol, same]
      exact ⟨owner, place⟩

/-- Two symbols that a table finds are the same name exactly when their texts are equal. -/
theorem same_iff_of_lookup {s s' : Symbol} (h : t.lookup text = some s)
    (h' : t.lookup name = some s') : s.same s' = true ↔ text = name := by
  obtain ⟨owner, -, place, -⟩ := (t.lookup_eq_some_iff text s).1 h
  obtain ⟨owner', -, place', -⟩ := (t.lookup_eq_some_iff name s').1 h'
  constructor
  · intro same
    have index : s.index = s'.index := congrArg Prod.snd (of_decide_eq_true same)
    rw [index, place'] at place
    exact (Option.some.inj place).symm
  · rintro rfl
    rw [h, Option.some.injEq] at h'
    rw [h']
    exact decide_eq_true rfl

/-- **Finding symbols and resolving them are inverse to each other** in a table that holds no text
twice. -/
theorem lookup_eq_some_iff_resolve (once : t.texts.Nodup) (text : String) (s : Symbol) :
    t.lookup text = some s ↔ t.resolve s = some text ∧ s.text = text := by
  rw [lookup_eq_some_iff, resolve]
  constructor
  · rintro ⟨owner, same, place, -⟩
    rw [if_pos owner]
    exact ⟨place, same⟩
  · rintro ⟨resolved, same⟩
    by_cases owner : s.owner = t.owner
    · rw [if_pos owner] at resolved
      obtain ⟨inside, found⟩ := List.getElem?_eq_some_iff.1 resolved
      refine ⟨owner, same, resolved, fun early => ?_⟩
      obtain ⟨i, hi, at_i⟩ := List.mem_iff_getElem.1 early
      rw [List.length_take] at hi
      rw [List.getElem_take, ← found] at at_i
      exact List.pairwise_iff_getElem.1 once i s.index (by omega) inside (by omega) at_i
    · rw [if_neg owner] at resolved
      cases resolved

end PlainC.NameTable
