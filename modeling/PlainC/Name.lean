/-
**Names and the tables that issue them.**

A name in a finished tree is a symbol: a handle that a name table issued for a text.  Two symbols
are the same name when the same table issued them at the same place, so names are compared without
looking at their texts.  Several tables can be in use at once, and a symbol of one means nothing to
another.

Main definitions:

* `PlainC.Symbol` — a handle: its table, its place in the table, and its text;
* `PlainC.NameTable` — the texts of a table in the order of their first interning;
* `PlainC.NameTable.intern`, `PlainC.NameTable.lookup`, `PlainC.NameTable.resolve` — the symbol of a
  text, the symbol if there is one, and the text of a symbol;
* `PlainC.NameTable.internAll` — the table after interning some texts in order;
* `PlainC.Registry`, `PlainC.Registry.perform` — any number of tables, and the operations on them.

Main results:

* `PlainC.NameTable.lookup_eq_some_iff` — a symbol is found exactly when the table holds its text
  at its place, and nowhere before;
* `PlainC.NameTable.resolve_intern` — a symbol resolves to the text that it was issued for;
* `PlainC.NameTable.intern_of_mem` — interning a text that is in the table changes nothing.
-/

import PlainC.Text.Quoted

set_option relaxedAutoImplicit false
set_option autoImplicit false

namespace PlainC

/-! ### Symbols -/

/-- The handle of an interned name: the table that issued it, its place there, and the text, which
is kept for printing only. -/
structure Symbol where
  owner : Nat
  index : Nat
  text : String
deriving Repr, DecidableEq

/-- What identifies a symbol: its table and its place. -/
def Symbol.key (s : Symbol) : Nat × Nat := (s.owner, s.index)

/-- A symbol as it stands in a listing. -/
def Symbol.listing (s : Symbol) : String := "Symbol(" ++ Text.quoted s.text ++ ")"

/-- Whether two symbols are the same name. -/
def Symbol.same (a b : Symbol) : Bool := a.key = b.key

/-! ### Name tables -/

/-- A table of names, identified by its number: the texts in the order of their first interning. -/
structure NameTable where
  owner : Nat
  texts : List String
deriving Repr, DecidableEq

namespace NameTable

/-- The table with number `owner`, without any name. -/
def empty (owner : Nat) : NameTable := ⟨owner, []⟩

/-- The number of names in the table. -/
def size (t : NameTable) : Nat := t.texts.length

/-- Whether a text has been interned. -/
def contains (t : NameTable) (text : String) : Bool := t.texts.contains text

/-- The symbol of a text, if the text has been interned. -/
def lookup (t : NameTable) (text : String) : Option Symbol :=
  (t.texts.idxOf? text).map fun index => ⟨t.owner, index, text⟩

/-- The symbol of a text, and the table that holds it: an unknown text is added at the end. -/
def intern (t : NameTable) (text : String) : NameTable × Symbol :=
  match t.lookup text with
  | some symbol => (t, symbol)
  | none => (⟨t.owner, t.texts ++ [text]⟩, ⟨t.owner, t.texts.length, text⟩)

/-- The table after interning the texts in order. -/
def internAll (t : NameTable) (texts : List String) : NameTable :=
  texts.foldl (fun t text => (t.intern text).1) t

/-- The symbol that the table has, or would issue next, for a text. -/
def symbol (t : NameTable) (text : String) : Symbol := (t.intern text).2

/-- The text of a symbol; `none` for one that this table did not issue. -/
def resolve (t : NameTable) (s : Symbol) : Option String :=
  if s.owner = t.owner then t.texts[s.index]? else none

/-- A symbol is found exactly when the table holds its text at its place, and nowhere before. -/
theorem lookup_eq_some_iff (t : NameTable) (text : String) (s : Symbol) :
    t.lookup text = some s ↔
      s.owner = t.owner ∧ s.text = text ∧ t.texts[s.index]? = some text ∧
        text ∉ t.texts.take s.index := by
  obtain ⟨owner, index, name⟩ := s
  simp only [lookup, Option.map_eq_some_iff, Symbol.mk.injEq, List.idxOf?,
    List.findIdx?_eq_some_iff_getElem, beq_iff_eq]
  constructor
  · rintro ⟨i, ⟨inside, found, first⟩, rfl, rfl, rfl⟩
    refine ⟨rfl, rfl, by simp [found, inside], fun early => ?_⟩
    obtain ⟨j, hj, at_j⟩ := List.mem_iff_getElem.1 early
    simp only [List.length_take] at hj
    exact first j (by omega) (by simpa using at_j)
  · rintro ⟨rfl, rfl, found, first⟩
    obtain ⟨inside, found⟩ := List.getElem?_eq_some_iff.1 found
    refine ⟨index, ⟨inside, found, fun j hj same => first ?_⟩, rfl, rfl, rfl⟩
    exact List.mem_iff_getElem.2 ⟨j, by simp; omega, by simpa using same⟩

/-- A text is found exactly when it is in the table. -/
theorem lookup_eq_none_iff (t : NameTable) (text : String) :
    t.lookup text = none ↔ text ∉ t.texts := by
  simp only [lookup, List.idxOf?, Option.map_eq_none_iff, List.findIdx?_eq_none_iff,
    beq_eq_false_iff_ne]
  constructor
  · intro absent member
    exact absent text member rfl
  · intro absent other member same
    exact absent (same ▸ member)

/-- Interning a text that is in the table changes nothing. -/
theorem intern_of_mem {t : NameTable} {text : String} (h : text ∈ t.texts) :
    (t.intern text).1 = t := by
  cases found : t.lookup text with
  | some s => simp [intern, found]
  | none => exact absurd h ((t.lookup_eq_none_iff text).1 found)

/-- A symbol resolves to the text that it was issued for. -/
theorem resolve_intern (t : NameTable) (text : String) :
    (t.intern text).1.resolve (t.intern text).2 = some text := by
  cases found : t.lookup text with
  | some s =>
      obtain ⟨owner, -, place, -⟩ := (t.lookup_eq_some_iff text s).1 found
      simp [intern, found, resolve, owner, place]
  | none => simp [intern, found, resolve]

end NameTable

/-! ### Several tables -/

/-- Name tables in use, numbered in the order of their creation. -/
structure Registry where
  tables : List NameTable
deriving Repr, DecidableEq

namespace Registry

/-- An operation on name tables; `on` is the number of a table. -/
inductive Request where
  | create
  | intern (on : Nat) (text : String)
  | lookup (on : Nat) (text : String)
  | contains (on : Nat) (text : String)
  | resolve (on : Nat) (symbol : Symbol)
deriving Repr, DecidableEq

/-- What an operation on name tables answers. -/
inductive Answer where
  | created (table : Nat)
  | issued (symbol : Symbol)
  | found (symbol : Option Symbol)
  | member (known : Bool)
  | text (text : String)
  /-- The symbol was issued by another table. -/
  | foreign (symbol : Symbol)
  /-- There is no table of that number. -/
  | noTable
deriving Repr, DecidableEq

/-- A registry with one table. -/
def initial : Registry := ⟨[NameTable.empty 0]⟩

/-- The wording of the refusal to resolve a symbol that another table issued. -/
def foreignText (s : Symbol) : String := s.listing ++ " was not issued by this interner"

/-- The numbers of names in the tables. -/
def sizes (r : Registry) : List Nat := r.tables.map NameTable.size

/-- Performs an operation. -/
def perform (r : Registry) : Request → Registry × Answer
  | .create => (⟨r.tables ++ [NameTable.empty r.tables.length]⟩, .created r.tables.length)
  | .intern on text =>
      match r.tables[on]? with
      | none => (r, .noTable)
      | some t => (⟨r.tables.set on (t.intern text).1⟩, .issued (t.intern text).2)
  | .lookup on text =>
      match r.tables[on]? with
      | none => (r, .noTable)
      | some t => (r, .found (t.lookup text))
  | .contains on text =>
      match r.tables[on]? with
      | none => (r, .noTable)
      | some t => (r, .member (t.contains text))
  | .resolve on symbol =>
      match r.tables[on]? with
      | none => (r, .noTable)
      | some t =>
          match t.resolve symbol with
          | some text => (r, .text text)
          | none => (r, .foreign symbol)

/-- Performs operations in order, with the answer to each. -/
def performAll (r : Registry) : List Request → Registry × List Answer
  | [] => (r, [])
  | request :: more =>
      let (r', answer) := r.perform request
      let (last, answers) := r'.performAll more
      (last, answer :: answers)

end Registry

end PlainC
