/-
**Any number of tables in use at once.**

Operations on several tables come in any order.  What a table holds is told by its own issues alone:
the texts that were interned in it, each of them once, in the order of their first interning.  A
symbol means its text in the table that issued it, at any later time, and nothing in any other
table.  So two symbols are the same name exactly when one table issued both of them for one text.

Main definitions:

* `PlainC.Registry.Issue`, `PlainC.Registry.issues` — the symbols that were issued in a run, with
  their tables and their texts;
* `PlainC.Registry.textsIn` — the texts that were interned in a table;
* `PlainC.Registry.Holds`, `PlainC.Registry.AnswersFor` — what a table holds after some issues,
  and how it answers.

Main results:

* `PlainC.Registry.Records.perform` — every operation keeps account of the issues;
* `PlainC.Registry.performAll_issues` — **what is answered is told by the issues**.
-/

import Mathlib.Data.Finset.Card
import PlainC.Proofs.Naming.Table

set_option relaxedAutoImplicit false
set_option autoImplicit false

namespace PlainC

namespace Registry

/-! ### Issues -/

/-- A symbol that a table issued for a text. -/
structure Issue where
  on : Nat
  text : String
  symbol : Symbol
deriving Repr, DecidableEq

/-- The issue that an operation with its answer is, if it is one. -/
def issue? : Request × Answer → Option Issue
  | (.intern on text, .issued symbol) => some ⟨on, text, symbol⟩
  | _ => none

/-- The issues in a run of operations, in order. -/
def issues (r : Registry) (requests : List Request) : List Issue :=
  (requests.zip (r.performAll requests).2).filterMap issue?

/-- The texts that were interned in the table of a number, in order. -/
def textsIn (on : Nat) (found : List Issue) : List String :=
  (found.filter fun i => i.on = on).map Issue.text

theorem mem_textsIn {on : Nat} {text : String} {found : List Issue} :
    text ∈ textsIn on found ↔ ∃ s, (⟨on, text, s⟩ : Issue) ∈ found := by
  simp only [textsIn, List.mem_map, List.mem_filter, decide_eq_true_eq]
  constructor
  · rintro ⟨⟨_, _, s⟩, ⟨member, rfl⟩, rfl⟩
    exact ⟨s, member⟩
  · rintro ⟨s, member⟩
    exact ⟨_, ⟨member, rfl⟩, rfl⟩

theorem textsIn_append (on : Nat) (found more : List Issue) :
    textsIn on (found ++ more) = textsIn on found ++ textsIn on more := by
  simp [textsIn]

/-! ### One operation -/

section

variable {r : Registry} {on : Nat} {t : NameTable}

theorem perform_intern (there : r.tables[on]? = some t) (text : String) :
    r.perform (.intern on text) =
      (⟨r.tables.set on (t.intern text).1⟩, .issued (t.intern text).2) := by
  simp [perform, there]

theorem perform_lookup (there : r.tables[on]? = some t) (text : String) :
    r.perform (.lookup on text) = (r, .found (t.lookup text)) := by
  simp [perform, there]

theorem perform_contains (there : r.tables[on]? = some t) (text : String) :
    r.perform (.contains on text) = (r, .member (t.contains text)) := by
  simp [perform, there]

theorem perform_resolve (there : r.tables[on]? = some t) (symbol : Symbol) :
    r.perform (.resolve on symbol) =
      (r, ((t.resolve symbol).map Answer.text).getD (.foreign symbol)) := by
  cases resolved : t.resolve symbol <;> simp [perform, there, resolved]

end

/-- An operation issues a symbol, or it adds a table, or it changes nothing. -/
theorem perform_cases (r : Registry) (request : Request) :
    (∃ on t text, request = .intern on text ∧ r.tables[on]? = some t ∧
      r.perform request = (⟨r.tables.set on (t.intern text).1⟩, .issued (t.intern text).2)) ∨
    (issue? (request, (r.perform request).2) = none ∧
      ((r.perform request).1 = r ∨
        (r.perform request).1 = ⟨r.tables ++ [NameTable.empty r.tables.length]⟩)) := by
  cases request with
  | create => exact .inr ⟨rfl, .inr rfl⟩
  | intern on text =>
      cases there : r.tables[on]? with
      | none => exact .inr (by simp [perform, there, issue?])
      | some t => exact .inl ⟨on, t, text, rfl, there, perform_intern there text⟩
  | lookup on text =>
      cases there : r.tables[on]? with
      | none => exact .inr (by simp [perform, there, issue?])
      | some t => exact .inr (by simp [perform_lookup there, issue?])
  | contains on text =>
      cases there : r.tables[on]? with
      | none => exact .inr (by simp [perform, there, issue?])
      | some t => exact .inr (by simp [perform_contains there, issue?])
  | resolve on symbol =>
      cases there : r.tables[on]? with
      | none => exact .inr (by simp [perform, there, issue?])
      | some t => exact .inr (by simp [perform_resolve there, issue?])

/-- A table is still there after an operation, with the texts that it had in front. -/
theorem exists_perform {r : Registry} {on : Nat} {t : NameTable} (there : r.tables[on]? = some t)
    (request : Request) :
    ∃ t', (r.perform request).1.tables[on]? = some t' ∧ t.texts <+: t'.texts := by
  rcases r.perform_cases request with ⟨n, u, text, rfl, there', done⟩ | ⟨-, same | added⟩
  · rw [done]
    by_cases same : n = on
    · subst same
      rw [there, Option.some.injEq] at there'
      subst there'
      refine ⟨_, List.getElem?_set_self (List.getElem?_eq_some_iff.1 there).1, ?_⟩
      rw [t.texts_intern]
      split
      · exact List.prefix_refl _
      · exact List.prefix_append _ _
    · exact ⟨t, (List.getElem?_set_ne same).trans there, List.prefix_refl _⟩
  · rw [same]
    exact ⟨t, there, List.prefix_refl _⟩
  · rw [added]
    have inside : on < r.tables.length := (List.getElem?_eq_some_iff.1 there).1
    exact ⟨t, (List.getElem?_append_left inside).trans there, List.prefix_refl _⟩

/-! ### Runs -/

/-- A table is still there after a run, with the texts that it had in front. -/
theorem exists_performAll {r : Registry} {on : Nat} {t : NameTable}
    (there : r.tables[on]? = some t) (requests : List Request) :
    ∃ t', (r.performAll requests).1.tables[on]? = some t' ∧ t.texts <+: t'.texts := by
  induction requests generalizing r t with
  | nil => exact ⟨t, there, List.prefix_refl _⟩
  | cons request more ih =>
      obtain ⟨u, between, first⟩ := exists_perform there request
      obtain ⟨t', last, rest⟩ := ih between
      exact ⟨t', last, first.trans rest⟩

theorem issues_cons (r : Registry) (request : Request) (more : List Request) :
    r.issues (request :: more) =
      (issue? (request, (r.perform request).2)).toList ++ (r.perform request).1.issues more := by
  simp only [issues, performAll, List.zip_cons_cons, List.filterMap_cons]
  cases issue? (request, (r.perform request).2) <;> rfl

theorem issues_append (r : Registry) (earlier later : List Request) :
    r.issues (earlier ++ later) = r.issues earlier ++ (r.performAll earlier).1.issues later := by
  induction earlier generalizing r with
  | nil => rfl
  | cons request earlier ih =>
      rw [List.cons_append, issues_cons, issues_cons, ih, List.append_assoc]
      rfl

/-! ### One table -/

/-- The table of a number holds what was interned in it: each text once, in the order of their first
interning. -/
structure Holds (found : List Issue) (on : Nat) (t : NameTable) : Prop where
  owner : t.owner = on
  texts : t.texts = (textsIn on found).eraseDups
  once : t.texts.Nodup

namespace Holds

variable {found : List Issue} {on : Nat} {t : NameTable}

/-- An issue of another table changes nothing. -/
theorem append_other (h : Holds found on t) {i : Issue} (other : i.on ≠ on) :
    Holds (found ++ [i]) on t := by
  have none : textsIn on [i] = [] := by simp [textsIn, other]
  refine ⟨h.owner, ?_, h.once⟩
  rw [textsIn_append, none, List.append_nil]
  exact h.texts

theorem intern (h : Holds found on t) (text : String) :
    Holds (found ++ [⟨on, text, (t.intern text).2⟩]) on (t.intern text).1 := by
  have issue : textsIn on [⟨on, text, (t.intern text).2⟩] = [text] := by simp [textsIn]
  refine ⟨(t.owner_intern text).trans h.owner, ?_, ?_⟩
  · have known : text ∈ textsIn on found ↔ text ∈ t.texts := by rw [h.texts, List.mem_eraseDups]
    rw [t.texts_intern, textsIn_append, issue, List.eraseDups_append, ← h.texts,
      List.cons_removeAll]
    by_cases before : text ∈ t.texts
    · simp [before, known.2 before]
    · simp [before, mt known.1 before, List.eraseDups_cons]
  · rw [t.texts_intern]
    split
    · exact h.once
    · rename_i absent
      rw [List.nodup_append]
      refine ⟨h.once, List.nodup_singleton text, ?_⟩
      intro a ha b hb same
      rw [List.mem_singleton] at hb
      exact absent (hb ▸ same ▸ ha)

/-- The size of a table is the number of different texts that were interned in it. -/
theorem size_eq_card (h : Holds found on t) : t.size = (textsIn on found).toFinset.card := by
  have same : t.texts.toFinset = (textsIn on found).toFinset := by
    ext text
    rw [List.mem_toFinset, List.mem_toFinset, h.texts, List.mem_eraseDups]
  rw [← same, List.toFinset_card_of_nodup h.once]
  rfl

end Holds

/-! ### Keeping account -/

/-- The tables of a registry are those that some issues have made of tables without names. -/
structure Records (r : Registry) (found : List Issue) : Prop where
  holds : ∀ on t, r.tables[on]? = some t → Holds found on t
  issued : ∀ i ∈ found, ∃ t, r.tables[i.on]? = some t ∧ t.lookup i.text = some i.symbol

namespace Records

variable {r : Registry} {found : List Issue}

/-- A table that does not exist has issued nothing. -/
theorem textsIn_eq_nil (h : Records r found) {on : Nat} (none : r.tables.length ≤ on) :
    textsIn on found = [] := by
  rw [List.eq_nil_iff_forall_not_mem]
  intro text member
  obtain ⟨s, issued⟩ := mem_textsIn.1 member
  obtain ⟨t, there, -⟩ := h.issued _ issued
  rw [List.getElem?_eq_none none] at there
  cases there

/-- A new table has no names. -/
theorem create (h : Records r found) :
    Records ⟨r.tables ++ [NameTable.empty r.tables.length]⟩ found := by
  constructor
  · intro on t there
    rw [List.getElem?_append] at there
    split at there
    · exact h.holds on t there
    · rename_i beyond
      rw [List.getElem?_singleton] at there
      split at there
      · have last : on = r.tables.length := by omega
        subst last
        cases there
        refine ⟨rfl, ?_, List.Pairwise.nil⟩
        rw [h.textsIn_eq_nil (Nat.le_refl _)]
        rfl
      · cases there
  · intro i member
    obtain ⟨t, there, issued⟩ := h.issued i member
    have inside : i.on < r.tables.length := (List.getElem?_eq_some_iff.1 there).1
    exact ⟨t, (List.getElem?_append_left inside).trans there, issued⟩

/-- A table in which a text is interned has one issue more, and the others are as they were. -/
theorem intern (h : Records r found) {on : Nat} {t : NameTable} (there : r.tables[on]? = some t)
    (text : String) :
    Records ⟨r.tables.set on (t.intern text).1⟩ (found ++ [⟨on, text, (t.intern text).2⟩]) := by
  have here : (r.tables.set on (t.intern text).1)[on]? = some (t.intern text).1 :=
    List.getElem?_set_self (List.getElem?_eq_some_iff.1 there).1
  have others : ∀ n, on ≠ n → (r.tables.set on (t.intern text).1)[n]? = r.tables[n]? := by
    intro n differs
    exact List.getElem?_set_ne differs
  constructor
  · intro n t' there'
    by_cases same : on = n
    · subst same
      rw [here, Option.some.injEq] at there'
      subst there'
      exact (h.holds on t there).intern text
    · rw [others n same] at there'
      exact (h.holds n t' there').append_other same
  · intro i member
    rcases List.mem_append.1 member with before | last
    · obtain ⟨t', there', issued⟩ := h.issued i before
      by_cases same : on = i.on
      · subst same
        rw [there, Option.some.injEq] at there'
        subst there'
        exact ⟨_, here, NameTable.lookup_intern issued text⟩
      · exact ⟨t', (others _ same).trans there', issued⟩
    · rw [List.mem_singleton] at last
      subst last
      exact ⟨_, here, t.lookup_intern_self text⟩

/-- **Every operation keeps account of the issues.** -/
theorem perform (h : Records r found) (request : Request) :
    Records (r.perform request).1 (found ++ (issue? (request, (r.perform request).2)).toList) := by
  rcases r.perform_cases request with ⟨on, t, text, rfl, there, done⟩ | ⟨none, same | added⟩
  · rw [done]
    exact h.intern there text
  · rw [none, same, Option.toList_none, List.append_nil]
    exact h
  · rw [none, added, Option.toList_none, List.append_nil]
    exact h.create

theorem performAll (h : Records r found) (requests : List Request) :
    Records (r.performAll requests).1 (found ++ r.issues requests) := by
  induction requests generalizing r found with
  | nil => simpa [issues, Registry.performAll] using h
  | cons request more ih =>
      rw [issues_cons, ← List.append_assoc]
      exact ih (h.perform request)

theorem initial : Records Registry.initial [] := by
  constructor
  · intro on t there
    rw [Registry.initial, List.getElem?_singleton] at there
    split at there
    · rename_i first
      subst first
      cases there
      exact ⟨rfl, rfl, List.Pairwise.nil⟩
    · cases there
  · intro i member
    cases member

/-- The symbol that a table finds for a text is the one that it issued. -/
theorem lookup_eq_some_iff_issued (h : Records r found) {on : Nat} {t : NameTable}
    (there : r.tables[on]? = some t) (text : String) (s : Symbol) :
    t.lookup text = some s ↔ (⟨on, text, s⟩ : Issue) ∈ found := by
  constructor
  · intro looked
    -- a text that the table holds was interned in it, and then found from there on
    have member : text ∈ t.texts := by
      by_contra absent
      rw [(t.lookup_eq_none_iff text).2 absent] at looked
      cases looked
    rw [(h.holds on t there).texts, List.mem_eraseDups, mem_textsIn] at member
    obtain ⟨s', issued⟩ := member
    obtain ⟨t', there', looked'⟩ := h.issued _ issued
    rw [there, Option.some.injEq] at there'
    subst there'
    rw [looked, Option.some.injEq] at looked'
    rwa [looked']
  · intro issued
    obtain ⟨t', there', looked⟩ := h.issued _ issued
    rw [there, Option.some.injEq] at there'
    rwa [there']

/-- Two issues are of the same name exactly when one table made both of them for one text. -/
theorem same_iff (h : Records r found) {i j : Issue} (hi : i ∈ found) (hj : j ∈ found) :
    i.symbol.same j.symbol = true ↔ i.on = j.on ∧ i.text = j.text := by
  obtain ⟨t, there, looked⟩ := h.issued i hi
  obtain ⟨t', there', looked'⟩ := h.issued j hj
  by_cases same : i.on = j.on
  · rw [← same, there, Option.some.injEq] at there'
    subst there'
    rw [NameTable.same_iff_of_lookup looked looked']
    exact ⟨fun texts => ⟨same, texts⟩, And.right⟩
  · have owner : i.symbol.owner = i.on :=
      ((t.lookup_eq_some_iff _ _).1 looked).1.trans (h.holds _ t there).owner
    have owner' : j.symbol.owner = j.on :=
      ((t'.lookup_eq_some_iff _ _).1 looked').1.trans (h.holds _ t' there').owner
    constructor
    · intro key
      have owners : i.symbol.owner = j.symbol.owner := congrArg Prod.fst (of_decide_eq_true key)
      rw [owner, owner'] at owners
      exact absurd owners same
    · rintro ⟨tables, -⟩
      exact absurd tables same

/-- An issued symbol means its text in its own table, and nothing in any other. -/
theorem perform_resolve (h : Records r found) {i : Issue} (hi : i ∈ found) {n : Nat}
    (inside : n < r.tables.length) :
    r.perform (.resolve n i.symbol) =
      (r, if n = i.on then .text i.text else .foreign i.symbol) := by
  obtain ⟨t, there, looked⟩ := h.issued i hi
  obtain ⟨owner, -, place, -⟩ := (t.lookup_eq_some_iff _ _).1 looked
  have there' : r.tables[n]? = some r.tables[n] := List.getElem?_eq_getElem inside
  have owner' := (h.holds n _ there').owner
  rw [Registry.perform_resolve there']
  by_cases same : n = i.on
  · have table : r.tables[n] = t := by
      subst same
      rw [there', Option.some.injEq] at there
      exact there
    rw [if_pos same, table, NameTable.resolve, if_pos owner, place]
    rfl
  · have foreign : i.symbol.owner ≠ r.tables[n].owner := by
      rw [owner, owner', (h.holds _ t there).owner]
      exact Ne.symm same
    rw [if_neg same, NameTable.resolve, if_neg foreign]
    rfl

end Records

/-! ### What is answered -/

/-- How the table of a number answers after some issues, and that looking something up there changes
nothing. -/
structure AnswersFor (r : Registry) (found : List Issue) (on : Nat) : Prop where
  intern : ∀ text, ∃ s, (r.perform (.intern on text)).2 = .issued s
  lookup : ∀ text, ∃ answer, r.perform (.lookup on text) = (r, .found answer) ∧
    ∀ s, answer = some s ↔ (⟨on, text, s⟩ : Issue) ∈ found
  contains : ∀ text,
    r.perform (.contains on text) = (r, .member (decide (text ∈ textsIn on found)))

theorem Records.answersFor {r : Registry} {found : List Issue} (h : Records r found) {on : Nat}
    {t : NameTable} (there : r.tables[on]? = some t) : AnswersFor r found on := by
  constructor
  · intro text
    exact ⟨_, congrArg Prod.snd (perform_intern there text)⟩
  · intro text
    exact ⟨_, perform_lookup there text, h.lookup_eq_some_iff_issued there text⟩
  · intro text
    rw [perform_contains there, NameTable.contains, List.contains_eq_mem,
      (h.holds on t there).texts]
    simp only [List.mem_eraseDups]

/-- **What is answered is told by the issues.**  Let any operations be performed, and further ones
later.  Each table holds what was interned in it, each text once and in the order of their first
interning; finding symbols and resolving them are inverse to each other; the table answers as its
issues tell, and has as many names as there are different texts.  Later it is still there, with the
same texts in front.  Two symbols issued at any time are the same name exactly when one table issued
both of them for one text.  A symbol that was issued is resolved at any later time to its text by
its own table, and is refused by every other one. -/
theorem performAll_issues (earlier later : List Request) :
    let r := (initial.performAll earlier).1
    let r' := (r.performAll later).1
    let before := initial.issues earlier
    let all := initial.issues (earlier ++ later)
    (∀ on t, r.tables[on]? = some t →
      Holds before on t ∧ AnswersFor r before on ∧
        (∀ text s, t.lookup text = some s ↔ t.resolve s = some text ∧ s.text = text) ∧
        t.size = (textsIn on before).toFinset.card ∧
        ∃ t', r'.tables[on]? = some t' ∧ t.texts <+: t'.texts ∧ t.size ≤ t'.size) ∧
    (∀ i ∈ all, ∀ j ∈ all,
      i.symbol.same j.symbol = true ↔ i.on = j.on ∧ i.text = j.text) ∧
    ∀ i ∈ before, ∀ n < r'.tables.length,
      r'.perform (.resolve n i.symbol) =
        (r', if n = i.on then .text i.text else .foreign i.symbol) := by
  intro r r' before all
  have atFirst : Records r before := by
    have run := Records.initial.performAll earlier
    rwa [List.nil_append] at run
  have atLast : Records r' all := by
    have run := atFirst.performAll later
    rwa [← issues_append] at run
  refine ⟨?_, ?_, ?_⟩
  · intro on t there
    have holds := atFirst.holds on t there
    obtain ⟨t', there', inFront⟩ := exists_performAll there later
    exact ⟨holds, atFirst.answersFor there, t.lookup_eq_some_iff_resolve holds.once,
      holds.size_eq_card, t', there', inFront, inFront.length_le⟩
  · intro i hi j hj
    exact atLast.same_iff hi hj
  · intro i hi n inside
    have member : i ∈ all := by
      unfold all
      rw [issues_append]
      exact List.mem_append_left _ hi
    exact atLast.perform_resolve member inside

/-- Two tables that both know `x`, and the symbols of `x` and `y` of the second one, which is asked
for them after further names. -/
theorem performAll_issues_two_tables :
    let earlier : List Request := [.create, .intern 0 "x", .intern 1 "y", .intern 1 "x",
      .intern 1 "y"]
    let later : List Request := [.intern 0 "y", .lookup 1 "z", .intern 1 "z"]
    let r := (initial.performAll earlier).1
    let r' := (r.performAll later).1
    let x : Issue := ⟨1, "x", ⟨1, 1, "x"⟩⟩
    let y : Issue := ⟨1, "y", ⟨1, 0, "y"⟩⟩
    r = ⟨[⟨0, ["x"]⟩, ⟨1, ["y", "x"]⟩]⟩ ∧ x ∈ initial.issues earlier ∧ y ∈ initial.issues earlier ∧
      (⟨1, ["y", "x"]⟩ : NameTable).size = (textsIn 1 (initial.issues earlier)).toFinset.card ∧
      x.symbol.same y.symbol = false ∧ r'.perform (.resolve 1 y.symbol) = (r', .text "y") ∧
      r'.perform (.resolve 0 y.symbol) = (r', .foreign y.symbol) := by
  intro earlier later r r' x y
  obtain ⟨tables, same, resolved⟩ := performAll_issues earlier later
  have run : r = ⟨[⟨0, ["x"]⟩, ⟨1, ["y", "x"]⟩]⟩ := by decide
  have hx : x ∈ initial.issues earlier := by decide
  have hy : y ∈ initial.issues earlier := by decide
  obtain ⟨-, -, -, size, -⟩ := tables 1 ⟨1, ["y", "x"]⟩ (by decide)
  refine ⟨run, hx, hy, size, ?_, ?_, ?_⟩
  · rw [← Bool.not_eq_true, same x (by decide) y (by decide)]
    decide
  · exact resolved y hy 1 (by decide)
  · exact resolved y hy 0 (by decide)

end Registry

end PlainC
