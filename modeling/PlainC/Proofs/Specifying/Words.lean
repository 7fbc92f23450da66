/-
**The words that name a type.**

Words name a type whatever their order is.  A struct is named by a single word, and so are `void`
and `double`; an integer type is named by at most one of `signed` and `unsigned` together with
`char`, `int`, `long` or `long int`, and `int` may be left out behind one of the two.  No other
words name a type.

Main definitions:

* `PlainC.TypeWord.SignWords`, `PlainC.TypeWord.BaseWords` — the two parts of the name of an integer
  type;
* `PlainC.TypeWord.Row` — the words that name a type, in one of their orders;
* `PlainC.TypeWord.Names` — the words that name a type, in any order.

Main results:

* `PlainC.TypeWord.resolve_permutations` — every order of such a row is resolved;
* `PlainC.TypeWord.names_of_resolve` — what is resolved is such a row in some order;
* `PlainC.TypeWord.resolve_eq_ok_iff` — **words are resolved exactly if they name a type**;
* `PlainC.TypeWord.resolve_error` — the faults of words that name none.
-/

import PlainC.Specifier
import Mathlib.Data.List.Permutation

set_option relaxedAutoImplicit false
set_option autoImplicit false

namespace PlainC.TypeWord

/-! ### Names of types -/

/-- At most one of the two words for signs. -/
inductive SignWords : List (TypeWord String) → Prop
  | none : SignWords []
  | signed : SignWords [.signed]
  | unsigned : SignWords [.unsigned]

/-- The words for the base of an integer type. -/
inductive BaseWords : List (TypeWord String) → BaseType → Prop
  | char : BaseWords [.char] .char
  | int : BaseWords [.int] .int
  | long : BaseWords [.long] .long
  | longInt : BaseWords [.long, .int] .long

/-- The words that name a type, in one of their orders. -/
inductive Row : List (TypeWord String) → ResolvedType String → Prop
  | struct (name : String) : Row [.struct name] { base := .struct, structName := some name }
  | tagged (tag : Foreign) : Row [.tagged tag] { base := .struct, structName := some tag.text }
  | void : Row [.void] { base := .void }
  | double : Row [.double] { base := .double }
  | integer {signs words : List (TypeWord String)} {base : BaseType} : SignWords signs →
      BaseWords words base → Row (signs ++ words)
        { base := base, isUnsigned := decide (.unsigned ∈ signs),
          isSigned := decide (.signed ∈ signs) }
  | sign {signs : List (TypeWord String)} : SignWords signs → signs ≠ [] → Row signs
      { base := .int, isUnsigned := decide (.unsigned ∈ signs),
        isSigned := decide (.signed ∈ signs) }

/-- The words name the type, in any order. -/
def Names (words : List (TypeWord String)) (t : ResolvedType String) : Prop :=
  ∃ row, row.Perm words ∧ Row row t

variable {words words' row : List (TypeWord String)} {t : ResolvedType String} {w : TypeWord String}
variable {kinds : List (Option Kind)} {base : BaseType}

/-- The order of words does not matter for what they name. -/
theorem Names.perm (h : Names words t) (perm : words.Perm words') : Names words' t := by
  obtain ⟨row, order, named⟩ := h
  exact ⟨row, order.trans perm, named⟩

/-- A type is unsigned if it is named so. -/
theorem Names.isUnsigned_iff (h : Names words t) : t.isUnsigned ↔ .unsigned ∈ words := by
  obtain ⟨row, order, named⟩ := h
  rw [← order.mem_iff]
  cases named with
  | integer signs base => cases base <;> simp
  | _ => simp

/-- A type is marked as signed if it is named so. -/
theorem Names.isSigned_iff (h : Names words t) : t.isSigned ↔ .signed ∈ words := by
  obtain ⟨row, order, named⟩ := h
  rw [← order.mem_iff]
  cases named with
  | integer signs base => cases base <;> simp
  | _ => simp

/-! ### Names that are resolved -/

/-- A row is resolved in every order.  It has three words at most, so all its orders are tried. -/
theorem resolve_permutations (named : Row row t) :
    ∀ words ∈ row.permutations', resolve words = .ok t := by
  cases named with
  | struct name =>
      intro words order
      obtain rfl := List.perm_singleton.1 (List.mem_permutations'.1 order)
      exact resolve_struct name
  | tagged tag =>
      intro words order
      obtain rfl := List.perm_singleton.1 (List.mem_permutations'.1 order)
      simp [resolve, repeated?, same, kind?]
  | void | double => decide
  | integer signs base => cases signs <;> cases base <;> decide
  | sign signs filled =>
      cases signs with
      | none => exact absurd rfl filled
      | signed | unsigned => decide

/-- Words that name a type are resolved to it. -/
theorem Names.resolve (h : Names words t) : TypeWord.resolve words = .ok t := by
  obtain ⟨row, order, named⟩ := h
  exact resolve_permutations named words (List.mem_permutations'.2 order.symm)

/-! ### Repeated words -/

theorem repeated?_eq_none_iff :
    repeated? words = none ↔ ∀ w ∈ words, words.countP w.same ≤ 1 := by
  simp [repeated?]

/-- A word of the language is the same as the words of its kind. -/
theorem same_of_kind {k : Kind} (h : w.kind? = some k) (v : TypeWord String) :
    w.same v = (v.kind? == some k) := by
  cases w with
  | foreign part => cases h
  | _ =>
      cases h
      cases v <;> rfl

/-- No kind of word occurs twice if none is repeated. -/
theorem count_kind_le (h : repeated? words = none) (k : Kind) :
    (words.map kind?).count (some k) ≤ 1 := by
  by_contra more
  have occurs : some k ∈ words.map kind? := List.count_pos_iff.1 (by omega)
  obtain ⟨w, hw, kind⟩ := List.mem_map.1 occurs
  have once := repeated?_eq_none_iff.1 h w hw
  have same : words.countP w.same = (words.map kind?).count (some k) := by
    rw [List.count, List.countP_map]
    exact List.countP_congr fun v _ => by rw [same_of_kind kind v]; rfl
  omega

/-! ### Words and their kinds -/

/-- Whether a word is a word of the language that takes no name. -/
def isBare (w : TypeWord String) : Bool := w.kind?.any (· ≠ .struct)

/-- The word of a kind that takes no name. -/
def ofKind (k : Option Kind) : TypeWord String := (k.bind (ofKind? · none)).getD .void

theorem ofKind_kind (bare : w.isBare) : ofKind w.kind? = w := by
  cases w <;> first | rfl | cases bare

/-- A row of words without names is told, up to its order, by the kinds of the words. -/
theorem perm_of_kinds (bare : row.all isBare) (h : (row.map kind?).Perm (words.map kind?)) :
    row.Perm words := by
  have bareWords : ∀ w ∈ words, w.isBare := by
    intro w hw
    have among : w.kind? ∈ row.map kind? := h.symm.subset (List.mem_map_of_mem hw)
    obtain ⟨v, hv, same⟩ := List.mem_map.1 among
    rw [isBare, ← same]
    exact List.all_eq_true.1 bare v hv
  have back {ws : List (TypeWord String)} (bare : ∀ w ∈ ws, w.isBare) :
      (ws.map kind?).map ofKind = ws := by
    rw [List.map_map]
    exact (List.map_congr_left fun w hw => ofKind_kind (bare w hw)).trans (List.map_id ws)
  have mapped := h.map ofKind
  rwa [back (List.all_eq_true.1 bare), back bareWords] at mapped

theorem SignWords.all_isBare {signs : List (TypeWord String)} (h : SignWords signs) :
    signs.all isBare := by
  cases h <;> rfl

theorem BaseWords.all_isBare (h : BaseWords row base) : row.all isBare := by
  cases h <;> rfl

/-! ### The signs and the rest -/

/-- Whether a kind of word is not one of the two for signs. -/
def notSign (k : Option Kind) : Bool := k ≠ some .signed && k ≠ some .unsigned

/-- The only member of a row that is wanted, and that occurs once, is all that is kept of it. -/
theorem filter_eq_singleton {k : Option Kind} (wanted : Option Kind → Bool)
    (only : ∀ k' ∈ kinds, wanted k' → k' = k) (mem : k ∈ kinds) (want : wanted k)
    (once : kinds.count k ≤ 1) : kinds.filter wanted = [k] := by
  have all : ∀ k' ∈ kinds.filter wanted, k' = k := by
    intro k' hk'
    obtain ⟨mem', want'⟩ := List.mem_filter.1 hk'
    exact only k' mem' want'
  have row := List.eq_replicate_of_mem all
  have count : (kinds.filter wanted).count k = kinds.count k := List.count_filter want
  have pos := List.count_pos_iff.2 mem
  have length : (kinds.filter wanted).length = 1 := by
    rw [row, List.count_replicate_self] at count
    omega
  rw [row, length]
  rfl

/-- The words for signs among words that are not repeated, if there are not both of them. -/
theorem exists_signs (h : repeated? words = none)
    (notBoth : ¬ (some .unsigned ∈ words.map kind? ∧ some .signed ∈ words.map kind?)) :
    ∃ signs, SignWords signs ∧
      (words.map kind?).filter (fun k => !notSign k) = signs.map kind? ∧
      (words.map kind?).contains (some .unsigned) = decide (TypeWord.unsigned ∈ signs) ∧
      (words.map kind?).contains (some .signed) = decide (TypeWord.signed ∈ signs) := by
  have oneOf : ∀ k, (!notSign k) = true ↔ k = some .signed ∨ k = some .unsigned := by
    intro k
    simp [notSign, or_iff_not_imp_left]
  by_cases unsigned : some .unsigned ∈ words.map kind?
  · have noSigned : some .signed ∉ words.map kind? := fun signed => notBoth ⟨unsigned, signed⟩
    refine ⟨[.unsigned], .unsigned, ?_, ?_, ?_⟩
    · refine filter_eq_singleton _ ?_ unsigned rfl (count_kind_le h .unsigned)
      intro k hk sign
      rcases (oneOf k).1 sign with rfl | rfl
      · exact absurd hk noSigned
      · rfl
    · simpa using unsigned
    · simpa using noSigned
  · by_cases signed : some .signed ∈ words.map kind?
    · refine ⟨[.signed], .signed, ?_, ?_, ?_⟩
      · refine filter_eq_singleton _ ?_ signed rfl (count_kind_le h .signed)
        intro k hk sign
        rcases (oneOf k).1 sign with rfl | rfl
        · rfl
        · exact absurd hk unsigned
      · simpa using unsigned
      · simpa using signed
    · refine ⟨[], .none, ?_, by simpa using unsigned, by simpa using signed⟩
      refine List.filter_eq_nil_iff.2 fun k hk sign => ?_
      rcases (oneOf k).1 sign with rfl | rfl
      · exact signed hk
      · exact unsigned hk

/-- The words that are left beside the ones for signs. -/
theorem words_of_baseOf {signs : Bool} (h : baseOf signs kinds = some base) :
    (kinds = [] ∧ base = .int) ∨ (∃ row, BaseWords row base ∧ kinds.Perm (row.map kind?)) ∨
      (signs = false ∧
        ∃ row, Row row { base := base } ∧ row.all isBare ∧ kinds.Perm (row.map kind?)) := by
  unfold baseOf at h
  split at h
  · cases signs
    · cases h
      exact .inr (.inr ⟨rfl, [.void], .void, rfl, .refl _⟩)
    · cases h
  · cases signs
    · cases h
      exact .inr (.inr ⟨rfl, [.double], .double, rfl, .refl _⟩)
    · cases h
  · cases h
    exact .inr (.inl ⟨[.char], .char, .refl _⟩)
  · cases h
    exact .inr (.inl ⟨[.long], .long, .refl _⟩)
  · cases h
    exact .inr (.inl ⟨[.long, .int], .longInt, .refl _⟩)
  · cases h
    exact .inr (.inl ⟨[.long, .int], .longInt, .swap ..⟩)
  · cases h
    exact .inl ⟨rfl, rfl⟩
  · cases h
    exact .inr (.inl ⟨[.int], .int, .refl _⟩)
  · cases h

/-! ### What is resolved -/

/-- What is known of words that are resolved and are not a lone struct. -/
structure Resolves (words : List (TypeWord String)) (t : ResolvedType String) : Prop where
  filled : words ≠ []
  once : repeated? words = none
  notBoth : ¬ (some .unsigned ∈ words.map kind? ∧ some .signed ∈ words.map kind?)
  isUnsigned : t.isUnsigned = (words.map kind?).contains (some .unsigned)
  isSigned : t.isSigned = (words.map kind?).contains (some .signed)
  structName : t.structName = none
  base : baseOf (t.isUnsigned || t.isSigned) ((words.map kind?).filter notSign) = some t.base

theorem Resolves.of_resolve (h : resolve words = .ok t) (other : ∀ w, words = [w] → ¬ w.isStruct) :
    Resolves words t := by
  unfold resolve at h
  split at h
  · cases h
  · cases h
  · exact absurd rfl (other _ rfl)
  · exact absurd rfl (other _ rfl)
  · rename_i filled _ _ once
    dsimp only at h
    split at h
    · cases h
    · split at h
      · cases h
      · rename_i notBoth
        split at h
        · rename_i base found
          cases h
          refine ⟨filled, once, ?_, rfl, rfl, rfl, found⟩
          simpa [List.contains_iff_mem] using notBoth
        · cases h

/-- Words that are resolved are a row that names the type, in some order. -/
theorem names_of_resolve (h : resolve words = .ok t) : Names words t := by
  by_cases lone : ∃ w, words = [w] ∧ w.isStruct
  · obtain ⟨w, rfl, struct⟩ := lone
    cases w with
    | struct name =>
        rw [resolve_struct] at h
        cases h
        exact ⟨_, .refl _, .struct name⟩
    | tagged tag =>
        cases h
        exact ⟨_, .refl _, .tagged tag⟩
    | _ => cases struct
  · have resolved := Resolves.of_resolve h fun w same struct => lone ⟨w, same, struct⟩
    obtain ⟨signs, signWords, kept, unsigned, signed⟩ := exists_signs resolved.once resolved.notBoth
    have parts : (signs.map kind? ++ (words.map kind?).filter notSign).Perm (words.map kind?) := by
      rw [← kept]
      exact List.perm_append_comm.trans (List.filter_append_perm notSign _)
    obtain ⟨base, isUnsigned, isSigned, structName⟩ := t
    obtain rfl : isUnsigned = decide (TypeWord.unsigned ∈ signs) :=
      resolved.isUnsigned.trans unsigned
    obtain rfl : isSigned = decide (TypeWord.signed ∈ signs) := resolved.isSigned.trans signed
    obtain rfl : structName = none := resolved.structName
    rcases words_of_baseOf resolved.base with
      ⟨empty, rfl⟩ | ⟨row, named, order⟩ | ⟨unsignedBase, row, named, bare, order⟩
    · rw [empty, List.append_nil] at parts
      have order := perm_of_kinds signWords.all_isBare parts
      refine ⟨signs, order, .sign signWords ?_⟩
      rintro rfl
      exact resolved.filled order.nil_eq.symm
    · have whole : ((signs ++ row).map kind?).Perm (words.map kind?) := by
        rw [List.map_append]
        exact (order.symm.append_left _).trans parts
      refine ⟨signs ++ row, perm_of_kinds ?_ whole, .integer signWords named⟩
      rw [List.all_append, signWords.all_isBare, named.all_isBare]
      rfl
    · have whole := (order.symm.append_left (signs.map kind?)).trans parts
      cases signWords with
      | none => exact ⟨row, perm_of_kinds bare whole, named⟩
      | signed | unsigned => simp at unsignedBase

/-- **Words are resolved exactly if they name a type**, and to this type. -/
theorem resolve_eq_ok_iff : resolve words = .ok t ↔ Names words t :=
  ⟨names_of_resolve, Names.resolve⟩

/-- Without any word there is nothing to resolve; any other words that name no type are not
supported. -/
theorem resolve_error {fault : Fault} (h : resolve words = .error fault) :
    (words = [] ∧ fault = .misfit .nothingToResolve) ∨
      (words ≠ [] ∧ ∃ construct, fault = .unsupported construct) := by
  cases words with
  | nil =>
      cases h
      exact .inl ⟨rfl, rfl⟩
  | cons w words =>
      refine .inr ⟨List.cons_ne_nil _ _, ?_⟩
      unfold resolve at h
      split at h
      · rename_i empty
        cases empty
      · cases h
        exact ⟨_, rfl⟩
      · cases h
      · cases h
      · dsimp only at h
        split at h
        · cases h
          exact ⟨_, rfl⟩
        · split at h
          · cases h
            exact ⟨_, rfl⟩
          · split at h <;> cases h
            exact ⟨_, rfl⟩

end PlainC.TypeWord
