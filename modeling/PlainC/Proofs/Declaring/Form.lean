/-
**What was read as a declarator.**

A declarator is read in three parts, and each of them tells which lexemes stood there: the pointers
in front are stars, the core is a name or a declarator in parentheses, and every suffix is the
brackets of an array, unless it is a parameter list.  So what was read as a declarator of something
other than a function, with sizes that a shape can have, is a declarator as it is written.  From
then on it does not matter where it was read: the same lexemes are read in front of anything that
does not go on with them, and at the outermost level of a program just as anywhere else.

Main definitions:

* `PlainC.Layer.AllSound` — no layer of a row has a negative size;
* `PlainC.Declarator.Spelled` — the lexemes that a declarator was read off;
* `PlainC.Parser.SuffixTurn` — what one turn of the loop over the suffixes makes of a declarator.

Main results:

* `PlainC.Parser.exists_arrays` — suffixes without a parameter list are arrays;
* `PlainC.Parser.spelled_of_topDeclarator` — **what was read without parameters at the outermost
  level is a declarator as it is written**.
-/

import PlainC.Proofs.Conservation.Rules
import PlainC.Proofs.RoundTrip.Program

set_option relaxedAutoImplicit false
set_option autoImplicit false

namespace PlainC

/-- No layer of a row has a negative size. -/
def Layer.AllSound (layers : List (Layer Int)) : Prop :=
  ∀ layer ∈ layers, ∃ sound : Layer Nat, layer = sound.toInt

/-- The layers of a shape are sound. -/
theorem Shape.allSound_of_ofLayers {layers : List (Layer Int)} {shape : Shape}
    (h : ofLayers layers = .ok shape) : Layer.AllSound layers := by
  rw [(layers_of_ofLayers h).1]
  exact List.forall_mem_map.2 fun sound _ => ⟨sound, rfl⟩

/-- A declarator with a name is recognised behind an opening parenthesis. -/
theorem DeclaratorForm.opens_of_named {w : DeclaratorForm} (named : w.name.isSome) : w.opens := by
  rcases w with ⟨_ | n, _ | name, arrays⟩ | ⟨n, inner, arrays⟩ <;> first | rfl | cases named

/-- The lexemes between `p` and `q` are a declarator with a name, and `d` is what it stands for. -/
structure Declarator.Spelled (d : Declarator) (p q : Progress) (w : DeclaratorForm) : Prop where
  sound : w.isSound
  named : w.name.isSome
  stands : d.Stands w.name w.layers
  lexemes : p.lexemes = w.spelling ++ q.lexemes

namespace Parser

variable {s : Setting} {p q : Progress} {d : Declarator}
variable {list : Option (Parser (List (Declaration String)))} {inParentheses : Bool}

/-! ### Pointers -/

/-- What was read as pointers are stars. -/
theorem lexemes_of_pointers (hs : s.Closed) {layers : List (Layer Int)}
    (h : pointers s p = .ok layers q) :
    ∃ n, layers = List.replicate n ⟨.pointer, none⟩ ∧
      p.lexemes = List.replicate n (.punctuator .star) ++ q.lexemes := by
  -- every turn but the last reads a star and adds a pointer
  have whole := @loop_spells _ s Unit _ (fun layers _ => layers ++ [⟨.pointer, none⟩])
    (fun _ => [.punctuator .star]) (fun _ => True) (fun found p turn q read => ?_) _ _ _ _ h
  · obtain ⟨stars, -, rfl, left⟩ := whole
    refine ⟨stars.length, ?_, ?_⟩
    · simp [List.foldl_append_eq_append]
    · simpa [List.flatMap_def] using left
  · rw [pointerMark, accept_bind] at read
    split at read
    · rename_i star
      rw [if_pos rfl, current_bind] at read
      split at read
      · obtain ⟨_, _, stop, -⟩ := bind_eq_ok_iff.1 read
        exact absurd stop fail_ne_ok
      · obtain ⟨rfl, rfl⟩ := pure_eq_ok_iff.1 read
        exact .inr ⟨(), trivial, rfl, Progress.lexemes_eq_cons hs star (by simp)⟩
    · obtain ⟨rfl, rfl⟩ := pure_eq_ok_iff.1 read
      exact .inl ⟨rfl, rfl⟩

/-! ### Arrays -/

/-- What was read behind an opening bracket is the size of an array, or none, and the closing
one. -/
theorem lexemes_of_arraySuffix (hs : s.Closed) {layer : Layer Nat}
    (h : arraySuffix s p = .ok layer.toInt q) :
    ∃ size, layer = ⟨.array, size⟩ ∧
      p.lexemes = (DeclaratorForm.arraySpelling size).tail ++ q.lexemes := by
  obtain ⟨kind, size⟩ := layer
  rw [arraySuffix, accept_bind] at h
  split at h
  · rename_i close
    obtain ⟨same, rfl⟩ := pure_eq_ok_iff.1 h
    simp only [Layer.toInt, Layer.mk.injEq] at same
    obtain ⟨rfl, same⟩ := same
    obtain rfl := Option.map_eq_none_iff.1 same.symm
    exact ⟨none, rfl, Progress.lexemes_eq_cons hs close (by simp)⟩
  · simp only [Bool.false_eq_true, if_false, current_bind, lexeme_headD] at h
    cases front : p.front s with
    | number value =>
        simp only [front, bind_eq_ok_iff, advance_eq_ok_iff, expect_eq_ok_iff, pure_eq_ok_iff] at h
        obtain ⟨_, _, rfl, _, _, ⟨close, rfl⟩, same, rfl⟩ := h
        simp only [Layer.toInt, Layer.mk.injEq] at same
        obtain ⟨rfl, same⟩ := same
        obtain ⟨size, rfl, rfl⟩ := Option.map_eq_some_iff.1 same.symm
        refine ⟨some size, rfl, ?_⟩
        rw [Progress.lexemes_eq_cons hs front (by simp),
          Progress.lexemes_eq_cons hs close (by simp)]
        rfl
    | _ => simp [front] at h

/-- What one turn of the loop over the suffixes makes of a declarator: nothing where no suffix
stands, one more layer for the brackets of an array, or a function. -/
inductive SuffixTurn (d : Declarator) (p q : Progress) : ForInStep Declarator → Prop
  | stop : p = q → SuffixTurn d p q (.done d)
  | array (layer : Layer Int) :
      (∀ sound : Layer Nat, layer = sound.toInt → ∃ size, sound = ⟨.array, size⟩ ∧
        p.lexemes = DeclaratorForm.arraySpelling size ++ q.lexemes) →
      SuffixTurn d p q (.yield { d with layers := d.layers ++ [layer] })
  | function (parameters : List (Declaration String)) :
      SuffixTurn d p q (.yield { d with parameters := some parameters })

theorem declaratorSuffix_turn (hs : s.Closed) {turn : ForInStep Declarator}
    (h : declaratorSuffix list inParentheses d s p = .ok turn q) : SuffixTurn d p q turn := by
  rw [declaratorSuffix, current_bind, accept_bind] at h
  split at h
  · rename_i bracket
    rw [if_pos rfl] at h
    split at h
    · simp [bind_eq_ok_iff] at h
    · obtain ⟨layer, r, inside, rest⟩ := bind_eq_ok_iff.1 h
      obtain ⟨rfl, rfl⟩ := pure_eq_ok_iff.1 rest
      refine .array layer ?_
      rintro sound rfl
      obtain ⟨size, rfl, left⟩ := lexemes_of_arraySuffix hs inside
      refine ⟨size, rfl, ?_⟩
      rw [Progress.lexemes_eq_cons hs bracket (by simp), left]
      cases size <;> rfl
  · rw [if_neg Bool.false_ne_true, nextIs_bind] at h
    split at h
    · have function := Yields.holds
        (fun turn => ∃ parameters, turn = .yield { d with parameters := some parameters }) h ?_
      · obtain ⟨parameters, rfl⟩ := function
        exact .function parameters
      · refine .passed (.fail _ _) fun _ => ?_
        cases list with
        | none => exact .fail _ _
        | some x =>
            refine .passed (.fail _ _) fun _ => .skip fun _ => .skip fun parameters => ?_
            exact .pure ⟨parameters, rfl⟩
    · obtain ⟨rfl, rfl⟩ := pure_eq_ok_iff.1 h
      exact .stop rfl

/-- Suffixes without a parameter list are arrays. -/
theorem exists_arrays (hs : s.Closed) {core : Declarator}
    (h : loop (declaratorSuffix list inParentheses) core s p = .ok d q)
    (plain : d.parameters = none) (sound : Layer.AllSound d.layers) :
    core.parameters = none ∧ ∃ arrays : List (Option Nat),
      d = { core with layers := core.layers ++ arrays.map fun size => Layer.toInt ⟨.array, size⟩ } ∧
        p.lexemes = arrays.flatMap DeclaratorForm.arraySpelling ++ q.lexemes := by
  unfold loop budgeted at h
  generalize p.rest.length + 1 = n at h
  induction n generalizing core p with
  | zero => exact absurd h exhausted_ne_ok
  | succ n ih =>
      rcases iterate_succ_eq_ok_iff.1 h with last | ⟨c, r, turn, rest⟩
      · cases declaratorSuffix_turn hs last with
        | stop same => exact ⟨plain, [], by simp, by rw [same]; rfl⟩
      · obtain ⟨bare, arrays, rfl, left⟩ := ih rest
        cases declaratorSuffix_turn hs turn with
        | array layer here =>
            obtain ⟨inside, same⟩ := sound layer (by simp)
            obtain ⟨size, rfl, ahead⟩ := here inside same
            refine ⟨bare, size :: arrays, by simp [same], ?_⟩
            rw [ahead, left, List.flatMap_cons, List.append_assoc]
        | function parameters => cases bare

/-! ### Declarators -/

/-- The core of a declarator that must have a name is this name, or a declarator in parentheses. -/
theorem declaratorCore_eq_ok_named {nested : Parser Declarator} {core : Declarator × Bool}
    (h : declaratorCore nested false s p = .ok core q) :
    (∃ token name, token.lexeme = .identifier name ∧ p.front s = .identifier name ∧
        core.1 = { ident := some token } ∧ p.behind = q) ∨
      p.front s = .punctuator .parenOpen ∧ ∃ inner r, nested s p.behind = .ok inner r ∧
        r.front s = .punctuator .parenClose ∧ r.behind = q ∧
        core.1 = { ident := inner.ident, layers := inner.layers } := by
  rw [declaratorCore, current_bind] at h
  have same := lexeme_headD s p
  cases front : p.front s
  case identifier name =>
    rw [front] at same
    simp only [same] at h
    obtain ⟨_, _, past, h⟩ := bind_eq_ok_iff.1 h
    obtain ⟨rfl, rfl⟩ := pure_eq_ok_iff.1 h
    exact .inl ⟨_, name, same, rfl, rfl, advance_eq_ok_iff.1 past⟩
  all_goals
    rw [front] at same
    simp only [same] at h
    obtain ⟨second, _, next, h⟩ := bind_eq_ok_iff.1 h
    obtain ⟨rfl, rfl⟩ := ahead_eq_ok_iff.1 next
    split at h
    · rename_i opens
      obtain ⟨_, r, past, h⟩ := bind_eq_ok_iff.1 h
      obtain ⟨inner, r', read, h⟩ := bind_eq_ok_iff.1 h
      obtain ⟨_, _, close, h⟩ := bind_eq_ok_iff.1 h
      obtain ⟨rfl, rfl⟩ := pure_eq_ok_iff.1 h
      obtain rfl := advance_eq_ok_iff.1 past
      rw [Bool.and_eq_true, decide_eq_true_eq] at opens
      obtain ⟨closes, rfl⟩ := expect_eq_ok_iff.1 close
      exact .inr ⟨opens.1, inner, r', read, closes, rfl, rfl⟩
    · rw [if_neg Bool.false_ne_true] at h
      obtain ⟨_, _, stop, -⟩ := bind_eq_ok_iff.1 h
      exact absurd stop missing_ne_ok

/-- What was read as a declarator without parameters is a declarator as it is written, if this holds
of those in parentheses. -/
theorem spelled_of_declaratorWith (hs : s.Closed) {nested : Parser Declarator}
    (hn : ∀ {p d q}, nested s p = .ok d q → Layer.AllSound d.layers → ∃ w, d.Spelled p q w)
    (h : declaratorWith nested list false s p = .ok d q) (plain : d.parameters = none)
    (sound : Layer.AllSound d.layers) : ∃ w, d.Spelled p q w := by
  obtain ⟨outer, r, stars, h⟩ := bind_eq_ok_iff.1 h
  obtain ⟨core, r', inside, h⟩ := bind_eq_ok_iff.1 h
  obtain ⟨d', r'', suffixes, h⟩ := bind_eq_ok_iff.1 h
  obtain ⟨rfl, rfl⟩ := pure_eq_ok_iff.1 h
  obtain ⟨n, rfl, left⟩ := lexemes_of_pointers hs stars
  have sound' : Layer.AllSound d'.layers := fun l hl => sound l (List.mem_append_left _ hl)
  obtain ⟨-, arrays, rfl, left'⟩ := exists_arrays hs suffixes plain sound'
  rcases declaratorCore_eq_ok_named inside with
    ⟨token, name, same, front, whole, rfl⟩ | ⟨paren, inner, r₁, read, close, rfl, whole⟩
  · refine ⟨.direct n (some name) arrays, rfl, rfl, ⟨?_, ?_, plain⟩, ?_⟩
    · simp [whole, same, DeclaratorForm.name]
    · simp [whole, DeclaratorForm.layers, Layer.toInt]
    · rw [left, Progress.lexemes_eq_cons hs front (by simp), left', DeclaratorForm.spelling]
      simp
  · obtain ⟨w, spelled⟩ := hn read fun l hl => sound' l (by simp [whole, hl])
    refine ⟨.nested n w arrays, ?_, spelled.named, ⟨?_, ?_, plain⟩, ?_⟩
    · rw [DeclaratorForm.isSound, DeclaratorForm.opens_of_named spelled.named, spelled.sound]
      rfl
    · simpa [whole, DeclaratorForm.name] using spelled.stands.ident
    · simp [whole, spelled.stands.layers, DeclaratorForm.layers, Layer.toInt]
    · rw [left, Progress.lexemes_eq_cons hs paren (by simp), spelled.lexemes,
        Progress.lexemes_eq_cons hs close (by simp), left', DeclaratorForm.spelling]
      simp

/-- What was read as a declarator with a name is a declarator as it is written. -/
theorem spelled_of_declarator (hs : s.Closed) (h : declarator false s p = .ok d q)
    (sound : Layer.AllSound d.layers) : ∃ w, d.Spelled p q w := by
  refine (?_ : ∀ n {p d q}, declaratorWithin false n s p = .ok d q →
    Layer.AllSound d.layers → ∃ w, d.Spelled p q w) _ h sound
  intro n
  induction n with
  | zero => exact fun h => absurd h exhausted_ne_ok
  | succ n ih =>
      intro p d q h
      exact spelled_of_declaratorWith hs ih h (declaratorWithin_plain false (n + 1) p d q h)

/-- **What was read without parameters at the outermost level is a declarator as it is written.** -/
theorem spelled_of_topDeclarator (hs : s.Closed) (h : topDeclarator s p = .ok d q)
    (plain : d.parameters = none) (sound : Layer.AllSound d.layers) : ∃ w, d.Spelled p q w :=
  spelled_of_declaratorWith hs (spelled_of_declarator hs) h plain sound

end Parser

end PlainC
