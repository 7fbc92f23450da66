/-
**A session answers as if every request were the first.**

The requests of a session share one name table, and every request leaves in it the names that it
met, also when it stops at a fault.  So the place of a name in the table depends on what was asked
before.  Nothing else does: with the texts of the names for their symbols, an answer is the one that
a new session with the options in force and an empty table gives.  And the symbols of all answers
come from the one table, which has issued one for each text, so that names from different answers
can be compared.

Main definitions:

* `PlainC.Session.optionsAfter` — the options in force after some requests;
* `PlainC.Session.Answer.Agrees` — answers that are the same but for the numbers of symbols;
* `PlainC.Session.Answer.names` — the symbols in the tree of an answer.

Main results:

* `PlainC.Source.names_subset_of_read` — every name in a tree was met when its source was read;
* `PlainC.Session.perform_agrees` — sessions with the same options agree on every request;
* `PlainC.Session.performAll_answers` — **every answer of a session is the answer to that request
  alone, and its names are the same as those of other answers exactly when their texts are**.
-/

import PlainC.Proofs.Conservation.Names
import PlainC.Session

set_option relaxedAutoImplicit false
set_option autoImplicit false

namespace PlainC

/-! ### Names that were met -/

/-- Every name in the tree that a source is read as was met on the way. -/
theorem Source.names_subset_of_read {α : Type} {x : Parser α} {goal : Goal} {node : α → Node String}
    (whole : ∀ r : Reader, r.call (Parser.whole goal) = ((r.call x).1.map node, (r.call x).2))
    {options : Options} {source : Source} {a : α} (ok : (source.read x options).result = .ok a) :
    (node a).names ⊆ (source.read x options).names := by
  unfold read at ok ⊢
  cases opened : Reader.ofSource options source with
  | error d =>
      rw [opened] at ok
      cases ok
  | ok r =>
      rw [opened] at ok
      have found : (r.call x).1 = .ok a := ok
      have called := whole r
      rw [found] at called
      have read : (r.call (Parser.whole goal)).1 = .ok (node a) := by
        rw [called]
        rfl
      have noted := r.names_subset_of_call read
      rwa [called] at noted

/-- A symbol that a table put into a tree for a name that it took in is found under its text. -/
theorem NameTable.lookup_of_mem_names {t : NameTable} {texts : List String} {tree : Node String}
    (noted : tree.names ⊆ texts) {x : Symbol}
    (hx : x ∈ (tree.map (t.internAll texts).symbol).names) :
    (t.internAll texts).lookup x.text = some x := by
  rw [Node.names_map] at hx
  obtain ⟨text, member, rfl⟩ := List.mem_map.1 hx
  obtain ⟨s, found⟩ := exists_lookup_internAll (t := t) (noted member)
  have issued : (t.internAll texts).symbol text = s := by rw [symbol, intern, found]
  rw [text_symbol, issued, found]

namespace Session

/-! ### Answers compared by the texts of their names -/

/-- The options in force after some requests. -/
def optionsAfter (options : Options) (requests : List Request) : Options :=
  requests.foldl
    (fun options request =>
      match request with
      | .set option value => options.set option value
      | .program _ | .tokens _ | .expression _ => options)
    options

/-- Answers that are the same, with the same faults, when symbols are told apart by their texts. -/
inductive Answer.Agrees : Answer → Answer → Prop
  | program {result result' : Except Stop (Program Symbol)} (tokenCount : Nat)
      (same : result.map (Program.map Symbol.text) = result'.map (Program.map Symbol.text)) :
      Agrees (.program result tokenCount) (.program result' tokenCount)
  | tokens (scan : Scan) : Agrees (.tokens scan) (.tokens scan)
  | expression {result result' : Except Stop (Expr Symbol)}
      (same : result.map (Expr.map Symbol.text) = result'.map (Expr.map Symbol.text)) :
      Agrees (.expression result) (.expression result')
  | options (inForce : Options) : Agrees (.options inForce) (.options inForce)

/-- The symbols in the tree of an answer, if it has one. -/
def Answer.names : Answer → List Symbol
  | .program (.ok tree) _ => (Node.program tree).names
  | .expression (.ok tree) => (Node.expression tree).names
  | .program (.error _) _ | .expression (.error _) | .tokens _ | .options _ => []

/-- With texts for symbols again, a tree is the one that was read: nothing of the table is left. -/
theorem map_text_interned {α β : Type} {rename : (String → Symbol) → α → β} {texts : β → α}
    (back : ∀ f a, (∀ name, (f name).text = name) → texts (rename f a) = a) (o : Outcome α)
    (t : NameTable) : ((o.interned rename t).2).map texts = o.result := by
  cases found : o.result with
  | error stop =>
      rw [Outcome.interned, found]
      rfl
  | ok a =>
      rw [Outcome.interned, found]
      exact congrArg Except.ok (back _ a (NameTable.text_symbol _))

theorem program_back (f : String → Symbol) (p : Program String)
    (kept : ∀ name, (f name).text = name) : (p.map f).map Symbol.text = p := by
  rw [Program.map_map, show Symbol.text ∘ f = id from funext kept, Program.map_id]

theorem expression_back (f : String → Symbol) (e : Expr String)
    (kept : ∀ name, (f name).text = name) : (e.map f).map Symbol.text = e := by
  rw [Expr.map_map, show Symbol.text ∘ f = id from funext kept, Expr.map_id]

/-! ### One request -/

variable {s s' : Session}

theorem perform_options (s : Session) (r : Request) :
    (s.perform r).1.options = optionsAfter s.options [r] := by
  cases r <;> rfl

/-- Sessions with the same options agree on every request, whatever names they have met. -/
theorem perform_agrees (same : s.options = s'.options) (r : Request) :
    (s.perform r).2.Agrees (s'.perform r).2 := by
  cases r with
  | program source =>
      have read := map_text_interned program_back (source.read Parser.program s.options) s.names
      have read' := map_text_interned program_back (source.read Parser.program s'.options) s'.names
      rw [same] at read
      simp only [perform, same]
      exact .program _ (read.trans read'.symm)
  | tokens source => exact .tokens source.scan
  | expression text =>
      let outcome := (Source.ofExpression text).read Parser.wholeExpression {}
      have read := map_text_interned expression_back outcome s.names
      have read' := map_text_interned expression_back outcome s'.names
      exact .expression (read.trans read'.symm)
  | set option value =>
      simp only [perform, same]
      exact .options _

/-- The symbols of an answer are found in the table that the request leaves. -/
theorem lookup_of_mem_perform {r : Request} {x : Symbol} (hx : x ∈ (s.perform r).2.names) :
    (s.perform r).1.names.lookup x.text = some x := by
  rw [perform_names]
  cases r with
  | program source =>
      cases read : (source.read Parser.program s.options).result with
      | error stop =>
          simp [perform, Outcome.interned, read, Answer.names, Except.map] at hx
      | ok tree =>
          have noted := Source.names_subset_of_read Reader.call_whole_program read
          simp only [perform, Outcome.interned, read, Except.map, Answer.names] at hx
          exact NameTable.lookup_of_mem_names noted hx
  | expression text =>
      cases read : ((Source.ofExpression text).read Parser.wholeExpression {}).result with
      | error stop =>
          simp [perform, Outcome.interned, read, Answer.names, Except.map] at hx
      | ok tree =>
          have noted := Source.names_subset_of_read Reader.call_whole_expression read
          simp only [perform, Outcome.interned, read, Except.map, Answer.names] at hx
          exact NameTable.lookup_of_mem_names noted hx
  | tokens source => cases hx
  | set option value => cases hx

/-! ### Any number of requests -/

theorem length_performAll (s : Session) (requests : List Request) :
    (s.performAll requests).2.length = requests.length := by
  induction requests generalizing s with
  | nil => rfl
  | cons r more ih => simp [performAll, ih]

/-- The answer to a request is the one that a session with the same options and no earlier requests
gives. -/
theorem performAll_agrees (s s' : Session) {requests : List Request} {i : Nat} {r : Request}
    (asked : requests[i]? = some r)
    (same : s'.options = optionsAfter s.options (requests.take i)) :
    ∃ answer, (s.performAll requests).2[i]? = some answer ∧ answer.Agrees (s'.perform r).2 := by
  induction requests generalizing s i with
  | nil => cases asked
  | cons first more ih =>
      cases i with
      | zero =>
          cases asked
          exact ⟨_, rfl, perform_agrees same.symm r⟩
      | succ i =>
          have behind : s'.options = optionsAfter (s.perform first).1.options (more.take i) := by
            rw [same, perform_options]
            rfl
          exact ih (s.perform first).1 asked behind

/-- Requests only add to the table. -/
theorem exists_performAll_names (s : Session) (requests : List Request) :
    ∃ texts, (s.performAll requests).1.names = s.names.internAll texts := by
  induction requests generalizing s with
  | nil => exact ⟨[], rfl⟩
  | cons r more ih =>
      obtain ⟨texts, grown⟩ := ih (s.perform r).1
      refine ⟨r.names s.options ++ texts, ?_⟩
      rw [NameTable.internAll_append, ← perform_names]
      exact grown

/-- The symbols of all answers are found in the table that is left at the end. -/
theorem lookup_of_mem_performAll {requests : List Request} {answer : Answer}
    (given : answer ∈ (s.performAll requests).2) {x : Symbol} (hx : x ∈ answer.names) :
    (s.performAll requests).1.names.lookup x.text = some x := by
  induction requests generalizing s with
  | nil => cases given
  | cons r more ih =>
      rcases List.mem_cons.1 given with rfl | behind
      · -- later requests keep the symbols that the table has issued
        obtain ⟨texts, grown⟩ := exists_performAll_names (s.perform r).1 more
        have kept := NameTable.lookup_internAll (lookup_of_mem_perform hx) texts
        rw [← grown] at kept
        exact kept
      · exact ih behind

/-- **A session answers every request as if it were the first.**  Whatever was asked before, and
whether or not that came to a fault, the answer to a request is the one that a new session with the
options then in force and an empty table gives: the same tokens and the same number of them, the
same fault, or the same tree with the same texts for its names.  And names from any two answers are
the same symbol exactly when they have the same text. -/
theorem performAll_answers (s : Session) (requests : List Request) :
    (s.performAll requests).2.length = requests.length ∧
    (∀ i r, requests[i]? = some r → ∃ answer : Answer,
      (s.performAll requests).2[i]? = some answer ∧ ∀ owner, answer.Agrees
        ((Session.mk (optionsAfter s.options (requests.take i)) (.empty owner)).perform r).2) ∧
    ∀ answer ∈ (s.performAll requests).2, ∀ answer' ∈ (s.performAll requests).2,
      ∀ x ∈ answer.names, ∀ y ∈ answer'.names, x.same y = true ↔ x.text = y.text := by
  refine ⟨length_performAll s requests, ?_, ?_⟩
  · intro i r asked
    let alone (owner : Nat) : Session :=
      ⟨optionsAfter s.options (requests.take i), .empty owner⟩
    obtain ⟨answer, found, -⟩ := performAll_agrees s (alone 0) asked rfl
    refine ⟨answer, found, fun owner => ?_⟩
    obtain ⟨answer', found', agrees⟩ := performAll_agrees s (alone owner) asked rfl
    rw [found', Option.some.injEq] at found
    rwa [found] at agrees
  · intro answer given answer' given' x hx y hy
    exact NameTable.same_iff_of_lookup (lookup_of_mem_performAll given hx)
      (lookup_of_mem_performAll given' hy)

/-- A program that ends too early, and behind it `x + y` and `int x;` with the prototypes switched
off: the names of the first one stand in front of `x` in the table. -/
theorem performAll_answers_behind_fault :
    let last := Request.program ⟨"b.c", "int x;"⟩
    let requests := [.program ⟨"a.c", "int f(int y) \x7b return y"⟩, .expression "x + y",
      .set .allowPrototypes false, last]
    let answers := ((⟨{}, .empty 0⟩ : Session).performAll requests).2
    answers.map (fun answer => answer.names.map Symbol.index) = [[], [2, 0], [], [2]] ∧
    ∃ answer, answers[3]? = some answer ∧
      answer.Agrees ((⟨{ allowPrototypes := false }, .empty 0⟩ : Session).perform last).2 ∧
      ∀ answer' ∈ answers, ∀ x ∈ answer.names, ∀ y ∈ answer'.names,
        x.same y = true ↔ x.text = y.text := by
  intro last requests answers
  obtain ⟨-, alone, same⟩ := performAll_answers ⟨{}, .empty 0⟩ requests
  obtain ⟨answer, given, agrees⟩ := alone 3 last rfl
  refine ⟨by decide +kernel, answer, given, agrees 0, ?_⟩
  intro answer' given'
  exact same answer (List.mem_of_getElem? given) answer' given'

end Session

end PlainC
