/-
**Sessions.**

A session reads one source after another.  It keeps the options that are in force and one name
table, so that a name that occurs in several sources is the same symbol in all of them.  The names
that were met in front of a fault stay in the table.

Main definitions:

* `PlainC.OptionName`, `PlainC.Options.set` — the options by name;
* `PlainC.Session`, `PlainC.Session.Request`, `PlainC.Session.perform` — a session, and what can be
  asked of it.

Main results:

* `PlainC.Session.perform_names` — a request changes the table by the names that were met, and by
  nothing else.
-/

import PlainC.Source

set_option relaxedAutoImplicit false
set_option autoImplicit false

namespace PlainC

/-! ### Options by name -/

/-- The names of the options. -/
inductive OptionName where
  | allowPrototypes | allowEmptyStructs | wrapBodies
deriving Repr, DecidableEq

/-- The options with one of them changed. -/
def Options.set (o : Options) : OptionName → Bool → Options
  | .allowPrototypes, value => { o with allowPrototypes := value }
  | .allowEmptyStructs, value => { o with allowEmptyStructs := value }
  | .wrapBodies, value => { o with wrapBodies := value }

/-! ### Sessions -/

/-- The options in force, and the names met so far. -/
structure Session where
  options : Options := {}
  names : NameTable
deriving Repr, DecidableEq

namespace Session

/-- What can be asked of a session. -/
inductive Request where
  | program (source : Source)
  | tokens (source : Source)
  | expression (text : String)
  | set (option : OptionName) (value : Bool)
deriving Repr, DecidableEq

/-- What a session answers. -/
inductive Answer where
  | program (result : Except Stop (Program Symbol)) (tokenCount : Nat)
  | tokens (scan : Scan)
  | expression (result : Except Stop (Expr Symbol))
  | options (inForce : Options)

/-- The names that a request meets, in order. -/
def Request.names (options : Options) : Request → List String
  | .program source => (source.read Parser.program options).names
  | .expression text => ((Source.ofExpression text).read Parser.wholeExpression {}).names
  | .tokens _ | .set _ _ => []

/-- Performs a request.  An expression is read with the usual options, whatever is in force. -/
def perform (s : Session) : Request → Session × Answer
  | .program source =>
      let (names, result) := (source.read Parser.program s.options).interned Program.map s.names
      ({ s with names := names }, .program result (source.tokenCount?.getD 0))
  | .tokens source => (s, .tokens source.scan)
  | .expression text =>
      let (names, result) :=
        ((Source.ofExpression text).read Parser.wholeExpression {}).interned Expr.map s.names
      ({ s with names := names }, .expression result)
  | .set option value =>
      let options := s.options.set option value
      ({ s with options := options }, .options options)

/-- Performs requests in order, with the answer to each. -/
def performAll (s : Session) : List Request → Session × List Answer
  | [] => (s, [])
  | request :: more =>
      let (s', answer) := s.perform request
      let (last, answers) := s'.performAll more
      (last, answer :: answers)

/-- A request changes the table by the names that were met, and by nothing else. -/
theorem perform_names (s : Session) (r : Request) :
    (s.perform r).1.names = s.names.internAll (r.names s.options) := by
  cases r <;> rfl

end Session

end PlainC
