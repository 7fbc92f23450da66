/-
**The command line.**

The command checks one file against the language and can list its tokens or its tree.  Arguments
that begin with a hyphen are options; short ones can be joined behind one hyphen, and `--` makes
everything behind it a file name.  A mistake in the options is reported before anything else is
done, and a request for the version or for help comes before a mistake in the number of files.

Messages are for a reader: if they do not go to a terminal, the sequences that would steer one are
taken out of them.  A trace is a record and is written as it is.

A source with an integer that is too long to be converted, or a tree with one that is too long to be
written, breaks the check off with the exit code of a fault.  There is no message for it.

Main definitions:

* `PlainC.CommandLine.Flags`, `PlainC.CommandLine.Action`, `PlainC.CommandLine.Action.ofArguments` —
  what the arguments ask for;
* `PlainC.CommandLine.Report` — what is written, and the exit code;
* `PlainC.CommandLine.Report.outputText`, `PlainC.CommandLine.Report.errorText` — the two outputs;
* `PlainC.CommandLine.check` — the checking of a file.

Main results:

* `PlainC.CommandLine.check_exitCode` — the exit code of a check is zero or one;
* `PlainC.CommandLine.shown_cons` — lines are shown one by one.
-/

import PlainC.Source
import PlainC.Text.Control
import PlainC.Tree.Listing

set_option relaxedAutoImplicit false
set_option autoImplicit false

namespace PlainC.CommandLine

/-! ### Arguments -/

/-- The options of the command that take part in a check. -/
structure Flags where
  tokens : Bool := false
  tree : Bool := false
  noPrototypes : Bool := false
  noEmptyStructs : Bool := false
  verbose : Bool := false
deriving Repr, DecidableEq

/-- What the arguments ask for. -/
inductive Action where
  | check (flags : Flags) (path : String)
  | version
  | help
  | misuse
deriving Repr, DecidableEq

/-- An argument by its meaning. -/
inductive Argument where
  | flag (change : Flags → Flags)
  | request (action : Action)
  | path (text : String)
  | unknown

/-- The option with a long name. -/
def longOption : String → Argument
  | "--tokens" => .flag fun f => { f with tokens := true }
  | "--ast" => .flag fun f => { f with tree := true }
  | "--no-prototypes" => .flag fun f => { f with noPrototypes := true }
  | "--no-empty-structs" => .flag fun f => { f with noEmptyStructs := true }
  | "--verbose" => .flag fun f => { f with verbose := true }
  | "--version" => .request .version
  | "--help" => .request .help
  | _ => .unknown

/-- The option with a short name. -/
def shortOption : Char → Argument
  | 'v' => .flag fun f => { f with verbose := true }
  | _ => .unknown

/-- The meaning of one argument: a lone hyphen is a file name. -/
def meaning (argument : String) : List Argument :=
  match argument.toList with
  | '-' :: '-' :: _ => [longOption argument]
  | '-' :: c :: cs => (c :: cs).map shortOption
  | _ => [.path argument]

/-- The meanings of the arguments in order; behind `--` all are file names. -/
def meanings : List String → List Argument
  | [] => []
  | "--" :: paths => paths.map .path
  | argument :: more => meaning argument ++ meanings more

/-- What the arguments ask for. -/
def Action.ofArguments (arguments : List String) : Action :=
  let found := meanings arguments
  let flags := found.foldl (fun f a => match a with | .flag change => change f | _ => f) {}
  let paths := found.filterMap fun | .path text => some text | _ => none
  if found.any fun | .unknown => true | _ => false then .misuse
  else
    -- a request is granted even if the file is missing
    match found.findSome? fun | .request action => some action | _ => none with
    | some action => action
    | none =>
        match paths with
        | [path] => .check flags path
        | _ => .misuse

/-! ### Paths -/

/-- The parts of a path between its slashes. -/
def pathParts (path : String) : List String :=
  ((path.toList.splitBy fun a b => (a == '/') == (b == '/')).map String.ofList).filter
    fun part => !part.startsWith "/"

/-- A path without empty and idle parts. -/
def shownPath (path : String) : String :=
  let parts := (pathParts path).filter (· ≠ ".")
  let shown := "/".intercalate parts
  let start := path.toList.takeWhile (· = '/')
  if start = [] then (if shown = "" then "." else shown)
  else (if start.length = 2 then "//" else "/") ++ shown

/-! ### Checking -/

/-- What is written, and the exit code.  The lines of `output` go to the first output; those of
`trace` and then those of `errors` go to the second. -/
structure Report where
  exitCode : Nat
  output : List String := []
  trace : List String := []
  errors : List String := []
deriving Repr, DecidableEq

/-- The lines of one output, each with its end. -/
def unlines (lines : List String) : String := String.join (lines.map (· ++ "\n"))

/-- A message as it is shown: anywhere but on a terminal without its control sequences. -/
def shownMessage (terminal : Bool) (message : String) : String :=
  if terminal then message else String.ofList (Text.withoutControls message.toList)

/-- Lines of messages as they are shown. -/
def shown (terminal : Bool) (lines : List String) : String := shownMessage terminal (unlines lines)

/-- Lines are shown one by one. -/
theorem shown_cons (terminal : Bool) (line : String) (lines : List String) :
    shown terminal (line :: lines) =
      shownMessage terminal line ++ "\n" ++ shown terminal lines := by
  have whole : unlines (line :: lines) = line ++ "\n" ++ unlines lines := by
    simp [unlines]
  cases terminal with
  | true => simp [shown, shownMessage, whole]
  | false =>
      have byLine := Text.withoutControls_append_newline line.toList (unlines lines).toList
      simp [shown, shownMessage, whole, byLine, ← String.toList_inj]

/-- What is written to the first output. -/
def Report.outputText (r : Report) (terminal : Bool) : String := shown terminal r.output

/-- What is written to the second output. -/
def Report.errorText (r : Report) (terminal : Bool) : String :=
  unlines r.trace ++ shown terminal r.errors

/-- The options for a check with the given flags. -/
def Flags.options (f : Flags) : Options :=
  { allowPrototypes := !f.noPrototypes, allowEmptyStructs := !f.noEmptyStructs }

/-- Lists the tokens of a source. -/
def listTokens (s : Source) : Report :=
  match s.scan with
  | .broken _ diagnostic => { exitCode := 1, errors := [diagnostic.message] }
  | .overlong _ _ => { exitCode := 1 }
  | .complete tokens ending =>
      { exitCode := 0, output := (tokens ++ [ending]).map Token.listing }

/-- The lines for a stop. -/
def stopLines : Stop → List String
  | .fault diagnostic => [diagnostic.message]
  | .overlong _ => []
  | .exhausted => ["error: out of budget"]

/-- Reads a source as a program and lists what the flags ask for. -/
def listProgram (f : Flags) (s : Source) : Report :=
  let trace := if f.verbose then (s.trace f.options).map ("DEBUG: " ++ ·) else []
  match (s.read Parser.program f.options).result with
  | .error stop => { exitCode := 1, trace := trace, errors := stopLines stop }
  | .ok program =>
      match if f.tree then program.lines id else .ok [] with
      | .error _ => { exitCode := 1, trace := trace }
      | .ok tree =>
          let counts :=
            if f.verbose then
              ["Tokenized: " ++ toString (s.tokenCount?.getD 0) ++ " tokens",
               "Parsed: " ++ toString program.units.length ++ " top-level declarations"]
            else []
          { exitCode := 0, output := tree ++ counts ++ ["OK " ++ s.file], trace := trace }

/-- Checks a file with the given path and bytes. -/
def check (f : Flags) (path : String) (bytes : List UInt8) : Report :=
  let shown := shownPath path
  let report :=
    match Source.ofBytes shown bytes with
    | .error defect =>
        { exitCode := 1
          errors := ["Error: " ++ shown ++ " is not valid UTF-8 (" ++ defect.reason.text
            ++ " at byte " ++ toString defect.start ++ ")"] }
    | .ok source => if f.tokens then listTokens source else listProgram f source
  if f.verbose then { report with output := ("Parsing " ++ shown ++ "...") :: report.output }
  else report

/-- The exit code of a check is zero or one. -/
theorem check_exitCode (f : Flags) (path : String) (bytes : List UInt8) :
    (check f path bytes).exitCode ≤ 1 := by
  have tokens (s : Source) : (listTokens s).exitCode ≤ 1 := by
    unfold listTokens
    split <;> simp
  have program (s : Source) : (listProgram f s).exitCode ≤ 1 := by
    unfold listProgram
    simp only
    split
    · simp
    · split <;> simp
  unfold check
  simp only
  split <;> split
  · simp
  · split <;> simp [tokens, program]
  · simp
  · split <;> simp [tokens, program]

/-! ### Fixed answers -/

/-- The answer to a request for the version. -/
def versionReport : Report := { exitCode := 0, output := ["cparse, version 0.1.0"] }

/-- The answer to a request for help. -/
def helpReport : Report :=
  { exitCode := 0
    output :=
      ["Usage: cparse [OPTIONS] INPUT_FILE", "", "  Parse a C subset source file.", "", "Options:",
       "  --tokens            Print the token stream and exit",
       "  --ast               Print the parsed tree",
       "  --no-prototypes     Reject function declarations without a body",
       "  --no-empty-structs  Reject struct definitions with no members",
       "  -v, --verbose       Verbose output",
       "  --version           Show the version and exit.",
       "  --help              Show this message and exit."] }

/-- The answer to arguments that make no sense, and to a path without a file. -/
def misuseReport : Report :=
  { exitCode := 2
    errors := ["Usage: cparse [OPTIONS] INPUT_FILE", "Try 'cparse --help' for help."] }

end PlainC.CommandLine
