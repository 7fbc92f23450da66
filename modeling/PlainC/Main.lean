/-
**The command.**

The outer layer of the command line: it fetches the bytes of the file, writes what the check reports
and hands back the exit code.

Main definitions:

* `PlainC.CommandLine.respond` — the report for some arguments;
* `main` — the command.
-/

import PlainC.CommandLine

set_option relaxedAutoImplicit false
set_option autoImplicit false

namespace PlainC.CommandLine

/-- The report for some arguments; a file that cannot be fetched is a misuse. -/
def respond (arguments : List String) : IO Report := do
  match Action.ofArguments arguments with
  | .version => return versionReport
  | .help => return helpReport
  | .misuse => return misuseReport
  | .check flags path =>
      try
        let bytes ← IO.FS.readBinFile path
        return check flags path bytes.toList
      catch _ => return misuseReport

end PlainC.CommandLine

/-- Checks the file that the arguments name. -/
def main (arguments : List String) : IO UInt32 := do
  let report ← PlainC.CommandLine.respond arguments
  let output ← IO.getStdout
  let errors ← IO.getStderr
  output.putStr (report.outputText (← output.isTty))
  errors.putStr (report.errorText (← errors.isTty))
  return report.exitCode.toUInt32
