import LintDelta.Recording

/-!
# The command line

Runs the program on a recording that it reads from standard input. The report goes to standard
output, notices and errors go to the error stream.
-/

namespace LintDelta.CommandLine

def filterVariable : String := "RUST_LOG"

def colorVariable : String := "CLICOLOR_FORCE"

def printNotices (trace : List Event) : IO Unit :=
  trace.forM fun event => do
    match event with
    | .notice n => IO.eprintln n.line
    | _ => pure ()

def finish (ending : Ending) : IO UInt32 := do
  IO.print ending.output
  IO.eprint ending.complaint
  return UInt32.ofNat ending.exitCode

def runRecording (words : List String) (recording : Recording) : IO UInt32 := do
  let host := recording.host (← IO.getEnv filterVariable) (← IO.getEnv colorVariable)
  let (ending, session) := run host words recording.repository
  printNotices session.trace
  finish ending

def runText (words : List String) (text : String) : IO UInt32 := do
  match Recording.readText text with
  | .ok recording => runRecording words recording
  | .error e => finish (.error ("unreadable recording: " ++ e.message))

end LintDelta.CommandLine

open LintDelta.CommandLine in
/-- The recording is read only if the command line asks for a contrast. -/
def main (words : List String) : IO UInt32 := do
  match Invocation.parse words with
  | .error halt => finish (Ending.ofHalt halt)
  | .ok _ => runText words (← (← IO.getStdin).readToEnd)
