import LintDelta.Path

/-!
# Failures

Why a contrast, or the linting of one file, did not succeed. A failure that concerns a single file
can be noted and passed over; any other ends the contrast.
-/

namespace LintDelta

inductive Failure where
  /-- The options, the range or the repository are not usable. -/
  | configuration (message : String)
  | git (message : String)
  /-- A tool is missing, or left no report that can be read. -/
  | lintTool (linter : String) (path : Path) (message : String)
  /-- A temporary file or a checkout failed. -/
  | resource (path : Path) (message : String)
  | io (message : String)
  deriving DecidableEq, Repr

namespace Failure

def message : Failure → String
  | configuration m => "configuration error: " ++ m
  | git m => "git error: " ++ m
  | lintTool linter path m => linter ++ " failed on '" ++ path.display ++ "': " ++ m
  | resource path m => "resource error for '" ++ path.display ++ "': " ++ m
  | io m => "IO error: " ++ m

/-- Whether a failure concerns a single file. -/
def isPerFile : Failure → Bool
  | lintTool .. | resource .. => true
  | configuration _ | git _ | io _ => false

/-- Reports a failure of a tool against another path than the one that the tool saw. -/
def attributeTo (path : Path) : Failure → Failure
  | lintTool linter _ m => lintTool linter path m
  | e => e

end Failure

end LintDelta
