import LintDelta.Text.Lowercase

/-!
# Failure policies

What becomes of a contrast when a single file cannot be linted.
-/

namespace LintDelta

/-- What to do about a file that cannot be linted. -/
inductive Policy where
  | abort
  /-- Note the failure and leave the file out. -/
  | degrade
  deriving DecidableEq, Repr

namespace Policy

def label : Policy → String
  | abort => "abort"
  | degrade => "degrade"

def all : List Policy := [abort, degrade]

/-- The policy of a name in any case, or what to say about it. -/
def parse (s : String) : Except String Policy :=
  match Text.lowercase s with
  | "abort" => .ok abort
  | "degrade" => .ok degrade
  | other => .error ("unknown failure policy '" ++ other ++ "', expected 'degrade' or 'abort'")

end Policy

end LintDelta
