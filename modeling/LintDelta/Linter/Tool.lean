import LintDelta.Text.Lowercase
import LintDelta.Text.Quoted

/-!
# Tools

The external linters that this library knows: what they are called, and whether they need the whole
project around the file that they lint.

Main statements: no two tools share a name.
-/

namespace LintDelta

inductive Tool where
  | pylint
  | flawfinder
  | hlint
  | ktlint
  | pmd
  | cppcheck
  | oclint
  deriving DecidableEq, Repr

namespace Tool

def all : List Tool := [pylint, flawfinder, hlint, ktlint, pmd, cppcheck, oclint]

/-- The name of the program, which is also the name by which a tool is chosen. -/
def command : Tool → String
  | pylint => "pylint"
  | flawfinder => "flawfinder"
  | hlint => "hlint"
  | ktlint => "ktlint"
  | pmd => "pmd"
  | cppcheck => "cppcheck"
  | oclint => "oclint"

/-- The name under which a tool reports its issues. -/
def title : Tool → String
  | pylint => "Pylint"
  | flawfinder => "flawfinder"
  | hlint => "HLint"
  | ktlint => "ktlint"
  | pmd => "PMD"
  | cppcheck => "Cppcheck"
  | oclint => "OCLint"

/-- Whether a tool needs the project around a file, as to resolve includes. -/
def needsCheckout : Tool → Bool
  | cppcheck | oclint => true
  | _ => false

def byName? (name : String) : Option Tool :=
  all.find? fun t => t.command == Text.lowercase name

def listing : String := String.intercalate ", " (all.map command)

/-- A tool as diagnostics show it, on one line or on several. -/
def inspect (t : Tool) (pretty : Bool) : String :=
  let name := "name: " ++ Text.quoted t.title
  let needs := "needs_checkout: " ++ (if t.needsCheckout then "true" else "false")
  if pretty then "Linter \x7b\n    " ++ name ++ ",\n    " ++ needs ++ ",\n\x7d"
  else "Linter \x7b " ++ name ++ ", " ++ needs ++ " \x7d"

theorem command_injective {a b : Tool} (h : a.command = b.command) : a = b := by
  cases a <;> cases b <;> first | rfl | simp [command] at h

end Tool

end LintDelta
