import LintDelta.Text.Blank
import LintDelta.Text.Lowercase

/-!
# Categories of issues

Every tool grades its findings in words of its own. `Category` is the closed set of grades that this
library knows; `Category.ofNative` maps the words of the tools onto it, whatever their spelling.

Main statements: a label belongs to one category, and the order of the categories is total.
-/

namespace LintDelta

/-- What kind of flaw an issue is. -/
inductive Category where
  | format
  | documentation
  | convention
  | refactor
  | design
  | bestPractice
  | performance
  | portability
  | security
  | warning
  | error
  | fatal
  | hint
  | suggestion
  | information
  | uncategorized
  deriving DecidableEq, Repr, Inhabited

namespace Category

/-- The label and a description. -/
def describe : Category → String × String
  | format => ("format", "Formatting and code style")
  | documentation => ("documentation", "Missing or malformed documentation")
  | convention => ("convention", "Violation of a coding convention")
  | refactor => ("refactor", "Code that should be refactored")
  | design => ("design", "Questionable design")
  | bestPractice => ("best-practice", "Deviation from best practices")
  | performance => ("performance", "Potential performance problem")
  | portability => ("portability", "Non-portable construct")
  | security => ("security", "Potential security flaw")
  | warning => ("warning", "Likely bug or dangerous construct")
  | error => ("error", "Probable bug")
  | fatal => ("fatal", "Analysis could not complete")
  | hint => ("hint", "Hint for a simpler construct")
  | suggestion => ("suggestion", "Suggested improvement")
  | information => ("information", "Informational message")
  | uncategorized => ("uncategorized", "Issue without a known category")

def label (c : Category) : String := c.describe.1

def all : List Category :=
  [format, documentation, convention, refactor, design, bestPractice, performance, portability,
    security, warning, error, fatal, hint, suggestion, information, uncategorized]

def labels : List String := all.map label

def ofLabel? (s : String) : Option Category :=
  all.find? fun c => c.label == s

instance : Ord Category where
  compare a b := compare a.ctorIdx b.ctorIdx

/-- The characters of a native grade that count: neither blanks nor `-` and `_`, in lowercase. -/
def key (native : String) : String :=
  String.ofList
    ((native.toList.filter fun c => !Text.isBlank c && c != '-' && c != '_').flatMap Text.lowerChar)

def ofNative (native : String) : Category :=
  match key native with
  | "format" | "formatting" | "style" | "codestyle" => format
  | "documentation" | "docs" => documentation
  | "convention" | "naming" => convention
  | "refactor" | "redundant" | "unused" | "size" => refactor
  | "design" | "cocoa" | "migration" => design
  | "bestpractice" | "bestpractices" | "basic" | "empty" => bestPractice
  | "performance" | "multithreading" => performance
  | "portability" => portability
  | "security" => security
  | "warning" => warning
  | "error" | "errorprone" => error
  | "fatal" => fatal
  | "hint" | "ignore" => hint
  | "suggestion" => suggestion
  | "info" | "information" | "note" | "none" => information
  | _ => uncategorized

/-! ## Laws -/

theorem mem_all (c : Category) : c ∈ all := by
  cases c <;> simp [all]

theorem label_injective {a b : Category} (h : a.label = b.label) : a = b := by
  cases a <;> cases b <;> first | rfl | simp [label, describe] at h

theorem eq_of_ctorIdx_eq {a b : Category} (h : a.ctorIdx = b.ctorIdx) : a = b := by
  cases a <;> cases b <;> first | rfl | exact absurd h (by decide)

instance : Std.TransOrd Category :=
  inferInstanceAs (Std.TransCmp (compareOn Category.ctorIdx))

instance : Std.LawfulEqOrd Category where
  compare_self := Std.ReflCmp.compare_self
  eq_of_compare h := eq_of_ctorIdx_eq (Std.LawfulEqOrd.eq_of_compare h)

end Category

end LintDelta
