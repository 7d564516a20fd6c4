import LintDelta.Json.Shape
import LintDelta.Linter.Tool
import LintDelta.Tally

/-!
# Findings in a tool's report

What each tool writes and which issues it stands for. Five tools and the log of flawfinder are JSON;
Cppcheck writes lines of two fields. A report is read as a whole: one bad entry and there are no
findings.

Main statements: a blank report has no findings, for every tool.
-/

namespace LintDelta

inductive ReportError where
  | json (e : Json.Error)
  /-- A line that is not an id and a severity. -/
  | malformedLine (line : String)
  | overflow
  deriving DecidableEq, Repr

def ReportError.message : ReportError → String
  | .json e => e.message
  | .malformedLine line => "malformed line '" ++ line ++ "'"
  | .overflow => "too many findings"

namespace Findings

open Json (Shape Fields)

/-- A field of free text that must be there. -/
def field (key : String) (rest : Fields) : Fields :=
  .required key (.text "a string") rest

/-! ## One list of entries -/

def pylintShape : Shape :=
  .list (.record "struct Message" (field "symbol" (field "type" .nil)))

def pylint : pylintShape.Val → List Issue :=
  List.map fun (symbol, kind, _) =>
    .ofNative symbol Tool.pylint.title (.ofNative kind)

def hlintShape : Shape :=
  .list (.record "struct Idea" (field "hint" (field "severity" .nil)))

def hlint : hlintShape.Val → List Issue :=
  List.map fun (hint, severity, _) =>
    .ofNative hint Tool.hlint.title (.ofNative severity)

def oclintShape : Shape :=
  .record "struct Report" (.listed "violation"
    (.record "struct Violation" (field "rule" (field "category" .nil))) .nil)

def oclint : oclintShape.Val → List Issue := fun (violations, _) =>
  violations.map fun (rule, category, _) =>
    .ofNative rule Tool.oclint.title (.ofNative category)

/-! ## Entries of several files -/

/-- The rules of this tool carry no grade; all that it reports is formatting. -/
def ktlintShape : Shape :=
  .list (.record "struct FileReport" (.listed "errors"
    (.record "struct LintError" (field "rule" .nil)) .nil))

def ktlint : ktlintShape.Val → List Issue :=
  List.flatMap fun (errors, _) =>
    errors.map fun (rule, _) => .ofNative rule Tool.ktlint.title .format

def pmdShape : Shape :=
  .record "struct Report" (.listed "files"
    (.record "struct FileReport" (.listed "violations"
      (.record "struct Violation" (field "rule" (field "ruleset" .nil))) .nil)) .nil)

def pmd : pmdShape.Val → List Issue := fun (files, _) =>
  files.flatMap fun (violations, _) =>
    violations.map fun (rule, ruleset, _) =>
      .ofNative rule Tool.pmd.title (.ofNative ruleset)

/-! ## Results that refer to rules -/

structure Rule where
  id : String
  name : Option String
  deriving DecidableEq, Repr

structure RuleResult where
  ruleId : String
  level : Option String
  deriving DecidableEq, Repr

/-- The name of a rule id: that of the last rule with this id and a name, or else the id. -/
def ruleName (rules : List Rule) (id : String) : String :=
  ((rules.filter fun r => r.id = id).filterMap (·.name)).getLast?.getD id

/-- The issue of a result; a missing level stands for a warning. -/
def ruleIssue (rules : List Rule) (r : RuleResult) : Issue :=
  .ofNative (ruleName rules r.ruleId) Tool.flawfinder.title (.ofNative (r.level.getD "warning"))

def ruleShape : Shape :=
  .record "struct Rule" (field "id" (.optional "name" (.text "a string") .nil))

def resultShape : Shape :=
  .record "struct SarifResult" (field "ruleId" (.optional "level" (.text "a string") .nil))

def flawfinderShape : Shape :=
  .record "struct SarifLog" (.listed "runs"
    (.record "struct Run"
      (.required "tool" (.record "struct Tool"
        (.required "driver" (.record "struct Driver" (.listed "rules" ruleShape .nil)) .nil))
      (.listed "results" resultShape .nil))) .nil)

def flawfinder : flawfinderShape.Val → List Issue := fun (runs, _) =>
  -- a result goes by the rules of its own run
  runs.flatMap fun (((rules, _), _), results, _) =>
    let rules := rules.map fun (id, name, _) => (⟨id, name⟩ : Rule)
    results.map fun (ruleId, level, _) => ruleIssue rules ⟨ruleId, level⟩

/-! ## Lines -/

/-- The issue of a line: an id and a severity, and nothing else. -/
def line (cs : List Char) : Except ReportError Issue :=
  match Text.fields cs with
  | [id, severity] =>
    .ok (.ofNative (String.ofList id) Tool.cppcheck.title (.ofNative (String.ofList severity)))
  | _ => .error (.malformedLine (String.ofList cs))

def cppcheck (report : String) : Except ReportError (List Issue) :=
  (((Text.lines report.toList).map Text.trimChars).filter fun cs => !cs.isEmpty).mapM line

/-- The findings in a report of a shape; a blank report has none. -/
def shaped (shape : Shape) (issues : shape.Val → List Issue) (report : String) :
    Except ReportError (List Issue) :=
  if Text.isBlankText report then .ok []
  else match shape.readText report with
    | .ok x => .ok (issues x)
    | .error e => .error (.json e)

/-! ## Blank reports -/

theorem cppcheck_of_isBlankText {report : String} (h : Text.isBlankText report = true) :
    cppcheck report = .ok [] := by
  have hall : ∀ line ∈ Text.lines report.toList, Text.trimChars line = [] := fun line hl =>
    Text.trimChars_eq_nil_of_all (List.all_eq_true.2 fun c hc =>
      List.all_eq_true.1 h c (Text.mem_of_mem_lines hl hc))
  have : ((Text.lines report.toList).map Text.trimChars).filter (fun cs => !cs.isEmpty) = [] := by
    rw [List.filter_eq_nil_iff]
    intro cs hcs
    obtain ⟨line, hl, rfl⟩ := List.mem_map.1 hcs
    simp [hall line hl]
  rw [cppcheck, this]
  rfl

theorem shaped_of_isBlankText {shape : Json.Shape} {issues : shape.Val → List Issue}
    {report : String} (h : Text.isBlankText report = true) : shaped shape issues report = .ok [] := by
  rw [shaped, if_pos h]

end Findings

/-- The issues that a report of a tool lists, one by one. -/
def Tool.findings : Tool → String → Except ReportError (List Issue)
  | pylint => Findings.shaped Findings.pylintShape Findings.pylint
  | flawfinder => Findings.shaped Findings.flawfinderShape Findings.flawfinder
  | hlint => Findings.shaped Findings.hlintShape Findings.hlint
  | ktlint => Findings.shaped Findings.ktlintShape Findings.ktlint
  | pmd => Findings.shaped Findings.pmdShape Findings.pmd
  | cppcheck => Findings.cppcheck
  | oclint => Findings.shaped Findings.oclintShape Findings.oclint

theorem Tool.findings_of_isBlankText (tool : Tool) {report : String}
    (h : Text.isBlankText report = true) : tool.findings report = .ok [] := by
  cases tool
  case cppcheck => exact Findings.cppcheck_of_isBlankText h
  all_goals exact Findings.shaped_of_isBlankText h

def Tool.parseReport (tool : Tool) (report : String) : Except ReportError Tally := do
  match Tally.ofIssues (← tool.findings report) with
  | some t => return t
  | none => throw .overflow

end LintDelta
