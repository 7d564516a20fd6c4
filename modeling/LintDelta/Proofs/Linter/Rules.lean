import Mathlib.Data.List.Induction
import LintDelta.Proofs.Json.Compact
import LintDelta.Proofs.Linter.Reports

/-!
# Results that refer to rules

The log of flawfinder holds runs, and a run holds rules and results. A result names its rule by an id, and counts under
the name of the last rule of its own run that has this id and a name, or else under the id (`Calls`). So the tally of a
log is that of its results, run by run (`Log.tally_of_runs`), and runs do not affect each other: the tally of the runs
of two logs is the sum of theirs.
-/

namespace LintDelta

open Json (Doc Shape)
open Findings (Rule RuleResult ruleName ruleIssue)

/-! ## Names of rules -/

/-- What a rule id stands for among some rules: the name of the last one that has this id and a name, or the id
itself if no rule with this id has a name. -/
inductive Calls (rules : List Rule) (id : String) : String → Prop
  | rule {before after : List Rule} {name : String} (h : rules = before ++ ⟨id, some name⟩ :: after)
    (hafter : ∀ r ∈ after, r.id = id → r.name = none) : Calls rules id name
  | unknown (h : ∀ r ∈ rules, r.id = id → r.name = none) : Calls rules id id

/-- The names that rules give to an id, in order. -/
def namesOf (rules : List Rule) (id : String) : List String :=
  (rules.filter fun r => r.id = id).filterMap (·.name)

theorem namesOf_append (rules more : List Rule) (id : String) :
    namesOf (rules ++ more) id = namesOf rules id ++ namesOf more id := by
  simp [namesOf]

theorem namesOf_eq_nil {rules : List Rule} {id : String} (h : ∀ r ∈ rules, r.id = id → r.name = none) :
    namesOf rules id = [] := by
  simp only [namesOf, List.filterMap_eq_nil_iff, List.mem_filter, decide_eq_true_eq]
  exact fun r hr => h r hr.1 hr.2

/-- A rule with another id, or without a name, changes nothing. -/
theorem Calls.append {rules : List Rule} {id name : String} (h : Calls rules id name) {r : Rule}
    (hr : r.id = id → r.name = none) : Calls (rules ++ [r]) id name := by
  have hmore {rs : List Rule} (hrs : ∀ r ∈ rs, r.id = id → r.name = none) :
      ∀ r' ∈ rs ++ [r], r'.id = id → r'.name = none := by
    intro r' hr'
    rcases List.mem_append.1 hr' with hr' | hr'
    · exact hrs r' hr'
    · rwa [List.mem_singleton.1 hr']
  cases h with
  | @rule before after name h hafter =>
    have hrules : rules ++ [r] = before ++ ⟨id, some name⟩ :: (after ++ [r]) := by
      rw [h, List.append_assoc, List.cons_append]
    exact .rule hrules (hmore hafter)
  | unknown h => exact .unknown (hmore h)

/-- **What a rule id stands for** is one name, and the one that is looked up. -/
theorem calls_iff {rules : List Rule} {id name : String} : Calls rules id name ↔ ruleName rules id = name := by
  have hname (rules : List Rule) : ruleName rules id = (namesOf rules id).getLast?.getD id := rfl
  constructor
  · rw [hname]
    rintro (⟨rfl, hafter⟩ | h)
    · rw [← List.singleton_append, namesOf_append, namesOf_append, namesOf_eq_nil hafter]
      simp [namesOf]
    · rw [namesOf_eq_nil h]
      rfl
  · rintro rfl
    induction rules using List.reverseRecOn with
    | nil => exact .unknown nofun
    | append_singleton rules r ih =>
      by_cases hr : r.id = id → r.name = none
      · have hidle : namesOf [r] id = [] := namesOf_eq_nil (by simpa using hr)
        have hsame : ruleName (rules ++ [r]) id = ruleName rules id := by
          rw [hname, hname, namesOf_append, hidle, List.append_nil]
        rw [hsame]
        exact ih.append hr
      · obtain ⟨hid, hnone⟩ := Classical.not_imp.1 hr
        obtain ⟨n, hn⟩ := Option.ne_none_iff_exists'.1 hnone
        have hlast : ruleName (rules ++ [r]) id = n := by
          rw [hname, namesOf_append]
          simp [namesOf, hid, hn]
        obtain ⟨rid, rname⟩ := r
        obtain rfl : rid = id := hid
        obtain rfl : rname = some n := hn
        rw [hlast]
        exact .rule rfl nofun

/-! ## Runs of a log -/

namespace Log

/-- A run: its rules and its results. -/
structure Run where
  rules : List Rule
  results : List RuleResult

def rule? (x : Doc) : Option Rule :=
  (x.textAt? "id").bind fun id => (x.optionalTextAt? "name").map fun name => ⟨id, name⟩

def result? (x : Doc) : Option RuleResult :=
  (x.textAt? "ruleId").bind fun id => (x.optionalTextAt? "level").map fun level => ⟨id, level⟩

/-- The rules of a tool are those of its driver. -/
def rules? (tool : Doc) : Option (List Rule) :=
  tool.at? none (fun driver => (driver.listAt? "rules").bind fun xs => xs.mapM rule?) "driver"

def results? (x : Doc) : Option (List RuleResult) :=
  (x.listAt? "results").bind fun xs => xs.mapM result?

def run? (x : Doc) : Option Run :=
  (x.at? none rules? "tool").bind fun rules => (results? x).map fun results => ⟨rules, results⟩

/-- The runs of a log, in order. -/
def runs? (x : Doc) : Option (List Run) :=
  (x.listAt? "runs").bind fun xs => xs.mapM run?

/-- The issue that a result of a run stands for. -/
def Run.Stands (run : Run) (r : RuleResult) (i : Issue) : Prop :=
  ∃ name, Calls run.rules r.ruleId name ∧ i = .ofNative name "flawfinder" (.ofNative (r.level.getD "warning"))

/-- A tally counts every result of some runs once, for the issue that it stands for in its own run. -/
def Counts (runs : List Run) (t : Tally) : Prop :=
  ∃ issues, List.Forall₂ (fun p i => p.1.Stands p.2 i) (runs.flatMap fun run => run.results.map fun r => (run, r)) issues ∧
    ∀ i, t.count i = issues.count i

def Run.issues (run : Run) : List Issue :=
  run.results.map (ruleIssue run.rules)

theorem Run.stands_iff {run : Run} {r : RuleResult} {i : Issue} : run.Stands r i ↔ i = ruleIssue run.rules r := by
  unfold Stands
  constructor
  · rintro ⟨name, hcalls, rfl⟩
    rw [← calls_iff.1 hcalls]
    rfl
  · rintro rfl
    exact ⟨_, calls_iff.2 rfl, rfl⟩

/-- A tally counts some runs if it counts the issues of their results. -/
theorem counts_iff {runs : List Run} {t : Tally} :
    Counts runs t ↔ ∀ i, t.count i = (runs.flatMap Run.issues).count i := by
  have hissues : runs.flatMap Run.issues =
      (runs.flatMap fun run => run.results.map fun r => (run, r)).map fun p => ruleIssue p.1.rules p.2 := by
    rw [List.map_flatMap]
    simp only [List.map_map]
    rfl
  constructor
  · rintro ⟨issues, h, hcount⟩
    have hsame := List.forall₂_map_left_iff.2 (h.imp fun p i hi => (Run.stands_iff.1 hi).symm)
    rw [List.forall₂_eq_eq_eq] at hsame
    rwa [hissues, hsame]
  · intro hcount
    refine ⟨_, ?_, hcount⟩
    rw [hissues, List.forall₂_map_right_iff, List.forall₂_same]
    exact fun p _ => Run.stands_iff.2 rfl

/-! ### The shape of a log -/

def driverShape : Shape := .record "struct Driver" (.listed "rules" Findings.ruleShape .nil)

def toolShape : Shape := .record "struct Tool" (.required "driver" driverShape .nil)

def runShape : Shape :=
  .record "struct Run" (.required "tool" toolShape (.listed "results" Findings.resultShape .nil))

theorem agrees_rule : Findings.ruleShape.Agrees (fun v => (⟨v.1, v.2.1⟩ : Rule)) rule? :=
  (Shape.agrees_text "a string").pair (Shape.agrees_optionalText "struct Rule" "name" "a string") Rule.mk

theorem agrees_result : Findings.resultShape.Agrees (fun v => (⟨v.1, v.2.1⟩ : RuleResult)) result? :=
  (Shape.agrees_text "a string").pair (Shape.agrees_optionalText "struct SarifResult" "level" "a string") RuleResult.mk

/-- The run of what a log holds in its shape. -/
def ofVal (v : runShape.Val) : Run :=
  ⟨v.1.1.1.map fun r => ⟨r.1, r.2.1⟩, v.2.1.map fun r => ⟨r.1, r.2.1⟩⟩

theorem agrees_run : runShape.Agrees ofVal run? := by
  have hrules : toolShape.Agrees (fun v => v.1.1.map fun r => (⟨r.1, r.2.1⟩ : Rule)) rules? :=
    (agrees_rule.listed "struct Driver" "rules").required "struct Tool" "driver"
  exact hrules.pair (agrees_result.listed "struct Run" "results") Run.mk

theorem agrees_runs : Findings.flawfinderShape.Agrees (fun v => v.1.map ofVal) runs? :=
  agrees_run.listed "struct SarifLog" "runs"

theorem flawfinder_eq (v : Findings.flawfinderShape.Val) :
    Findings.flawfinder v = (v.1.map ofVal).flatMap Run.issues := by
  refine Eq.trans ?_ (List.flatMap_map ofVal Run.issues v.1).symm
  refine congrArg (fun f => List.flatMap f v.1) (funext fun run => ?_)
  obtain ⟨⟨⟨rules, _⟩, _⟩, results, _⟩ := run
  show results.map _ = (results.map _).map _
  rw [List.map_map]
  rfl

/-! ### The tally of a log -/

/-- Every result of a log takes some of its text. -/
theorem takes_results {x : Doc} {runs : List Run} (h : runs? x = some runs) :
    x.Takes (runs.flatMap Run.issues).length := by
  obtain ⟨xs, hxs, hruns⟩ := Option.bind_eq_some_iff.1 h
  have hlength : ∀ y run, run? y = some run → run.issues.length = y.lengthAt "results" := by
    intro y run hrun
    obtain ⟨rules, -, hrun⟩ := Option.bind_eq_some_iff.1 hrun
    obtain ⟨results, hresults, rfl⟩ := Option.map_eq_some_iff.1 hrun
    obtain ⟨ys, hys, hresults⟩ := Option.bind_eq_some_iff.1 hresults
    rw [Run.issues, List.length_map, length_of_mapM hresults, Doc.lengthAt, hys]
    rfl
  rw [List.length_flatMap, map_eq_of_mapM hlength hruns]
  exact Doc.takes_of_listAt? hxs fun y _ => y.takes_lengthAt "results"

theorem findings_of_runs {x : Doc} {report : String} {runs : List Run} (h : x.WrittenAs report)
    (hruns : runs? x = some runs) :
    (Tool.flawfinder.findings report).toOption = some (runs.flatMap Run.issues) := by
  refine (Findings.toOption_shaped (by decide) Findings.flawfinder h).trans ?_
  obtain ⟨v, hv, rfl⟩ := Option.map_eq_some_iff.1 (agrees_runs x runs hruns)
  exact (congrArg (Option.map _) hv).trans (congrArg some (flawfinder_eq v))

/-- A log is counted result by result. -/
theorem exists_tally {x : Doc} {report : String} {runs : List Run} (h : x.WrittenAs report)
    (hlength : report.length < 2 ^ 63) (hruns : runs? x = some runs) :
    ∃ t, Tool.flawfinder.parseReport report = .ok t ∧ Tally.ofIssues (runs.flatMap Run.issues) = some t := by
  have hle := h.le_length (takes_results hruns)
  obtain ⟨t, ht⟩ : ∃ t, Tally.ofIssues (runs.flatMap Run.issues) = some t := Tally.exists_ofIssues (by omega)
  exact ⟨t, Tool.parseReport_eq_ok_iff.2 ⟨_, Json.eq_ok_of_toOption (findings_of_runs h hruns), ht⟩, ht⟩

/-- **Every result counts once under the name of its rule**, looked up in its own run; and the tally of the runs of two
logs is what the tallies of the two add up to. The logs are texts that fit in memory, as counts are of 64 bits. -/
theorem tally_of_runs :
    (∀ (x : Doc) (report : String) (runs : List Run), x.WrittenAs report → report.length < 2 ^ 63 →
      runs? x = some runs → ∃ t, Tool.flawfinder.parseReport report = .ok t ∧ Counts runs t) ∧
    ∀ (x y xy : Doc) (report report' report'' : String) (rs ss : List Run), x.WrittenAs report → y.WrittenAs report' →
      xy.WrittenAs report'' → report.length < 2 ^ 63 → report'.length < 2 ^ 63 → report''.length < 2 ^ 63 →
      runs? x = some rs → runs? y = some ss → runs? xy = some (rs ++ ss) →
      ∃ t t' t'', Tool.flawfinder.parseReport report = .ok t ∧ Tool.flawfinder.parseReport report' = .ok t' ∧
        Tool.flawfinder.parseReport report'' = .ok t'' ∧ t.add t' = some t'' := by
  constructor
  · intro x report runs h hlength hruns
    obtain ⟨t, ht, hcount⟩ := exists_tally h hlength hruns
    exact ⟨t, ht, counts_iff.2 (Tally.count_ofIssues hcount)⟩
  · intro x y xy report report' report'' rs ss h h' h'' hlength hlength' hlength'' hrs hss hboth
    obtain ⟨t, ht, hcount⟩ := exists_tally h hlength hrs
    obtain ⟨t', ht', hcount'⟩ := exists_tally h' hlength' hss
    obtain ⟨t'', ht'', hcount''⟩ := exists_tally h'' hlength'' hboth
    rw [List.flatMap_append, Tally.ofIssues_append, hcount, hcount'] at hcount''
    exact ⟨t, t', t'', ht, ht', ht'', hcount''⟩

/-- A run in which three rules share an id, and the last of them has no name. -/
def sharedId : Doc :=
  .object [
    (some "tool", .object [(some "driver", .object [(some "rules", .list [
      .object [(some "id", .text (some "F")), (some "name", .text (some "a"))],
      .object [(some "name", .text (some "b c")), (some "id", .text (some "F"))],
      .object [(some "id", .text (some "F")), (some "name", .null)]])])]),
    (some "results", .list [
      .object [(some "ruleId", .text (some "F"))],
      .object [(some "level", .text (some "error")), (some "ruleId", .text (some "G"))]])]

/-- A run with a rule that the first one does not have. -/
def otherId : Doc :=
  .object [
    (some "results", .list [
      .object [(some "ruleId", .text (some "F")), (some "level", .null)],
      .object [(some "level", .text (some "error")), (some "ruleId", .text (some "G"))]]),
    (some "tool", .object [(some "driver", .object [(some "rules", .list [
      .object [(some "id", .text (some "G")), (some "name", .text (some "g"))]])])])]

def ofRuns (runs : List Doc) : Doc :=
  .object [(some "version", .text (some "2.1.0")), (some "runs", .list runs)]

/-- In each of two runs one id has a name of its own and one has none, also where both stand in one log. -/
theorem tally_of_runs_of_shared_id :
    ∃ t t' t'', Tool.flawfinder.parseReport (String.ofList (ofRuns [sharedId]).compact) = .ok t ∧
      Tool.flawfinder.parseReport (String.ofList (ofRuns [otherId]).compact) = .ok t' ∧
      Tool.flawfinder.parseReport (String.ofList (ofRuns [sharedId, otherId]).compact) = .ok t'' ∧
      t.add t' = some t'' ∧
      t''.count ⟨"b-c", "flawfinder", .warning⟩ = 1 ∧ t''.count ⟨"F", "flawfinder", .warning⟩ = 1 ∧
      t''.count ⟨"G", "flawfinder", .error⟩ = 1 ∧ t''.count ⟨"g", "flawfinder", .error⟩ = 1 := by
  have hlength {cs : List Char} (h : cs.length < 2 ^ 63) : (String.ofList cs).length < 2 ^ 63 := by
    rwa [String.length_ofList]
  have hfirst := (ofRuns [sharedId]).writtenAs_compact
  have hsecond := (ofRuns [otherId]).writtenAs_compact
  have hboth := (ofRuns [sharedId, otherId]).writtenAs_compact
  have hlong := hlength (show (ofRuns [sharedId, otherId]).compact.length < 2 ^ 63 by decide +kernel)
  obtain ⟨t, t', t'', ht, ht', ht'', hadd⟩ := tally_of_runs.2 _ _ _ _ _ _ _ _ hfirst hsecond hboth
    (hlength (by decide +kernel)) (hlength (by decide +kernel)) hlong rfl rfl rfl
  obtain ⟨_, hok, hcounts⟩ := tally_of_runs.1 _ _ _ hboth hlong rfl
  cases ht''.symm.trans hok
  have hcount := counts_iff.1 hcounts
  exact ⟨t, t', t'', ht, ht', ht'', hadd, (hcount _).trans (by decide), (hcount _).trans (by decide),
    (hcount _).trans (by decide), (hcount _).trans (by decide)⟩

end Log

end LintDelta
