import LintDelta.Proofs.Linter.Judging
import LintDelta.Proofs.Tally.Folding
import LintDelta.Proofs.Text.Utf8

/-!
# Crashes and clean files

What linting a file comes to, in terms of the bytes that the tool left: `verdict_of_lint`. A tool that crashed is
never taken for a clean file, since a blank report counts only beside a good exit and a blank error stream.
-/

namespace LintDelta

open Text (Bytes decodeLossy isBlankText)

variable {σ : Type}

/-! ## Reports as bytes -/

/-- The bytes of the report that a tool left: its report file, its output, or for Cppcheck its output and its
error stream with a line feed between them. -/
def Tool.reportBytes : Tool → Outcome → Option Bytes
  | pmd, outcome => outcome.report
  | oclint, outcome => outcome.report
  | cppcheck, outcome => some (outcome.stdout ++ 10 :: outcome.stderr)
  | _, outcome => some outcome.stdout

/-- Whether the exit of a tool leaves its report valid: Pylint must not have set the bits of a fatal message and
of a usage error, and the other tools may exit as they like. -/
def Tool.Tolerates (tool : Tool) (status : ExitStatus) : Prop :=
  tool = .pylint → ∀ code, status = .code code → code.testBit 0 = false ∧ code.testBit 5 = false

/-! ## Findings that cannot be counted -/

/-- What lists findings does not count them. -/
theorem Tool.findings_ne_overflow (tool : Tool) (report : String) : tool.findings report ≠ .error .overflow := by
  have hshaped : ∀ (shape : Json.Shape) (issues : shape.Val → List Issue),
      Findings.shaped shape issues report ≠ .error .overflow := by
    intro shape issues
    unfold Findings.shaped
    split
    · nofun
    · split <;> nofun
  have hlines : ∀ lines : List (List Char), lines.mapM Findings.line ≠ .error .overflow := by
    intro lines
    induction lines with
    | nil => nofun
    | cons l rest ih =>
      rw [List.mapM_cons]
      rcases hl : Findings.line l with e | issue
      · unfold Findings.line at hl
        split at hl <;> cases hl
        nofun
      · rcases hrest : rest.mapM Findings.line with e | issues
        · intro h
          cases h
          exact ih hrest
        · nofun
  cases tool
  case cppcheck => exact hlines _
  all_goals exact hshaped _ _

/-- A report that cannot be counted lists 2^63 findings or more. -/
theorem Tool.exists_findings_of_overflow {tool : Tool} {report : String}
    (h : tool.parseReport report = .error .overflow) :
    ∃ issues, tool.findings report = .ok issues ∧ 2 ^ 63 ≤ issues.length := by
  unfold Tool.parseReport at h
  cases hfindings : tool.findings report with
  | error e =>
    rw [hfindings] at h
    cases h
    exact absurd hfindings (findings_ne_overflow tool report)
  | ok issues =>
    refine ⟨issues, rfl, Nat.le_of_not_lt fun hlt => ?_⟩
    obtain ⟨t, ht⟩ := Tally.exists_ofIssues hlt
    rw [hfindings] at h
    simp only [bind, Except.bind, ht] at h
    cases h

namespace Adapter

theorem isFatal_eq_false_iff {a : Adapter} {outcome : Outcome} :
    a.isFatal outcome = false ↔ a.tool.Tolerates outcome.status := by
  unfold isFatal Tool.Tolerates
  split
  · next n htool hstatus => simp [htool, hstatus]
  · next hne =>
    simp only [true_iff]
    exact fun htool code hstatus => absurd hstatus (hne code htool)

/-- A report is read as the text of its bytes, whatever they are; only a report file can be missing. -/
theorem reportOf_eq (a : Adapter) (path : Path) (outcome : Outcome) :
    a.reportOf path outcome = match a.tool.reportBytes outcome with
      | some bytes => .ok (decodeLossy bytes)
      | none => .error (.resource path ("failed to read report file: " ++ TempDirectory.notFound)) := by
  obtain ⟨exit, stdout, stderr, report⟩ := outcome
  unfold reportOf Tool.reportBytes
  cases a.tool with
  | cppcheck => simp only [Text.decodeLossy_append_newline]
  | pmd => cases report <;> rfl
  | oclint => cases report <;> rfl
  | _ => rfl

theorem complained_eq_false_iff {outcome : Outcome} :
    complained outcome = false ↔ outcome.status = .code 0 ∧ isBlankText (decodeLossy outcome.stderr) = true := by
  simp [complained, ExitStatus.isSuccess]

/-- An outcome that can be used, in terms of its bytes. -/
theorem usable_iff {a : Adapter} {path : Path} {outcome : Outcome} {t : Tally} :
    a.Usable path outcome t ↔ ∃ bytes, a.tool.reportBytes outcome = some bytes ∧
      a.tool.Tolerates outcome.status ∧
      (isBlankText (decodeLossy bytes) = true →
        outcome.status = .code 0 ∧ isBlankText (decodeLossy outcome.stderr) = true) ∧
      a.tool.parseReport (decodeLossy bytes) = .ok t := by
  rw [← isFatal_eq_false_iff, ← complained_eq_false_iff]
  constructor
  · rintro ⟨hfatal, report, hreport, hblank, hparse⟩
    rw [reportOf_eq] at hreport
    cases hbytes : a.tool.reportBytes outcome with
    | none =>
      rw [hbytes] at hreport
      cases hreport
    | some bytes =>
      rw [hbytes] at hreport
      cases hreport
      refine ⟨bytes, rfl, hfatal, fun h => ?_, hparse⟩
      rwa [h, Bool.true_and] at hblank
  · rintro ⟨bytes, hbytes, hfatal, hblank, hparse⟩
    refine ⟨hfatal, decodeLossy bytes, by rw [reportOf_eq, hbytes], ?_, hparse⟩
    cases h : isBlankText (decodeLossy bytes) with
    | false => rfl
    | true => rw [hblank h, Bool.and_false]

/-! ## Bad ends -/

/-- The report of an outcome lists more findings than can be counted. -/
def Overfull (a : Adapter) (outcome : Outcome) : Prop :=
  ∃ bytes issues, a.tool.reportBytes outcome = some bytes ∧ a.tool.findings (decodeLossy bytes) = .ok issues ∧
    2 ^ 63 ≤ issues.length

/-- What becomes of an outcome: only a missing report file is a lack of resources, and all else that is wrong is
blamed on the tool. -/
theorem judge_cases (a : Adapter) (path : Path) (outcome : Outcome) :
    (∃ t, a.judge path outcome = .ok t) ∨
    (a.tool.reportBytes outcome = none ∧ ∃ m, a.judge path outcome = .error (.failed (.resource path m))) ∨
    (∃ m, a.judge path outcome = .error (.failed (.lintTool a.name path m))) ∨
    a.judge path outcome = .error .overflow ∧ a.Overfull outcome := by
  unfold judge
  split
  · exact Or.inr (Or.inr (Or.inl ⟨_, rfl⟩))
  rw [reportOf_eq]
  cases hbytes : a.tool.reportBytes outcome with
  | none => exact Or.inr (Or.inl ⟨rfl, _, rfl⟩)
  | some bytes =>
    dsimp only
    split
    · exact Or.inr (Or.inr (Or.inl ⟨_, rfl⟩))
    cases hparse : a.tool.parseReport (decodeLossy bytes) with
    | ok t => exact Or.inl ⟨t, rfl⟩
    | error e =>
      cases e with
      | overflow =>
        obtain ⟨issues, hfindings, hlength⟩ := Tool.exists_findings_of_overflow hparse
        exact Or.inr (Or.inr (Or.inr ⟨rfl, bytes, issues, hbytes, hfindings, hlength⟩))
      | json e => exact Or.inr (Or.inr (Or.inl ⟨_, rfl⟩))
      | malformedLine line => exact Or.inr (Or.inr (Or.inl ⟨_, rfl⟩))

/-- A report file that is missing is noticed before anything else, by the tools that have one. -/
theorem judge_of_missing {a : Adapter} {outcome : Outcome} (h : a.tool.reportBytes outcome = none) (path : Path) :
    ∃ m, a.judge path outcome = .error (.failed (.resource path m)) := by
  have hfatal : a.isFatal outcome = false := isFatal_eq_false_iff.2 fun htool => by
    rw [htool] at h
    cases h
  unfold judge
  rw [hfatal, reportOf_eq, h]
  exact ⟨_, rfl⟩

/-! ## The verdict -/

section Verdict

variable {a : Adapter} {box : Toolbox σ} (htemp : a.writesFile = true → box.temp.present = true)
include htemp

/-- Where a report file can be made, the end of a linting is that of its tool. -/
theorem exec_lint_of_present (path : Path) (s : Session σ) :
    ((a.lint box path).exec s).1 = a.conclude path (a.answer box path s) := by
  rw [exec_lint_fst, if_neg]
  rw [Bool.and_eq_true, Bool.not_eq_true']
  exact fun h => absurd (htemp h.1) (Bool.eq_false_iff.1 h.2)

/-- A linting ends well exactly if its tool ran and left bytes that can be used. -/
theorem exec_lint_ok_iff {path : Path} {s : Session σ} {t : Tally} :
    ((a.lint box path).exec s).1 = .ok t ↔
      ∃ outcome bytes, a.answer box path s = .ok outcome ∧ a.tool.reportBytes outcome = some bytes ∧
        a.tool.Tolerates outcome.status ∧
        (isBlankText (decodeLossy bytes) = true →
          outcome.status = .code 0 ∧ isBlankText (decodeLossy outcome.stderr) = true) ∧
        a.tool.parseReport (decodeLossy bytes) = .ok t := by
  constructor
  · intro h
    obtain ⟨outcome, hanswer, husable⟩ := exists_usable_of_lint h
    obtain ⟨bytes, hbytes⟩ := usable_iff.1 husable
    exact ⟨outcome, bytes, hanswer, hbytes⟩
  · rintro ⟨outcome, bytes, hanswer, hbytes⟩
    rw [exec_lint_of_present htemp, hanswer]
    exact judge_eq_ok_iff.2 (usable_iff.2 ⟨bytes, hbytes⟩)

/-- Nothing else than a report file that is gone is a lack of resources. -/
theorem exec_lint_resource_iff {path : Path} {s : Session σ} :
    (∃ p m, ((a.lint box path).exec s).1 = .error (.failed (.resource p m))) ↔
      ∃ outcome, a.answer box path s = .ok outcome ∧ a.tool.reportBytes outcome = none := by
  rw [exec_lint_of_present htemp]
  cases a.answer box path s with
  | error reason => simp [conclude]
  | ok outcome =>
    simp only [conclude, Except.ok.injEq, exists_eq_left']
    constructor
    · rintro ⟨p, m, h⟩
      rcases a.judge_cases path outcome with ⟨t, h'⟩ | ⟨hnone, -⟩ | ⟨m', h'⟩ | ⟨h', -⟩
      · rw [h] at h'
        cases h'
      · exact hnone
      · rw [h] at h'
        cases h'
      · rw [h] at h'
        cases h'
    · intro hnone
      obtain ⟨m, h⟩ := judge_of_missing hnone path
      exact ⟨path, m, h⟩

/-- The four ends of a linting. -/
theorem exec_lint_cases (path : Path) (s : Session σ) :
    (∃ t, ((a.lint box path).exec s).1 = .ok t) ∨
      (∃ m, ((a.lint box path).exec s).1 = .error (.failed (.resource path m))) ∨
      (∃ m, ((a.lint box path).exec s).1 = .error (.failed (.lintTool a.name path m))) ∨
      ((a.lint box path).exec s).1 = .error .overflow ∧
        ∃ outcome, a.answer box path s = .ok outcome ∧ a.Overfull outcome := by
  rw [exec_lint_of_present htemp]
  cases a.answer box path s with
  | error reason => exact Or.inr (Or.inr (Or.inl ⟨_, rfl⟩))
  | ok outcome =>
    rcases a.judge_cases path outcome with h | ⟨-, h⟩ | h | ⟨h, hfull⟩
    · exact Or.inl h
    · exact Or.inr (Or.inl h)
    · exact Or.inr (Or.inr (Or.inl h))
    · exact Or.inr (Or.inr (Or.inr ⟨h, outcome, rfl, hfull⟩))

/-- All that is left of an outcome whose report is not blank is the text of that report. -/
theorem exec_lint_ok_iff_of_not_blank {path : Path} {s : Session σ} {outcome : Outcome} {bytes : Bytes}
    (hanswer : a.answer box path s = .ok outcome) (hbytes : a.tool.reportBytes outcome = some bytes)
    (hblank : isBlankText (decodeLossy bytes) = false) (hstatus : a.tool.Tolerates outcome.status) {t : Tally} :
    ((a.lint box path).exec s).1 = .ok t ↔ a.tool.parseReport (decodeLossy bytes) = .ok t := by
  rw [exec_lint_ok_iff htemp, hanswer]
  simp [hbytes, hstatus, hblank]

end Verdict

/-- **A crashed tool is never taken for a clean file.** Where a report file can be made, linting a file has four
ends. It has a tally exactly if the tool could be started and its report could be read, if Pylint did not exit with
the bits of a fatal message or a usage error, if a blank report came with a good exit and a blank error stream, and
if the text of the report parses to that tally. It lacks a resource exactly if the tool ran and its report file is
gone. All other ends are failures of the tool on that file, unless the report lists more findings than can be
counted. In particular the tally of a report that is not blank depends on nothing but its bytes, as long as Pylint
tolerates the exit. -/
theorem verdict_of_lint (a : Adapter) (box : Toolbox σ) (htemp : a.writesFile = true → box.temp.present = true)
    (path : Path) (s : Session σ) :
    (∀ t, ((a.lint box path).exec s).1 = .ok t ↔
      ∃ outcome bytes, a.answer box path s = .ok outcome ∧ a.tool.reportBytes outcome = some bytes ∧
        a.tool.Tolerates outcome.status ∧
        (isBlankText (decodeLossy bytes) = true →
          outcome.status = .code 0 ∧ isBlankText (decodeLossy outcome.stderr) = true) ∧
        a.tool.parseReport (decodeLossy bytes) = .ok t) ∧
    ((∃ p m, ((a.lint box path).exec s).1 = .error (.failed (.resource p m))) ↔
      ∃ outcome, a.answer box path s = .ok outcome ∧ a.tool.reportBytes outcome = none) ∧
    ((∃ t, ((a.lint box path).exec s).1 = .ok t) ∨
      (∃ m, ((a.lint box path).exec s).1 = .error (.failed (.resource path m))) ∨
      (∃ m, ((a.lint box path).exec s).1 = .error (.failed (.lintTool a.name path m))) ∨
      ((a.lint box path).exec s).1 = .error .overflow ∧
        ∃ outcome, a.answer box path s = .ok outcome ∧ a.Overfull outcome) ∧
    (∀ (box' : Toolbox σ) path' s' outcome outcome' bytes,
      (a.writesFile = true → box'.temp.present = true) →
      a.answer box path s = .ok outcome → a.answer box' path' s' = .ok outcome' →
      a.tool.reportBytes outcome = some bytes → a.tool.reportBytes outcome' = some bytes →
      isBlankText (decodeLossy bytes) = false →
      a.tool.Tolerates outcome.status → a.tool.Tolerates outcome'.status →
      ∀ t, ((a.lint box path).exec s).1 = .ok t ↔ ((a.lint box' path').exec s').1 = .ok t) := by
  refine ⟨fun t => exec_lint_ok_iff htemp, exec_lint_resource_iff htemp, exec_lint_cases htemp path s, ?_⟩
  intro box' path' s' outcome outcome' bytes htemp' hanswer hanswer' hbytes hbytes' hblank hstatus hstatus' t
  rw [exec_lint_ok_iff_of_not_blank htemp hanswer hbytes hblank hstatus,
    exec_lint_ok_iff_of_not_blank htemp' hanswer' hbytes' hblank hstatus']

/-- Tools that delete their report file, if they have one. -/
def untidy : Toolbox Unit where
  start := fun _ _ _ => .ok ⟨.code 0, [], [], none⟩
  temp := ⟨.ofString "/tmp", true, fun made => toString made⟩
  shows := fun _ _ => false

theorem verdict_of_lint_of_untidy :
    ∃ p m, (((Adapter.ofTool .pmd).lint untidy (.ofString "/work/A.java")).exec (Session.start ())).1 =
      .error (.failed (.resource p m)) :=
  (verdict_of_lint (.ofTool .pmd) untidy (fun _ => rfl) (.ofString "/work/A.java") (Session.start ())).2.1.2
    ⟨_, rfl, rfl⟩

end Adapter

end LintDelta
