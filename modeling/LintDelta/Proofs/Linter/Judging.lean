import LintDelta.Proofs.Runs

/-!
# How linting a file ends

The end of a linting is settled by what the system answers when the tool is started, and by nothing else
(`exec_lint_fst`): a tool that cannot be started has no tally, and of one that ran the outcome is judged. An
outcome has a tally exactly if it is `Usable`.
-/

namespace LintDelta

variable {σ : Type}

/-- A report has a tally if it can be read and what it lists can be counted. -/
theorem Tool.parseReport_eq_ok_iff {tool : Tool} {report : String} {t : Tally} :
    tool.parseReport report = .ok t ↔ ∃ issues, tool.findings report = .ok issues ∧ Tally.ofIssues issues = some t := by
  unfold parseReport
  cases tool.findings report with
  | error e => exact ⟨nofun, nofun⟩
  | ok issues =>
    cases h : Tally.ofIssues issues with
    | none => simp [h, bind, Except.bind, throw, throwThe, MonadExceptOf.throw]
    | some t' => simp [h, bind, Except.bind, pure, Except.pure]

namespace Adapter

/-- An outcome from which a tally can be read: no fatal exit code, a report that is there, that is not blank
after a complaint, and that parses. -/
structure Usable (a : Adapter) (path : Path) (outcome : Outcome) (t : Tally) : Prop where
  not_fatal : a.isFatal outcome = false
  report : ∃ report, a.reportOf path outcome = .ok report ∧
    (Text.isBlankText report && complained outcome) = false ∧ a.tool.parseReport report = .ok t

theorem judge_eq_ok_iff {a : Adapter} {path : Path} {outcome : Outcome} {t : Tally} :
    a.judge path outcome = .ok t ↔ a.Usable path outcome t := by
  constructor
  · intro h
    unfold judge at h
    split at h
    · cases h
    · next hfatal =>
      refine ⟨Bool.eq_false_iff.2 hfatal, ?_⟩
      split at h
      · cases h
      · next report hreport =>
        split at h
        · cases h
        · next hblank =>
          split at h
          · next tally htally =>
            cases h
            exact ⟨report, hreport, Bool.eq_false_iff.2 hblank, htally⟩
          · cases h
          · cases h
  · rintro ⟨hfatal, report, hreport, hblank, htally⟩
    simp only [judge, hfatal, hreport, hblank, htally, Bool.false_eq_true, if_false]

/-! ## Starting the tool -/

/-- The report file of an adapter, if it needs one, and the temporary files that its tool finds. -/
def starting (a : Adapter) (box : Toolbox σ) (s : Session σ) : Option Path × List TempFile :=
  if a.writesFile then
    let report := box.temp.path.join
      (TempDirectory.name "git-contrast-report-" (box.temp.token s.made) ".json")
    (some report, ⟨report, []⟩ :: s.temps)
  else (none, s.temps)

/-- What the system answers when an adapter starts its tool on a file. -/
def answer (a : Adapter) (box : Toolbox σ) (path : Path) (s : Session σ) : Except String Outcome :=
  let (report, temps) := a.starting box s
  let command : Command := ⟨a.program, a.arguments report path⟩
  if Toolbox.hasZero command then .error "nul byte found in provided data"
  else box.start command temps s.world

/-- The end of a linting whose tool got an answer. -/
def conclude (a : Adapter) (path : Path) : Except String Outcome → Except Stop Tally
  | .error reason => .error (.failed (.lintTool a.name path ("failed to run `" ++ a.program ++ "`: " ++ reason)))
  | .ok outcome => a.judge path outcome

theorem exec_lintWith_fst (a : Adapter) (box : Toolbox σ) (path : Path) (report : Option Path)
    (s : Session σ) : ((a.lintWith box path report).exec s).1 =
      a.conclude path (if Toolbox.hasZero ⟨a.program, a.arguments report path⟩ then
        .error "nul byte found in provided data"
      else box.start ⟨a.program, a.arguments report path⟩ s.temps s.world) := by
  -- a notice leaves what the tool can see
  have hnoted (n : Notice) : (box.noted .tools .debug n s).temps = s.temps ∧
      (box.noted .tools .debug n s).world = s.world := by
    unfold Toolbox.noted
    split <;> exact ⟨rfl, rfl⟩
  simp only [lintWith, Toolbox.execute, Run.exec_bind, Toolbox.exec_notify_pure, Run.exec_get, hnoted]
  generalize (if Toolbox.hasZero ⟨a.program, a.arguments report path⟩ then
    Except.error "nul byte found in provided data"
    else box.start ⟨a.program, a.arguments report path⟩ s.temps s.world) = answer
  cases answer with
  | error reason => rfl
  | ok outcome => simp only [Run.exec_bind, Run.exec_record, Run.exec_pure, Run.exec_ofExcept, conclude]

/-- **How linting a file ends**: it fails if there is no place for a report file, and else as the answer to
starting the tool says. -/
theorem exec_lint_fst (a : Adapter) (box : Toolbox σ) (path : Path) (s : Session σ) :
    ((a.lint box path).exec s).1 =
      if a.writesFile && !box.temp.present then
        .error (.failed (.resource path ("failed to create report file: " ++ TempDirectory.notFound ++ " at path " ++
          Text.quoted (box.temp.path.join
            (TempDirectory.name "git-contrast-report-" (box.temp.token s.made) ".json")).display)))
      else a.conclude path (a.answer box path s) := by
  unfold lint answer starting
  cases hw : a.writesFile with
  | false => exact exec_lintWith_fst a box path none s
  | true =>
    rw [if_pos rfl, TempDirectory.exec_withFile]
    cases hp : box.temp.present with
    | false => rfl
    | true => exact exec_lintWith_fst a box path _ _

/-- A linting that ends well got an outcome that it could use. -/
theorem exists_usable_of_lint {a : Adapter} {box : Toolbox σ} {path : Path} {s : Session σ} {t : Tally}
    (h : ((a.lint box path).exec s).1 = .ok t) :
    ∃ outcome, a.answer box path s = .ok outcome ∧ a.Usable path outcome t := by
  rw [exec_lint_fst] at h
  split at h
  · cases h
  · cases hanswer : a.answer box path s with
    | error reason =>
      rw [hanswer] at h
      cases h
    | ok outcome =>
      rw [hanswer] at h
      exact ⟨outcome, rfl, judge_eq_ok_iff.1 h⟩

end Adapter

end LintDelta
