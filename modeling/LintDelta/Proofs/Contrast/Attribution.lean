import LintDelta.Proofs.Contrast.Walk

/-!
# The path that a failure names

A linter sees a copy of a file, or the file in the working tree, but a failure is for a reader who knows
the path in the repository. `path_of_failed_lintChange` says which path the failure of a change names:
that of one of its sides, unless a tool's report file could not be made or read. Then it is the path that
the tool saw, which is of no use when the copy is gone.

Failures are followed from where they arise to the whole by `Run.FailsIn`.
-/

namespace LintDelta

open Run (FailsIn)

namespace Failure

/-- The path that a failure of a single file names. -/
def path? : Failure → Option Path
  | lintTool _ path _ | resource path _ => some path
  | configuration _ | git _ | io _ => none

/-- A report file could not be made or read. -/
def AboutReport : Failure → Prop
  | resource _ m => ∃ reason, m = "failed to create report file: " ++ reason ∨
      m = "failed to read report file: " ++ reason
  | _ => False

/-- Messages that differ early on differ, whatever follows. -/
theorem append_ne_append {p q : String} (n : Nat) (hp : n ≤ p.toList.length) (hq : n ≤ q.toList.length)
    (h : p.toList.take n ≠ q.toList.take n) (r s : String) : p ++ r ≠ q ++ s := fun heq => by
  have htake := congrArg (fun m => m.toList.take n) heq
  simp only [String.toList_append, List.take_append_of_le_length hp, List.take_append_of_le_length hq] at htake
  exact h htake

/-- A message that differs early on from both messages about a report file is about none. -/
theorem not_aboutReport_of_take {m : String} (path : Path) (n : Nat) (r : String)
    (hn : n ≤ m.toList.length ∧ n ≤ 27)
    (hc : m.toList.take n ≠ "failed to create report file: ".toList.take n)
    (hr : m.toList.take n ≠ "failed to read report file: ".toList.take n) :
    ¬ (resource path (m ++ r)).AboutReport := by
  rintro ⟨reason, h | h⟩
  · exact append_ne_append n hn.1 (Nat.le_trans hn.2 (by decide)) hc r reason h
  · exact append_ne_append n hn.1 (Nat.le_trans hn.2 (by decide)) hr r reason h

theorem not_aboutReport_uncommitted (path : Path) : ¬ (resource path Bench.uncommitted).AboutReport := by
  rw [← String.append_empty (s := Bench.uncommitted)]
  exact not_aboutReport_of_take path 1 "" (by decide) (by decide) (by decide)

/-- A failure of version control as a whole is told apart from a failure of a report file. -/
theorem not_aboutReport_message (path : Path) {e : Failure} (he : e.isPerFile = false) :
    ¬ (resource path e.message).AboutReport := by
  cases e with
  | configuration m => exact not_aboutReport_of_take path 1 m (by decide) (by decide) (by decide)
  | git m => exact not_aboutReport_of_take path 1 m (by decide) (by decide) (by decide)
  | io m => exact not_aboutReport_of_take path 1 m (by decide) (by decide) (by decide)
  | lintTool => cases he
  | resource => cases he

end Failure

/-- Version control never fails for a single file. -/
structure VersionControl.FailsWhole {σ : Type} (vcs : VersionControl σ) : Prop where
  readBlob : ∀ blob w e, (vcs.readBlob blob w).1 = .error e → e.isPerFile = false
  head : ∀ w e, (vcs.head w).1 = .error e → e.isPerFile = false
  isClean : ∀ w e, (vcs.isClean w).1 = .error e → e.isPerFile = false
  checkout : ∀ target w e, (vcs.checkout target w).1 = .error e → e.isPerFile = false

/-- One of the sides of a change between two commits. -/
def Side.Of (side : Side) (change : Change) (source target : CommitId) : Prop :=
  Side.before change source = some side ∨ Side.after change target = some side

variable {σ : Type}

/-! ## Tools -/

namespace Adapter

/-- What an adapter blames on the file that it lints. -/
def Blames (a : Adapter) (path : Path) (e : Failure) : Prop :=
  (∃ m, e = .lintTool a.name path m) ∨ a.writesFile = true ∧ e.AboutReport ∧ e.path? = some path

theorem failsIn_execute (a : Adapter) (box : Toolbox σ) (command : Command) (path : Path) :
    FailsIn (a.Blames path) (box.execute a.name command path) := by
  refine (FailsIn.notify (.pure _)).bind fun _ => FailsIn.get.bind fun s => ?_
  dsimp only
  split
  · exact (FailsIn.record _).bind fun _ => .pure _
  · exact .fail (Or.inl ⟨_, rfl⟩)

theorem blames_of_reportOf {a : Adapter} {path : Path} {outcome : Outcome} {e : Failure}
    (h : a.reportOf path outcome = .error e) : a.Blames path e := by
  unfold reportOf at h
  cases ht : a.tool <;> rw [ht] at h <;> simp only [reduceCtorEq] at h
  all_goals
    cases hr : outcome.report <;> rw [hr] at h <;> cases h
    exact Or.inr ⟨by simp [writesFile, ht], ⟨_, Or.inr rfl⟩, rfl⟩

theorem blames_of_judge {a : Adapter} {path : Path} {outcome : Outcome} {e : Failure}
    (h : a.judge path outcome = .error (.failed e)) : a.Blames path e := by
  unfold judge at h
  split at h
  · cases h
    exact Or.inl ⟨_, rfl⟩
  · split at h
    · next f hf =>
      cases h
      exact blames_of_reportOf hf
    · split at h
      · cases h
        exact Or.inl ⟨_, rfl⟩
      · split at h <;> cases h
        exact Or.inl ⟨_, rfl⟩

theorem failsIn_lintWith (a : Adapter) (box : Toolbox σ) (path : Path) (report : Option Path) :
    FailsIn (a.Blames path) (a.lintWith box path report) :=
  (a.failsIn_execute box _ path).bind fun _ => .ofExcept fun _ => blames_of_judge

/-- An adapter blames the file that it lints, in one of two ways. -/
theorem failsIn_lint (a : Adapter) (box : Toolbox σ) (path : Path) :
    FailsIn (a.Blames path) (a.lint box path) := by
  unfold lint
  split
  · next hw =>
    exact .withFile (fun reason => Or.inr ⟨hw, ⟨reason, Or.inl rfl⟩, rfl⟩) fun token =>
      a.failsIn_lintWith box path _
  · exact a.failsIn_lintWith box path none

end Adapter

/-! ## Sides -/

namespace Bench

variable {b : Bench σ} {a : Adapter} {side : Side}

/-- The file that an adapter gets for a side: the one in the working tree, or a temporary copy. -/
def StandsFor (b : Bench σ) (a : Adapter) (side : Side) (file : Path) : Prop :=
  if a.tool.needsCheckout then file = b.vcs.workdir.join side.path
  else ∃ token, file = b.box.temp.path.join
    (TempDirectory.name "git-contrast-" token (side.path.extension.getD ""))

/-- The files that a linter may be given for a side: the one in the working tree, and its copies. -/
def Hands (b : Bench σ) (side : Side) (file : Path) : Prop :=
  file = b.vcs.workdir.join side.path ∨ ∃ made, file = b.box.temp.path.join
    (TempDirectory.name "git-contrast-" (b.box.temp.token made) (side.path.extension.getD ""))

/-- A failure that concerns a single file names the path of a side, or if it is about a report file, the
file that stands for the side. -/
def Points (b : Bench σ) (a : Adapter) (side : Side) (e : Failure) : Prop :=
  e.isPerFile = true → (¬ e.AboutReport ∧ e.path? = some side.path) ∨
    (e.AboutReport ∧ a.writesFile = true ∧ ∃ file, b.StandsFor a side file ∧ e.path? = some file)

/-- **Attribution** puts the path of the side into a tool's failure, and into no other. -/
theorem points_lintAs {file : Path} (hfile : b.StandsFor a side file) :
    FailsIn (b.Points a side) (lintAs side (a.linter b.box) file) := by
  refine (a.failsIn_lint b.box file).reword fun e he _ => ?_
  rcases he with ⟨m, rfl⟩ | ⟨hw, habout, hpath⟩
  · exact Or.inl ⟨id, rfl⟩
  · -- only failures of the tool are reworded
    have heq : Failure.attributeTo side.path e = e := by
      cases e with
      | lintTool => exact absurd habout id
      | _ => rfl
    rw [heq]
    exact Or.inr ⟨habout, hw, file, hfile, hpath⟩

theorem points_resource {m : String} (h : ¬ (Failure.resource side.path m).AboutReport) :
    b.Points a side (.resource side.path m) := fun _ => Or.inl ⟨h, rfl⟩

theorem points_of_not_isPerFile {e : Failure} (he : e.isPerFile = false) : b.Points a side e := fun h => by
  rw [he] at h
  cases h

theorem points_lintCopy (hvcs : b.vcs.FailsWhole) (ha : a.tool.needsCheckout = false) :
    FailsIn (b.Points a side) (b.lintCopy (a.linter b.box) side) := by
  refine .withFile (fun reason => points_resource ?_) fun token => ?_
  · exact Failure.not_aboutReport_of_take _ 18 reason (by decide) (by decide) (by decide)
  · refine (FailsIn.reword (.call fun w e he => hvcs.readBlob _ w e he) fun e he => ?_).bind fun content => ?_
    · cases e with
      | io m =>
        exact points_resource (Failure.not_aboutReport_of_take _ 18 m (by decide) (by decide) (by decide))
      | _ => exact points_of_not_isPerFile he
    · refine (FailsIn.fill content).bind fun _ => ?_
      refine (FailsIn.notify (FailsIn.bind (.need_splitCharacter _) fun _ => .pure _)).bind fun _ => ?_
      refine points_lintAs ?_
      rw [StandsFor, ha]
      exact ⟨token, rfl⟩

theorem points_visit (hvcs : b.vcs.FailsWhole) (ha : a.tool.needsCheckout = true) :
    FailsIn (b.Points a side) (b.visit (a.linter b.box) side) := by
  refine (FailsIn.reword (.call fun w e he => hvcs.checkout _ w e he) fun e he => ?_).bind fun _ => ?_
  · exact points_resource (Failure.not_aboutReport_message _ he)
  · refine points_lintAs ?_
    rw [StandsFor, ha]
    rfl

/-- A tree that cannot be held is a failure of the path that is to be linted. -/
theorem failsIn_holdTree (hvcs : b.vcs.FailsWhole) (path : Path) :
    FailsIn (fun e => ¬ e.AboutReport ∧ e.path? = some path) (b.holdTree path) := by
  refine (FailsIn.reword (.call fun w e he => hvcs.isClean w e he) fun e he => ?_).bind fun clean => ?_
  · exact ⟨Failure.not_aboutReport_message path he, rfl⟩
  · cases clean
    · exact .fail ⟨Failure.not_aboutReport_uncommitted path, rfl⟩
    · refine FailsIn.reword (.call fun w e he => hvcs.head w e he) fun e he => ?_
      exact ⟨Failure.not_aboutReport_message path he, rfl⟩

theorem failsIn_announce {P : Failure → Prop} (linter : Linter σ) (side : Side) :
    FailsIn P (b.announce linter side) :=
  .notify (FailsIn.bind (.need_splitCharacter _) fun _ => .pure _)

theorem failsIn_restore {P : Failure → Prop} (name : Head) : FailsIn P (b.restore name) := by
  refine (FailsIn.attempt _).bind fun answer => ?_
  cases answer
  · exact .notify (FailsIn.bind (.need_splitCharacter _) fun _ => .pure _)
  · exact .pure _

/-! ## Both sides -/

/-- The path by which a change is known is the path of one of its sides. -/
theorem exists_side (change : Change) (source target : CommitId) :
    ∃ side : Side, side.Of change source target ∧ side.path = change.path := by
  cases change with
  | added path blob => exact ⟨⟨target, path, blob⟩, Or.inr rfl, rfl⟩
  | deleted path blob => exact ⟨⟨source, path, blob⟩, Or.inl rfl, rfl⟩
  | modified _ _ postPath postBlob _ => exact ⟨⟨target, postPath, postBlob⟩, Or.inr rfl, rfl⟩

variable {change : Change} {source target : CommitId}

/-- A failure of a change points to one of its sides. -/
def PointsToSide (b : Bench σ) (a : Adapter) (change : Change) (source target : CommitId) (e : Failure) :
    Prop :=
  ∃ side : Side, side.Of change source target ∧ b.Points a side e

theorem pointsToSide_lintCopies (hvcs : b.vcs.FailsWhole) (ha : a.tool.needsCheckout = false)
    {side? : Option Side} (hside : ∀ side, side? = some side → side.Of change source target) :
    FailsIn (b.PointsToSide a change source target) (b.lintCopy? (a.linter b.box) side?) := by
  cases side? with
  | none => exact .pure _
  | some side => exact (points_lintCopy hvcs ha).mono fun e he => ⟨side, hside side rfl, he⟩

theorem pointsToSide_lintInTree (hvcs : b.vcs.FailsWhole) (ha : a.tool.needsCheckout = true) :
    FailsIn (b.PointsToSide a change source target) (b.lintInTree (a.linter b.box) change.path
      (Side.before change source) (Side.after change target)) := by
  have hvisit {side : Side} (hside : side.Of change source target) :
      FailsIn (b.PointsToSide a change source target) (b.visit (a.linter b.box) side) :=
    (points_visit hvcs ha).mono fun e he => ⟨side, hside, he⟩
  refine FailsIn.bind ((failsIn_holdTree hvcs change.path).mono fun e he => ?_) fun name => ?_
  · -- the tree is held in the name of the change, whose path is that of its last side
    obtain ⟨side, hside, hpath⟩ := exists_side change source target
    exact ⟨side, hside, fun _ => Or.inl ⟨he.1, by rw [he.2, hpath]⟩⟩
  · rcases hpre : Side.before change source with _ | before <;>
      rcases hpost : Side.after change target with _ | after
    · exact .pure _
    · refine (failsIn_announce _ _).bind fun _ => .ensuring ?_ (failsIn_restore name)
      exact (hvisit (Or.inr hpost)).bind fun _ => .pure _
    · refine (failsIn_announce _ _).bind fun _ => .ensuring ?_ (failsIn_restore name)
      exact (hvisit (Or.inl hpre)).bind fun _ => .pure _
    · refine (failsIn_announce _ _).bind fun _ => .ensuring ?_ (failsIn_restore name)
      exact (hvisit (Or.inl hpre)).bind fun _ => (failsIn_announce _ _).bind fun _ =>
        (hvisit (Or.inr hpost)).bind fun _ => .pure _

theorem pointsToSide_lintChange (hvcs : b.vcs.FailsWhole) :
    FailsIn (b.PointsToSide a change source target)
      (b.lintChange (a.linter b.box) change source target) := by
  unfold lintChange
  dsimp only
  split
  · next ha => exact pointsToSide_lintInTree hvcs ha
  · next ha =>
    have ha : a.tool.needsCheckout = false := Bool.eq_false_iff.2 ha
    exact (pointsToSide_lintCopies hvcs ha fun _ => Or.inl).bind fun _ =>
      (pointsToSide_lintCopies hvcs ha fun _ => Or.inr).bind fun _ => .pure _

/-- **The path of a failure** that concerns a single file, where version control fails only as a whole: it
is that of a side of the change, unless the failure is about a report file, and then it is the path of
the file that the tool was to lint. -/
theorem path_of_failed_lintChange (hvcs : b.vcs.FailsWhole) {s s' : Session σ} {e : Failure}
    (h : (b.lintChange (a.linter b.box) change source target).exec s = (.error (.failed e), s'))
    (he : e.isPerFile = true) :
    (¬ e.AboutReport → ∃ side : Side, side.Of change source target ∧ e.path? = some side.path) ∧
    (e.AboutReport → a.writesFile = true ∧ ∃ (side : Side) (file : Path),
      side.Of change source target ∧ b.StandsFor a side file ∧ e.path? = some file) := by
  obtain ⟨side, hside, hpoints⟩ := pointsToSide_lintChange hvcs s e s' h
  rcases hpoints he with ⟨hn, hpath⟩ | ⟨habout, hw, file, hfile, hpath⟩
  · exact ⟨fun _ => ⟨side, hside, hpath⟩, fun habout => absurd habout hn⟩
  · exact ⟨fun hn => absurd habout hn, fun _ => ⟨hw, side, file, hside, hfile, hpath⟩⟩

/-- A bench that nothing disturbs, but for a directory of temporary files that is missing. -/
def untemporary : Bench Head :=
  { placid [] with box := { (placid []).box with temp := { (placid []).box.temp with present := false } } }

/-- When a report file cannot be made, the failure names the file that was checked out. -/
theorem path_of_failed_lintChange_of_untemporary :
    ∃ e s', (untemporary.lintChange ((Adapter.ofTool .oclint).linter untemporary.box)
        (.added (.ofString "a.c") ⟨"1"⟩) ⟨"s"⟩ ⟨"t"⟩).exec (Session.start (.branch "main")) =
          (.error (.failed e), s') ∧
      (∃ (side : Side) (file : Path), side.Of (.added (.ofString "a.c") ⟨"1"⟩) ⟨"s"⟩ ⟨"t"⟩ ∧
        untemporary.StandsFor (.ofTool .oclint) side file ∧ e.path? = some file) ∧
      e.path? ≠ some (.ofString "a.c") := by
  have hrun : ∃ e s', (untemporary.lintChange ((Adapter.ofTool .oclint).linter untemporary.box)
      (.added (.ofString "a.c") ⟨"1"⟩) ⟨"s"⟩ ⟨"t"⟩).exec (Session.start (.branch "main")) =
        (.error (.failed e), s') ∧
      e.isPerFile = true ∧ e.AboutReport ∧ e.path? ≠ some (.ofString "a.c") :=
    ⟨_, _, rfl, rfl, ⟨_, Or.inl rfl⟩, by decide⟩
  obtain ⟨e, s', h, he, habout, hne⟩ := hrun
  have hvcs : untemporary.vcs.FailsWhole := ⟨nofun, nofun, nofun, nofun⟩
  obtain ⟨-, hreport⟩ := path_of_failed_lintChange hvcs h he
  exact ⟨e, s', h, (hreport habout).2, hne⟩

end Bench

end LintDelta
