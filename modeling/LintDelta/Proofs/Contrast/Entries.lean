import LintDelta.Failure
import LintDelta.Report

/-!
# Entering changes into a report

What a contrast does to one change is one of four things (`Fate`), and a report grows by one entry for
each change. What an entry does to every part of the report is said once, in `enter_cases`; whatever
holds of all reports is shown from there, by induction on the entries.
-/

namespace LintDelta

/-- How a change fared. -/
inductive Fate where
  /-- Its content is the same on both sides. -/
  | unchanged
  /-- It has no linter. -/
  | unrouted
  | linted (linter : String) (pre post : Tally)
  /-- Its linter failed, and it was passed over. -/
  | failed (linter : String) (failure : Failure)
  deriving DecidableEq, Repr

/-- The numbers of files with one more under a name. -/
def FileCounts.up (counts : FileCounts) (name : String) : FileCounts :=
  counts.insert name ((counts.find? name).getD 0 + 1)

namespace Report

/-- The report on one more change that fared in a way. -/
def enter (r : Report) (change : Change) (fate : Fate) : Option Report := do
  let r ← r.countFile change.kind.label
  match fate with
  | .unchanged | .unrouted => return r
  | .linted linter pre post => r.record (← FileDiff.make change change.kind linter pre post)
  | .failed linter failure => return r.noteFailure ⟨change.path, linter, failure.message⟩

/-- The report on one change after another. -/
def enterAll (r : Report) (walk : List (Change × Fate)) : Option Report :=
  walk.foldlM (fun r (change, fate) => r.enter change fate) r

theorem enterAll_cons (r : Report) (change : Change) (fate : Fate) (rest : List (Change × Fate)) :
    r.enterAll ((change, fate) :: rest) = (r.enter change fate).bind (·.enterAll rest) := rfl

theorem eq_of_countFile {r r' : Report} {name : String} (h : r.countFile name = some r') :
    r' = { r with fileCounts := r.fileCounts.up name } := by
  obtain ⟨n, hn, h⟩ := Option.bind_eq_some_iff.1 h
  unfold Machine.next at hn
  split at hn <;> cases hn
  cases h
  rfl

theorem eq_of_addFile {r r' : Report} {file : FileDiff} (h : r.addFile file = some r') :
    ∃ preTotal postTotal netTotal, r.preTotal.add file.pre = some preTotal ∧
      r.postTotal.add file.post = some postTotal ∧ r.netTotal.add file.net = some netTotal ∧
      r' = { r with preTotal, postTotal, netTotal, files := r.files ++ [file] } := by
  simp only [addFile, bind, Option.bind_eq_some_iff] at h
  obtain ⟨_, hpre, _, hpost, _, hnet, h⟩ := h
  cases h
  exact ⟨_, _, _, hpre, hpost, hnet, rfl⟩

theorem eq_of_make {change : Change} {kind : Change.Kind} {linter : String} {pre post : Tally}
    {file : FileDiff} (h : FileDiff.make change kind linter pre post = some file) :
    ∃ net, Tally.net pre post = some net ∧ file = ⟨change, kind, linter, pre, post, net⟩ := by
  obtain ⟨net, hnet, h⟩ := Option.bind_eq_some_iff.1 h
  cases h
  exact ⟨net, hnet, rfl⟩

/-- **What an entry does to a report**: it counts the class of the change, and beyond that only a
linted file and a failure leave something. -/
theorem enter_cases {r r' : Report} {change : Change} {fate : Fate} (h : r.enter change fate = some r') :
    match fate with
    | .unchanged | .unrouted => r' = { r with fileCounts := r.fileCounts.up change.kind.label }
    | .linted linter pre post => ∃ net preTotal postTotal netTotal,
      Tally.net pre post = some net ∧ r.preTotal.add pre = some preTotal ∧
      r.postTotal.add post = some postTotal ∧ r.netTotal.add net = some netTotal ∧
      r' = { r with
        preTotal, postTotal, netTotal
        files := r.files ++ [⟨change, change.kind, linter, pre, post, net⟩]
        fileCounts := (r.fileCounts.up change.kind.label).up (lintedName change.kind linter) }
    | .failed linter failure => r' = { r with
        fileCounts := r.fileCounts.up change.kind.label
        failures := r.failures ++ [⟨change.path, linter, failure.message⟩] } := by
  obtain ⟨r₁, h₁, h⟩ := Option.bind_eq_some_iff.1 h
  obtain rfl := eq_of_countFile h₁
  cases fate with
  | linted linter pre post =>
    obtain ⟨file, hfile, h⟩ := Option.bind_eq_some_iff.1 h
    obtain ⟨net, hnet, rfl⟩ := eq_of_make hfile
    obtain ⟨r₂, h₂, h⟩ := Option.bind_eq_some_iff.1 h
    obtain rfl := eq_of_countFile h₂
    obtain ⟨_, _, _, hpre, hpost, hnets, rfl⟩ := eq_of_addFile h
    exact ⟨net, _, _, _, hnet, hpre, hpost, hnets, rfl⟩
  | _ =>
    cases h
    rfl

/-- Entering changes keeps the two commits of a report. -/
theorem commits_of_enter {r r' : Report} {change : Change} {fate : Fate}
    (h : r.enter change fate = some r') : r'.source = r.source ∧ r'.target = r.target := by
  have h := enter_cases h
  cases fate with
  | linted linter pre post =>
    obtain ⟨_, _, _, _, -, -, -, -, rfl⟩ := h
    exact ⟨rfl, rfl⟩
  | _ =>
    cases h
    exact ⟨rfl, rfl⟩

theorem commits_of_enterAll {r r' : Report} {walk : List (Change × Fate)}
    (h : r.enterAll walk = some r') : r'.source = r.source ∧ r'.target = r.target := by
  induction walk generalizing r with
  | nil =>
    cases h
    exact ⟨rfl, rfl⟩
  | cons entry rest ih =>
    obtain ⟨change, fate⟩ := entry
    rw [enterAll_cons] at h
    obtain ⟨r₁, henter, h⟩ := Option.bind_eq_some_iff.1 h
    obtain ⟨hs, ht⟩ := commits_of_enter henter
    obtain ⟨hs', ht'⟩ := ih h
    exact ⟨hs'.trans hs, ht'.trans ht⟩

end Report

end LintDelta
