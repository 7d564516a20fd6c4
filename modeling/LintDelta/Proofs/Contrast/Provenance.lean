import LintDelta.Proofs.Contrast.Accounting
import LintDelta.Proofs.Contrast.Frames
import LintDelta.Proofs.Linter.Judging

/-!
# Where tallies come from

Nothing between a linter and a report changes a tally: both tallies of a file are what its linter ended
with, or empty where the file has no such side (`tallies_of_contrast`). With the tools, every tally is
therefore the reading of a tool's report (`reads_of_contrast`).
-/

namespace LintDelta

open Run (EndsIn)

variable {σ : Type}

/-! ## Tools -/

/-- A tally of a report that a tool can have left. -/
def Tool.Reads (tool : Tool) (t : Tally) : Prop :=
  ∃ report, tool.parseReport report = .ok t

namespace Adapter

theorem Usable.reads {a : Adapter} {path : Path} {outcome : Outcome} {t : Tally}
    (h : a.Usable path outcome t) : a.tool.Reads t := by
  obtain ⟨report, -, -, htally⟩ := h.report
  exact ⟨report, htally⟩

/-- An adapter ends with what its tool reported. -/
theorem endsIn_lint (a : Adapter) (box : Toolbox σ) (path : Path) :
    EndsIn a.tool.Reads (a.lint box path) := fun s t s' hrun => by
  obtain ⟨outcome, -, husable⟩ := exists_usable_of_lint (congrArg (·.1) hrun)
  exact husable.reads

end Adapter

/-! ## Sides -/

namespace Bench

variable {b : Bench σ} {linter : Linter σ} {P : Tally → Prop}

theorem endsIn_lintAs (hlint : ∀ file, EndsIn P (linter.lint file)) (side : Side) (file : Path) :
    EndsIn P (lintAs side linter file) := (hlint file).reword _

theorem endsIn_visit (hlint : ∀ file, EndsIn P (linter.lint file)) (side : Side) :
    EndsIn P (b.visit linter side) := .after fun _ => endsIn_lintAs hlint side _

theorem endsIn_lintCopy (hlint : ∀ file, EndsIn P (linter.lint file)) (side : Side) :
    EndsIn P (b.lintCopy linter side) := by
  unfold lintCopy
  refine .withFile fun file => ?_
  exact .after fun _ => .after fun _ => .after fun _ => endsIn_lintAs hlint side file

theorem endsIn_lintCopy? (hempty : P ∅) (hlint : ∀ file, EndsIn P (linter.lint file)) :
    ∀ side, EndsIn P (b.lintCopy? linter side)
  | none => .pure hempty
  | some side => endsIn_lintCopy hlint side

/-- Both tallies of a change are the linter's, or empty. -/
theorem endsIn_lintChange (hempty : P ∅) (hlint : ∀ file, EndsIn P (linter.lint file)) (change : Change)
    (source target : CommitId) :
    EndsIn (fun both => P both.1 ∧ P both.2) (b.lintChange linter change source target) := by
  unfold lintChange
  dsimp only
  split
  · refine .after fun name => ?_
    rcases Side.before change source with _ | before <;> rcases Side.after change target with _ | after
    · exact .pure ⟨hempty, hempty⟩
    · exact .after fun _ => .ensuring ((endsIn_visit hlint after).bind fun _ h => .pure ⟨hempty, h⟩) _
    · exact .after fun _ => .ensuring ((endsIn_visit hlint before).bind fun _ h => .pure ⟨h, hempty⟩) _
    · refine .after fun _ => .ensuring ((endsIn_visit hlint before).bind fun _ hpre => ?_) _
      exact .after fun _ => (endsIn_visit hlint after).bind fun _ hpost => .pure ⟨hpre, hpost⟩
  · exact (endsIn_lintCopy? hempty hlint _).bind fun _ hpre =>
      (endsIn_lintCopy? hempty hlint _).bind fun _ hpost => .pure ⟨hpre, hpost⟩

/-! ## Reports -/

variable {source target : CommitId} {s s' : Session σ}

/-- The tallies of a listed file are those with which its change was linted. -/
theorem linted_of_mem_files {r : Report} {walk : List (Change × Fate)} (hr : r.Accounts walk)
    {f : FileDiff} (hf : f ∈ r.files) : (f.change, .linted f.linter f.pre f.post) ∈ walk := by
  have hfinding : f.finding ∈ r.files.map FileDiff.finding := List.mem_map_of_mem hf
  rw [hr.files] at hfinding
  obtain ⟨⟨change, fate⟩, hmem, hfate⟩ := List.mem_filterMap.1 hfinding
  cases fate with
  | linted linter pre post =>
    simp only [Fate.finding?, FileDiff.finding, Option.some.injEq, Prod.mk.injEq] at hfate
    obtain ⟨rfl, -, rfl, rfl, rfl⟩ := hfate
    exact hmem
  | _ => cases hfate

theorem Fares.exists_linter {options : Options (Linter σ)} {change : Change} {name : String}
    {pre post : Tally} (h : b.Fares options source target s change (.linted name pre post) s') :
    ∃ linter s₁, options.routing.select change.path options.language = some linter ∧
      linter.name = name ∧ (b.lintChange linter change source target).exec s₁ = (.ok (pre, post), s') := by
  cases h with
  | linted _ hsel hl => exact ⟨_, _, hsel, rfl, hl⟩

/-- **What holds of every tally of a linter**, and of the empty one, holds of both tallies of every file
that is listed under the linter's name. -/
theorem tallies_of_contrast {Q : String → Tally → Prop} {options : Options (Linter σ)} {report : Report}
    (hempty : ∀ name, Q name ∅)
    (hlint : ∀ path linter, options.routing.select path options.language = some linter →
      ∀ file, EndsIn (Q linter.name) (linter.lint file))
    (h : (b.contrast options source target).exec s = (.ok report, s')) :
    ∀ f ∈ report.files, Q f.linter f.pre ∧ Q f.linter f.post := fun f hf => by
  obtain ⟨s₁, s₂, walk, -, -, hwalk, -, hreport⟩ := exec_contrast_of_ok h
  have hr : report.Accounts walk := Report.accounts_enterAll (Report.accounts_start source target) hreport
  obtain ⟨s₃, s₄, hfares⟩ := hwalk.fares (linted_of_mem_files hr hf)
  obtain ⟨linter, s₅, hsel, hname, hrun⟩ := hfares.exists_linter
  have hends : ∀ file, EndsIn (Q f.linter) (linter.lint file) := hname ▸ hlint _ linter hsel
  exact endsIn_lintChange (hempty f.linter) hends _ _ _ _ _ _ hrun

/-- With the tools, every tally that is not empty was read off a report of the tool under which its file
is listed. -/
theorem reads_of_contrast {options : Options Adapter} {report : Report}
    (h : (b.contrast (options.equip b.box) source target).exec s = (.ok report, s')) :
    ∀ f ∈ report.files, (f.pre = ∅ ∨ ∃ tool : Tool, tool.title = f.linter ∧ tool.Reads f.pre) ∧
      (f.post = ∅ ∨ ∃ tool : Tool, tool.title = f.linter ∧ tool.Reads f.post) :=
  tallies_of_contrast (Q := fun name t => t = ∅ ∨ ∃ tool : Tool, tool.title = name ∧ tool.Reads t)
    (fun _ => Or.inl rfl)
    (fun _ _ hsel file s t s' hrun => by
      obtain ⟨a, rfl⟩ := Options.exists_adapter_of_select hsel
      exact Or.inr ⟨a.tool, rfl, a.endsIn_lint b.box file s t s' hrun⟩) h

end Bench

end LintDelta
