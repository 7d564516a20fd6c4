import Mathlib.Algebra.Ring.Int.Defs
import LintDelta.Proofs.Contrast.Walk
import LintDelta.Proofs.Tally.Arithmetic

/-!
# The totals of a report

The three totals of a report are kept by adding up tallies as files come in, and counts cancel and
come back on the way. The invariant is that every count of a total is the sum of the counts of the
files (`Report.Balanced`). Each entry preserves it, so every report of a contrast has it.
-/

namespace LintDelta

/-- The tallies of a file fit together: the net is the difference, and a side that does not exist has
no issues. -/
structure FileDiff.Balanced (f : FileDiff) : Prop where
  net : ∀ i, f.net.count i = f.post.count i - f.pre.count i
  pre_of_added : f.kind = .added → f.pre = ∅
  post_of_deleted : f.kind = .deleted → f.post = ∅

/-- The totals are those of the files. -/
structure Report.Balanced (r : Report) : Prop where
  files : ∀ f ∈ r.files, f.Balanced
  pre : ∀ i, r.preTotal.count i = (r.files.map (·.pre.count i)).sum
  post : ∀ i, r.postTotal.count i = (r.files.map (·.post.count i)).sum
  net : ∀ i, r.netTotal.count i = (r.files.map (·.net.count i)).sum

/-- The tallies of a change are empty on a side that it does not have. -/
def Change.Sided (change : Change) (pre post : Tally) : Prop :=
  (change.pre = none → pre = ∅) ∧ (change.post = none → post = ∅)

namespace Bench

variable {σ : Type} {b : Bench σ} {options : Options (Linter σ)} {source target : CommitId}
  {s s' s₁ s₂ : Session σ}

theorem eq_empty_of_lintCopy?_none {linter : Linter σ} {t : Tally}
    (h : (b.lintCopy? linter none).exec s = (.ok t, s')) : t = ∅ := by
  rw [lintCopy?_none] at h
  cases h
  rfl

/-- **A side that does not exist has no issues**, whether a linter sees copies or the tree. -/
theorem sided_of_lintChange {linter : Linter σ} {change : Change} {pre post : Tally}
    (h : (b.lintChange linter change source target).exec s = (.ok (pre, post), s')) :
    change.Sided pre post := by
  simp only [lintChange, Side.before, Side.after] at h
  split at h
  · simp only [lintInTree, Run.bind_eq_ok_iff] at h
    obtain ⟨_, _, -, h⟩ := h
    cases hpre : change.pre <;> cases hpost : change.post <;> rw [hpre, hpost] at h
    · cases h
      exact ⟨fun _ => rfl, fun _ => rfl⟩
    · simp only [Option.map, Run.bind_eq_ok_iff, Run.ensuring_eq_ok_iff] at h
      obtain ⟨_, _, -, _, ⟨_, _, -, h⟩, -⟩ := h
      cases h
      exact ⟨fun _ => rfl, by simp [hpost]⟩
    · simp only [Option.map, Run.bind_eq_ok_iff, Run.ensuring_eq_ok_iff] at h
      obtain ⟨_, _, -, _, ⟨_, _, -, h⟩, -⟩ := h
      cases h
      exact ⟨by simp [hpre], fun _ => rfl⟩
    · exact ⟨by simp [hpre], by simp [hpost]⟩
  · simp only [Run.bind_eq_ok_iff] at h
    obtain ⟨_, _, hpre, _, _, hpost, h⟩ := h
    cases h
    refine ⟨fun hn => ?_, fun hn => ?_⟩
    · rw [hn] at hpre
      exact eq_empty_of_lintCopy?_none hpre
    · rw [hn] at hpost
      exact eq_empty_of_lintCopy?_none hpost

/-- In a step of a contrast, a linted change has no issues on a side that it does not have. -/
theorem Fares.sided {change : Change} {linter : String} {pre post : Tally}
    (h : b.Fares options source target s change (.linted linter pre post) s') :
    change.Sided pre post := by
  cases h with
  | linted _ _ hl => exact sided_of_lintChange hl

end Bench

/-! ## One entry -/

/-- A file whose net was computed from its sides is balanced. -/
theorem FileDiff.balanced_of_sided {change : Change} {pre post net : Tally} (linter : String)
    (hsided : change.Sided pre post) (hnet : Tally.net pre post = some net) :
    (FileDiff.mk change change.kind linter pre post net).Balanced where
  net := Tally.count_net hnet
  pre_of_added h := hsided.1 (Change.pre_eq_none_iff.2 h)
  post_of_deleted h := hsided.2 (Change.post_eq_none_iff.2 h)

/-- Over balanced files, the sum of the nets is the difference of the two sums. -/
theorem FileDiff.sum_net {files : List FileDiff} (h : ∀ f ∈ files, f.Balanced) (i : Issue) :
    (files.map (·.net.count i)).sum = (files.map (·.post.count i)).sum - (files.map (·.pre.count i)).sum := by
  induction files with
  | nil => rfl
  | cons f rest ih =>
    have hf := (h f List.mem_cons_self).net i
    have hrest := ih fun g hg => h g (List.mem_cons_of_mem f hg)
    simp only [List.map_cons, List.sum_cons]
    omega

namespace Report

theorem balanced_start (source target : CommitId) : (start source target).Balanced :=
  ⟨nofun, fun _ => rfl, fun _ => rfl, fun _ => rfl⟩

/-- **An entry keeps the totals right**: a linted file adds to every total what it adds to the files,
and no other fate touches either. -/
theorem balanced_enter {r r' : Report} {change : Change} {fate : Fate} (hr : r.Balanced)
    (hfate : ∀ linter pre post, fate = .linted linter pre post → change.Sided pre post)
    (h : r.enter change fate = some r') : r'.Balanced := by
  have h := enter_cases h
  cases fate with
  | linted linter pre post =>
    obtain ⟨net, preTotal, postTotal, netTotal, hnet, hpre, hpost, hnets, rfl⟩ := h
    have hfile := FileDiff.balanced_of_sided linter (hfate linter pre post rfl) hnet
    refine ⟨fun f hmem => ?_, fun i => ?_, fun i => ?_, fun i => ?_⟩
    · rcases List.mem_append.1 hmem with hmem | hmem
      · exact hr.files f hmem
      · exact List.mem_singleton.1 hmem ▸ hfile
    · simp [Tally.count_add hpre i, hr.pre i]
    · simp [Tally.count_add hpost i, hr.post i]
    · simp [Tally.count_add hnets i, hr.net i]
  | _ =>
    cases h
    exact ⟨hr.files, hr.pre, hr.post, hr.net⟩

/-- All entries of a walk keep the totals right, by induction on the walk. -/
theorem balanced_enterAll {σ : Type} {b : Bench σ} {options : Options (Linter σ)}
    {source target : CommitId} {s s' : Session σ} {walk : List (Change × Fate)}
    (hwalk : b.Walk options source target s walk s') :
    ∀ {r r' : Report}, r.Balanced → r.enterAll walk = some r' → r'.Balanced := by
  induction hwalk with
  | nil s =>
    intro r r' hr h
    cases h
    exact hr
  | cons step tail ih =>
    intro r r' hr h
    rw [enterAll_cons] at h
    obtain ⟨r₁, henter, h⟩ := Option.bind_eq_some_iff.1 h
    refine ih (balanced_enter hr (fun linter pre post hf => ?_) henter) h
    exact (hf ▸ step).sided

/-- The net total is what the totals after say, less the totals before. -/
theorem Balanced.count_netTotal {r : Report} (hr : r.Balanced) (i : Issue) :
    r.netTotal.count i = r.postTotal.count i - r.preTotal.count i := by
  rw [hr.net, hr.post, hr.pre]
  exact FileDiff.sum_net hr.files i

end Report

namespace Bench

variable {σ : Type} {b : Bench σ} {options : Options (Linter σ)} {source target : CommitId}
  {s s' : Session σ}

theorem balanced_of_contrast {report : Report}
    (h : (b.contrast options source target).exec s = (.ok report, s')) : report.Balanced := by
  obtain ⟨s₁, s₂, walk, -, -, hwalk, -, hreport⟩ := exec_contrast_of_ok h
  exact Report.balanced_enterAll hwalk (Report.balanced_start source target) hreport

/-- **The totals of a contrast**: for every issue, whatever the tools, the routes and the policy, each
total of the report is the sum over its files, every net is the difference of its two sides, and a
side that a file does not have has no issues. -/
theorem totals_of_contrast {report : Report}
    (h : (b.contrast options source target).exec s = (.ok report, s')) (i : Issue) :
    report.preTotal.count i = (report.files.map (·.pre.count i)).sum ∧
    report.postTotal.count i = (report.files.map (·.post.count i)).sum ∧
    report.netTotal.count i = (report.files.map (·.net.count i)).sum ∧
    report.netTotal.count i = report.postTotal.count i - report.preTotal.count i ∧
    ∀ f ∈ report.files, f.net.count i = f.post.count i - f.pre.count i ∧
      (f.kind = .added → f.pre = ∅) ∧
      (f.kind = .deleted → f.post = ∅ ∧ f.net.count i = -f.pre.count i) := by
  have hr := balanced_of_contrast h
  refine ⟨hr.pre i, hr.post i, hr.net i, hr.count_netTotal i, fun f hf => ?_⟩
  have hfile := hr.files f hf
  refine ⟨hfile.net i, hfile.pre_of_added, fun hk => ?_⟩
  have hpost := hfile.post_of_deleted hk
  refine ⟨hpost, ?_⟩
  have hempty : (∅ : Tally).count i = 0 := Tally.count_empty i
  rw [hfile.net i, hpost, hempty]
  omega

/-- A deleted file with one issue: it takes that issue away from the net total. -/
theorem totals_of_contrast_of_deletion :
    ∃ report s', ((placid [.deleted (.ofString "a.c") ⟨"1"⟩]).contrast
        ⟨none, Routing.empty.add ".c" (finder ⟨"goto", "finder", .format⟩), .abort⟩ ⟨"s"⟩ ⟨"t"⟩).exec
          (Session.start (.branch "main")) = (.ok report, s') ∧
      report.netTotal.count ⟨"goto", "finder", .format⟩ = -1 := by
  have hrun : ∃ report s', ((placid [.deleted (.ofString "a.c") ⟨"1"⟩]).contrast
      ⟨none, Routing.empty.add ".c" (finder ⟨"goto", "finder", .format⟩), .abort⟩ ⟨"s"⟩ ⟨"t"⟩).exec
        (Session.start (.branch "main")) = (.ok report, s') ∧
      report.preTotal.count ⟨"goto", "finder", .format⟩ = 1 ∧
      report.postTotal.count ⟨"goto", "finder", .format⟩ = 0 := ⟨_, _, rfl, by decide, by decide⟩
  obtain ⟨report, s', h, hpre, hpost⟩ := hrun
  obtain ⟨-, -, -, hnet, -⟩ := totals_of_contrast h ⟨"goto", "finder", .format⟩
  exact ⟨report, s', h, by rw [hnet, hpre, hpost]; rfl⟩

end Bench

end LintDelta
