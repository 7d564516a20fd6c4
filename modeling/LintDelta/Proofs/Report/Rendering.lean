import Mathlib.Algebra.Order.BigOperators.Group.List
import Mathlib.Algebra.Order.Ring.Int
import LintDelta.Proofs.Contrast.Provenance
import LintDelta.Proofs.Contrast.Totals
import LintDelta.Proofs.Partial
import LintDelta.Report.Text

/-!
# Which reports can be rendered

A report for people shows any path, and a report for machines holds paths as text. So every report of a
contrast has a rendering as text, while it has one as JSON exactly if the path of every file that was
passed over is text (`rendering_of_contrast`).

Nothing overflows on the way. Counts of a report are numbers of occurrences, and two of them differ by no
more than the greater one.
-/

namespace LintDelta

/-! ## Tallies of occurrences -/

/-- No count is negative. -/
def Tally.Nonneg (t : Tally) : Prop :=
  ∀ i, 0 ≤ t.count i

theorem Tally.nonneg_empty : (∅ : Tally).Nonneg := fun i => Int.le_of_eq (count_empty i).symm

/-- A tool reports occurrences. -/
theorem Tool.Reads.nonneg {tool : Tool} {t : Tally} (h : tool.Reads t) : t.Nonneg := fun i => by
  obtain ⟨report, h⟩ := h
  obtain ⟨issues, -, ht⟩ := parseReport_eq_ok_iff.1 h
  rw [Tally.count_ofIssues ht]
  omega

/-- Counts that are not negative do not move out of range. -/
theorem Tally.exists_net_of_nonneg {pre post : Tally} (hpre : pre.Nonneg) (hpost : post.Nonneg) :
    ∀ m ∈ Tally.compare pre post, ∃ n, m.net = some n := fun m hm => by
  obtain ⟨i, -, rfl⟩ := List.mem_map.1 hm
  have hfits : Machine.fits (post.count i - pre.count i) = true := by
    have h₁ := fits_count pre i
    have h₂ := fits_count post i
    have h₃ := hpre i
    have h₄ := hpost i
    simp only [Machine.fits, Bool.and_eq_true, decide_eq_true_eq] at *
    omega
  exact ⟨_, Machine.check_eq_some_iff.2 ⟨hfits, rfl⟩⟩

namespace Report

/-! ## Reports for people -/

theorem exists_moved {pre post : Tally} (hpre : pre.Nonneg) (hpost : post.Nonneg) :
    ∃ movements, moved pre post = some movements := by
  have hnet := Tally.exists_net_of_nonneg hpre hpost
  unfold moved
  generalize Tally.compare pre post = movements at hnet
  induction movements with
  | nil => exact ⟨[], rfl⟩
  | cons m rest ih =>
    obtain ⟨n, hn⟩ := hnet m List.mem_cons_self
    obtain ⟨kept, hkept⟩ := ih fun m' hm' => hnet m' (List.mem_cons_of_mem m hm')
    exact ⟨_, by rw [List.foldrM_cons, hkept]; simp [hn]; rfl⟩

theorem exists_body (theme : Theme) {pre post : Tally} (hpre : pre.Nonneg) (hpost : post.Nonneg) :
    ∃ lines, body theme pre post = some lines := by
  obtain ⟨movements, hmoved⟩ := exists_moved hpre hpost
  unfold body
  rw [hmoved]
  cases movements with
  | nil => exact ⟨_, rfl⟩
  | cons m rest => exact ⟨_, rfl⟩

/-- Files of occurrences have sections. -/
theorem exists_sections (theme : Theme) {files : List FileDiff} (h : ∀ f ∈ files, f.pre.Nonneg ∧ f.post.Nonneg) :
    ∃ sections, files.mapM (fileSection theme) = some sections :=
  exists_mapM_iff.2 fun f hf => by
    obtain ⟨lines, hlines⟩ := exists_body theme (h f hf).1 (h f hf).2
    exact ⟨_, by rw [fileSection, hlines]; rfl⟩

/-- A report of occurrences between two ids that can be cut has a text. -/
theorem exists_text (theme : Theme) {r : Report} (hsource : r.source.IsAscii) (htarget : r.target.IsAscii)
    (hfiles : ∀ f ∈ r.files, f.pre.Nonneg ∧ f.post.Nonneg) (hpre : r.preTotal.Nonneg)
    (hpost : r.postTotal.Nonneg) : ∃ text, r.text theme = .ok text := by
  have hs := CommitId.short_of_ascii hsource
  have ht := CommitId.short_of_ascii htarget
  obtain ⟨sections, hsections⟩ := exists_sections theme hfiles
  obtain ⟨lines, hlines⟩ := exists_body theme hpre hpost
  exact ⟨_, by simp only [text, textLines, title, overall, hs, ht, hsections, hlines]; rfl⟩

/-! ## Reports for machines -/

theorem exists_failureJson_iff {f : FileFailure} :
    (∃ x, StructuredReport.failureJson f = some x) ↔ ∃ name, f.path.text? = some name := by
  unfold StructuredReport.failureJson
  cases f.path.text? with
  | none => simp
  | some name => exact ⟨fun _ => ⟨name, rfl⟩, fun _ => ⟨_, rfl⟩⟩

/-- **A report can be written as JSON** exactly if the path of every failure is text. -/
theorem exists_json_iff {r : Report} :
    (∃ text, r.json = .ok text) ↔ ∀ f ∈ r.failures, ∃ name, f.path.text? = some name := by
  have hmembers : (∃ text, r.json = .ok text) ↔
      ∃ xs, r.failures.mapM StructuredReport.failureJson = some xs := by
    unfold json StructuredReport.writeText StructuredReport.members StructuredReport.ofReport
    cases r.failures.mapM StructuredReport.failureJson with
    | none => exact ⟨nofun, nofun⟩
    | some xs => exact ⟨fun _ => ⟨xs, rfl⟩, fun _ => ⟨_, rfl⟩⟩
  rw [hmembers, exists_mapM_iff]
  exact forall₂_congr fun f _ => exists_failureJson_iff

/-- There is one reason only for which a report cannot be written as JSON. -/
theorem eq_notText_of_json {r : Report} {e : RenderError} (h : r.json = .error e) : e = .notText := by
  unfold json orElse at h
  split at h
  · cases h
  · cases h
    rfl

/-- A report of occurrences is not one that cannot be rendered because a movement overflows. -/
theorem render_ne_overflow (theme : Theme) (format : Format) {r : Report}
    (hfiles : ∀ f ∈ r.files, f.pre.Nonneg ∧ f.post.Nonneg) (hpre : r.preTotal.Nonneg) (hpost : r.postTotal.Nonneg) :
    r.render theme format ≠ .error .overflow := by
  cases format with
  | text =>
    obtain ⟨sections, hsections⟩ := exists_sections theme hfiles
    obtain ⟨lines, hlines⟩ := exists_body theme hpre hpost
    simp only [render, text, textLines, overall, hsections, hlines]
    cases r.title theme <;> exact nofun
  | json => exact fun h => nomatch eq_notText_of_json h

end Report

/-! ## Reports of contrasts -/

namespace Bench

variable {σ : Type} {b : Bench σ} {source target : CommitId} {s s' : Session σ}

/-- With the tools, a report counts occurrences. -/
theorem nonneg_of_contrast {options : Options Adapter} {report : Report}
    (h : (b.contrast (options.equip b.box) source target).exec s = (.ok report, s')) :
    (∀ f ∈ report.files, f.pre.Nonneg ∧ f.post.Nonneg) ∧ report.preTotal.Nonneg ∧
      report.postTotal.Nonneg := by
  have hread {name : String} {t : Tally}
      (ht : t = ∅ ∨ ∃ tool : Tool, tool.title = name ∧ tool.Reads t) : t.Nonneg := by
    rcases ht with rfl | ⟨tool, -, ht⟩
    · exact Tally.nonneg_empty
    · exact ht.nonneg
  have hfiles : ∀ f ∈ report.files, f.pre.Nonneg ∧ f.post.Nonneg := fun f hf =>
    (reads_of_contrast h f hf).imp hread hread
  have hbalanced := balanced_of_contrast h
  refine ⟨hfiles, fun i => ?_, fun i => ?_⟩
  · rw [hbalanced.pre]
    exact List.sum_nonneg (List.forall_mem_map.2 fun f hf => (hfiles f hf).1 i)
  · rw [hbalanced.post]
    exact List.sum_nonneg (List.forall_mem_map.2 fun f hf => (hfiles f hf).2 i)

theorem commits_of_contrast {options : Options (Linter σ)} {report : Report}
    (h : (b.contrast options source target).exec s = (.ok report, s')) :
    report.source = source ∧ report.target = target := by
  obtain ⟨_, _, walk, -, -, -, -, hreport⟩ := exec_contrast_of_ok h
  exact Report.commits_of_enterAll hreport

/-- **The renderings of a report.** A contrast with the tools between commits whose ids can be cut, that
ends with a report, whatever files it passed over: the report has a text. It has a JSON text exactly if
the paths of the files that it passed over are text, and there is no other reason for it to have none. -/
theorem rendering_of_contrast (theme : Theme) {options : Options Adapter} {report : Report}
    (hsource : source.IsAscii) (htarget : target.IsAscii)
    (h : (b.contrast (options.equip b.box) source target).exec s = (.ok report, s')) :
    (∃ text, report.render theme .text = .ok text) ∧
    ((∃ text, report.render theme .json = .ok text) ↔
      ∀ f ∈ report.failures, ∃ name, f.path.text? = some name) ∧
    (∀ e, report.render theme .json = .error e → e = .notText) := by
  obtain ⟨hfiles, hpre, hpost⟩ := nonneg_of_contrast h
  obtain ⟨hs, ht⟩ := commits_of_contrast h
  refine ⟨?_, Report.exists_json_iff, fun _ => Report.eq_notText_of_json⟩
  exact Report.exists_text theme (hs ▸ hsource) (ht ▸ htarget) hfiles hpre hpost

/-- A file whose name is no text, and a tool that leaves no report. -/
def unnamed : Bench Head :=
  { placid [.added ⟨[0xff, 0x2e, 0x70, 0x79]⟩ ⟨"1"⟩] with
    box := { (placid []).box with start := fun _ _ _ => .ok ⟨.code 1, [], [], none⟩ } }

/-- The file is passed over. Then the report has a text, and no JSON text. -/
theorem rendering_of_contrast_of_unnamed :
    CommitId.IsAscii ⟨"aaaaaaaa"⟩ ∧ CommitId.IsAscii ⟨"bbbbbbbb"⟩ ∧
    ∃ report s', (unnamed.contrast (Options.standard.equip unnamed.box) ⟨"aaaaaaaa"⟩ ⟨"bbbbbbbb"⟩).exec
        (Session.start (.branch "main")) = (.ok report, s') ∧
      (∃ text, report.render .plain .text = .ok text) ∧ report.render .plain .json = .error .notText := by
  have hsource : CommitId.IsAscii ⟨"aaaaaaaa"⟩ := by decide
  have htarget : CommitId.IsAscii ⟨"bbbbbbbb"⟩ := by decide
  have hrun : ∃ report s', (unnamed.contrast (Options.standard.equip unnamed.box) ⟨"aaaaaaaa"⟩
      ⟨"bbbbbbbb"⟩).exec (Session.start (.branch "main")) = (.ok report, s') ∧
      report.failures.map (·.path.text?) = [none] := ⟨_, _, rfl, rfl⟩
  obtain ⟨report, s', h, hnames⟩ := hrun
  obtain ⟨f, hf, hname⟩ : ∃ f ∈ report.failures, f.path.text? = none := by
    simpa using List.mem_map.1 (hnames ▸ List.mem_singleton_self none)
  obtain ⟨htext, hjson, hreason⟩ := rendering_of_contrast .plain hsource htarget h
  refine ⟨hsource, htarget, report, s', h, htext, ?_⟩
  cases hr : report.render .plain .json with
  | ok text =>
    obtain ⟨name, htext⟩ := hjson.1 ⟨text, hr⟩ f hf
    cases hname.symm.trans htext
  | error e => rw [hreason e hr]

end Bench

end LintDelta
