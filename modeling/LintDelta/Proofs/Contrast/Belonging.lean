import LintDelta.Proofs.Report.Rendering
import LintDelta.Proofs.Report.Results
import LintDelta.Proofs.Symbols
import LintDelta.Proofs.Tally.Canonical

/-!
# Whose issues a report counts

Seven readers turn a tool's report into issues: lists, lists of files, results that refer to rules, lines.
They share two habits that the rest of the library relies on. They file every issue under their own name,
and they make its symbol from a native name by `Issue.normalizeSymbol`. So the tally of a report holds
occurrences of the tool's own issues and of nothing else (`Tool.Reads.belongsTo`), and the linters that
the totals of a contrast mention are those of its files.

Main statement: `belonging_of_contrast`.
-/

namespace LintDelta

/-! ## Symbols -/

/-- The symbol holds no space and no slash, and it neither starts nor ends with a blank. -/
structure Issue.Tidy (i : Issue) : Prop where
  ne_of_mem : ∀ c ∈ i.symbol.toList, c ≠ ' ' ∧ c ≠ '/'
  head : ∀ c, i.symbol.toList.head? = some c → Text.isBlank c = false
  last : ∀ c, i.symbol.toList.getLast? = some c → Text.isBlank c = false

/-- **Native names make tidy symbols**, whatever they hold. -/
theorem Issue.IsNative.tidy {i : Issue} (h : i.IsNative) : i.Tidy := by
  obtain ⟨native, h⟩ := h
  have htrimmed : Text.Trimmed (normalizeSymbol native).toList := trimmed_normalizeSymbol native
  rw [show i = ⟨normalizeSymbol native, i.linter, i.category⟩ from h]
  exact ⟨fun c hc => ne_of_mem_normalizeSymbol hc, htrimmed.head, htrimmed.last⟩

/-! ## Findings -/

/-- An issue that a tool can report: it is filed under the tool's name, and its symbol comes from a native
name. -/
def Tool.Finds (tool : Tool) (i : Issue) : Prop := i.linter = tool.title ∧ i.IsNative

theorem Tool.finds_ofNative (tool : Tool) (native : String) (category : Category) :
    tool.Finds (.ofNative native tool.title category) := ⟨rfl, native, rfl⟩

namespace Findings

/-- The findings of a report of a shape are those of a value of the shape, or there are none. -/
theorem forall_of_shaped {P : Issue → Prop} {shape : Json.Shape} {issues : shape.Val → List Issue}
    {report : String} {found : List Issue} (hall : ∀ x, ∀ i ∈ issues x, P i)
    (h : shaped shape issues report = .ok found) : ∀ i ∈ found, P i := by
  unfold shaped at h
  split at h
  · cases h
    nofun
  · split at h
    · cases h
      exact hall _
    · cases h

/-- Every result of a list of attempts that all succeed is the result of one of them. -/
theorem exists_of_mem_mapM {α β ε : Type} {f : α → Except ε β} {l : List α} {ys : List β}
    (h : l.mapM f = .ok ys) : ∀ y ∈ ys, ∃ x ∈ l, f x = .ok y := by
  induction l generalizing ys with
  | nil =>
    cases h
    nofun
  | cons x rest ih =>
    rw [List.mapM_cons] at h
    cases hx : f x with
    | error e =>
      rw [hx] at h
      cases h
    | ok first =>
      cases hrest : rest.mapM f with
      | error e =>
        rw [hx, hrest] at h
        cases h
      | ok others =>
        rw [hx, hrest] at h
        cases h
        intro y hy
        rcases List.mem_cons.1 hy with rfl | hy
        · exact ⟨x, List.mem_cons_self, hx⟩
        · obtain ⟨x', hx', hf⟩ := ih hrest y hy
          exact ⟨x', List.mem_cons_of_mem x hx', hf⟩

/-- A line that can be read names an issue of Cppcheck. -/
theorem finds_of_line {cs : List Char} {i : Issue} (h : line cs = .ok i) : Tool.cppcheck.Finds i := by
  unfold line at h
  split at h
  · cases h
    exact Tool.finds_ofNative _ _ _
  · cases h

end Findings

/-- **A tool finds its own issues only**, reader by reader. -/
theorem Tool.finds_of_findings {tool : Tool} {report : String} {issues : List Issue}
    (h : tool.findings report = .ok issues) : ∀ i ∈ issues, tool.Finds i := by
  cases tool with
  | cppcheck =>
    intro i hi
    obtain ⟨cs, -, hline⟩ := Findings.exists_of_mem_mapM h i hi
    exact Findings.finds_of_line hline
  | flawfinder =>
    refine Findings.forall_of_shaped (fun log i hi => ?_) h
    obtain ⟨run, -, hi⟩ := List.mem_flatMap.1 hi
    obtain ⟨result, -, rfl⟩ := List.mem_map.1 hi
    exact Tool.finds_ofNative .flawfinder _ _
  | ktlint =>
    refine Findings.forall_of_shaped (fun files i hi => ?_) h
    obtain ⟨file, -, hi⟩ := List.mem_flatMap.1 hi
    obtain ⟨error, -, rfl⟩ := List.mem_map.1 hi
    exact Tool.finds_ofNative .ktlint _ _
  | pmd =>
    refine Findings.forall_of_shaped (fun files i hi => ?_) h
    obtain ⟨file, -, hi⟩ := List.mem_flatMap.1 hi
    obtain ⟨violation, -, rfl⟩ := List.mem_map.1 hi
    exact Tool.finds_ofNative .pmd _ _
  | pylint | hlint | oclint =>
    refine Findings.forall_of_shaped (fun entries i hi => ?_) h
    obtain ⟨entry, -, rfl⟩ := List.mem_map.1 hi
    exact Tool.finds_ofNative _ _ _

/-! ## Tallies -/

/-- The tally counts occurrences of tidy issues of one linter, and stores nothing else. -/
def Tally.BelongsTo (t : Tally) (linter : String) : Prop :=
  ∀ i n, (i, n) ∈ t.entries → 0 < n ∧ i.linter = linter ∧ i.Tidy

theorem Tally.belongsTo_empty (linter : String) : (∅ : Tally).BelongsTo linter := nofun

theorem Tally.BelongsTo.linter_of_count {t : Tally} {linter : String} (h : t.BelongsTo linter) {i : Issue}
    (hi : t.count i ≠ 0) : i.linter = linter :=
  (h i (t.count i) (mem_entries_iff.2 ⟨rfl, hi⟩)).2.1

/-- **The tally of a report belongs to the tool.** A stored count is the number of times that the issue was
found, and it is not zero. -/
theorem Tool.Reads.belongsTo {tool : Tool} {t : Tally} (h : tool.Reads t) : t.BelongsTo tool.title := by
  obtain ⟨report, h⟩ := h
  obtain ⟨issues, hissues, htally⟩ := parseReport_eq_ok_iff.1 h
  intro i n hmem
  obtain ⟨hcount, hne⟩ := Tally.mem_entries_iff.1 hmem
  rw [Tally.count_ofIssues htally] at hcount
  have hpos : 0 < issues.count i := by omega
  obtain ⟨hlinter, hnative⟩ := finds_of_findings hissues i (List.count_pos_iff.1 hpos)
  exact ⟨by omega, hlinter, hnative.tidy⟩

/-! ## Reports -/

namespace Bench

variable {σ : Type} {b : Bench σ} {options : Options Adapter} {source target : CommitId}
  {s s' : Session σ}

/-- With the tools, the tallies of a file belong to the linter under which it is listed. -/
theorem belongsTo_of_contrast {report : Report}
    (h : (b.contrast (options.equip b.box) source target).exec s = (.ok report, s')) :
    ∀ f ∈ report.files, f.pre.BelongsTo f.linter ∧ f.post.BelongsTo f.linter := by
  have hread {linter : String} {t : Tally}
      (ht : t = ∅ ∨ ∃ tool : Tool, tool.title = linter ∧ tool.Reads t) : t.BelongsTo linter := by
    rcases ht with rfl | ⟨tool, rfl, ht⟩
    · exact Tally.belongsTo_empty linter
    · exact ht.belongsTo
  intro f hf
  exact (reads_of_contrast h f hf).imp hread hread

/-- A total that is not zero has a file behind it. -/
theorem exists_file_of_sum_ne_zero {files : List FileDiff} {count : FileDiff → Int}
    (h : (files.map count).sum ≠ 0) : ∃ f ∈ files, count f ≠ 0 := by
  obtain ⟨n, hn, hne⟩ := List.exists_mem_ne_zero_of_sum_ne_zero h
  obtain ⟨f, hf, rfl⟩ := List.mem_map.1 hn
  exact ⟨f, hf, hne⟩

/-- **Whose issues are counted.** Whatever text a tool leaves, if it can be read then every stored count is
positive, and every issue is filed under the tool's own name and has a tidy symbol. So in a report of a
contrast with the tools, both tallies of a file hold occurrences of its own linter's issues only, and every
linter with an issue in the total before or after is the linter of a listed file. -/
theorem belonging_of_contrast :
    (∀ (tool : Tool) (text : String) (t : Tally), tool.parseReport text = .ok t → t.BelongsTo tool.title) ∧
    ∀ (b : Bench σ) (options : Options Adapter) (source target : CommitId) (s s' : Session σ)
      (report : Report), (b.contrast (options.equip b.box) source target).exec s = (.ok report, s') →
      (∀ f ∈ report.files, f.pre.BelongsTo f.linter ∧ f.post.BelongsTo f.linter) ∧
      ∀ i, i ∈ report.preTotal.issues ∨ i ∈ report.postTotal.issues →
        ∃ f ∈ report.files, f.linter = i.linter := by
  refine ⟨fun tool text t h => Tool.Reads.belongsTo ⟨text, h⟩, ?_⟩
  intro b options source target s s' report h
  have hfiles := belongsTo_of_contrast h
  have hbalanced := balanced_of_contrast h
  refine ⟨hfiles, fun i hi => ?_⟩
  rw [Tally.mem_issues_iff, Tally.mem_issues_iff, hbalanced.pre, hbalanced.post] at hi
  rcases hi with hi | hi
  · obtain ⟨f, hf, hcount⟩ := exists_file_of_sum_ne_zero hi
    exact ⟨f, hf, ((hfiles f hf).1.linter_of_count hcount).symm⟩
  · obtain ⟨f, hf, hcount⟩ := exists_file_of_sum_ne_zero hi
    exact ⟨f, hf, ((hfiles f hf).2.linter_of_count hcount).symm⟩

/-- A bench with one new file, on which HLint has a hint whose name is not tidy. -/
def hinted : Bench Head :=
  let changes := [.added (.ofString "a.hs") ⟨"1"⟩]
  { placid changes with
    box :=
      { (placid changes).box with
        start := fun _ _ _ =>
          .ok ⟨.code 1, Text.encode "[\x7b\"hint\":\" Use foldr/build \",\"severity\":\"Warning\"\x7d]", [],
            some []⟩
        temp := ⟨.ofString "/tmp", true, fun _ => "x"⟩ } }

/-- The hint is counted under a tidy symbol, and the report lists a file for HLint. -/
theorem belonging_of_contrast_of_hinted :
    ∃ report s', (hinted.contrast (Options.standard.equip hinted.box) ⟨"s"⟩ ⟨"t"⟩).exec
        (Session.start (.branch "main")) = (.ok report, s') ∧
      report.postTotal.issues = [⟨"Use-foldr-build", "HLint", .warning⟩] ∧
      (∀ f ∈ report.files, f.post.BelongsTo f.linter) ∧ ∃ f ∈ report.files, f.linter = "HLint" := by
  have hread : ((hinted.contrast (Options.standard.equip hinted.box) ⟨"s"⟩ ⟨"t"⟩).exec
      (Session.start (.branch "main"))).1.toOption.map (·.postTotal.issues) =
      some [⟨"Use-foldr-build", "HLint", .warning⟩] := by decide +kernel
  obtain ⟨report, s', hrun, hissues⟩ := Run.exists_ok_of_toOption hread
  obtain ⟨hfiles, hlinters⟩ := belonging_of_contrast.2 hinted Options.standard _ _ _ _ report hrun
  refine ⟨report, s', hrun, hissues, fun f hf => (hfiles f hf).2, ?_⟩
  exact hlinters _ (Or.inr (hissues ▸ List.mem_singleton_self _))

end Bench

end LintDelta
