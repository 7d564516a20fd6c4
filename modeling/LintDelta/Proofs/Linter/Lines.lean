import LintDelta.Proofs.Linter.Verdict
import LintDelta.Proofs.Text.Lines

/-!
# Reports of lines

Cppcheck writes a line for each finding: an id and a severity, with blanks between them. Blank lines may stand anywhere.
A report counts every row once (`Lists`), and one line that is neither blank nor a row spoils the whole of it; the error
shows the first such line, trimmed.

Main statement: `tally_of_lines`. The diagnostics may come on either stream of the tool, and the two are read as one
report with a line feed between them. Whatever the first one ends with, the report of both counts the rows of the one
and those of the other.
-/

namespace LintDelta

open Text (AllBlank Lined Row rows trimChars)

namespace Findings

/-! ## Lines that list findings -/

/-- The issues that lines list: a blank line lists none, and a row one. -/
inductive Lists : List (List Char) → List Issue → Prop
  | nil : Lists [] []
  | blank {l : List Char} {ls : List (List Char)} {issues : List Issue} (h : AllBlank l) (rest : Lists ls issues) :
    Lists (l :: ls) issues
  | row {l id severity : List Char} {ls : List (List Char)} {issues : List Issue} (h : Row l id severity)
    (rest : Lists ls issues) :
    Lists (l :: ls) (.ofNative (String.ofList id) "Cppcheck" (.ofNative (String.ofList severity)) :: issues)

/-- A line that may stand in a report: it is blank, or it has two fields. -/
def Proper (l : List Char) : Prop := AllBlank l ∨ ∃ id severity, Row l id severity

theorem exists_lists_iff {ls : List (List Char)} : (∃ issues, Lists ls issues) ↔ ∀ l ∈ ls, Proper l := by
  constructor
  · rintro ⟨issues, h⟩
    induction h with
    | nil => nofun
    | blank h _ ih => exact List.forall_mem_cons.2 ⟨Or.inl h, ih⟩
    | row h _ ih => exact List.forall_mem_cons.2 ⟨Or.inr ⟨_, _, h⟩, ih⟩
  · intro h
    induction ls with
    | nil => exact ⟨[], .nil⟩
    | cons l ls ih =>
      obtain ⟨hl, hls⟩ := List.forall_mem_cons.1 h
      obtain ⟨issues, hrest⟩ := ih hls
      rcases hl with hblank | ⟨id, severity, hrow⟩
      · exact ⟨issues, .blank hblank hrest⟩
      · exact ⟨_, .row hrow hrest⟩

theorem Lists.length_le {ls : List (List Char)} {issues : List Issue} (h : Lists ls issues) :
    issues.length ≤ ls.length := by
  induction h with
  | nil => exact Nat.le_refl 0
  | blank _ _ ih => exact Nat.le_succ_of_le ih
  | row _ _ ih => exact Nat.succ_le_succ ih

/-! ## Reading lines -/

/-- The issues of the lines that are not blank. -/
def ofLines (ls : List (List Char)) : Except ReportError (List Issue) :=
  ((ls.map trimChars).filter fun row => !row.isEmpty).mapM line

theorem cppcheck_of_lined {report : String} {ls : List (List Char)} (h : Lined report.toList ls) :
    cppcheck report = ofLines ls := by
  rw [cppcheck, Text.lined_iff.1 h, ofLines]

theorem line_of_row {l id severity : List Char} (h : Row l id severity) :
    line (trimChars l) =
      .ok (.ofNative (String.ofList id) "Cppcheck" (.ofNative (String.ofList severity))) := by
  rw [line, Text.fields_trimChars, Text.row_iff.1 h]
  rfl

theorem line_of_not_row {l : List Char} (h : ∀ id severity, ¬ Row l id severity) :
    line (trimChars l) = .error (.malformedLine (String.ofList (trimChars l))) := by
  unfold line
  split
  · next id severity hfields =>
    rw [Text.fields_trimChars] at hfields
    exact absurd (Text.row_iff.2 hfields) (h id severity)
  · rfl

theorem ofLines_blank {l : List Char} (h : AllBlank l) (ls : List (List Char)) : ofLines (l :: ls) = ofLines ls := by
  simp [ofLines, Text.trimChars_eq_nil_iff.2 h]

theorem ofLines_cons {l : List Char} (h : ¬ AllBlank l) (ls : List (List Char)) :
    ofLines (l :: ls) = (do return (← line (trimChars l)) :: (← ofLines ls)) := by
  have hne : trimChars l ≠ [] := fun hnil => h (Text.trimChars_eq_nil_iff.1 hnil)
  simp [ofLines, hne]

theorem ofLines_of_lists {ls : List (List Char)} {issues : List Issue} (h : Lists ls issues) :
    ofLines ls = .ok issues := by
  induction h with
  | nil => rfl
  | blank h _ ih => rw [ofLines_blank h, ih]
  | row h _ ih =>
    rw [ofLines_cons h.not_allBlank, line_of_row h, ih]
    rfl

/-- The first line that is not proper is what the error shows. -/
theorem ofLines_of_not_proper {before after : List (List Char)} {bad : List Char} (hbefore : ∀ l ∈ before, Proper l)
    (hbad : ¬ Proper bad) :
    ofLines (before ++ bad :: after) = .error (.malformedLine (String.ofList (trimChars bad))) := by
  obtain ⟨hblank, hrow⟩ := not_or.1 hbad
  simp only [not_exists] at hrow
  induction before with
  | nil =>
    rw [List.nil_append, ofLines_cons hblank, line_of_not_row hrow]
    rfl
  | cons l before ih =>
    obtain ⟨hl, hrest⟩ := List.forall_mem_cons.1 hbefore
    rw [List.cons_append]
    rcases hl with hl | ⟨id, severity, hl⟩
    · rw [ofLines_blank hl, ih hrest]
    · rw [ofLines_cons hl.not_allBlank, line_of_row hl, ih hrest]
      rfl

/-- Lines are all proper, or there is a first one that is not. -/
theorem forall_proper_or (ls : List (List Char)) : (∀ l ∈ ls, Proper l) ∨
    ∃ before bad after, ls = before ++ bad :: after ∧ (∀ l ∈ before, Proper l) ∧ ¬ Proper bad := by
  induction ls with
  | nil => exact Or.inl nofun
  | cons l ls ih =>
    by_cases hl : Proper l
    · rcases ih with hls | ⟨before, bad, after, rfl, hbefore, hbad⟩
      · exact Or.inl (List.forall_mem_cons.2 ⟨hl, hls⟩)
      · exact Or.inr ⟨l :: before, bad, after, rfl, List.forall_mem_cons.2 ⟨hl, hbefore⟩, hbad⟩
    · exact Or.inr ⟨[], l, ls, rfl, nofun, hl⟩

theorem ofLines_eq_ok_iff {ls : List (List Char)} {issues : List Issue} :
    ofLines ls = .ok issues ↔ Lists ls issues := by
  constructor
  · intro h
    rcases forall_proper_or ls with hls | ⟨before, bad, after, rfl, hbefore, hbad⟩
    · obtain ⟨issues', hlists⟩ := exists_lists_iff.2 hls
      rw [ofLines_of_lists hlists] at h
      cases h
      exact hlists
    · rw [ofLines_of_not_proper hbefore hbad] at h
      cases h
  · exact ofLines_of_lists

theorem ofLines_eq_error_iff {ls : List (List Char)} {e : ReportError} :
    ofLines ls = .error e ↔ ∃ before bad after, ls = before ++ bad :: after ∧ (∀ l ∈ before, Proper l) ∧
      ¬ Proper bad ∧ e = .malformedLine (String.ofList (trimChars bad)) := by
  constructor
  · intro h
    rcases forall_proper_or ls with hls | ⟨before, bad, after, rfl, hbefore, hbad⟩
    · obtain ⟨issues, hlists⟩ := exists_lists_iff.2 hls
      rw [ofLines_of_lists hlists] at h
      cases h
    · rw [ofLines_of_not_proper hbefore hbad] at h
      cases h
      exact ⟨before, bad, after, rfl, hbefore, hbad, rfl⟩
  · rintro ⟨before, bad, after, rfl, hbefore, hbad, rfl⟩
    exact ofLines_of_not_proper hbefore hbad

/-- **Two reports with a line feed between them** list what the one lists and what the other lists. -/
theorem cppcheck_append_newline (s t : String) :
    cppcheck (s ++ "\n" ++ t) = (do return (← cppcheck s) ++ (← cppcheck t)) := by
  have hrows (report : String) : cppcheck report = (rows report.toList).mapM line := rfl
  have hlist : (s ++ "\n" ++ t).toList = s.toList ++ '\n' :: t.toList := by simp
  rw [hrows, hlist, Text.rows_append_newline, List.mapM_append, hrows, hrows]

/-- No report lists more issues than it has characters. -/
theorem length_le_of_cppcheck {report : String} {issues : List Issue} (h : cppcheck report = .ok issues) :
    issues.length ≤ report.length := by
  have hlined : Lined report.toList (Text.lines report.toList) := Text.lined_iff.2 rfl
  rw [cppcheck_of_lined hlined, ofLines_eq_ok_iff] at h
  calc issues.length ≤ (Text.lines report.toList).length := h.length_le
    _ ≤ report.toList.length := hlined.length_le
    _ = report.length := String.length_toList

end Findings

/-! ## Tallies of lines -/

namespace Tool

open Findings

theorem parseReport_eq_malformedLine_iff {tool : Tool} {report shown : String} :
    tool.parseReport report = .error (.malformedLine shown) ↔ tool.findings report = .error (.malformedLine shown) := by
  unfold parseReport
  cases tool.findings report with
  | error e => simp [bind, Except.bind]
  | ok issues => cases h : Tally.ofIssues issues <;> simp [h, bind, Except.bind, pure, Except.pure, throw, throwThe,
      MonadExceptOf.throw]

/-- A report that can be read and is not too long has a tally. -/
theorem exists_parseReport_of_cppcheck {report : String} {issues : List Issue}
    (h : Findings.cppcheck report = .ok issues) (hlength : report.length < 2 ^ 63) :
    ∃ t, cppcheck.parseReport report = .ok t := by
  have hle : issues.length ≤ report.length := length_le_of_cppcheck h
  obtain ⟨t, ht⟩ : ∃ t, Tally.ofIssues issues = some t := Tally.exists_ofIssues (by omega)
  exact ⟨t, parseReport_eq_ok_iff.2 ⟨issues, h, ht⟩⟩

section Lines

variable {report : String} {ls : List (List Char)} (h : Lined report.toList ls)
include h

/-- A report is the tally of its rows. -/
theorem parseReport_eq_ok_iff_of_lined {t : Tally} :
    cppcheck.parseReport report = .ok t ↔ ∃ issues, Lists ls issues ∧ ∀ i, t.count i = issues.count i := by
  simp only [parseReport_eq_ok_iff, findings, cppcheck_of_lined h, ofLines_eq_ok_iff, Tally.ofIssues_eq_some_iff]

/-- A report is rejected for its first line that is not proper. -/
theorem parseReport_eq_malformedLine_iff_of_lined {shown : String} :
    cppcheck.parseReport report = .error (.malformedLine shown) ↔
      ∃ before bad after, ls = before ++ bad :: after ∧ (∀ l ∈ before, Proper l) ∧ ¬ Proper bad ∧
        shown = String.ofList (trimChars bad) := by
  rw [parseReport_eq_malformedLine_iff, findings, cppcheck_of_lined h]
  simp only [ofLines_eq_error_iff, ReportError.malformedLine.injEq]

theorem exists_parseReport_iff_of_lined (hlength : report.length < 2 ^ 63) :
    (∃ t, cppcheck.parseReport report = .ok t) ↔ ∀ l ∈ ls, Proper l := by
  rw [← exists_lists_iff]
  constructor
  · rintro ⟨t, ht⟩
    obtain ⟨issues, hlists, -⟩ := (parseReport_eq_ok_iff_of_lined h).1 ht
    exact ⟨issues, hlists⟩
  · rintro ⟨issues, hlists⟩
    have hfindings : Findings.cppcheck report = .ok issues := by rw [cppcheck_of_lined h, ofLines_of_lists hlists]
    exact exists_parseReport_of_cppcheck hfindings hlength

end Lines

/-- **The report of two texts** has a tally exactly if the two have tallies that can be added. -/
theorem parseReport_append_newline_eq_ok_iff {s t : String} {c : Tally} :
    cppcheck.parseReport (s ++ "\n" ++ t) = .ok c ↔
      ∃ a b, cppcheck.parseReport s = .ok a ∧ cppcheck.parseReport t = .ok b ∧ a.add b = some c := by
  have hboth : cppcheck.findings (s ++ "\n" ++ t) = _ := cppcheck_append_newline s t
  simp only [parseReport_eq_ok_iff, hboth]
  cases hs : Findings.cppcheck s with
  | error e => simp [findings, hs, bind, Except.bind]
  | ok xs =>
    cases ht : Findings.cppcheck t with
    | error e => simp [findings, hs, ht, bind, Except.bind]
    | ok ys =>
      have hok : (do return (← Except.ok xs) ++ (← Except.ok ys) : Except ReportError (List Issue)) =
        .ok (xs ++ ys) := rfl
      simp only [findings, hs, ht, hok, Except.ok.injEq, exists_eq_left', Tally.ofIssues_append,
        Option.bind_eq_some_iff]
      constructor
      · rintro ⟨a, ha, b, hb, hadd⟩
        exact ⟨a, b, ha, hb, hadd⟩
      · rintro ⟨a, b, ha, hb, hadd⟩
        exact ⟨a, ha, b, hb, hadd⟩

/-- Two tallies can be added if the texts are not too long. -/
theorem exists_parseReport_append_newline {s t : String} {a b : Tally} (hlength : (s ++ "\n" ++ t).length < 2 ^ 63)
    (hs : cppcheck.parseReport s = .ok a) (ht : cppcheck.parseReport t = .ok b) :
    ∃ c, a.add b = some c ∧ cppcheck.parseReport (s ++ "\n" ++ t) = .ok c := by
  obtain ⟨xs, hxs, -⟩ := parseReport_eq_ok_iff.1 hs
  obtain ⟨ys, hys, -⟩ := parseReport_eq_ok_iff.1 ht
  have hboth : Findings.cppcheck (s ++ "\n" ++ t) = .ok (xs ++ ys) := by
    change Findings.cppcheck s = _ at hxs
    change Findings.cppcheck t = _ at hys
    rw [cppcheck_append_newline, hxs, hys]
    rfl
  obtain ⟨c, hc⟩ := exists_parseReport_of_cppcheck hboth hlength
  obtain ⟨a', b', ha', hb', hadd⟩ := parseReport_append_newline_eq_ok_iff.1 hc
  cases hs.symm.trans ha'
  cases ht.symm.trans hb'
  exact ⟨c, hadd, hc⟩

/-- **The first line that is not proper is looked for in the first text first.** -/
theorem parseReport_append_newline_of_malformedLine {s t shown : String} :
    (cppcheck.parseReport s = .error (.malformedLine shown) →
      cppcheck.parseReport (s ++ "\n" ++ t) = .error (.malformedLine shown)) ∧
    ∀ a, cppcheck.parseReport s = .ok a → cppcheck.parseReport t = .error (.malformedLine shown) →
      cppcheck.parseReport (s ++ "\n" ++ t) = .error (.malformedLine shown) := by
  have hboth : cppcheck.findings (s ++ "\n" ++ t) = _ := cppcheck_append_newline s t
  simp only [parseReport_eq_malformedLine_iff, hboth, parseReport_eq_ok_iff]
  constructor
  · intro hs
    change Findings.cppcheck s = _ at hs
    rw [hs]
    rfl
  · rintro a ⟨xs, hs, -⟩ ht
    change Findings.cppcheck s = _ at hs
    change Findings.cppcheck t = _ at ht
    rw [hs, ht]
    rfl

end Tool

/-- Cppcheck may leave its diagnostics on either stream: linting a file comes to the tallies of both. -/
theorem Adapter.exec_lint_ok_iff_of_cppcheck {σ : Type} {a : Adapter} (ha : a.tool = .cppcheck) (box : Toolbox σ)
    {path : Path} {s : Session σ} {t : Tally} :
    ((a.lint box path).exec s).1 = .ok t ↔ ∃ outcome x y, a.answer box path s = .ok outcome ∧
      Tool.cppcheck.parseReport (Text.decodeLossy outcome.stdout) = .ok x ∧
      Tool.cppcheck.parseReport (Text.decodeLossy outcome.stderr) = .ok y ∧ x.add y = some t ∧
      (Text.isBlankText (Text.decodeLossy outcome.stdout) = true →
        Text.isBlankText (Text.decodeLossy outcome.stderr) = true → outcome.status = .code 0) := by
  have hwrites : a.writesFile = false := by rw [writesFile, ha]
  rw [exec_lint_ok_iff (by rw [hwrites]; nofun), ha]
  have hnewline : Text.isBlankText "\n" = true := rfl
  have hblank (x y : String) : Text.isBlankText (x ++ "\n" ++ y) = true ↔
      Text.isBlankText x = true ∧ Text.isBlankText y = true := by
    simp [Text.isBlankText, Text.isBlank]
  have htolerates (status : ExitStatus) : Tool.cppcheck.Tolerates status := nofun
  constructor
  · rintro ⟨outcome, bytes, hanswer, hbytes, -, hgood, hparse⟩
    cases hbytes
    rw [Text.decodeLossy_append_newline] at hgood hparse
    obtain ⟨x, y, hx, hy, hadd⟩ := Tool.parseReport_append_newline_eq_ok_iff.1 hparse
    exact ⟨outcome, x, y, hanswer, hx, hy, hadd, fun hout herr => (hgood ((hblank _ _).2 ⟨hout, herr⟩)).1⟩
  · rintro ⟨outcome, x, y, hanswer, hx, hy, hadd, hgood⟩
    refine ⟨outcome, _, hanswer, rfl, htolerates _, ?_, ?_⟩
    · rw [Text.decodeLossy_append_newline]
      intro hall
      obtain ⟨hout, herr⟩ := (hblank _ _).1 hall
      exact ⟨hgood hout herr, herr⟩
    · rw [Text.decodeLossy_append_newline]
      exact Tool.parseReport_append_newline_eq_ok_iff.2 ⟨x, y, hx, hy, hadd⟩

/-- **A report of Cppcheck is the tally of its rows.** It has one exactly if each of its lines is blank or a row, and
it is rejected for the first line that is neither, which the error shows without the blanks around it. With a line feed
between them two texts have the tallies of both, or the error of the first that is rejected. So linting a file comes to
what the tool wrote to its output and to its error stream, where a report that is blank on both must come with a good
exit.

Where a tally is promised, the text is one that fits in memory: counts are of 64 bits, and it has no more rows than
characters. -/
theorem Tool.tally_of_lines :
    (∀ report : String, ∃ ls, Lined report.toList ls) ∧
    (∀ (report : String) (ls : List (List Char)), Lined report.toList ls →
      (∀ t, cppcheck.parseReport report = .ok t ↔
        ∃ issues, Findings.Lists ls issues ∧ ∀ i, t.count i = issues.count i) ∧
      (∀ shown, cppcheck.parseReport report = .error (.malformedLine shown) ↔
        ∃ before bad after, ls = before ++ bad :: after ∧ (∀ l ∈ before, Findings.Proper l) ∧
          ¬ Findings.Proper bad ∧ shown = String.ofList (trimChars bad)) ∧
      (report.length < 2 ^ 63 →
        ((∃ t, cppcheck.parseReport report = .ok t) ↔ ∀ l ∈ ls, Findings.Proper l))) ∧
    (∀ s t : String,
      (∀ c, cppcheck.parseReport (s ++ "\n" ++ t) = .ok c ↔
        ∃ a b, cppcheck.parseReport s = .ok a ∧ cppcheck.parseReport t = .ok b ∧ a.add b = some c) ∧
      ((s ++ "\n" ++ t).length < 2 ^ 63 → ∀ a b, cppcheck.parseReport s = .ok a → cppcheck.parseReport t = .ok b →
        ∃ c, a.add b = some c ∧ cppcheck.parseReport (s ++ "\n" ++ t) = .ok c) ∧
      (∀ shown, cppcheck.parseReport s = .error (.malformedLine shown) →
        cppcheck.parseReport (s ++ "\n" ++ t) = .error (.malformedLine shown)) ∧
      (∀ a shown, cppcheck.parseReport s = .ok a → cppcheck.parseReport t = .error (.malformedLine shown) →
        cppcheck.parseReport (s ++ "\n" ++ t) = .error (.malformedLine shown))) ∧
    (∀ (σ : Type) (a : Adapter) (box : Toolbox σ) (path : Path) (s : Session σ) (t : Tally), a.tool = .cppcheck →
      (((a.lint box path).exec s).1 = .ok t ↔ ∃ outcome x y, a.answer box path s = .ok outcome ∧
        cppcheck.parseReport (Text.decodeLossy outcome.stdout) = .ok x ∧
        cppcheck.parseReport (Text.decodeLossy outcome.stderr) = .ok y ∧ x.add y = some t ∧
        (Text.isBlankText (Text.decodeLossy outcome.stdout) = true →
          Text.isBlankText (Text.decodeLossy outcome.stderr) = true → outcome.status = .code 0))) := by
  refine ⟨fun report => ⟨_, Text.lined_iff.2 rfl⟩,
    fun report ls h => ⟨fun t => parseReport_eq_ok_iff_of_lined h, fun shown => ?_, ?_⟩,
    fun s t => ⟨?_, ?_, ?_, ?_⟩, ?_⟩
  · exact parseReport_eq_malformedLine_iff_of_lined h
  · exact exists_parseReport_iff_of_lined h
  · exact fun c => parseReport_append_newline_eq_ok_iff
  · exact fun hlength a b => exists_parseReport_append_newline hlength
  · exact fun shown => parseReport_append_newline_of_malformedLine.1
  · exact fun a shown => parseReport_append_newline_of_malformedLine.2 a
  · exact fun σ a box path s t ha => a.exec_lint_ok_iff_of_cppcheck ha box

/-- Two rows with a blank line between them, the last one without an ending. -/
def unended : String := "a/b\u2003style\x0d\n \n  nullPointer\terror"

/-- A row that ends with a blank. -/
def padded : String := "nullPointer error \x0d\n"

/-- Tools that write rows to both of their streams. -/
def talkative : Toolbox Unit where
  start := fun _ _ _ => .ok ⟨.code 1, Text.encode unended, Text.encode padded, none⟩
  temp := ⟨.ofString "/tmp", true, fun made => toString made⟩
  shows := fun _ _ => false

/-- Three rows on two streams count as three, and a line of three fields is shown trimmed. -/
theorem Tool.tally_of_lines_of_talkative :
    (∃ a b c, cppcheck.parseReport unended = .ok a ∧ cppcheck.parseReport padded = .ok b ∧ a.add b = some c ∧
      (((Adapter.ofTool .cppcheck).lint talkative (.ofString "/work/a.c")).exec (Session.start ())).1 = .ok c ∧
      c.count ⟨"a-b", "Cppcheck", .format⟩ = 1 ∧ c.count ⟨"nullPointer", "Cppcheck", .error⟩ = 2) ∧
    cppcheck.parseReport "a style\n b c d \x0d\ne" = .error (.malformedLine "b c d") := by
  obtain ⟨-, hlines, hseam, hlint⟩ := tally_of_lines
  have hrow {l : List Char} (id severity : List Char) (h : Text.fields l = [id, severity]) : Findings.Proper l :=
    Or.inr ⟨id, severity, Text.row_iff.2 h⟩
  have hblank {l : List Char} (h : trimChars l = []) : Findings.Proper l := Or.inl (Text.trimChars_eq_nil_iff.1 h)
  constructor
  · obtain ⟨a, ha⟩ := ((hlines unended _ (Text.lined_iff.2 rfl)).2.2 (by decide)).2
      (List.forall_mem_cons.2 ⟨hrow _ _ rfl, List.forall_mem_cons.2 ⟨hblank rfl,
        List.forall_mem_singleton.2 (hrow _ _ rfl)⟩⟩)
    obtain ⟨b, hb⟩ := ((hlines padded _ (Text.lined_iff.2 rfl)).2.2 (by decide)).2
      (List.forall_mem_singleton.2 (hrow _ _ rfl))
    obtain ⟨c, hadd, hc⟩ := (hseam _ _).2.1 (by decide) a b ha hb
    obtain ⟨issues, hlists, hcount⟩ := ((hlines _ _ (Text.lined_iff.2 rfl)).1 c).1 hc
    obtain rfl : issues = [⟨"a-b", "Cppcheck", .format⟩, ⟨"nullPointer", "Cppcheck", .error⟩,
        ⟨"nullPointer", "Cppcheck", .error⟩] :=
      Except.ok.inj ((Findings.ofLines_of_lists hlists).symm.trans rfl)
    have hunended : Text.decodeLossy (Text.encode unended) = unended := by decide +kernel
    have hpadded : Text.decodeLossy (Text.encode padded) = padded := by decide +kernel
    have hrun := hlint Unit (.ofTool .cppcheck) talkative (.ofString "/work/a.c") (Session.start ()) c rfl
    refine ⟨a, b, c, ha, hb, hadd, hrun.2 ⟨_, a, b, rfl, ?_, ?_, hadd, ?_⟩, hcount _, hcount _⟩
    · exact (congrArg cppcheck.parseReport hunended).trans ha
    · exact (congrArg cppcheck.parseReport hpadded).trans hb
    · intro hall
      have hnot : Text.isBlankText (Text.decodeLossy (Text.encode unended)) = false := by rw [hunended]; decide
      exact absurd (hnot.symm.trans hall) nofun
  · refine ((hlines _ _ (Text.lined_iff.2 rfl)).2.1 _).2
      ⟨["a style".toList], " b c d ".toList, ["e".toList], rfl, ?_, ?_, rfl⟩
    · exact List.forall_mem_singleton.2 (hrow _ _ rfl)
    · rintro (h | ⟨id, severity, h⟩)
      · cases Text.trimChars_eq_nil_iff.2 h
      · cases Text.row_iff.1 h

end LintDelta
