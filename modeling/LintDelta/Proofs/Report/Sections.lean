import LintDelta.Proofs.Report.Rendering
import LintDelta.Proofs.Tally.Movements

/-!
# What a report for people says

A section of a text report is made from the tallies before and after: the two are compared, and the
movements that cancel out are left out. The report holds the nets as well, which were added up on another
way, file by file. Both agree: what a section lists are the entries of its net, in their order and with
both counts, and it says that nothing changed exactly if the net is empty. So the text of a report can be
read off from its nets (`Report.linesByNet`), and an issue is green exactly if its net is negative.

Main statement: `text_of_contrast`.
-/

namespace LintDelta

namespace Report

/-! ## The lines of a report, by its nets -/

/-- What an entry says: the issue, and both counts of it. -/
def entryText (pre post : Tally) (i : Issue) : String :=
  i.symbol ++ " " ++ toString (pre.count i) ++ " -> " ++ toString (post.count i)

/-- An entry of a net, as an improvement if it is negative. -/
def entryLine (theme : Theme) (pre post : Tally) (entry : Issue × Int) : String :=
  "  " ++ (if entry.2 < 0 then theme.improved else theme.worsened) (entryText pre post entry.1)

/-- The line that stands for no entries. -/
def noteLine (theme : Theme) : String :=
  "  " ++ theme.note "No change in quality detected."

/-- The body of a section, by the net of its tallies. -/
def netBody (theme : Theme) (pre post net : Tally) : List String :=
  if net.isEmpty then [noteLine theme] else net.entries.map (entryLine theme pre post)

/-- The lines of a report, by its nets: the heading, a section for each file in order, the section of the
totals, and the failures if there are any. -/
def linesByNet (theme : Theme) (r : Report) : List String :=
  let shown (c : CommitId) : String := String.ofList (c.text.toList.take CommitId.shownBytes)
  [theme.heading ("Contrasting " ++ shown r.source ++ ".." ++ shown r.target), ""] ++
  (r.files.flatMap fun f =>
    theme.heading (fileHeading f.change) :: netBody theme f.pre f.post f.net ++ [""]) ++
  (theme.heading "Overall change in quality:" :: netBody theme r.preTotal r.postTotal r.netTotal) ++
  match r.failures with
  | [] => []
  | failures =>
    ["", theme.worsened (toString failures.length ++ " file(s) could not be linted:")] ++
      failures.map fun f => "  " ++ f.path.display ++ ": " ++ f.error

/-- The tallies before and after with the net, of each file and of the totals. -/
def sections (r : Report) : List (Tally × Tally × Tally) :=
  r.files.map (fun f => (f.pre, f.post, f.net)) ++ [(r.preTotal, r.postTotal, r.netTotal)]

/-! ## Sections -/

variable {theme : Theme} {pre post net : Tally}

/-- A movement that does not cancel out is shown as the entry that it leaves in the net. -/
theorem movementLine_eq (h : Tally.net pre post = some net) {m : Tally.Movement}
    (hm : m ∈ Tally.compare pre post) :
    "  " ++ movementLine theme m = entryLine theme pre post (m.issue, net.count m.issue) := by
  obtain ⟨hpre, hpost, -⟩ := Tally.mem_compare_iff.1 hm
  have hsign : m.isImprovement = decide (net.count m.issue < 0) := by
    rw [Tally.Movement.isImprovement, Tally.count_net h, hpre, hpost]
    simp only [decide_eq_decide]
    omega
  simp only [movementLine, entryLine, entryText, hsign, hpre, hpost, decide_eq_true_eq]

/-- **The movements that are shown are the entries of the net**, by induction on the movements. -/
theorem exists_moved_of_net (theme : Theme) (h : Tally.net pre post = some net) :
    ∃ kept, moved pre post = some kept ∧
      kept.map (fun m => "  " ++ movementLine theme m) = net.entries.map (entryLine theme pre post) := by
  have hline : ∀ m ∈ Tally.compare pre post, "  " ++ movementLine theme m =
      entryLine theme pre post (m.issue, net.count m.issue) := fun m => movementLine_eq h
  have hnet : ∀ m ∈ Tally.compare pre post, m.net = some (net.count m.issue) :=
    fun m => Tally.net_of_mem_compare h
  rw [Tally.entries_eq_filterMap_compare h]
  unfold moved
  generalize Tally.compare pre post = movements at hline hnet
  induction movements with
  | nil => exact ⟨[], rfl, rfl⟩
  | cons m rest ih =>
    rw [List.forall_mem_cons] at hline hnet
    obtain ⟨kept, hkept, hlines⟩ := ih hline.2 hnet.2
    by_cases hzero : net.count m.issue = 0
    · refine ⟨kept, ?_, ?_⟩
      · rw [List.foldrM_cons, hkept]
        simp [hnet.1, hzero]
      · simpa [Tally.Movement.entry?, hnet.1, hzero] using hlines
    · refine ⟨m :: kept, ?_, ?_⟩
      · rw [List.foldrM_cons, hkept]
        simp [hnet.1, hzero]
      · simpa [Tally.Movement.entry?, hnet.1, hzero, hline.1] using hlines

/-- The body of a section is the one that its net describes. -/
theorem body_eq_netBody (theme : Theme) (h : Tally.net pre post = some net) :
    body theme pre post = some (netBody theme pre post net) := by
  obtain ⟨kept, hkept, hlines⟩ := exists_moved_of_net theme h
  unfold body netBody Tally.isEmpty
  rw [hkept]
  cases hentries : net.entries with
  | nil =>
    obtain rfl : kept = [] := by simpa [hentries] using hlines
    rfl
  | cons entry entries =>
    cases kept with
    | nil => simp [hentries] at hlines
    | cons m rest =>
      rw [hentries] at hlines
      rw [← hlines]
      rfl

/-- An entry says something else than that nothing changed: it holds an arrow. -/
theorem entryLine_ne_noteLine (htheme : theme ∈ [Theme.plain, Theme.colored]) (pre post : Tally)
    (entry : Issue × Int) : entryLine theme pre post entry ≠ noteLine theme := by
  intro heq
  have harrow : '>' ∈ (entryText pre post entry.1).toList := by
    simp [entryText, String.toList_append]
  have hentry : '>' ∈ (entryLine theme pre post entry).toList := by
    simp only [List.mem_cons, List.not_mem_nil, or_false] at htheme
    rcases htheme with rfl | rfl
    · simp [entryLine, Theme.plain, harrow, String.toList_append]
    · unfold entryLine
      split <;> simp [Theme.colored, Theme.styled, harrow, String.toList_append]
  have hnote : '>' ∉ (noteLine theme).toList := by
    simp only [List.mem_cons, List.not_mem_nil, or_false] at htheme
    rcases htheme with rfl | rfl <;> decide
  exact hnote (heq ▸ hentry)

/-- A section says that nothing changed exactly if its net is empty. -/
theorem netBody_eq_note_iff (htheme : theme ∈ [Theme.plain, Theme.colored]) (pre post net : Tally) :
    netBody theme pre post net = [noteLine theme] ↔ net.isEmpty = true := by
  unfold netBody
  split
  · next h => simp [h]
  · next h =>
    simp only [h, Bool.false_eq_true, iff_false]
    intro heq
    obtain ⟨entry, -, hentry⟩ := List.map_eq_singleton_iff.1 heq
    exact entryLine_ne_noteLine htheme pre post entry hentry

theorem title_of_ascii {r : Report} (theme : Theme) (hsource : r.source.IsAscii) (htarget : r.target.IsAscii) :
    r.title theme = some [theme.heading ("Contrasting " ++
      String.ofList (r.source.text.toList.take CommitId.shownBytes) ++ ".." ++
      String.ofList (r.target.text.toList.take CommitId.shownBytes)), ""] := by
  rw [title, CommitId.short_of_ascii hsource, CommitId.short_of_ascii htarget]
  rfl

/-- The lines of a report are those that its nets describe. -/
theorem textLines_eq_linesByNet {r : Report} (theme : Theme) (hsource : r.source.IsAscii)
    (htarget : r.target.IsAscii) (hfiles : ∀ f ∈ r.files, Tally.net f.pre f.post = some f.net)
    (htotal : Tally.net r.preTotal r.postTotal = some r.netTotal) :
    r.textLines theme = .ok (r.linesByNet theme) := by
  have hsections : r.files.mapM (fileSection theme) = some (r.files.map fun f =>
      theme.heading (fileHeading f.change) :: netBody theme f.pre f.post f.net ++ [""]) := by
    apply mapM_eq_some_map
    intro f hf
    rw [fileSection, body_eq_netBody theme (hfiles f hf)]
    rfl
  have hoverall : r.overall theme = some (theme.heading "Overall change in quality:" ::
      netBody theme r.preTotal r.postTotal r.netTotal) := by
    rw [overall, body_eq_netBody theme htotal]
    rfl
  rw [textLines, title_of_ascii theme hsource htarget, hsections, hoverall]
  cases hfailures : r.failures <;> simp [orElse, linesByNet, failureBlock, hfailures, List.flatMap] <;> rfl

end Report

namespace Bench

variable {σ : Type} {b : Bench σ} {source target : CommitId} {s s' : Session σ}

/-- With the tools, every net of a report is the net of its two tallies: counts are numbers of occurrences, so
none of them lacks a negative. -/
theorem net_of_mem_sections {options : Options Adapter} {report : Report}
    (h : (b.contrast (options.equip b.box) source target).exec s = (.ok report, s')) :
    ∀ t ∈ report.sections, Tally.net t.1 t.2.1 = some t.2.2 := by
  obtain ⟨hfiles, hpre, -⟩ := nonneg_of_contrast h
  have hbalanced := balanced_of_contrast h
  have hnet {pre post net : Tally} (hnonneg : pre.Nonneg)
      (hcount : ∀ i, net.count i = post.count i - pre.count i) : Tally.net pre post = some net := by
    refine Tally.net_eq_some_iff.2 ⟨fun i => ?_, hcount⟩
    have := hnonneg i
    omega
  intro t ht
  rcases List.mem_append.1 ht with ht | ht
  · obtain ⟨f, hf, rfl⟩ := List.mem_map.1 ht
    exact hnet (hfiles f hf).1 (hbalanced.files f hf).net
  · obtain rfl := List.mem_singleton.1 ht
    exact hnet hpre hbalanced.count_netTotal

/-- **The text of a report reflects its nets.** A contrast with the tools between commits whose ids can be cut:
the lines of the text are the heading, a section for each file in order, the section of the totals, and the
failures if there are any. A section lists the entries of its net in the order of the issues, each with both
counts, and a single note instead exactly if the net is empty. In colors, an entry is green if its net is
negative, and red otherwise. -/
theorem text_of_contrast {options : Options Adapter} {report : Report}
    (hsource : source.IsAscii) (htarget : target.IsAscii)
    (h : (b.contrast (options.equip b.box) source target).exec s = (.ok report, s')) :
    (∀ theme, report.render theme .text =
      .ok (String.join ((report.linesByNet theme).map (· ++ "\n")))) ∧
    ∀ pre post net, (pre, post, net) ∈ report.sections →
      net.entries.Pairwise (fun x y => Ord.compare x.1 y.1 = .lt) ∧
      (∀ theme ∈ [Theme.plain, Theme.colored],
        Report.netBody theme pre post net = [Report.noteLine theme] ↔ net.isEmpty = true) ∧
      ∀ entry ∈ net.entries, Report.entryLine .colored pre post entry =
        "  " ++ Theme.styled (if entry.2 < 0 then 32 else 31) (Report.entryText pre post entry.1) := by
  obtain ⟨hs, ht⟩ := commits_of_contrast h
  have hnets := net_of_mem_sections h
  refine ⟨fun theme => ?_, fun pre post net _ => ⟨net.canonical.ordered, fun theme htheme => ?_, ?_⟩⟩
  · have hlines : report.textLines theme = .ok (report.linesByNet theme) := by
      apply Report.textLines_eq_linesByNet theme (hs ▸ hsource) (ht ▸ htarget)
      · intro f hf
        exact hnets _ (List.mem_append_left _ (List.mem_map_of_mem hf))
      · exact hnets _ (List.mem_append_right _ (List.mem_singleton_self _))
    rw [Report.render, Report.text, hlines]
    rfl
  · exact Report.netBody_eq_note_iff htheme pre post net
  · intro entry _
    unfold Report.entryLine
    split <;> rfl

/-- A bench with a file that went away and a new one, in both of which Pylint finds the same error. -/
def shifted : Bench Head :=
  let changes := [.deleted (.ofString "a.py") ⟨"1"⟩, .added (.ofString "b.py") ⟨"2"⟩]
  { placid changes with
    box :=
      { (placid changes).box with
        start := fun _ _ _ =>
          .ok ⟨.code 2, Text.encode "[\x7b\"symbol\":\"undefined-variable\",\"type\":\"error\"\x7d]", [], some []⟩
        temp := ⟨.ofString "/tmp", true, fun _ => "x"⟩ } }

/-- Each file has its entry, the one green and the other red, and the totals have none. -/
theorem text_of_contrast_of_shifted :
    CommitId.IsAscii ⟨"aaaaaaaaa"⟩ ∧ CommitId.IsAscii ⟨"b"⟩ ∧
    ∃ report s', (shifted.contrast (Options.standard.equip shifted.box) ⟨"aaaaaaaaa"⟩ ⟨"b"⟩).exec
        (Session.start (.branch "main")) = (.ok report, s') ∧
      report.render .plain .text = .ok (String.join (["Contrasting aaaaaaaa..b", "",
        "File a.py was deleted:", "  undefined-variable 1 -> 0", "",
        "File b.py was added:", "  undefined-variable 0 -> 1", "",
        "Overall change in quality:", "  No change in quality detected."].map (· ++ "\n"))) ∧
      report.render .colored .text = .ok (String.join (["\x1b[1mContrasting aaaaaaaa..b\x1b[0m", "",
        "\x1b[1mFile a.py was deleted:\x1b[0m", "  \x1b[32mundefined-variable 1 -> 0\x1b[0m", "",
        "\x1b[1mFile b.py was added:\x1b[0m", "  \x1b[31mundefined-variable 0 -> 1\x1b[0m", "",
        "\x1b[1mOverall change in quality:\x1b[0m",
        "  \x1b[2mNo change in quality detected.\x1b[0m"].map (· ++ "\n"))) := by
  have hsource : CommitId.IsAscii ⟨"aaaaaaaaa"⟩ := by decide
  have htarget : CommitId.IsAscii ⟨"b"⟩ := by decide
  have hlines : ((shifted.contrast (Options.standard.equip shifted.box) ⟨"aaaaaaaaa"⟩ ⟨"b"⟩).exec
      (Session.start (.branch "main"))).1.toOption.map (fun r => (r.linesByNet .plain, r.linesByNet .colored)) =
      some (["Contrasting aaaaaaaa..b", "",
        "File a.py was deleted:", "  undefined-variable 1 -> 0", "",
        "File b.py was added:", "  undefined-variable 0 -> 1", "",
        "Overall change in quality:", "  No change in quality detected."],
      ["\x1b[1mContrasting aaaaaaaa..b\x1b[0m", "",
        "\x1b[1mFile a.py was deleted:\x1b[0m", "  \x1b[32mundefined-variable 1 -> 0\x1b[0m", "",
        "\x1b[1mFile b.py was added:\x1b[0m", "  \x1b[31mundefined-variable 0 -> 1\x1b[0m", "",
        "\x1b[1mOverall change in quality:\x1b[0m",
        "  \x1b[2mNo change in quality detected.\x1b[0m"]) := by decide +kernel
  obtain ⟨report, s', hrun, hboth⟩ := Run.exists_ok_of_toOption hlines
  obtain ⟨htext, -⟩ := text_of_contrast hsource htarget hrun
  have hplain : report.linesByNet .plain = _ := congrArg Prod.fst hboth
  have hcolored : report.linesByNet .colored = _ := congrArg Prod.snd hboth
  refine ⟨hsource, htarget, report, s', hrun, ?_, ?_⟩
  · rw [htext, hplain]
  · rw [htext, hcolored]

end Bench

end LintDelta
