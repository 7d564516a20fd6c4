import LintDelta.Proofs.Contrast.Walk

/-!
# The two policies

Under one policy a contrast stops at the first file that cannot be linted, under the other it notes the
failure and goes on. Up to that file the two runs are the same, session and all, so the end of either
says much about the other (`policies_agree`).

The relation that every part of the loop keeps is `UpToFailure`: the two runs ended alike, or the first
has stopped at a failure that the second noted as its next one.
-/

namespace LintDelta

/-! ## Failures stay noted -/

namespace Report

theorem failures_prefix_enter {r r' : Report} {change : Change} {fate : Fate}
    (h : r.enter change fate = some r') : r.failures <+: r'.failures := by
  have h := enter_cases h
  cases fate with
  | unchanged | unrouted =>
    cases h
    exact List.prefix_rfl
  | linted linter pre post =>
    obtain ⟨_, _, _, _, -, -, -, -, rfl⟩ := h
    exact List.prefix_rfl
  | failed linter failure =>
    cases h
    exact List.prefix_append _ _

theorem failures_prefix_enterAll {r r' : Report} {walk : List (Change × Fate)}
    (h : r.enterAll walk = some r') : r.failures <+: r'.failures := by
  induction walk generalizing r with
  | nil =>
    cases h
    exact List.prefix_rfl
  | cons entry rest ih =>
    obtain ⟨change, fate⟩ := entry
    rw [enterAll_cons] at h
    obtain ⟨r₁, henter, h⟩ := Option.bind_eq_some_iff.1 h
    exact (failures_prefix_enter henter).trans (ih h)

/-- A linted file is no failure. -/
theorem failures_of_record {r r' : Report} {file : FileDiff} (h : r.record file = some r') :
    r'.failures = r.failures := by
  obtain ⟨r₁, hcount, hadd⟩ := Option.bind_eq_some_iff.1 h
  obtain rfl := eq_of_countFile hcount
  obtain ⟨_, _, _, -, -, -, rfl⟩ := eq_of_addFile hadd
  rfl

end Report

variable {σ : Type}

/-- The end of a run, and the session that it leaves. -/
abbrev Ending (σ : Type) := Except Stop Report × Session σ

/-- The ends of two runs agree up to the first failure of a file, where `noted` are the failures noted
before: they are the same and nothing more was noted, or the first run has stopped at a failure of a
single file, and if the second ends well, then that failure is the next one that it noted. -/
inductive UpToFailure (noted : List FileFailure) : Ending σ → Ending σ → Prop
  | same {ending : Ending σ} (h : ∀ r s', ending = (.ok r, s') → r.failures = noted) :
    UpToFailure noted ending ending
  | stopped {e : Failure} {s' : Session σ} {ending : Ending σ} (he : e.isPerFile = true)
    (h : ∀ r s'', ending = (.ok r, s'') →
      ∃ path linter, noted ++ [⟨path, linter, e.message⟩] <+: r.failures) :
    UpToFailure noted (.error (.failed e), s') ending

namespace UpToFailure

/-- Runs that agree up to the first failure still do so after one thing more, if that agrees as long as
there was no failure, and keeps the failures that were noted. -/
theorem bind {noted : List FileFailure} {x y : Run σ Report} {f g : Report → Run σ Report}
    {s : Session σ} (h : UpToFailure noted (x.exec s) (y.exec s))
    (hfg : ∀ r s', r.failures = noted → UpToFailure noted ((f r).exec s') ((g r).exec s'))
    (hg : ∀ r r' s' s'', (g r).exec s' = (.ok r', s'') → r.failures <+: r'.failures) :
    UpToFailure noted ((x >>= f).exec s) ((y >>= g).exec s) := by
  rw [Run.exec_bind, Run.exec_bind]
  generalize x.exec s = first at h
  generalize y.exec s = second at h
  cases h with
  | same h =>
    rcases first with ⟨stop | r, s₁⟩
    · exact .same nofun
    · exact hfg r s₁ (h r s₁ rfl)
  | stopped he h =>
    refine .stopped he fun r' s'' hend => ?_
    rcases second with ⟨stop | r, s₁⟩
    · cases hend
    · obtain ⟨path, linter, hnoted⟩ := h r s₁ rfl
      exact ⟨path, linter, hnoted.trans (hg r r' s₁ s'' hend)⟩

end UpToFailure

namespace Bench

variable {b : Bench σ} {language : Option Language} {routing : Routing (Linter σ)}

/-- One file that has a linter. -/
theorem upToFailure_contrastFile (report : Report) (change : Change) (linter : Linter σ)
    (s : Session σ) :
    UpToFailure report.failures ((b.contrastFile .abort report change linter).exec s)
      ((b.contrastFile .degrade report change linter).exec s) := by
  unfold contrastFile
  simp only [Run.exec_bind, Run.exec_attempt]
  rcases (b.lintChange linter change report.source report.target).exec s with
    ⟨(e | _ | _) | ⟨pre, post⟩, s₁⟩
  · cases he : e.isPerFile with
    | true =>
      simp only [he, Bool.true_and, reduceCtorEq, decide_false, decide_true, if_true,
        Bool.false_eq_true, if_false, Run.exec_fail]
      refine .stopped he fun r s'' hend => ?_
      rw [Run.exec_bind, Toolbox.exec_notify_pure] at hend
      cases hend
      exact ⟨_, _, List.prefix_rfl⟩
    | false =>
      simp only [he, Bool.false_and, Bool.false_eq_true, if_false, Run.exec_fail]
      exact .same nofun
  · exact .same nofun
  · exact .same nofun
  · refine .same fun r s' hend => ?_
    obtain ⟨file, _, -, hrecord⟩ := Run.bind_eq_ok_iff.1 hend
    exact Report.failures_of_record (Run.need_eq_ok_iff.1 hrecord).1

/-- **One change**: it fares alike under both policies, unless its linter fails for this file alone. -/
theorem upToFailure_contrastChange (report : Report) (change : Change) (s : Session σ) :
    UpToFailure report.failures ((b.contrastChange ⟨language, routing, .abort⟩ report change).exec s)
      ((b.contrastChange ⟨language, routing, .degrade⟩ report change).exec s) := by
  unfold contrastChange
  rw [Run.exec_bind, Run.exec_bind]
  cases hcount : report.countFile change.kind.label with
  | none => exact .same nofun
  | some r =>
    have hfailures : r.failures = report.failures := by rw [Report.eq_of_countFile hcount]
    rw [← hfailures]
    simp only [Run.need, Run.exec_pure]
    split
    · refine .same fun r' s' hend => ?_
      rw [Run.exec_bind, Toolbox.exec_notify_pure] at hend
      cases hend
      rfl
    · split
      · refine .same fun r' s' hend => ?_
        rw [Run.exec_bind, Toolbox.exec_notify_pure] at hend
        cases hend
        rfl
      · simp only [Run.exec_bind, Toolbox.exec_notify_pure]
        exact upToFailure_contrastFile _ _ _ _

theorem failures_prefix_contrastAll {options : Options (Linter σ)} {changes : List Change}
    {r r' : Report} {s s' : Session σ} (h : (b.contrastAll options r changes).exec s = (.ok r', s')) :
    r.failures <+: r'.failures := by
  obtain ⟨walk, -, -, henter⟩ := exec_contrastAll_ok_iff.1 h
  exact Report.failures_prefix_enterAll henter

/-- **The whole loop**, by induction on the changes: it is the same under both policies until the first
failure, and from then on only the failures that were noted matter. -/
theorem upToFailure_contrastAll (changes : List Change) (report : Report) (s : Session σ) :
    UpToFailure report.failures ((b.contrastAll ⟨language, routing, .abort⟩ report changes).exec s)
      ((b.contrastAll ⟨language, routing, .degrade⟩ report changes).exec s) := by
  induction changes generalizing report s with
  | nil =>
    refine .same fun r s' hend => ?_
    cases hend
    rfl
  | cons change changes ih =>
    refine (upToFailure_contrastChange report change s).bind (fun r s' hr => ?_) fun r r' s' s'' h => ?_
    · rw [← hr]
      exact ih r s'
    · exact failures_prefix_contrastAll h

/-- A whole contrast. -/
theorem upToFailure_contrast (b : Bench σ) (language : Option Language) (routing : Routing (Linter σ))
    (source target : CommitId) (s : Session σ) :
    UpToFailure [] ((b.contrast ⟨language, routing, .abort⟩ source target).exec s)
      ((b.contrast ⟨language, routing, .degrade⟩ source target).exec s) := by
  unfold contrast
  rw [Run.exec_bind, Run.exec_bind]
  -- what comes before the loop does not look at the policy
  split
  · rw [Run.exec_bind, Run.exec_bind]
    split
    · change UpToFailure (Report.start source target).failures _ _
      refine (upToFailure_contrastAll _ _ _).bind (fun r s' hr => .same fun r' s'' hend => ?_)
        fun r r' s' s'' hend => ?_
      · obtain ⟨_, _, -, hpure⟩ := Run.bind_eq_ok_iff.1 hend
        cases hpure
        exact hr
      · obtain ⟨_, _, -, hpure⟩ := Run.bind_eq_ok_iff.1 hend
        cases hpure
        exact List.prefix_rfl
    · exact .same nofun
  · exact .same nofun

/-- **The two policies agree up to the first failure**, from the same session, whatever version control,
the linters and the routes. A contrast that stops at failures ends with a report exactly if one that
notes them ends with that report and noted none, in the same session. If failures were noted, then the
other stops with the first of them. And any other reason to stop is the same under both. -/
theorem policies_agree (b : Bench σ) (language : Option Language) (routing : Routing (Linter σ))
    (source target : CommitId) (s : Session σ) :
    (∀ report s', (b.contrast ⟨language, routing, .abort⟩ source target).exec s = (.ok report, s') ↔
      (b.contrast ⟨language, routing, .degrade⟩ source target).exec s = (.ok report, s') ∧
        report.failures = []) ∧
    (∀ report s' first rest,
      (b.contrast ⟨language, routing, .degrade⟩ source target).exec s = (.ok report, s') →
      report.failures = first :: rest →
      ∃ e s'', (b.contrast ⟨language, routing, .abort⟩ source target).exec s =
          (.error (.failed e), s'') ∧ e.isPerFile = true ∧ e.message = first.error) ∧
    (∀ stop s', (b.contrast ⟨language, routing, .abort⟩ source target).exec s = (.error stop, s') →
      (∀ e, stop = .failed e → e.isPerFile = false) →
      (b.contrast ⟨language, routing, .degrade⟩ source target).exec s = (.error stop, s')) := by
  have h := upToFailure_contrast b language routing source target s
  generalize (b.contrast ⟨language, routing, .abort⟩ source target).exec s = aborted at h
  generalize (b.contrast ⟨language, routing, .degrade⟩ source target).exec s = degraded at h
  cases h with
  | same h =>
    refine ⟨fun report s' => ⟨fun hend => ⟨hend, h report s' hend⟩, fun hend => hend.1⟩,
      fun report s' first rest hend hfailures => ?_, fun stop s' hend _ => hend⟩
    rw [h report s' hend] at hfailures
    cases hfailures
  | stopped he h =>
    refine ⟨fun report s' => ⟨nofun, fun ⟨hend, hnone⟩ => ?_⟩,
      fun report s' first rest hend hfailures => ?_, fun stop s' hend hwhole => ?_⟩
    · obtain ⟨path, linter, hnoted⟩ := h report s' hend
      rw [hnone] at hnoted
      exact absurd (List.prefix_nil.1 hnoted) (List.cons_ne_nil _ _)
    · obtain ⟨path, linter, more, hnoted⟩ := h report s' hend
      rw [hfailures] at hnoted
      cases hnoted
      exact ⟨_, _, rfl, he, rfl⟩
    · cases hend
      rw [hwhole _ rfl] at he
      cases he

/-- Two routes, of which one leads to a linter that works and one to a linter that does not. -/
def mixedRoutes : Routing (Linter σ) :=
  (Routing.empty.add ".c" (finder ⟨"goto", "finder", .format⟩)).add ".py"
    ⟨"broken", false, fun path => Run.fail (.lintTool "broken" path "no report")⟩

/-- Two files, of which the second cannot be linted: one policy notes that, so the other stops there. -/
theorem policies_agree_of_mixedRoutes :
    ∃ e s', ((placid [.deleted (.ofString "a.c") ⟨"1"⟩, .added (.ofString "b.py") ⟨"2"⟩]).contrast
        ⟨none, mixedRoutes, .abort⟩ ⟨"s"⟩ ⟨"t"⟩).exec (Session.start (.branch "main")) =
          (.error (.failed e), s') ∧ e.isPerFile = true := by
  have hrun : ∃ report s', ((placid [.deleted (.ofString "a.c") ⟨"1"⟩,
      .added (.ofString "b.py") ⟨"2"⟩]).contrast ⟨none, mixedRoutes, .degrade⟩ ⟨"s"⟩ ⟨"t"⟩).exec
        (Session.start (.branch "main")) = (.ok report, s') ∧ report.failures.length = 1 :=
    ⟨_, _, rfl, by decide⟩
  obtain ⟨report, s', hrun, hlength⟩ := hrun
  obtain ⟨first, hfirst⟩ := List.length_eq_one_iff.1 hlength
  obtain ⟨-, hstops, -⟩ := policies_agree (placid [.deleted (.ofString "a.c") ⟨"1"⟩,
    .added (.ofString "b.py") ⟨"2"⟩]) none mixedRoutes ⟨"s"⟩ ⟨"t"⟩ (Session.start (.branch "main"))
  obtain ⟨e, s'', hend, he, -⟩ := hstops report s' first [] hrun hfirst
  exact ⟨e, s'', hend, he⟩

end Bench

end LintDelta
