import LintDelta.Contrast
import LintDelta.Proofs.Contrast.Entries
import LintDelta.Proofs.Runs

/-!
# The walk of a contrast

What a contrast does to one change is one of four things (`Fate`), and each of them has its
condition (`Bench.Fares`). A contrast that ends with a report is a walk: one such step for each
change, in order, and the report is what the steps entered (`exec_contrast_of_ok`). Every fact about
reports is a fact about walks, without a look at the loop. Before the walk the contrast asks for the
changes (`Bench.Opened`), and behind it there are only notices (`Session.Noticed`).
-/

namespace LintDelta

variable {σ : Type}

/-! ## Notices -/

namespace Session

/-- Nothing but notices came between two sessions. -/
def Noticed (s s' : Session σ) : Prop :=
  ∃ notices : List Notice, s' = { s with trace := s.trace ++ notices.map .notice }

theorem Noticed.world {s s' : Session σ} (h : s.Noticed s') : s'.world = s.world := by
  obtain ⟨_, rfl⟩ := h
  rfl

theorem chain_noticed : Run.Chain fun s s' : Session σ => s.Noticed s' where
  refl s := ⟨[], by rw [List.map_nil, List.append_nil]⟩
  trans := by
    rintro s _ _ ⟨notices, rfl⟩ ⟨notices', rfl⟩
    exact ⟨notices ++ notices', by rw [List.map_append, List.append_assoc]⟩

theorem noticed_note (n : Notice) : Run.Keeps (fun s s' : Session σ => s.Noticed s') (Run.record (.notice n)) :=
  fun _ => ⟨[n], rfl⟩

end Session

namespace Bench

/-- A step of a contrast between two commits: a change that fares in a way takes the session from
one state to another. -/
inductive Fares (b : Bench σ) (options : Options (Linter σ)) (source target : CommitId) (s : Session σ)
    (change : Change) : Fate → Session σ → Prop
  | unchanged (hk : change.kind = .unchanged) :
    Fares b options source target s change .unchanged
      (b.box.noted .contrast .debug (.contentUnchanged change.path) s)
  | unrouted (hk : change.kind ≠ .unchanged)
    (hr : options.routing.select change.path options.language = none) :
    Fares b options source target s change .unrouted
      (b.box.noted .contrast .debug (.noLinter change.path) s)
  | linted {linter : Linter σ} {pre post : Tally} {s' : Session σ} (hk : change.kind ≠ .unchanged)
    (hr : options.routing.select change.path options.language = some linter)
    (hl : (b.lintChange linter change source target).exec
      (b.box.noted .contrast .debug (.lintingFile change.path change.kind linter.name) s) =
        (.ok (pre, post), s')) :
    Fares b options source target s change (.linted linter.name pre post) s'
  | failed {linter : Linter σ} {e : Failure} {s' : Session σ} (hk : change.kind ≠ .unchanged)
    (hr : options.routing.select change.path options.language = some linter)
    (hl : (b.lintChange linter change source target).exec
      (b.box.noted .contrast .debug (.lintingFile change.path change.kind linter.name) s) =
        (.error (.failed e), s'))
    (he : e.isPerFile = true) (hp : options.policy = .degrade) :
    Fares b options source target s change (.failed linter.name e)
      (b.box.noted .contrast .warn (.skippingFile change.path linter.name e.message) s')

/-- The steps of a contrast, one for each change. -/
inductive Walk (b : Bench σ) (options : Options (Linter σ)) (source target : CommitId) :
    Session σ → List (Change × Fate) → Session σ → Prop
  | nil (s : Session σ) : Walk b options source target s [] s
  | cons {s s₁ s₂ : Session σ} {change : Change} {fate : Fate} {rest : List (Change × Fate)}
    (step : b.Fares options source target s change fate s₁)
    (tail : Walk b options source target s₁ rest s₂) :
    Walk b options source target s ((change, fate) :: rest) s₂

variable {b : Bench σ} {options : Options (Linter σ)} {source target : CommitId}
  {s s' s₁ s₂ : Session σ}

/-! ## One step -/

/-- A change fares in one way only. -/
theorem Fares.unique {change : Change} {fate fate' : Fate}
    (h : b.Fares options source target s change fate s₁)
    (h' : b.Fares options source target s change fate' s₂) : fate = fate' ∧ s₁ = s₂ := by
  cases h with
  | unchanged hk =>
    cases h' with
    | unchanged => exact ⟨rfl, rfl⟩
    | unrouted hk' | linted hk' | failed hk' => exact absurd hk hk'
  | unrouted hk hr =>
    cases h' with
    | unchanged hk' => exact absurd hk' hk
    | unrouted => exact ⟨rfl, rfl⟩
    | linted _ hr' | failed _ hr' => cases hr.symm.trans hr'
  | linted hk hr hl =>
    cases h' with
    | unchanged hk' => exact absurd hk' hk
    | unrouted _ hr' => cases hr.symm.trans hr'
    | linted _ hr' hl' =>
      obtain rfl := Option.some.inj (hr.symm.trans hr')
      cases hl.symm.trans hl'
      exact ⟨rfl, rfl⟩
    | failed _ hr' hl' =>
      obtain rfl := Option.some.inj (hr.symm.trans hr')
      cases hl.symm.trans hl'
  | failed hk hr hl =>
    cases h' with
    | unchanged hk' => exact absurd hk' hk
    | unrouted _ hr' => cases hr.symm.trans hr'
    | linted _ hr' hl' =>
      obtain rfl := Option.some.inj (hr.symm.trans hr')
      cases hl.symm.trans hl'
    | failed _ hr' hl' =>
      obtain rfl := Option.some.inj (hr.symm.trans hr')
      cases hl.symm.trans hl'
      exact ⟨rfl, rfl⟩

/-- A change is passed by as unchanged if its class says so. -/
theorem Fares.eq_unchanged_iff {change : Change} {fate : Fate}
    (h : b.Fares options source target s change fate s₁) : fate = .unchanged ↔ change.kind = .unchanged := by
  cases h with
  | unchanged hk => simp [hk]
  | unrouted hk => simp [hk]
  | linted hk => simp [hk]
  | failed hk => simp [hk]

/-- A file that has a linter ends well if both sides were linted, or if the policy passes over it. -/
theorem exec_contrastFile_ok_iff {policy : Policy} {report report' : Report} {change : Change}
    {linter : Linter σ} :
    (b.contrastFile policy report change linter).exec s = (.ok report', s') ↔
      (∃ pre post, (b.lintChange linter change report.source report.target).exec s = (.ok (pre, post), s') ∧
        (FileDiff.make change change.kind linter.name pre post).bind report.record = some report') ∨
      ∃ e s₁, (b.lintChange linter change report.source report.target).exec s = (.error (.failed e), s₁) ∧
        e.isPerFile = true ∧ policy = .degrade ∧
        b.box.noted .contrast .warn (.skippingFile change.path linter.name e.message) s₁ = s' ∧
        report.noteFailure ⟨change.path, linter.name, e.message⟩ = report' := by
  simp only [contrastFile, Run.bind_eq_ok_iff, Run.attempt_eq_ok_iff]
  constructor
  · rintro ⟨answer, s₁, ⟨⟨pre, post⟩, rfl, hl⟩ | ⟨e, rfl, hl⟩, h⟩
    · simp only [Run.bind_eq_ok_iff, Run.need_eq_ok_iff] at h
      obtain ⟨file, _, ⟨hf, rfl⟩, hr, rfl⟩ := h
      exact Or.inl ⟨pre, post, hl, by rw [hf]; exact hr⟩
    · refine Or.inr ⟨e, s₁, hl, ?_⟩
      simp only [Bool.and_eq_true, decide_eq_true_eq] at h
      split at h
      · next hp =>
        simp only [Run.bind_eq_ok_iff, Toolbox.exec_notify_pure, Run.exec_pure] at h
        obtain ⟨_, _, hn, h⟩ := h
        cases hn
        cases h
        exact ⟨hp.1, hp.2, rfl, rfl⟩
      · simp at h
  · rintro (⟨pre, post, hl, h⟩ | ⟨e, s₁, hl, he, hp, rfl, rfl⟩)
    · obtain ⟨file, hf, hr⟩ := Option.bind_eq_some_iff.1 h
      refine ⟨_, s', Or.inl ⟨(pre, post), rfl, hl⟩, ?_⟩
      simp only [Run.bind_eq_ok_iff, Run.need_eq_ok_iff]
      exact ⟨file, s', ⟨hf, rfl⟩, hr, rfl⟩
    · refine ⟨_, s₁, Or.inr ⟨e, rfl, hl⟩, ?_⟩
      simp only [he, hp, decide_true, Bool.and_self, if_true, Run.bind_eq_ok_iff, Toolbox.exec_notify_pure]
      exact ⟨(), _, rfl, rfl⟩

/-- **A step of a contrast**: it ends well exactly if the change fares in one of the four ways, and
then the report is the one with that fate entered. -/
theorem exec_contrastChange_ok_iff {report report' : Report} {change : Change} :
    (b.contrastChange options report change).exec s = (.ok report', s') ↔
      ∃ fate, b.Fares options report.source report.target s change fate s' ∧
        report.enter change fate = some report' := by
  simp only [contrastChange, Run.bind_eq_ok_iff, Run.need_eq_ok_iff]
  constructor
  · rintro ⟨r, _, ⟨hr, rfl⟩, h⟩
    obtain rfl := Report.eq_of_countFile hr
    split at h
    · next hk =>
      simp only [Run.bind_eq_ok_iff, Toolbox.exec_notify_pure, Run.exec_pure] at h
      obtain ⟨_, _, hn, h⟩ := h
      cases hn
      cases h
      exact ⟨.unchanged, .unchanged hk, by simp [Report.enter, hr]⟩
    · next hk =>
      cases hsel : options.routing.select change.path options.language <;> rw [hsel] at h <;>
        simp only [Run.bind_eq_ok_iff, Toolbox.exec_notify_pure, Run.exec_pure] at h <;>
        obtain ⟨_, _, hn, h⟩ := h <;> cases hn
      · cases h
        exact ⟨.unrouted, .unrouted hk hsel, by simp [Report.enter, hr]⟩
      · rw [exec_contrastFile_ok_iff] at h
        obtain ⟨pre, post, hl, h⟩ | ⟨e, s₁, hl, he, hp, rfl, rfl⟩ := h
        · exact ⟨_, .linted hk hsel hl, by simpa [Report.enter, hr] using h⟩
        · exact ⟨_, .failed hk hsel hl he hp, by simp [Report.enter, hr]⟩
  · rintro ⟨fate, hfares, henter⟩
    obtain ⟨r, hr, henter⟩ := Option.bind_eq_some_iff.1 henter
    obtain rfl := Report.eq_of_countFile hr
    refine ⟨_, s, ⟨hr, rfl⟩, ?_⟩
    cases hfares with
    | unchanged hk =>
      cases henter
      simp only [hk, if_true, Run.exec_bind, Toolbox.exec_notify_pure, Run.exec_pure]
    | unrouted hk hsel =>
      cases henter
      simp only [hk, if_false, hsel, Run.exec_bind, Toolbox.exec_notify_pure, Run.exec_pure]
    | linted hk hsel hl =>
      simp only [hk, if_false, hsel, Run.exec_bind, Toolbox.exec_notify_pure]
      exact exec_contrastFile_ok_iff.2 (Or.inl ⟨_, _, hl, henter⟩)
    | failed hk hsel hl he hp =>
      cases henter
      simp only [hk, if_false, hsel, Run.exec_bind, Toolbox.exec_notify_pure]
      exact exec_contrastFile_ok_iff.2 (Or.inr ⟨_, _, hl, he, hp, rfl, rfl⟩)

/-! ## A whole run -/

/-- Changes fare in one way only, one after another. -/
theorem Walk.unique {walk : List (Change × Fate)} (h : b.Walk options source target s walk s₁) :
    ∀ {walk' : List (Change × Fate)}, b.Walk options source target s walk' s₂ →
      walk'.map (·.1) = walk.map (·.1) → walk' = walk ∧ s₂ = s₁ := by
  induction h with
  | nil s =>
    intro walk' h' hw
    cases h' with
    | nil => exact ⟨rfl, rfl⟩
    | cons => simp at hw
  | cons step tail ih =>
    intro walk' h' hw
    cases h' with
    | nil => simp at hw
    | cons step' tail' =>
      simp only [List.map_cons, List.cons.injEq] at hw
      obtain ⟨rfl, hw⟩ := hw
      obtain ⟨rfl, rfl⟩ := step.unique step'
      obtain ⟨rfl, rfl⟩ := ih tail' hw
      exact ⟨rfl, rfl⟩

/-- Every entry of a walk is one of its steps. -/
theorem Walk.fares {walk : List (Change × Fate)} (h : b.Walk options source target s walk s₁)
    {change : Change} {fate : Fate} (hmem : (change, fate) ∈ walk) :
    ∃ s₂ s₃, b.Fares options source target s₂ change fate s₃ := by
  induction h with
  | nil s => cases hmem
  | cons step tail ih =>
    rcases List.mem_cons.1 hmem with heq | hmem
    · cases heq
      exact ⟨_, _, step⟩
    · exact ih hmem

/-- **All steps of a contrast**, by induction on the changes: the loop ends well exactly if there is a
walk over them, and then the report is the one with all its steps entered. -/
theorem exec_contrastAll_ok_iff {changes : List Change} {report report' : Report} :
    (b.contrastAll options report changes).exec s = (.ok report', s') ↔
      ∃ walk : List (Change × Fate), walk.map (·.1) = changes ∧
        b.Walk options report.source report.target s walk s' ∧ report.enterAll walk = some report' := by
  induction changes generalizing s report with
  | nil =>
    rw [contrastAll_nil, Run.exec_pure]
    constructor
    · intro h
      cases h
      exact ⟨[], rfl, .nil _, rfl⟩
    · rintro ⟨walk, hw, hwalk, h⟩
      obtain rfl := List.map_eq_nil_iff.1 hw
      cases hwalk
      cases h
      rfl
  | cons change changes ih =>
    have hcons : b.contrastAll options report (change :: changes) =
      b.contrastChange options report change >>= fun r => b.contrastAll options r changes := rfl
    rw [hcons, Run.bind_eq_ok_iff]
    constructor
    · rintro ⟨r, s₁, hstep, hrest⟩
      obtain ⟨fate, hfares, henter⟩ := exec_contrastChange_ok_iff.1 hstep
      obtain ⟨walk, hw, hwalk, hall⟩ := ih.1 hrest
      -- the rest of the walk is between the same two commits
      obtain ⟨hs, ht⟩ := Report.commits_of_enter henter
      rw [hs, ht] at hwalk
      refine ⟨(change, fate) :: walk, by simp [hw], .cons hfares hwalk, ?_⟩
      rw [Report.enterAll_cons, henter]
      exact hall
    · rintro ⟨walk, hw, hwalk, hall⟩
      cases hwalk with
      | nil => simp at hw
      | cons step tail =>
        simp only [List.map_cons, List.cons.injEq] at hw
        obtain ⟨rfl, rfl⟩ := hw
        rw [Report.enterAll_cons] at hall
        obtain ⟨r, henter, hall⟩ := Option.bind_eq_some_iff.1 hall
        obtain ⟨hs, ht⟩ := Report.commits_of_enter henter
        rw [← hs, ← ht] at tail
        exact ⟨r, _, exec_contrastChange_ok_iff.2 ⟨_, step, henter⟩, ih.2 ⟨_, rfl, tail, hall⟩⟩

/-- Saying which commits are contrasted keeps what a notice keeps. -/
theorem keeps_opening {R : Session σ → Session σ → Prop} (c : Run.Chain R)
    (hn : ∀ n, Run.Keeps R (Run.record (.notice n))) (box : Toolbox σ) (source target : CommitId) :
    Run.Keeps R (box.notify .contrast .info do
      let shortSource ← Run.need .splitCharacter source.short
      return .contrasting shortSource (← Run.need .splitCharacter target.short)) :=
  c.notify (c.bind (c.need _ _) fun _ => c.bind (c.need _ _) fun _ => c.pure _) hn

theorem noticed_of_opening {box : Toolbox σ} {r : Except Stop Unit} {s s₀ : Session σ}
    (h : (box.notify .contrast .info do
      let shortSource ← Run.need .splitCharacter source.short
      return .contrasting shortSource (← Run.need .splitCharacter target.short)).exec s = (r, s₀)) : s.Noticed s₀ := by
  have := keeps_opening Session.chain_noticed Session.noticed_note box source target s
  rwa [h] at this

/-- Saying what came of it keeps what a notice keeps. -/
theorem keeps_closing {R : Session σ → Session σ → Prop} (c : Run.Chain R)
    (hn : ∀ n, Run.Keeps R (Run.record (.notice n))) (box : Toolbox σ) (report : Report) :
    Run.Keeps R (box.notify .contrast .info do
      return .complete report.files.length report.failures.length
        (← Run.need .overflow report.netTotal.total)) :=
  c.notify (c.bind (c.need _ _) fun _ => c.pure _) hn

/-- Where a contrast that began in `s` stands before its first step: it asked for the changes, and there may be
notices before the question. -/
def Opened (b : Bench σ) (source target : CommitId) (s s₁ : Session σ) : Prop :=
  ∃ s₀, s.Noticed s₀ ∧ s₁ = { s₀ with
    world := (b.vcs.changes source target s₀.world).2
    trace := s₀.trace ++ [.changes source target] }

/-- **A contrast that ends with a report** asked which files changed and walked over them, and the
report holds the steps of that walk and nothing else. -/
theorem exec_contrast_of_ok {report : Report}
    (h : (b.contrast options source target).exec s = (.ok report, s')) :
    ∃ (s₁ s₂ : Session σ) (walk : List (Change × Fate)),
      (b.vcs.changes source target s.world).1 = .ok (walk.map (·.1)) ∧
      b.Opened source target s s₁ ∧ b.Walk options source target s₁ walk s₂ ∧ s₂.Noticed s' ∧
      (Report.start source target).enterAll walk = some report := by
  simp only [contrast, Run.bind_eq_ok_iff] at h
  obtain ⟨_, s₀, hopen, changes, s₁, hchanges, r, s₂, hall, _, s₃, hclose, h⟩ := h
  cases h
  obtain ⟨walk, rfl, hwalk, henter⟩ := exec_contrastAll_ok_iff.1 hall
  have hnoticed := noticed_of_opening hopen
  have hclosed : s₂.Noticed s' := by
    have := keeps_closing Session.chain_noticed Session.noticed_note b.box report s₂
    rwa [hclose] at this
  obtain ⟨hanswer, rfl⟩ := Run.call_eq_ok_iff.1 hchanges
  rw [hnoticed.world] at hanswer
  exact ⟨_, s₂, walk, hanswer, ⟨s₀, hnoticed, rfl⟩, hwalk, hclosed, henter⟩

/-- A linter that finds one issue in every file that it gets. -/
def finder (issue : Issue) : Linter σ :=
  ⟨"finder", false, fun _ => Run.need .overflow (Tally.ofIssues [issue])⟩

/-- A bench that nothing disturbs. Version control knows the changes and where HEAD is, every file is
empty, and the tools leave blank reports. -/
def placid (changes : List Change) : Bench Head where
  vcs :=
    { workdir := .ofString "/work"
      resolveRange := fun _ head => (.error (.configuration "no range"), head)
      changes := fun _ _ head => (.ok changes, head)
      readBlob := fun _ head => (.ok [], head)
      head := fun head => (.ok head, head)
      isClean := fun head => (.ok true, head)
      checkout := fun target _ => (.ok (), target) }
  box :=
    { start := fun _ _ _ => .ok ⟨.code 0, [], [], some []⟩
      temp := ⟨.ofString "/tmp", true, fun made => toString made⟩
      shows := fun _ _ => false }

end Bench

end LintDelta
