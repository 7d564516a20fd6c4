import LintDelta.Proofs.Contrast.Spending
import LintDelta.Proofs.Tally.Group

/-!
# Nothing overflows

A contrast adds and subtracts machine integers in many places: it counts what a tool reports, takes the net of
the two sides of a file, keeps running totals and numbers of files, sums the net total up, and shows by how much
counts moved. None of this leaves the range as long as the tools report fewer than 2^63 entries in all and there
are fewer than 2^64 changes.

The invariant of the walk is that a report holds no more than was read off the meter when it was its turn, and no
more files of a kind than there were changes (`Report.Within`). Each entry keeps it, and within it each entry can
be made.

Main statement: `Bench.no_overflow_of_contrast`.
-/

namespace LintDelta

variable {σ : Type}

/-! ## Reports within a bound -/

/-- Counts of occurrences have a net. -/
theorem Tally.Nonneg.exists_net {pre post : Tally} (hpre : pre.Nonneg) (hpost : post.Nonneg) :
    ∃ net, Tally.net pre post = some net := by
  refine Option.ne_none_iff_exists'.1 fun hnone => ?_
  rcases net_eq_none_iff.1 hnone with ⟨i, hi⟩ | ⟨i, hi⟩
  · have := hpre i
    omega
  · have h₁ := hpre i
    have h₂ := hpost i
    have h₃ := fits_count post i
    have h₄ := fits_count pre i
    simp only [Machine.fits, Bool.and_eq_true, decide_eq_true_eq, Bool.and_eq_false_iff, decide_eq_false_iff_not]
      at hi h₃ h₄
    omega

/-- A change is counted under no name twice. -/
theorem Fate.count_names_le (change : Change) (fate : Fate) (name : String) : (fate.names change).count name ≤ 1 := by
  have hnodup : (fate.names change).Nodup := by
    cases fate with
    | linted linter pre post => simp [names, (Report.lintedName_ne_label change.kind change.kind linter).symm]
    | _ => exact List.nodup_singleton _
  exact List.nodup_iff_count_le_one.1 hnodup name

/-- A report of counts that come from no more than some entries, and of no more than some changes. -/
structure Report.Within (r : Report) (entries changes : Nat) : Prop where
  balanced : r.Balanced
  nonneg : ∀ f ∈ r.files, f.Nonneg
  occurrences : (r.files.map (·.occurrences)).sum ≤ entries
  fileCount : ∀ name, r.fileCount name ≤ changes

/-- What a fate adds to a report is covered by the entries that were read on the way from `n` to `m`. -/
structure Fate.Covered (change : Change) (fate : Fate) (n m : Nat) : Prop where
  le : n ≤ m
  sided : ∀ linter pre post, fate = .linted linter pre post → change.Sided pre post
  nonneg : ∀ linter pre post, fate = .linted linter pre post → pre.Nonneg ∧ post.Nonneg
  occurrences : ∀ linter pre post, fate = .linted linter pre post → n + (pre.occurrences + post.occurrences) ≤ m

/-- A fate that lists nothing is covered. -/
theorem Fate.Covered.of_unlisted {change : Change} {fate : Fate} {n m : Nat} (hle : n ≤ m)
    (h : fate.finding? change = none) : fate.Covered change n m where
  le := hle
  sided _ _ _ heq := by subst heq; cases h
  nonneg _ _ _ heq := by subst heq; cases h
  occurrences _ _ _ heq := by subst heq; cases h

theorem Fate.Covered.of_linted {change : Change} {linter : String} {pre post : Tally} {n m : Nat} (hle : n ≤ m)
    (hsided : change.Sided pre post) (hpre : pre.Nonneg) (hpost : post.Nonneg)
    (h : n + (pre.occurrences + post.occurrences) ≤ m) : (Fate.linted linter pre post).Covered change n m where
  le := hle
  sided _ _ _ heq := by cases heq; exact hsided
  nonneg _ _ _ heq := by cases heq; exact ⟨hpre, hpost⟩
  occurrences _ _ _ heq := by cases heq; exact h

namespace Report

theorem within_start (source target : CommitId) (entries : Nat) : (start source target).Within entries 0 where
  balanced := balanced_start source target
  nonneg := List.forall_mem_nil _
  occurrences := Int.natCast_nonneg entries
  fileCount name := by
    rw [fileCount, (accounts_start source target).counts name]
    split <;> simp

variable {r r' : Report} {change : Change} {fate : Fate} {n m k : Nat}

/-- What is listed of a covered change is covered. -/
theorem Within.files (h : r.Within n k) (hfate : fate.Covered change n m) :
    (∀ f ∈ r.files ++ (fate.file? change).toList, f.Nonneg) ∧
      ((r.files ++ (fate.file? change).toList).map (·.occurrences)).sum ≤ m := by
  have hold := h.occurrences
  have hle := hfate.le
  cases fate with
  | linted linter pre post =>
    obtain ⟨hpre, hpost⟩ := hfate.nonneg linter pre post rfl
    obtain ⟨net, hnet⟩ := hpre.exists_net hpost
    have hocc := hfate.occurrences linter pre post rfl
    rw [Fate.file?, make_eq_some hnet]
    constructor
    · intro f hf
      rcases List.mem_append.1 hf with hf | hf
      · exact h.nonneg f hf
      · exact List.mem_singleton.1 hf ▸ ⟨hpre, hpost⟩
    · simp only [Option.toList, List.map_append, List.sum_append, List.map_cons, List.map_nil, List.sum_cons,
        List.sum_nil, FileDiff.occurrences] at hold ⊢
      omega
  | _ =>
    simp only [Fate.file?, Option.toList, List.append_nil]
    exact ⟨h.nonneg, by omega⟩

/-- **An entry keeps a report within its bounds**, which grow by the entries read for it and by one change. -/
theorem Within.enter (h : r.Within n k) (hfate : fate.Covered change n m) (henter : r.enter change fate = some r') :
    r'.Within m (k + 1) := by
  obtain ⟨hfiles, hcount⟩ := files_enter henter
  obtain ⟨hnonneg, hocc⟩ := h.files hfate
  refine ⟨balanced_enter h.balanced hfate.sided henter, hfiles ▸ hnonneg, hfiles ▸ hocc, fun name => ?_⟩
  rw [hcount]
  exact Nat.add_le_add (h.fileCount name) (fate.count_names_le change name)

/-- An entry can be made within the bounds. -/
theorem Within.exists_enter (h : r.Within n k) (hfate : fate.Covered change n m) (hm : m < 2 ^ 63)
    (hk : k + 1 < 2 ^ 64) : ∃ r', r.enter change fate = some r' := by
  obtain ⟨hnonneg, hocc⟩ := h.files hfate
  refine Report.exists_enter h.balanced hfate.sided (fun linter pre post heq => ?_) hnonneg (fun i => ?_) fun name => ?_
  · obtain ⟨hpre, hpost⟩ := hfate.nonneg linter pre post heq
    exact hpre.exists_net hpost
  · have hload := sum_load_le hnonneg i
    omega
  · have := h.fileCount name
    have := fate.count_names_le change name
    omega

/-- Within the bounds an entry cannot be made only after 2^63 entries were read. -/
theorem Within.full (h : r.Within n k) (hfate : fate.Covered change n m) (hk : k + 1 < 2 ^ 64)
    (hnone : r.enter change fate = none) : 2 ^ 63 ≤ m :=
  Nat.le_of_not_lt fun hlt => by
    obtain ⟨r', henter⟩ := h.exists_enter hfate hlt hk
    cases hnone.symm.trans henter

end Report

/-! ## The walk over the changes -/

namespace Bench

variable {b : Bench σ} {options : Options Adapter} {source target : CommitId} {report counted : Report}
  {change : Change} {n k : Nat}

/-- **A file that was linted or passed over** leaves a report within its bounds. -/
theorem spends_contrastFile (policy : Policy) (a : Adapter)
    (hcount : report.countFile change.kind.label = some counted) (h : report.Within n k) (hk : k + 1 < 2 ^ 64) :
    Spends (· = n) (b.beside.contrastFile policy counted change (a.metered b.box))
      fun r m => r.Within m (k + 1) := by
  have hlint : Spends (· = n) (b.beside.lintChange (a.metered b.box) change counted.source counted.target)
      fun both m => Worths n both m ∧ change.Sided both.1 both.2 :=
    (spends_lintChange change _ _ n).and fun _ _ _ => sided_of_lintChange
  refine hlint.attempt.bind fun answer => Spends.of_eq fun m hanswer => ?_
  obtain ⟨hle, hboth⟩ := hanswer
  cases answer with
  | ok both =>
    obtain ⟨⟨hpre, hpost, hsum⟩, hsided⟩ := hboth both rfl
    have hfate : (Fate.linted a.name both.1 both.2).Covered change n m := .of_linted hle hsided hpre hpost hsum
    have henter : report.enter change (.linted a.name both.1 both.2) =
        (FileDiff.make change change.kind a.name both.1 both.2).bind counted.record := by
      rw [Report.enter, hcount]
      rfl
    have hmake : Spends (· = m)
        (Run.need .overflow (FileDiff.make change change.kind a.name both.1 both.2) : Run (σ × Meter) FileDiff)
        fun file m' => m' = m ∧ FileDiff.make change change.kind a.name both.1 both.2 = some file := by
      refine Spends.need (fun file hfile m' hm' => ⟨hm', hfile⟩) fun hnone _ m' hm' => ?_
      exact hm' ▸ h.full hfate hk (by rw [henter, hnone]; rfl)
    refine hmake.bind fun file => Spends.need ?_ ?_
    · rintro r hr m' ⟨rfl, hfile⟩
      exact h.enter hfate (by rw [henter, hfile]; exact hr)
    · rintro hnone - m' ⟨rfl, hfile⟩
      exact h.full hfate hk (by rw [henter, hfile]; exact hnone)
  | error e =>
    dsimp only
    split
    · refine (Spends.notify (Spends.pure fun _ => id)).bind fun _ => Spends.pure ?_
      rintro m' rfl
      have hfate : (Fate.failed a.name e).Covered change n m' := .of_unlisted hle rfl
      exact h.enter hfate (by rw [Report.enter, hcount]; rfl)
    · exact Spends.fail

/-- **One change** leaves a report within its bounds. -/
theorem spends_contrastChange (change : Change) (h : report.Within n k) (hk : k + 1 < 2 ^ 64) :
    Spends (· = n) (b.beside.contrastChange (options.metered b.box) report change)
      fun r m => r.Within m (k + 1) := by
  have hcount : Spends (· = n) (Run.need .overflow (report.countFile change.kind.label) : Run (σ × Meter) Report)
      fun counted m => m = n ∧ report.countFile change.kind.label = some counted := by
    have hfate : Fate.unchanged.Covered change n n := .of_unlisted (Nat.le_refl n) rfl
    refine Spends.need (fun counted hcount m hm => ⟨hm, hcount⟩) fun hnone _ m hm => ?_
    exact hm ▸ h.full hfate hk (by rw [Report.enter, hnone]; rfl)
  refine hcount.bind fun counted => Spends.of_eq fun m hm => ?_
  obtain ⟨rfl, hcounted⟩ := hm
  have hpassed : ∀ notice fate, report.enter change fate = some counted → fate.finding? change = none →
      Spends (· = m) (do
        b.beside.box.notify .contrast .debug (return notice)
        return counted) fun r m => r.Within m (k + 1) := by
    intro notice fate henter hfate
    refine (Spends.notify (Spends.pure fun _ => id)).bind fun _ => Spends.pure ?_
    rintro _ rfl
    exact h.enter (.of_unlisted (Nat.le_refl _) hfate) henter
  split
  · exact hpassed _ .unchanged (by rw [Report.enter, hcounted]; rfl) rfl
  · unfold Options.metered
    rw [Routing.select_map]
    cases options.routing.select change.path options.language with
    | none => exact hpassed _ .unrouted (by rw [Report.enter, hcounted]; rfl) rfl
    | some a =>
      exact (Spends.notify (Spends.pure fun _ => id)).bind fun _ => spends_contrastFile _ a hcounted h hk

/-- **All changes** leave a report within its bounds, by induction on the changes. -/
theorem spends_contrastAll (changes : List Change) (h : report.Within n k) (hk : k + changes.length < 2 ^ 64) :
    Spends (· = n) (b.beside.contrastAll (options.metered b.box) report changes)
      fun r m => r.Within m (k + changes.length) := by
  induction changes generalizing report n k with
  | nil => exact Spends.pure fun _ hm => hm ▸ h
  | cons change changes ih =>
    rw [List.length_cons] at hk
    refine (spends_contrastChange change h (by omega)).bind fun report' => Spends.of_eq fun m h' => ?_
    refine (ih h' (by omega)).mono fun r m' hr => ?_
    rwa [List.length_cons, Nat.add_comm changes.length, ← Nat.add_assoc]

/-! ## The whole contrast -/

/-- A report within its bounds can be announced before 2^63 entries were read. -/
theorem spends_complete (h : report.Within n k) :
    Spends (· = n) (b.beside.box.notify .contrast .info do
      return .complete report.files.length report.failures.length (← Run.need .overflow report.netTotal.total))
      fun _ m => m = n := by
  have htotal : Spends (· = n) (Run.need .overflow report.netTotal.total : Run (σ × Meter) Int) fun _ m => m = n := by
    refine Spends.need (fun _ _ _ => id) fun hnone _ m hm => hm ▸ Nat.le_of_not_lt fun hlt => ?_
    have hocc := h.occurrences
    obtain ⟨total, htotal⟩ := h.balanced.exists_total h.nonneg (by omega)
    cases hnone.symm.trans htotal
  exact Spends.notify (htotal.bind fun _ => Spends.pure fun _ => id)

/-- **What comes of a whole contrast**: the report that it ends with is within the bounds of its meter. -/
theorem outlay_contrast (b : Bench σ) (options : Options Adapter) {s : Session σ}
    (hchanges : ∀ changes, (b.vcs.changes source target s.world).1 = .ok changes → changes.length < 2 ^ 64) :
    Outlay (fun r m => ∃ k, r.Within m k) Meter.zero
      ((b.beside.contrast (options.metered b.box) source target).exec (s.beside Meter.zero)).1
      (b.meter options source target s) := by
  have hopening : Spends (· = 0) (b.beside.box.notify .contrast .info do
      let shortSource ← Run.need .splitCharacter source.short
      return .contrasting shortSource (← Run.need .splitCharacter target.short)) fun _ m => m = 0 :=
    Spends.notify (Spends.need_splitCharacter.bind fun _ => Spends.named)
  refine (hopening (s.beside Meter.zero) rfl).bind fun _ s₀ hopen hzero => ?_
  have hworld : s₀.world = (s.world, Meter.zero) := (noticed_of_opening hopen).world
  have hcall : Spends (· = 0) (Run.call (.changes source target) (b.beside.vcs.changes source target))
      fun _ m => m = 0 := Spends.call _ (fun _ => rfl) fun _ _ => id
  refine (hcall s₀ hzero).bind fun changes s₁ hanswer hzero => ?_
  have hlength : changes.length < 2 ^ 64 := by
    refine hchanges changes ?_
    have := (Run.call_eq_ok_iff.1 hanswer).1
    rwa [hworld] at this
  have hall : Spends (· = 0) (b.beside.contrastAll (options.metered b.box) (Report.start source target) changes)
      fun r m => r.Within m (0 + changes.length) :=
    spends_contrastAll changes (Report.within_start source target 0) (by rwa [Nat.zero_add])
  refine hall.bind (fun report => Spends.of_eq fun m h => ?_) s₁ hzero
  exact (spends_complete h).bind fun _ => Spends.pure fun m' hm' => ⟨_, hm' ▸ h⟩

/-- **No arithmetic leaves the range.** A contrast with the tools, whatever is answered and however it ends, in
which the tools report fewer than 2^63 entries in all and fewer than 2^64 files changed. No linting has too many
issues to count, also none of those whose failure is passed over or hidden by another. The contrast does not stop
because a net, a running total, a number of files or the sum of the net total is out of range. Of a report that it
ends with, the net total has a sum, every count has a movement, in each file and in the totals, and no rendering
fails because one has not. -/
theorem no_overflow_of_contrast (b : Bench σ) (options : Options Adapter) (source target : CommitId) (s : Session σ)
    (hentries : (b.meter options source target s).entries < 2 ^ 63)
    (hchanges : ∀ changes, (b.vcs.changes source target s.world).1 = .ok changes → changes.length < 2 ^ 64) :
    (b.meter options source target s).overflows = 0 ∧
    ((b.contrast (options.equip b.box) source target).exec s).1 ≠ .error .overflow ∧
    ∀ report, ((b.contrast (options.equip b.box) source target).exec s).1 = .ok report →
      (∃ total, report.netTotal.total = some total) ∧
      (∀ f ∈ report.files, ∀ m ∈ Tally.compare f.pre f.post, ∃ net, m.net = some net) ∧
      (∀ m ∈ Tally.compare report.preTotal report.postTotal, ∃ net, m.net = some net) ∧
      ∀ theme format, report.render theme format ≠ .error .overflow := by
  have hout := outlay_contrast b options hchanges
  have hexec := congrArg (·.1) (b.exec_contrast_eq_metered options source target s)
  dsimp only at hexec
  rw [hexec]
  refine ⟨?_, fun hover => ?_, fun report hreport => ?_⟩
  · exact hout.goes.overflows.resolve_right (Nat.not_le_of_lt hentries)
  · exact Nat.not_le_of_lt hentries (hout.overflow hover)
  · obtain ⟨k, h⟩ := hout.ok report hreport
    obtain ⟨hfiles, hpre, hpost⟩ := nonneg_of_contrast (Prod.ext (hexec.trans hreport) rfl)
    have hocc := h.occurrences
    refine ⟨h.balanced.exists_total h.nonneg (by omega), fun f hf => ?_, ?_, fun theme format => ?_⟩
    · exact Tally.exists_net_of_nonneg (hfiles f hf).1 (hfiles f hf).2
    · exact Tally.exists_net_of_nonneg hpre hpost
    · exact Report.render_ne_overflow theme format hfiles hpre hpost

/-- A bench with one new file, in which Pylint finds an error. -/
def flawed : Bench Head :=
  let changes := [.added (.ofString "a.py") ⟨"1"⟩]
  { placid changes with
    box :=
      { (placid changes).box with
        start := fun _ _ _ =>
          .ok ⟨.code 2, Text.encode "[\x7b\"symbol\":\"undefined-variable\",\"type\":\"error\"\x7d]", [], some []⟩
        temp := ⟨.ofString "/tmp", true, fun _ => "x"⟩ } }

/-- The meter shows the error, and the net total has a sum. -/
theorem no_overflow_of_contrast_of_flawed :
    (flawed.meter Options.standard ⟨"s"⟩ ⟨"t"⟩ (Session.start (.branch "main"))).entries = 1 ∧
    (flawed.meter Options.standard ⟨"s"⟩ ⟨"t"⟩ (Session.start (.branch "main"))).overflows = 0 ∧
    ∃ report total, ((flawed.contrast (Options.standard.equip flawed.box) ⟨"s"⟩ ⟨"t"⟩).exec
        (Session.start (.branch "main"))).1 = .ok report ∧
      report.netTotal.total = some total ∧ ∀ theme format, report.render theme format ≠ .error .overflow := by
  have hentries : (flawed.meter Options.standard ⟨"s"⟩ ⟨"t"⟩ (Session.start (.branch "main"))).entries = 1 := by
    decide +kernel
  obtain ⟨hzero, -, hreport⟩ := no_overflow_of_contrast flawed Options.standard ⟨"s"⟩ ⟨"t"⟩
    (Session.start (.branch "main")) (by rw [hentries]; decide) fun changes hchanges => by
      cases hchanges
      decide
  cases hr : ((flawed.contrast (Options.standard.equip flawed.box) ⟨"s"⟩ ⟨"t"⟩).exec
      (Session.start (.branch "main"))).1 with
  | ok report =>
    obtain ⟨⟨total, htotal⟩, -, -, hrender⟩ := hreport report hr
    exact ⟨hentries, hzero, report, total, rfl, htotal, hrender⟩
  | error stop =>
    have hok : ((flawed.contrast (Options.standard.equip flawed.box) ⟨"s"⟩ ⟨"t"⟩).exec
        (Session.start (.branch "main"))).1.toBool = true := by decide +kernel
    rw [hr] at hok
    cases hok

end Bench

end LintDelta
