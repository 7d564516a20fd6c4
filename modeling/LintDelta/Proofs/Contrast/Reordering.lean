import Mathlib.Data.List.Perm.Basic
import LintDelta.Proofs.Contrast.Capacity
import LintDelta.Proofs.Contrast.Strategies

/-!
# The order of changes

A contrast adds tallies up one change after another, and counts cancel and come back on the way. If linting a
change comes to the same whenever it is its turn (`Bench.Steady`), then the order of the changes shows only in
the order of what is listed: the totals and the numbers are the same, down to how they are stored
(`reordering_of_contrast`). A run that meets the changes in another order is made out of the first: its steps
are those of the first (`exists_walk_of_perm`), and they can all be entered since no sum on the way leaves the
range that all occurrences together stay in (`exists_enterAll`).

Linting is steady with linters that go by the content of the files, for what they judge does not change on the way
(`steady_of_goesBy`).
-/

namespace LintDelta

variable {σ : Type}

/-! ## Entering a walk -/

namespace Report

/-- What the entries of a walk add, by induction on the walk. -/
theorem files_enterAll {r r' : Report} {walk : List (Change × Fate)} (h : r.enterAll walk = some r') :
    r'.files = r.files ++ walk.filterMap (fun (change, fate) => fate.file? change) ∧
      (∀ change fate, (change, fate) ∈ walk → ∀ linter pre post, fate = .linted linter pre post →
        ∃ net, Tally.net pre post = some net) ∧
      ∀ name, r'.fileCount name =
        r.fileCount name + (walk.flatMap fun (change, fate) => fate.names change).count name := by
  induction walk generalizing r with
  | nil =>
    cases h
    exact ⟨(List.append_nil _).symm, nofun, fun _ => rfl⟩
  | cons entry rest ih =>
    obtain ⟨change, fate⟩ := entry
    rw [enterAll_cons] at h
    obtain ⟨r₁, henter, h⟩ := Option.bind_eq_some_iff.1 h
    obtain ⟨hfiles, hcount⟩ := files_enter henter
    obtain ⟨hfilesRest, hnets, hcountRest⟩ := ih h
    refine ⟨?_, fun change' fate' hmem linter pre post hfate => ?_, fun name => ?_⟩
    · rw [hfilesRest, hfiles, List.append_assoc, List.filterMap_cons]
      cases hfile : fate.file? change <;> simp only [hfile] <;> rfl
    · rcases List.mem_cons.1 hmem with heq | hmem
      · cases heq
        subst hfate
        obtain ⟨net, _, _, _, hnet, -⟩ := enter_cases henter
        exact ⟨net, hnet⟩
      · exact hnets change' fate' hmem linter pre post hfate
    · rw [hcountRest, hcount, List.flatMap_cons, List.count_append, Nat.add_assoc]

/-- **A walk can be entered** if its tallies have nets and if all that it lists, and all its numbers of files, stay
in range. By induction on the walk: what was listed so far and what is still to come stay in range together. -/
theorem exists_enterAll {b : Bench σ} {options : Options (Linter σ)} {source target : CommitId} {s s' : Session σ}
    {walk : List (Change × Fate)} (hwalk : b.Walk options source target s walk s')
    (hnet : ∀ change fate, (change, fate) ∈ walk → ∀ linter pre post, fate = .linted linter pre post →
      ∃ net, Tally.net pre post = some net) :
    ∀ {r : Report}, r.Balanced →
      (∀ f ∈ r.files ++ walk.filterMap (fun (change, fate) => fate.file? change), f.Nonneg) →
      (∀ i, ((r.files ++ walk.filterMap fun (change, fate) => fate.file? change).map (·.load i)).sum < 2 ^ 63) →
      (∀ name, r.fileCount name + (walk.flatMap fun (change, fate) => fate.names change).count name < 2 ^ 64) →
      ∃ r', r.enterAll walk = some r' := by
  induction hwalk with
  | nil s => exact fun {r} _ _ _ _ => ⟨r, rfl⟩
  | @cons s s₁ s₂ change fate rest step tail ih =>
    intro r hr hnonneg hload hcount
    have hsided : ∀ linter pre post, fate = .linted linter pre post → change.Sided pre post :=
      fun linter pre post hfate => Bench.Fares.sided (hfate ▸ step)
    have hsplit : r.files ++ ((change, fate) :: rest).filterMap (fun (change, fate) => fate.file? change) =
        r.files ++ (fate.file? change).toList ++ rest.filterMap fun (change, fate) => fate.file? change := by
      rw [List.append_assoc, List.filterMap_cons]
      cases hfile : fate.file? change <;> simp only [hfile] <;> rfl
    have hnames : ∀ name, r.fileCount name + ((fate.names change).count name +
        (rest.flatMap fun (change, fate) => fate.names change).count name) < 2 ^ 64 := by
      intro name
      rw [← List.count_append]
      exact hcount name
    rw [hsplit] at hnonneg
    obtain ⟨r₁, henter⟩ : ∃ r₁, r.enter change fate = some r₁ := by
      refine exists_enter hr hsided (hnet change fate List.mem_cons_self)
        (fun f hf => hnonneg f (List.mem_append_left _ hf)) (fun i => ?_) fun name => ?_
      · have hall := hload i
        rw [hsplit, List.map_append, List.sum_append] at hall
        have hrest : 0 ≤ ((rest.filterMap fun (change, fate) => fate.file? change).map (·.load i)).sum :=
          List.sum_nonneg (List.forall_mem_map.2 fun f hf =>
            (hnonneg f (List.mem_append_right _ hf)).load_nonneg i)
        omega
      · have hall := hnames name
        omega
    obtain ⟨hfiles, hnumber⟩ := files_enter henter
    obtain ⟨r', h'⟩ := ih (fun change' fate' hmem => hnet change' fate' (List.mem_cons_of_mem _ hmem))
      (balanced_enter hr hsided henter) (hfiles ▸ hnonneg) (fun i => by
        rw [hfiles, ← hsplit]
        exact hload i) fun name => by
          have hall := hnames name
          rw [hnumber]
          omega
    exact ⟨r', by rw [enterAll_cons, henter]; exact h'⟩

end Report

/-! ## Steady linting -/

/-- One of the sides of some changes between two commits. -/
def Side.Among (side : Side) (changes : List Change) (source target : CommitId) : Prop :=
  ∃ change ∈ changes, side.Of change source target

namespace Bench

/-- The sessions in which a contrast of some changes can be when one of them is its turn, in whatever order they
come. -/
inductive Comes (b : Bench σ) (options : Options (Linter σ)) (source target : CommitId) (changes : List Change)
    (start : Session σ) : Session σ → Prop
  | start : Comes b options source target changes start start
  | next {s s' : Session σ} {change : Change} {fate : Fate} (h : Comes b options source target changes start s)
    (hmem : change ∈ changes) (step : b.Fares options source target s change fate s') :
    Comes b options source target changes start s'

/-- What linting a change comes to depends on the change alone, whenever it is its turn. -/
def Steady (b : Bench σ) (options : Options (Linter σ)) (source target : CommitId) (changes : List Change)
    (start : Session σ) : Prop :=
  ∃ outcome : Change → Except Stop (Tally × Tally), ∀ change ∈ changes, change.kind ≠ .unchanged → ∀ linter,
    options.routing.select change.path options.language = some linter →
    ∀ s, b.Comes options source target changes start s →
      ((b.lintChange linter change source target).exec
        (b.box.noted .contrast .debug (.lintingFile change.path change.kind linter.name) s)).1 = outcome change

variable {b : Bench σ} {options : Options (Linter σ)} {source target : CommitId} {changes : List Change}
  {start s s' : Session σ}

/-! ### Linters that go by the content -/

section Contents

open Text (Bytes)

variable {worlds : σ → Prop} {disk : σ → Path → Option Bytes} {files : Path → Prop}
  {verdict : Linter σ → Bytes → Except Stop Tally} {content : BlobId → Bytes} {temps : List TempFile}
  (hvcs : b.vcs.Serves worlds disk content (·.Among changes source target))
  (hclean : ∀ w, worlds w → (b.vcs.isClean w).1 = .ok true) (htemp : b.box.temp.present = true)
  (hfiles : ∀ side : Side, side.Among changes source target → ∀ file, b.Hands side file → files file)
  (htree : ∀ side : Side, side.Among changes source target →
    ∀ temp ∈ temps, temp.path ≠ b.vcs.workdir.join side.path)
  (hlinters : ∀ change ∈ changes, ∀ linter, options.routing.select change.path options.language = some linter →
    linter.GoesBy worlds disk files (verdict linter))
include hvcs hclean htemp hfiles htree hlinters

/-- A change whose linter goes by the content is judged by it, and leaves things in order for the next. -/
theorem exec_lintChange_noted {change : Change} (hmem : change ∈ changes) {linter : Linter σ}
    (hsel : options.routing.select change.path options.language = some linter) (hs : Standing worlds temps s) :
    let x := (b.lintChange linter change source target).exec
      (b.box.noted .contrast .debug (.lintingFile change.path change.kind linter.name) s)
    x.1 = b.judgedChange (verdict linter) content (Side.before change source) (Side.after change target) ∧
      Standing worlds temps x.2 :=
  have hnoted := standing_noted hs
  exec_lintChange_of_clean hvcs (hlinters change hmem linter hsel) htemp hfiles htree
    (fun _ hside => ⟨change, hmem, hside⟩) hnoted (hclean _ hnoted.1)

/-- Things are in order whenever it is the turn of a change. -/
theorem Comes.standing (hstart : Standing worlds temps start) (h : b.Comes options source target changes start s) :
    Standing worlds temps s := by
  induction h with
  | start => exact hstart
  | next _ hmem step ih =>
    cases step with
    | unchanged => exact standing_noted ih
    | unrouted => exact standing_noted ih
    | linted _ hsel hl =>
      have hlinted := (exec_lintChange_noted hvcs hclean htemp hfiles htree hlinters hmem hsel ih).2
      rwa [hl] at hlinted
    | failed _ hsel hl =>
      have hlinted := (exec_lintChange_noted hvcs hclean htemp hfiles htree hlinters hmem hsel ih).2
      rw [hl] at hlinted
      exact standing_noted hlinted

/-- **Linters that go by the content** of the files make linting steady, if nothing is wrong with version control. -/
theorem steady_of_goesBy (hstart : Standing worlds temps start) :
    b.Steady options source target changes start := by
  refine ⟨fun change => (options.routing.select change.path options.language).elim (.ok (∅, ∅)) fun linter =>
    b.judgedChange (verdict linter) content (Side.before change source) (Side.after change target),
    fun change hmem _ linter hsel s hs => ?_⟩
  dsimp only
  rw [hsel]
  have hstanding := hs.standing hvcs hclean htemp hfiles htree hlinters hstart
  exact (exec_lintChange_noted hvcs hclean htemp hfiles htree hlinters hmem hsel hstanding).1

end Contents

/-! ### Another order -/

/-- A change that fares in a way when it is its turn fares in that way whenever it is. -/
theorem Fares.again (hsteady : b.Steady options source target changes start) {change : Change} {fate : Fate}
    (hmem : change ∈ changes) (hs : b.Comes options source target changes start s)
    (h : b.Fares options source target s change fate s') {s₁ : Session σ}
    (hs₁ : b.Comes options source target changes start s₁) :
    ∃ s₂, b.Fares options source target s₁ change fate s₂ := by
  obtain ⟨outcome, houtcome⟩ := hsteady
  have hagain : ∀ {linter : Linter σ} {r : Except Stop (Tally × Tally)} {s' : Session σ}, change.kind ≠ .unchanged →
      options.routing.select change.path options.language = some linter →
      (b.lintChange linter change source target).exec
        (b.box.noted .contrast .debug (.lintingFile change.path change.kind linter.name) s) = (r, s') →
      ∃ s₂, (b.lintChange linter change source target).exec
        (b.box.noted .contrast .debug (.lintingFile change.path change.kind linter.name) s₁) = (r, s₂) :=
    fun {linter r s'} hk hsel hl => by
      refine ⟨_, Prod.ext ?_ rfl⟩
      rw [houtcome change hmem hk linter hsel s₁ hs₁, ← houtcome change hmem hk linter hsel s hs, hl]
  cases h with
  | unchanged hk => exact ⟨_, .unchanged hk⟩
  | unrouted hk hsel => exact ⟨_, .unrouted hk hsel⟩
  | linted hk hsel hl =>
    obtain ⟨s₂, hl₂⟩ := hagain hk hsel hl
    exact ⟨_, .linted hk hsel hl₂⟩
  | failed hk hsel hl he hp =>
    obtain ⟨s₂, hl₂⟩ := hagain hk hsel hl
    exact ⟨_, .failed hk hsel hl₂ he hp⟩

/-- Every step of a walk over some changes starts where a contrast of them can be. -/
theorem Walk.comes {walk : List (Change × Fate)} (h : b.Walk options source target s walk s')
    (hs : b.Comes options source target changes start s) (hsub : ∀ entry ∈ walk, entry.1 ∈ changes)
    {change : Change} {fate : Fate} (hmem : (change, fate) ∈ walk) :
    ∃ s₂ s₃, b.Comes options source target changes start s₂ ∧ b.Fares options source target s₂ change fate s₃ := by
  induction h with
  | nil s => cases hmem
  | @cons s s₁ s₂ change' fate' rest step tail ih =>
    rcases List.mem_cons.1 hmem with heq | hmem
    · cases heq
      exact ⟨_, _, hs, step⟩
    · exact ih (.next hs (hsub _ List.mem_cons_self) step)
        (fun entry hentry => hsub entry (List.mem_cons_of_mem _ hentry)) hmem

/-- Steps that can be made whenever it is their turn make up a walk, by induction on the steps. -/
theorem exists_walk {walk : List (Change × Fate)} (hfares : ∀ change fate, (change, fate) ∈ walk →
      change ∈ changes ∧ ∀ s, b.Comes options source target changes start s →
        ∃ s', b.Fares options source target s change fate s')
    (hs : b.Comes options source target changes start s) : ∃ s', b.Walk options source target s walk s' := by
  induction walk generalizing s with
  | nil => exact ⟨s, .nil s⟩
  | cons entry rest ih =>
    obtain ⟨change, fate⟩ := entry
    obtain ⟨hmem, hagain⟩ := hfares change fate List.mem_cons_self
    obtain ⟨s₁, step⟩ := hagain s hs
    obtain ⟨s', tail⟩ := ih (fun change' fate' h => hfares change' fate' (List.mem_cons_of_mem _ h))
      (.next hs hmem step)
    exact ⟨s', .cons step tail⟩

/-- **The same steps in another order**: where linting is steady, a walk over some changes can be gone over the
same changes in any order, and every change fares as it did. -/
theorem exists_walk_of_perm (hsteady : b.Steady options source target changes start)
    {walk : List (Change × Fate)} (hwalk : b.Walk options source target start walk s')
    (hchanges : walk.map (·.1) = changes) {changes' : List Change} (hperm : changes'.Perm changes) :
    ∃ walk' s'', walk'.map (·.1) = changes' ∧ walk'.Perm walk ∧ b.Walk options source target start walk' s'' := by
  subst hchanges
  have hsub : ∀ entry ∈ walk, entry.1 ∈ walk.map (·.1) := fun entry hentry => List.mem_map_of_mem hentry
  -- the steps are moved along with their changes
  obtain ⟨walk', hchanges', hperm'⟩ := List.perm_comp_forall₂ (r := fun change (entry : Change × Fate) =>
    change = entry.1) hperm (List.forall₂_map_left_iff.2 (List.forall₂_same.2 fun _ _ => rfl))
  have hmap : walk'.map (·.1) = changes' := by
    have := List.forall₂_map_right_iff.2 hchanges'
    rw [List.forall₂_eq_eq_eq] at this
    exact this.symm
  obtain ⟨s'', hwalk'⟩ := exists_walk (fun change fate (hmem : (change, fate) ∈ walk') => by
    have hmem := hperm'.subset hmem
    obtain ⟨s₂, s₃, hs₂, step⟩ := hwalk.comes .start hsub hmem
    exact ⟨hsub _ hmem, fun s hs => step.again hsteady (hsub _ hmem) hs₂ hs⟩) .start
  exact ⟨walk', s'', hmap, hperm', hwalk'⟩

/-! ## Two runs -/

/-- How a contrast opens: it says what it contrasts, and asks for the changes. -/
def opening (b : Bench σ) (source target : CommitId) : Run σ (List Change) := do
  b.box.notify .contrast .info do
    let shortSource ← Run.need .splitCharacter source.short
    return .contrasting shortSource (← Run.need .splitCharacter target.short)
  Run.call (.changes source target) (b.vcs.changes source target)

/-- What a contrast says in the end. -/
def closing (b : Bench σ) (report : Report) : Run σ Unit :=
  b.box.notify .contrast .info do
    return .complete report.files.length report.failures.length
      (← Run.need .overflow report.netTotal.total)

theorem exec_contrast_ok_iff {report : Report} {s' : Session σ} :
    (b.contrast options source target).exec s = (.ok report, s') ↔
      ∃ changes s₁ s₂, (b.opening source target).exec s = (.ok changes, s₁) ∧
        (b.contrastAll options (Report.start source target) changes).exec s₁ = (.ok report, s₂) ∧
        (b.closing report).exec s₂ = (.ok (), s') := by
  simp only [contrast, opening, closing, Run.bind_eq_ok_iff]
  constructor
  · rintro ⟨_, s₀, hopen, changes, s₁, hchanges, r, s₂, hall, _, s₃, hclose, h⟩
    cases h
    exact ⟨changes, s₁, s₂, ⟨(), s₀, hopen, hchanges⟩, hall, hclose⟩
  · rintro ⟨changes, s₁, s₂, ⟨_, s₀, hopen, hchanges⟩, hall, hclose⟩
    exact ⟨(), s₀, hopen, changes, s₁, hchanges, report, s₂, hall, (), s', hclose, rfl⟩

/-- The same bench, where version control names other changes. -/
def naming (b : Bench σ) (named : CommitId → CommitId → σ → Except Failure (List Change) × σ) : Bench σ :=
  { b with vcs := { b.vcs with changes := named } }

/-- Once they are named, nothing asks for the changes again. -/
theorem contrastAll_naming (b : Bench σ) (named : CommitId → CommitId → σ → Except Failure (List Change) × σ)
    (options : Options (Linter σ)) (report : Report) (changes : List Change) :
    (b.naming named).contrastAll options report changes = b.contrastAll options report changes := rfl

/-- What can be said of a report in the end can be said of any with the same net, in any session: the other two
numbers can always be told. -/
theorem exists_closing {report report' : Report} (hnet : report'.netTotal = report.netTotal) {s s' : Session σ}
    (h : (b.closing report).exec s = (.ok (), s')) (s₁ : Session σ) :
    ∃ s₂, (b.closing report').exec s₁ = (.ok (), s₂) := by
  unfold closing Toolbox.notify at h ⊢
  split
  · next hshows =>
    rw [if_pos hshows] at h
    obtain ⟨n, s₂, hn, -⟩ := Run.bind_eq_ok_iff.1 h
    obtain ⟨total, s₃, htotal, -⟩ := Run.bind_eq_ok_iff.1 hn
    obtain ⟨htotal, -⟩ := Run.need_eq_ok_iff.1 htotal
    exact ⟨_, Run.bind_eq_ok_iff.2 ⟨_, s₁, Run.bind_eq_ok_iff.2
      ⟨total, s₁, Run.need_eq_ok_iff.2 ⟨hnet ▸ htotal, rfl⟩, rfl⟩, rfl⟩⟩
  · exact ⟨s₁, rfl⟩

/-- Reports of the same steps in another order. -/
structure Reordered (report report' : Report) : Prop where
  preTotal : report'.preTotal = report.preTotal
  postTotal : report'.postTotal = report.postTotal
  netTotal : report'.netTotal = report.netTotal
  fileCounts : report'.fileCounts = report.fileCounts
  files : report'.files.Perm report.files
  failures : report'.failures.Perm report.failures

theorem reordered_of_perm {walk walk' : List (Change × Fate)} {report report' : Report} {s₁ s₂ : Session σ}
    (hwalk : b.Walk options source target s walk s₁) (hwalk' : b.Walk options source target s walk' s₂)
    (hperm : walk'.Perm walk) (h : (Report.start source target).enterAll walk = some report)
    (h' : (Report.start source target).enterAll walk' = some report') : Reordered report report' := by
  have hr := Report.accounts_enterAll (Report.accounts_start source target) h
  have hr' := Report.accounts_enterAll (Report.accounts_start source target) h'
  have hb := Report.balanced_enterAll hwalk (Report.balanced_start source target) h
  have hb' := Report.balanced_enterAll hwalk' (Report.balanced_start source target) h'
  have hfiles : report'.files.Perm report.files := by
    rw [(Report.files_enterAll h).1, (Report.files_enterAll h').1]
    exact hperm.filterMap _
  have hsum : ∀ count : FileDiff → Int, (report'.files.map count).sum = (report.files.map count).sum :=
    fun count => (hfiles.map count).sum_eq
  refine ⟨?_, ?_, ?_, ?_, hfiles, ?_⟩
  · exact Tally.eq_of_count_eq fun i => by rw [hb'.pre, hb.pre, hsum]
  · exact Tally.eq_of_count_eq fun i => by rw [hb'.post, hb.post, hsum]
  · exact Tally.eq_of_count_eq fun i => by rw [hb'.net, hb.net, hsum]
  · refine OrderedMap.eq_of_find?_eq (Report.stored_enterAll (Report.stored_start _ _) h').ordered
      (Report.stored_enterAll (Report.stored_start _ _) h).ordered fun name => ?_
    have hnames := hperm.flatMap_right fun ((change, fate) : Change × Fate) => fate.names change
    rw [hr'.counts, hr.counts, List.nil_append, List.nil_append, hnames.count_eq]
    simp only [List.mem_append, hnames.mem_iff]
  · rw [hr'.failures, hr.failures]
    exact hperm.filterMap _

/-- **The order of changes does not matter.** Version control names the same changes in another order, and
leaves the session as it left it. If linting a change comes to the same whenever it is its turn, and fewer issues
occur in all than a machine integer can count, then where one contrast ends with a report, so does the other:
with the same totals, numbers and results, as they are stored, and with the same files and failures, in another
order. -/
theorem reordering_of_contrast (b : Bench σ)
    (named : CommitId → CommitId → σ → Except Failure (List Change) × σ) (options : Options Adapter)
    {source target : CommitId} {s s₁ s' : Session σ} {changes changes' : List Change} {report : Report}
    (hopen : (b.opening source target).exec s = (.ok changes, s₁))
    (hopen' : ((b.naming named).opening source target).exec s = (.ok changes', s₁))
    (hperm : changes'.Perm changes)
    (hsteady : b.Steady (options.equip b.box) source target changes s₁)
    (h : (b.contrast (options.equip b.box) source target).exec s = (.ok report, s'))
    (hoccurrences : (report.files.map (·.occurrences)).sum < 2 ^ 63) :
    ∃ report' s'', ((b.naming named).contrast (options.equip b.box) source target).exec s = (.ok report', s'') ∧
      report'.preTotal = report.preTotal ∧ report'.postTotal = report.postTotal ∧
      report'.netTotal = report.netTotal ∧ report'.fileCounts = report.fileCounts ∧
      (StructuredReport.ofReport report').results = (StructuredReport.ofReport report).results ∧
      (StructuredReport.ofReport report').fileCounts = (StructuredReport.ofReport report).fileCounts ∧
      report'.files.Perm report.files ∧ report'.failures.Perm report.failures := by
  obtain ⟨hnonneg, -, -⟩ := nonneg_of_contrast h
  obtain ⟨_, _, s₂, hopen₁, hall, hclose⟩ := exec_contrast_ok_iff.1 h
  cases hopen.symm.trans hopen₁
  obtain ⟨walk, hchanges, hwalk, henter⟩ := exec_contrastAll_ok_iff.1 hall
  obtain ⟨walk', s₃, hchanges', hwalks, hwalk'⟩ := exists_walk_of_perm hsteady hwalk hchanges hperm
  obtain ⟨hfiles, hnet, hcount⟩ := Report.files_enterAll henter
  have hlisted : (walk'.filterMap fun (change, fate) => fate.file? change).Perm report.files :=
    hfiles ▸ hwalks.filterMap _
  obtain ⟨report', henter'⟩ := Report.exists_enterAll hwalk'
    (fun change fate hmem => hnet change fate (hwalks.subset hmem)) (Report.balanced_start source target)
    (fun f hf => hnonneg f (hlisted.subset hf))
    (fun i => by
      refine Int.lt_of_le_of_lt ?_ hoccurrences
      have hsum := (hlisted.map (·.load i)).sum_eq
      have hle := sum_load_le (fun f hf => hnonneg f hf) i
      exact hsum ▸ hle)
    (fun name => by
      have hfits := (Report.stored_enterAll (Report.stored_start source target) henter).fits name
      rw [(hwalks.flatMap_right _).count_eq, ← hcount, Report.fileCount]
      cases hfind : report.fileCounts.find? name with
      | none => decide
      | some n => exact hfits n hfind)
  have hsame := reordered_of_perm hwalk hwalk' hwalks henter henter'
  obtain ⟨s'', hclose'⟩ := exists_closing hsame.netTotal hclose s₃
  refine ⟨report', s'', ?_, hsame.preTotal, hsame.postTotal, hsame.netTotal, hsame.fileCounts, ?_, hsame.fileCounts,
    hsame.files, hsame.failures⟩
  · refine exec_contrast_ok_iff.2 ⟨changes', s₁, s₃, hopen', ?_, hclose'⟩
    rw [contrastAll_naming]
    exact exec_contrastAll_ok_iff.2 ⟨walk', hchanges', hwalk', henter'⟩
  · simp only [StructuredReport.ofReport, hsame.preTotal, hsame.postTotal]

/-- Two files, of which one is only in the source and the other only in the target. -/
def twoFiles : List Change := [.deleted (.ofString "a.c") ⟨"1"⟩, .added (.ofString "b.c") ⟨"2"⟩]

/-- One route, to a tool that needs the working tree. -/
def treeRoute : Options Adapter := ⟨none, Routing.empty.add ".c" (.ofTool .cppcheck), .degrade⟩

/-- A run of Cppcheck that ends with one style issue, whatever the file holds. -/
def styled : Outcome := ⟨.code 0, Text.encode "a style", [], none⟩

/-- A bench on which Cppcheck finds the same in every file. -/
def alike (changes : List Change) : Bench Head :=
  { placid changes with
    box :=
      { (placid changes).box with
        start := fun _ _ _ => .ok styled
        temp := ⟨.ofString "/tmp", true, fun _ => "x"⟩ } }

/-- The bench is steady, for Cppcheck goes by the content of its files. -/
theorem steady_alike : (alike twoFiles).Steady (treeRoute.equip (alike twoFiles).box) ⟨"s"⟩ ⟨"t"⟩ twoFiles
    ⟨.branch "main", [], 0, [.changes ⟨"s"⟩ ⟨"t"⟩]⟩ := by
  have hvcs : (alike twoFiles).vcs.Serves (fun _ => True) (fun _ _ => some []) (fun _ => [])
      (·.Among twoFiles ⟨"s"⟩ ⟨"t"⟩) :=
    ⟨fun _ => trivial, fun _ => ⟨trivial, _, rfl⟩, fun _ _ _ => ⟨trivial, rfl⟩, fun _ _ => ⟨trivial, rfl⟩,
      fun _ _ => ⟨trivial, rfl, rfl⟩⟩
  have hfiles (side : Side) (hside : side.Among twoFiles ⟨"s"⟩ ⟨"t"⟩) (file : Path)
      (hfile : (alike twoFiles).Hands side file) : Toolbox.hasZero ⟨(Adapter.ofTool .cppcheck).program,
        (Adapter.ofTool .cppcheck).arguments none file⟩ = false := by
    have hpath : side.path = .ofString "a.c" ∨ side.path = .ofString "b.c" := by
      obtain ⟨change, hmem, hside⟩ := hside
      rcases List.mem_pair.1 hmem with rfl | rfl <;> rcases hside with h | h <;> cases h
      · exact Or.inl rfl
      · exact Or.inr rfl
    rcases hfile with rfl | ⟨made, rfl⟩
    · rcases hpath with h | h <;> rw [h] <;> decide +kernel
    · have htoken : (alike twoFiles).box.temp.token made = "x" := rfl
      rcases hpath with h | h <;> rw [h, htoken] <;> decide +kernel
  have hlinters (change : Change) (hmem : change ∈ twoFiles) (linter : Linter Head)
      (hsel : (treeRoute.equip (alike twoFiles).box).routing.select change.path none = some linter) :
      linter.GoesBy (fun _ => True) (fun _ _ => some []) (fun file => Toolbox.hasZero
        ⟨(Adapter.ofTool .cppcheck).program, (Adapter.ofTool .cppcheck).arguments none file⟩ = false)
        fun _ => (Adapter.ofTool .cppcheck).conclude (.ofString "") (.ok styled) := by
    have hlinter : (Adapter.ofTool .cppcheck).linter (alike twoFiles).box = linter := by
      rcases List.mem_pair.1 hmem with rfl | rfl <;> exact Option.some.inj hsel
    rw [← hlinter]
    refine Adapter.goesBy_of_answer rfl (fun hfile _ _ => ?_) _
    exact if_neg (Bool.eq_false_iff.1 hfile)
  have hstart : Standing (fun _ => True) [] ⟨Head.branch "main", [], 0, [.changes ⟨"s"⟩ ⟨"t"⟩]⟩ := ⟨trivial, rfl⟩
  exact steady_of_goesBy hvcs (fun _ _ => rfl) rfl hfiles (fun _ _ _ h => absurd h List.not_mem_nil) hlinters hstart

/-- The files can be linted in both orders. On the way other trees are checked out. The issue that goes away with the
one file comes with the other, so its net count is `-1` on the way in one order and `1` in the other. -/
theorem reordering_of_contrast_of_twoFiles :
    ∃ report s' report' s'',
      ((alike twoFiles).contrast (treeRoute.equip (alike twoFiles).box) ⟨"s"⟩ ⟨"t"⟩).exec
        (Session.start (.branch "main")) = (.ok report, s') ∧
      ((alike twoFiles.reverse).contrast (treeRoute.equip (alike twoFiles).box) ⟨"s"⟩ ⟨"t"⟩).exec
        (Session.start (.branch "main")) = (.ok report', s'') ∧
      report.files.length = 2 ∧ report.preTotal.count ⟨"a", "Cppcheck", .format⟩ = 1 ∧
      report.netTotal = ∅ ∧ report'.preTotal = report.preTotal ∧ report'.postTotal = report.postTotal ∧
      report'.netTotal = report.netTotal ∧ report'.fileCounts = report.fileCounts ∧
      report'.files.Perm report.files := by
  have hread : ((((alike twoFiles).contrast (treeRoute.equip (alike twoFiles).box) ⟨"s"⟩ ⟨"t"⟩).exec
      (Session.start (.branch "main"))).1.toOption.map fun r =>
        (r.files.map (·.occurrences), r.preTotal.count ⟨"a", "Cppcheck", .format⟩, r.netTotal)) =
      some ([1, 1], 1, ∅) := by decide +kernel
  obtain ⟨report, s', hrun, hvalues⟩ := Run.exists_ok_of_toOption hread
  have hoccurrences : report.files.map (·.occurrences) = [1, 1] := congrArg Prod.fst hvalues
  have hcount : report.preTotal.count ⟨"a", "Cppcheck", .format⟩ = 1 := congrArg (·.2.1) hvalues
  have hnet : report.netTotal = ∅ := congrArg (·.2.2) hvalues
  have hlength : report.files.length = 2 := by
    rw [← List.length_map (·.occurrences), hoccurrences]
    rfl
  obtain ⟨report', s'', hrun', hpre, hpost, hnet', hcounts, -, -, hfiles, -⟩ :=
    reordering_of_contrast (alike twoFiles) (fun _ _ head => (.ok twoFiles.reverse, head)) treeRoute rfl rfl
      (List.reverse_perm twoFiles) steady_alike hrun (by rw [hoccurrences]; decide)
  exact ⟨report, s', report', s'', hrun, hrun', hlength, hcount, hnet, hpre, hpost, hnet', hcounts, hfiles⟩

end Bench

end LintDelta
