import LintDelta.Proofs.Contrast.Walk

/-!
# What a report accounts for

Every change of a contrast is accounted for, once and in order: as a file, as a failure, and under the
names by which files are counted (`Report.Accounts`). The names of the classes and the names of a class
with a linter share one map, so they have to be kept apart: `lintedName_ne_label` and
`lintedName_inj_iff`.
-/

namespace LintDelta

/-! ## Names -/

theorem Change.Kind.label_inj_iff {kind kind' : Change.Kind} : kind.label = kind'.label ↔ kind = kind' := by
  cases kind <;> cases kind' <;> decide

namespace Report

theorem toList_lintedName (kind : Change.Kind) (linter : String) :
    (lintedName kind linter).toList = kind.label.toList ++ '_' :: linter.toList := by
  simp [lintedName]

/-- The name of a class has no low line. -/
theorem not_mem_label (kind : Change.Kind) : '_' ∉ kind.label.toList := by
  cases kind <;> decide

/-- Files are never counted under the name of a class alone. -/
theorem lintedName_ne_label (kind kind' : Change.Kind) (linter : String) :
    lintedName kind linter ≠ kind'.label := by
  intro h
  apply not_mem_label kind'
  rw [← h, toList_lintedName]
  simp

/-- What comes before the first low line is the class. -/
theorem takeWhile_lintedName (kind : Change.Kind) (linter : String) :
    (lintedName kind linter).toList.takeWhile (· ≠ '_') = kind.label.toList := by
  have hlabel : ∀ c ∈ kind.label.toList, decide (c ≠ '_') = true := by
    intro c hc
    have hne : c ≠ '_' := fun h => not_mem_label kind (h ▸ hc)
    simpa using hne
  rw [toList_lintedName, List.takeWhile_append_of_pos hlabel]
  simp

/-- A class and a linter are read off the name under which their files are counted. -/
theorem lintedName_inj_iff {kind kind' : Change.Kind} {linter linter' : String} :
    lintedName kind linter = lintedName kind' linter' ↔ kind = kind' ∧ linter = linter' := by
  constructor
  · intro h
    have hlabel : kind.label = kind'.label := by
      apply String.toList_inj.1
      rw [← takeWhile_lintedName kind linter, h, takeWhile_lintedName]
    obtain rfl := Change.Kind.label_inj_iff.1 hlabel
    have hlist := congrArg String.toList h
    rw [toList_lintedName, toList_lintedName] at hlist
    have htail := List.append_cancel_left hlist
    exact ⟨rfl, String.toList_inj.1 (List.tail_eq_of_cons_eq htail)⟩
  · rintro ⟨rfl, rfl⟩
    rfl

end Report

/-! ## Numbers of files -/

namespace FileCounts

/-- The classes, and the names that were counted, each with how often it was. -/
def Counts (counts : FileCounts) (names : List String) : Prop :=
  ∀ name, counts.find? name =
    if name ∈ Change.Kind.all.map (·.label) ++ names then some (names.count name) else none

theorem find?_up (counts : FileCounts) (name k : String) :
    (counts.up name).find? k = if k = name then some ((counts.find? name).getD 0 + 1) else counts.find? k := by
  unfold up
  by_cases hk : k = name
  · subst hk
    simp [OrderedMap.find?_insert_self]
  · simp [hk, OrderedMap.find?_insert_of_ne]

theorem Counts.up {counts : FileCounts} {names : List String} (h : counts.Counts names) (name : String) :
    (counts.up name).Counts (names ++ [name]) := by
  intro k
  rw [find?_up, h name, h k]
  by_cases hk : k = name
  · subst hk
    by_cases hmem : k ∈ Change.Kind.all.map (·.label) ++ names
    · simp [hmem]
    · -- a name that is counted for the first time counts from zero
      have hcount : names.count k = 0 := List.count_eq_zero.2 fun hn => hmem (List.mem_append_right _ hn)
      simp [hmem, hcount]
  · have hcount : (names ++ [name]).count k = names.count k := by
      simp [List.count_append, Ne.symm hk]
    simp [hk, hcount]

/-- Numbers of files as they are stored: in the order of their names, and machine words. -/
structure Stored (counts : FileCounts) : Prop where
  ordered : counts.Ordered
  fits : ∀ name n, counts.find? name = some n → n < 18446744073709551616

theorem Stored.up {counts : FileCounts} (h : counts.Stored) {name : String}
    (hname : (counts.find? name).getD 0 + 1 < 18446744073709551616) : (counts.up name).Stored where
  ordered := OrderedMap.ordered_insert h.ordered _ _
  fits k n hk := by
    rw [find?_up] at hk
    split at hk
    · cases hk
      exact hname
    · exact h.fits k n hk

end FileCounts

namespace Report

theorem stored_start (source target : CommitId) : (start source target).fileCounts.Stored where
  ordered := (OrderedMap.ordered_foldl_insert OrderedMap.ordered_empty _).1
  fits name n h := by
    have hzero : ∀ b ∈ (OrderedMap.ofList (Change.Kind.all.map fun kind => (kind.label, 0))).bindings, b.2 = 0 := by
      decide
    obtain rfl : n = 0 := hzero (name, n) (OrderedMap.mem_of_find? h)
    decide

theorem countFile_eq_some_iff {r r' : Report} {name : String} :
    r.countFile name = some r' ↔
      r.fileCount name + 1 < 18446744073709551616 ∧ r' = { r with fileCounts := r.fileCounts.up name } := by
  refine ⟨fun h => ⟨?_, eq_of_countFile h⟩, ?_⟩
  · obtain ⟨n, hn, -⟩ := Option.bind_eq_some_iff.1 h
    unfold Machine.next at hn
    split at hn
    · assumption
    · cases hn
  · rintro ⟨hlt, rfl⟩
    rw [countFile, Machine.next, if_pos hlt]
    rfl

/-- Entering a change keeps the numbers of files as they are stored. -/
theorem stored_enter {r r' : Report} {change : Change} {fate : Fate} (hr : r.fileCounts.Stored)
    (h : r.enter change fate = some r') : r'.fileCounts.Stored := by
  obtain ⟨r₁, h₁, h⟩ := Option.bind_eq_some_iff.1 h
  obtain ⟨hlt, rfl⟩ := countFile_eq_some_iff.1 h₁
  have hone := hr.up hlt
  cases fate with
  | linted linter pre post =>
    obtain ⟨file, -, h⟩ := Option.bind_eq_some_iff.1 h
    obtain ⟨r₂, h₂, h⟩ := Option.bind_eq_some_iff.1 h
    obtain ⟨hlt₂, rfl⟩ := countFile_eq_some_iff.1 h₂
    obtain ⟨_, _, _, -, -, -, rfl⟩ := eq_of_addFile h
    exact hone.up hlt₂
  | _ =>
    cases h
    exact hone

theorem stored_enterAll {r r' : Report} {walk : List (Change × Fate)} (hr : r.fileCounts.Stored)
    (h : r.enterAll walk = some r') : r'.fileCounts.Stored := by
  induction walk generalizing r with
  | nil =>
    cases h
    exact hr
  | cons entry rest ih =>
    obtain ⟨change, fate⟩ := entry
    rw [enterAll_cons] at h
    obtain ⟨r₁, henter, h⟩ := Option.bind_eq_some_iff.1 h
    exact ih (stored_enter hr henter) h

end Report

/-! ## One entry -/

namespace Fate

/-- The names under which a change is counted. -/
def names (change : Change) : Fate → List String
  | linted linter _ _ => [change.kind.label, Report.lintedName change.kind linter]
  | unchanged | unrouted | failed .. => [change.kind.label]

theorem mem_names {change : Change} {fate : Fate} {name : String} (h : name ∈ fate.names change) :
    name = change.kind.label ∨
      ∃ linter pre post, fate = .linted linter pre post ∧ name = Report.lintedName change.kind linter := by
  cases fate with
  | linted linter pre post =>
    rcases List.mem_cons.1 h with h | h
    · exact Or.inl h
    · exact Or.inr ⟨linter, pre, post, rfl, List.mem_singleton.1 h⟩
  | _ => exact Or.inl (List.mem_singleton.1 h)

/-- What is listed of a change that was linted. -/
def finding? (change : Change) : Fate → Option (Change × Change.Kind × String × Tally × Tally)
  | linted linter pre post => some (change, change.kind, linter, pre, post)
  | unchanged | unrouted | failed .. => none

/-- What is noted of a change whose linter failed. -/
def failure? (change : Change) : Fate → Option FileFailure
  | failed linter failure => some ⟨change.path, linter, failure.message⟩
  | unchanged | unrouted | linted .. => none

end Fate

/-- What a file lists apart from its net. -/
def FileDiff.finding (f : FileDiff) : Change × Change.Kind × String × Tally × Tally :=
  (f.change, f.kind, f.linter, f.pre, f.post)

namespace Report

/-- A report holds the entries of a walk and nothing else. -/
structure Accounts (r : Report) (walk : List (Change × Fate)) : Prop where
  files : r.files.map FileDiff.finding = walk.filterMap fun (change, fate) => fate.finding? change
  failures : r.failures = walk.filterMap fun (change, fate) => fate.failure? change
  counts : r.fileCounts.Counts (walk.flatMap fun (change, fate) => fate.names change)

theorem accounts_start (source target : CommitId) : (start source target).Accounts [] where
  files := rfl
  failures := rfl
  counts name := by
    rw [List.flatMap_nil, List.append_nil, List.count_nil]
    split
    · next hmem =>
      obtain ⟨kind, -, rfl⟩ := List.mem_map.1 hmem
      exact find?_fileCounts_start source target kind
    · next hmem =>
      have hne (kind : Change.Kind) : name ≠ kind.label := fun h => hmem (by cases kind <;> simp [h, Change.Kind.all])
      simp [start, OrderedMap.ofList, Change.Kind.all, OrderedMap.find?_insert_of_ne, hne, OrderedMap.find?_empty]

/-- **An entry is accounted for**: it adds to the files, the failures and the numbers what its fate
says, behind what was there. -/
theorem accounts_enter {r r' : Report} {walk : List (Change × Fate)} {change : Change} {fate : Fate}
    (hr : r.Accounts walk) (h : r.enter change fate = some r') :
    r'.Accounts (walk ++ [(change, fate)]) := by
  have h := enter_cases h
  cases fate with
  | linted linter pre post =>
    obtain ⟨net, _, _, _, -, -, -, -, rfl⟩ := h
    refine ⟨?_, ?_, ?_⟩
    · simp [hr.files, Fate.finding?, FileDiff.finding]
    · simp [hr.failures, Fate.failure?]
    · simpa [Fate.names] using (hr.counts.up change.kind.label).up (lintedName change.kind linter)
  | _ =>
    cases h
    refine ⟨?_, ?_, ?_⟩
    · simp [hr.files, Fate.finding?]
    · simp [hr.failures, Fate.failure?]
    · simpa [Fate.names] using hr.counts.up change.kind.label

/-- All entries of a walk are accounted for, by induction on the walk. -/
theorem accounts_enterAll {r r' : Report} {walk rest : List (Change × Fate)} (hr : r.Accounts walk)
    (h : r.enterAll rest = some r') : r'.Accounts (walk ++ rest) := by
  induction rest generalizing r walk with
  | nil =>
    cases h
    rwa [List.append_nil]
  | cons entry rest ih =>
    obtain ⟨change, fate⟩ := entry
    rw [enterAll_cons] at h
    obtain ⟨r₁, henter, h⟩ := Option.bind_eq_some_iff.1 h
    rw [List.append_cons]
    exact ih (accounts_enter hr henter) h

/-! ## Reading the numbers -/

/-- As often as a class is named, so many changes are of that class. -/
theorem count_label (walk : List (Change × Fate)) (kind : Change.Kind) :
    (walk.flatMap fun (change, fate) => fate.names change).count kind.label =
      walk.countP fun (change, _) => change.kind = kind := by
  induction walk with
  | nil => rfl
  | cons entry rest ih =>
    obtain ⟨change, fate⟩ := entry
    have hone : (fate.names change).count kind.label = if change.kind = kind then 1 else 0 := by
      cases fate <;> simp [Fate.names, List.count_cons, lintedName_ne_label, Change.Kind.label_inj_iff]
    rw [List.flatMap_cons, List.count_append, ih, hone, List.countP_cons]
    simp [Nat.add_comm]

/-- As often as a class and a linter are named, so many files were linted. -/
theorem count_lintedName (walk : List (Change × Fate)) (kind : Change.Kind) (linter : String) :
    (walk.flatMap fun (change, fate) => fate.names change).count (lintedName kind linter) =
      (walk.filterMap fun (change, fate) => fate.finding? change).countP
        fun (_, kind', linter', _) => kind' = kind ∧ linter' = linter := by
  induction walk with
  | nil => rfl
  | cons entry rest ih =>
    obtain ⟨change, fate⟩ := entry
    rw [List.flatMap_cons, List.count_append, ih]
    have hne : change.kind.label ≠ lintedName kind linter := (lintedName_ne_label kind change.kind linter).symm
    cases fate with
    | linted linter' pre post =>
      simp [Fate.names, Fate.finding?, List.count_cons, List.countP_cons, lintedName_inj_iff, hne, Nat.add_comm]
    | _ => simp [Fate.names, Fate.finding?, hne]

/-- Names that are neither those of a class nor those of a listed file are not counted under. -/
theorem Accounts.name_cases {r : Report} {walk : List (Change × Fate)} (hr : r.Accounts walk)
    {name : String} {n : Nat} (h : r.fileCounts.find? name = some n) :
    (∃ kind : Change.Kind, name = kind.label) ∨ ∃ f ∈ r.files, name = lintedName f.kind f.linter := by
  rw [hr.counts name] at h
  split at h
  · next hmem =>
    rcases List.mem_append.1 hmem with hmem | hmem
    · obtain ⟨kind, -, rfl⟩ := List.mem_map.1 hmem
      exact Or.inl ⟨kind, rfl⟩
    · obtain ⟨⟨change, fate⟩, hwalk, hname⟩ := List.mem_flatMap.1 hmem
      rcases Fate.mem_names hname with hlabel | ⟨linter, pre, post, rfl, rfl⟩
      · exact Or.inl ⟨_, hlabel⟩
      · have hfinding : (change, change.kind, linter, pre, post) ∈ r.files.map FileDiff.finding := by
          rw [hr.files]
          exact List.mem_filterMap.2 ⟨_, hwalk, rfl⟩
        obtain ⟨f, hf, hfields⟩ := List.mem_map.1 hfinding
        simp only [FileDiff.finding, Prod.mk.injEq] at hfields
        obtain ⟨-, hkind, hlinter, -⟩ := hfields
        exact Or.inr ⟨f, hf, by rw [hkind, hlinter]⟩
  · cases h

/-- A class is counted as often as changes are of it; none of that class is a number too. -/
theorem Accounts.find?_label {r : Report} {walk : List (Change × Fate)} (hr : r.Accounts walk)
    (kind : Change.Kind) :
    r.fileCounts.find? kind.label = some (walk.countP fun (change, _) => change.kind = kind) := by
  have hmem : kind.label ∈ Change.Kind.all.map (·.label) := by cases kind <;> decide
  rw [hr.counts, if_pos (List.mem_append_left _ hmem), count_label]

/-- A class with a linter is counted as often as files are of that class and linter. -/
theorem Accounts.fileCount_lintedName {r : Report} {walk : List (Change × Fate)} (hr : r.Accounts walk)
    (kind : Change.Kind) (linter : String) :
    r.fileCount (lintedName kind linter) =
      r.files.countP fun f => f.kind = kind ∧ f.linter = linter := by
  have hfiles : r.files.countP (fun f => f.kind = kind ∧ f.linter = linter) =
      (r.files.map FileDiff.finding).countP fun (_, kind', linter', _) => kind' = kind ∧ linter' = linter := by
    rw [List.countP_map]
    rfl
  rw [hfiles, hr.files, ← count_lintedName, fileCount, hr.counts]
  split
  · rfl
  · next hmem => exact (List.count_eq_zero.2 fun h => hmem (List.mem_append_right _ h)).symm

end Report

namespace Bench

variable {σ : Type} {b : Bench σ} {options : Options (Linter σ)} {source target : CommitId}
  {s s' : Session σ}

/-- **The accounts of a contrast**: between the question for the changes and the end, the changes that
version control names fare one after another, each in exactly one way; the files are the linted ones, the
failures are the failed ones, in that order; and files are counted under their class, under their class and
linter, and under no other name. -/
theorem accounts_of_contrast {report : Report}
    (h : (b.contrast options source target).exec s = (.ok report, s')) :
    ∃ (s₁ s₂ : Session σ) (walk : List (Change × Fate)),
      (b.vcs.changes source target s.world).1 = .ok (walk.map (·.1)) ∧
      b.Opened source target s s₁ ∧ b.Walk options source target s₁ walk s₂ ∧ s₂.Noticed s' ∧
      (∀ walk' s₃, b.Walk options source target s₁ walk' s₃ →
        walk'.map (·.1) = walk.map (·.1) → walk' = walk) ∧
      (∀ change fate, (change, fate) ∈ walk → (fate = .unchanged ↔
        ∃ prePath blob postPath renamed, change = .modified prePath blob postPath blob renamed)) ∧
      report.files.map FileDiff.finding = (walk.filterMap fun (change, fate) => fate.finding? change) ∧
      report.failures = (walk.filterMap fun (change, fate) => fate.failure? change) ∧
      (∀ kind : Change.Kind, report.fileCounts.find? kind.label =
        some (walk.countP fun (change, _) => change.kind = kind)) ∧
      (∀ (kind : Change.Kind) (linter : String), report.fileCount (Report.lintedName kind linter) =
        report.files.countP fun f => f.kind = kind ∧ f.linter = linter) ∧
      ∀ name n, report.fileCounts.find? name = some n → (∃ kind : Change.Kind, name = kind.label) ∨
        ∃ f ∈ report.files, name = Report.lintedName f.kind f.linter := by
  obtain ⟨s₁, s₂, walk, hchanges, hopened, hwalk, hclosed, hreport⟩ := exec_contrast_of_ok h
  have hr : report.Accounts walk := Report.accounts_enterAll (Report.accounts_start source target) hreport
  refine ⟨s₁, s₂, walk, hchanges, hopened, hwalk, hclosed, fun _ _ h' hw => (hwalk.unique h' hw).1,
    fun change fate hmem => ?_, hr.files, hr.failures, hr.find?_label, hr.fileCount_lintedName,
    fun _ _ => hr.name_cases⟩
  obtain ⟨_, _, hfares⟩ := hwalk.fares hmem
  rw [hfares.eq_unchanged_iff, Change.kind_eq_unchanged_iff]

/-- Two changes, of which one is linted and one is not: a file and a failure, and the numbers tell them
apart. -/
theorem accounts_of_contrast_of_two :
    ∃ report s', ((placid [.deleted (.ofString "a.c") ⟨"1"⟩, .added (.ofString "b.py") ⟨"2"⟩]).contrast
        ⟨none, (Routing.empty.add ".c" (finder ⟨"goto", "finder", .format⟩)).add ".py"
          ⟨"broken", false, fun path => Run.fail (.lintTool "broken" path "no report")⟩, .degrade⟩
        ⟨"s"⟩ ⟨"t"⟩).exec (Session.start (.branch "main")) = (.ok report, s') ∧
      report.files.length = 1 ∧ report.failures.length = 1 ∧
      report.fileCount (Report.lintedName .deleted "finder") = 1 ∧
      report.fileCount (Report.lintedName .added "broken") = 0 := by
  have hrun : ∃ report s', ((placid [.deleted (.ofString "a.c") ⟨"1"⟩,
      .added (.ofString "b.py") ⟨"2"⟩]).contrast
      ⟨none, (Routing.empty.add ".c" (finder ⟨"goto", "finder", .format⟩)).add ".py"
        ⟨"broken", false, fun path => Run.fail (.lintTool "broken" path "no report")⟩, .degrade⟩
      ⟨"s"⟩ ⟨"t"⟩).exec (Session.start (.branch "main")) = (.ok report, s') ∧
      report.files.length = 1 ∧ report.failures.length = 1 ∧
      (report.files.countP fun f => f.kind = .deleted ∧ f.linter = "finder") = 1 ∧
      (report.files.countP fun f => f.kind = .added ∧ f.linter = "broken") = 0 :=
    ⟨_, _, rfl, by decide, by decide, by decide, by decide⟩
  obtain ⟨report, s', h, hfiles, hfailures, hdeleted, hadded⟩ := hrun
  obtain ⟨_, _, _, -, -, -, -, -, -, -, -, -, hlinted, -⟩ := accounts_of_contrast h
  exact ⟨report, s', h, hfiles, hfailures, (hlinted _ _).trans hdeleted, (hlinted _ _).trans hadded⟩

end Bench

end LintDelta
