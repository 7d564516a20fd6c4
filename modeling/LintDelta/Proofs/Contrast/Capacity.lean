import Mathlib.Algebra.Order.BigOperators.Group.List
import Mathlib.Algebra.Order.Ring.Int
import LintDelta.Proofs.Report.Rendering

/-!
# What a report can hold

Counts come from occurrences, and however they are added up and subtracted, a count never gets beyond the
number of issues that occurred at all. So as long as all occurrences together are in range, every entry can be
made (`Report.exists_enter`), and the net total of the report has a sum (`Report.Balanced.exists_total`).
-/

namespace LintDelta

variable {σ : Type}

/-! ## Occurrences -/

/-- How many issues occur, whatever they are. -/
def Tally.occurrences (t : Tally) : Int :=
  (t.entries.map (·.2)).sum

namespace Tally

/-- What one count gives to issues of which none is named twice. -/
theorem sum_ite_le {issues : List Issue} (hn : issues.Nodup) (k : Issue) {n : Int} (h : 0 ≤ n) :
    (issues.map fun i => if k = i then n else 0).sum ≤ n := by
  induction issues with
  | nil => exact h
  | cons i rest ih =>
    obtain ⟨hi, hrest⟩ := List.nodup_cons.1 hn
    rw [List.map_cons, List.sum_cons]
    by_cases hki : k = i
    · subst hki
      have hzero : (rest.map fun i => if k = i then n else 0) = rest.map fun _ => 0 :=
        List.map_congr_left fun j hmem => if_neg fun (heq : k = j) => hi (heq ▸ hmem)
      rw [if_pos rfl, hzero]
      simp
    · rw [if_neg hki, Int.zero_add]
      exact ih hrest

/-- Counts give no more to issues of which none is named twice than they give in all. -/
theorem sum_countIn_le {issues : List Issue} (hn : issues.Nodup) {counts : List (Issue × Int)}
    (h : ∀ b ∈ counts, 0 ≤ b.2) : (issues.map fun i => countIn i counts).sum ≤ (counts.map (·.2)).sum := by
  induction counts with
  | nil => simp [countIn]
  | cons b rest ih =>
    have hrest := ih fun c hc => h c (List.mem_cons_of_mem b hc)
    have hb := sum_ite_le hn b.1 (h b List.mem_cons_self)
    simp only [countIn, List.sum_map_add, List.map_cons, List.sum_cons]
    omega

theorem Nonneg.sum_count_le {t : Tally} (h : t.Nonneg) {issues : List Issue} (hn : issues.Nodup) :
    (issues.map t.count).sum ≤ t.occurrences := by
  have hcount : issues.map t.count = issues.map fun i => countIn i t.entries :=
    List.map_congr_left fun i _ => (countIn_entries t i).symm
  rw [hcount]
  exact sum_countIn_le hn fun b hb => count_of_mem_entries hb ▸ h b.1

/-- No issue occurs more often than all of them together. -/
theorem Nonneg.count_le_occurrences {t : Tally} (h : t.Nonneg) (i : Issue) : t.count i ≤ t.occurrences := by
  have hone : [i].Nodup := by simp
  simpa using h.sum_count_le hone

theorem map_count_issues {α : Type} (t : Tally) (f : Int → α) :
    t.issues.map (fun i => f (t.count i)) = t.entries.map fun b => f b.2 := by
  rw [issues, OrderedMap.keys, List.map_map]
  exact List.map_congr_left fun b hb => congrArg f (count_of_mem_entries hb)

/-- A tally of issues has no more occurrences than there are issues. -/
theorem occurrences_ofIssues_le {issues : List Issue} {t : Tally} (h : ofIssues issues = some t) :
    t.occurrences ≤ issues.length := by
  have hcount : t.issues.map t.count = t.issues.map fun i => countIn i (issues.map fun k => (k, 1)) :=
    List.map_congr_left fun i _ => by rw [count_bumpAll h, count_empty, Int.zero_add]
  have hle : (t.issues.map fun i => countIn i (issues.map fun k => (k, 1))).sum ≤
      ((issues.map fun k => (k, (1 : Int))).map (·.2)).sum :=
    sum_countIn_le t.nodup_issues fun b hb => by
      obtain ⟨k, -, rfl⟩ := List.mem_map.1 hb
      exact Int.one_nonneg
  rw [← hcount] at hle
  calc t.occurrences = (t.issues.map t.count).sum := congrArg List.sum (map_count_issues t id).symm
    _ ≤ ((issues.map fun k => (k, (1 : Int))).map (·.2)).sum := hle
    _ = issues.length := by simp [Function.comp_def]

/-- Counts can be added up if they do not leave the range whatever their signs. -/
theorem exists_sum {counts : List (Issue × Int)} {start : Int}
    (h : start.natAbs + (counts.map fun b => (b.2.natAbs : Int)).sum < 2 ^ 63) :
    ∃ n, counts.foldlM (fun sum (_, n) => Machine.add sum n) start = some n := by
  induction counts generalizing start with
  | nil => exact ⟨start, rfl⟩
  | cons b rest ih =>
    have hnonneg : 0 ≤ (rest.map fun b => (b.2.natAbs : Int)).sum :=
      List.sum_nonneg fun n hn => by
        obtain ⟨c, -, rfl⟩ := List.mem_map.1 hn
        omega
    rw [List.map_cons, List.sum_cons] at h
    have hfits : Machine.fits (start + b.2) = true := by
      rw [Machine.fits, Bool.and_eq_true, decide_eq_true_eq, decide_eq_true_eq]
      omega
    obtain ⟨n, hn⟩ := @ih (start + b.2) (by omega)
    exact ⟨n, Option.bind_eq_some_iff.2 ⟨_, Machine.check_eq_some_iff.2 ⟨hfits, rfl⟩, hn⟩⟩

theorem exists_total {t : Tally} (h : (t.entries.map fun b => (b.2.natAbs : Int)).sum < 2 ^ 63) :
    ∃ n, t.total = some n :=
  exists_sum (by simpa using h)

end Tally

namespace FileDiff

/-- How often an issue occurs in a file, before and after together. -/
def load (i : Issue) (f : FileDiff) : Int :=
  f.pre.count i + f.post.count i

/-- How many issues occur in a file, before and after together. -/
def occurrences (f : FileDiff) : Int :=
  f.pre.occurrences + f.post.occurrences

/-- A file of occurrences. -/
def Nonneg (f : FileDiff) : Prop :=
  f.pre.Nonneg ∧ f.post.Nonneg

theorem Nonneg.load_nonneg {f : FileDiff} (h : f.Nonneg) (i : Issue) : 0 ≤ f.load i :=
  Int.add_nonneg (h.1 i) (h.2 i)

theorem Nonneg.load_le_occurrences {f : FileDiff} (h : f.Nonneg) (i : Issue) : f.load i ≤ f.occurrences :=
  Int.add_le_add (h.1.count_le_occurrences i) (h.2.count_le_occurrences i)

end FileDiff

/-- Sums of counts that are each within what occurs are within all that occurs. -/
theorem abs_sum_le {files : List FileDiff} {i : Issue} {count : FileDiff → Int}
    (h : ∀ f ∈ files, -f.load i ≤ count f ∧ count f ≤ f.load i) :
    -(files.map (·.load i)).sum ≤ (files.map count).sum ∧ (files.map count).sum ≤ (files.map (·.load i)).sum := by
  constructor
  · rw [List.sum_neg, List.map_map]
    exact List.sum_le_sum fun f hf => (h f hf).1
  · exact List.sum_le_sum fun f hf => (h f hf).2

theorem sum_load_le {files : List FileDiff} (h : ∀ f ∈ files, f.Nonneg) (i : Issue) :
    (files.map (·.load i)).sum ≤ (files.map (·.occurrences)).sum :=
  List.sum_le_sum fun f hf => (h f hf).load_le_occurrences i

/-- Files load no more on issues of which none is named twice than what occurs in them. -/
theorem sum_sum_load_le {files : List FileDiff} (h : ∀ f ∈ files, f.Nonneg) {issues : List Issue}
    (hn : issues.Nodup) :
    (issues.map fun i => (files.map (·.load i)).sum).sum ≤ (files.map (·.occurrences)).sum := by
  induction files with
  | nil => simp
  | cons f rest ih =>
    have hf := h f List.mem_cons_self
    have hrest := ih fun g hg => h g (List.mem_cons_of_mem f hg)
    have hpre := hf.1.sum_count_le hn
    have hpost := hf.2.sum_count_le hn
    simp only [List.map_cons, List.sum_cons, List.sum_map_add, FileDiff.load, FileDiff.occurrences] at hrest ⊢
    omega

/-- **The net total has a sum** if all occurrences together are in range. -/
theorem Report.Balanced.exists_total {r : Report} (hr : r.Balanced) (hfiles : ∀ f ∈ r.files, f.Nonneg)
    (h : (r.files.map (·.occurrences)).sum < 2 ^ 63) : ∃ n, r.netTotal.total = some n := by
  refine Tally.exists_total (Int.lt_of_le_of_lt ?_ h)
  have habs : ∀ i, ((r.netTotal.count i).natAbs : Int) ≤ (r.files.map (·.load i)).sum := by
    intro i
    have hsum : -(r.files.map (·.load i)).sum ≤ (r.files.map (·.net.count i)).sum ∧
        (r.files.map (·.net.count i)).sum ≤ (r.files.map (·.load i)).sum := abs_sum_le fun f hf => by
      have := (hr.files f hf).net i
      have := (hfiles f hf).1 i
      have := (hfiles f hf).2 i
      simp only [FileDiff.load]
      omega
    rw [hr.net]
    omega
  rw [← Tally.map_count_issues r.netTotal fun n => (n.natAbs : Int)]
  exact Int.le_trans (List.sum_le_sum fun i _ => habs i) (sum_sum_load_le hfiles r.netTotal.nodup_issues)

/-! ## What an entry lists -/

/-- The file that is listed of a change. -/
def Fate.file? (change : Change) : Fate → Option FileDiff
  | linted linter pre post => FileDiff.make change change.kind linter pre post
  | unchanged | unrouted | failed .. => none

namespace Report

theorem make_eq_some {change : Change} {kind : Change.Kind} {linter : String} {pre post net : Tally}
    (h : Tally.net pre post = some net) :
    FileDiff.make change kind linter pre post = some ⟨change, kind, linter, pre, post, net⟩ := by
  rw [FileDiff.make, h]
  rfl

theorem number_up (counts : FileCounts) (k name : String) :
    ((counts.up k).find? name).getD 0 = (counts.find? name).getD 0 + [k].count name := by
  rw [FileCounts.find?_up]
  by_cases hk : name = k
  · subst hk
    simp
  · simp [hk, Ne.symm hk]

/-- What an entry adds to the files, and to the number under a name. -/
theorem files_enter {r r' : Report} {change : Change} {fate : Fate} (h : r.enter change fate = some r') :
    r'.files = r.files ++ (fate.file? change).toList ∧
      ∀ name, r'.fileCount name = r.fileCount name + (fate.names change).count name := by
  have h := enter_cases h
  cases fate with
  | linted linter pre post =>
    obtain ⟨net, _, _, _, hnet, -, -, -, rfl⟩ := h
    refine ⟨by rw [Fate.file?, make_eq_some hnet]; rfl, fun name => ?_⟩
    rw [fileCount, number_up, number_up, Nat.add_assoc, ← List.count_append]
    rfl
  | _ =>
    cases h
    exact ⟨(List.append_nil _).symm, fun name => number_up _ _ _⟩

/-! ## Entering without overflow -/

/-- What is listed together with a file stays in range. -/
theorem exists_addFile {r : Report} {file : FileDiff} (hr : r.Balanced) (hfile : file.Balanced)
    (hnonneg : ∀ f ∈ r.files ++ [file], f.Nonneg)
    (hload : ∀ i, ((r.files ++ [file]).map (·.load i)).sum < 2 ^ 63) : ∃ r', r.addFile file = some r' := by
  have hfits : ∀ (i : Issue) (count : FileDiff → Int),
      (∀ f ∈ r.files ++ [file], -f.load i ≤ count f ∧ count f ≤ f.load i) →
      Machine.fits ((r.files.map count).sum + count file) = true := by
    intro i count hcount
    have hsum := abs_sum_le hcount
    have hlt := hload i
    simp only [List.map_append, List.sum_append, List.map_cons, List.map_nil, List.sum_cons, List.sum_nil] at hsum hlt
    rw [Machine.fits, Bool.and_eq_true, decide_eq_true_eq, decide_eq_true_eq]
    omega
  have hsides : ∀ f ∈ r.files ++ [file], ∀ i, 0 ≤ f.pre.count i ∧ 0 ≤ f.post.count i ∧
      f.net.count i = f.post.count i - f.pre.count i := by
    intro f hf i
    refine ⟨(hnonneg f hf).1 i, (hnonneg f hf).2 i, ?_⟩
    rcases List.mem_append.1 hf with hf | hf
    · exact (hr.files f hf).net i
    · exact List.mem_singleton.1 hf ▸ hfile.net i
  obtain ⟨preTotal, hpre⟩ : ∃ t, r.preTotal.add file.pre = some t := Tally.exists_add fun i => by
    rw [hr.pre]
    refine hfits i (·.pre.count i) fun f hf => ?_
    have := hsides f hf i
    simp only [FileDiff.load]
    omega
  obtain ⟨postTotal, hpost⟩ : ∃ t, r.postTotal.add file.post = some t := Tally.exists_add fun i => by
    rw [hr.post]
    refine hfits i (·.post.count i) fun f hf => ?_
    have := hsides f hf i
    simp only [FileDiff.load]
    omega
  obtain ⟨netTotal, hnet⟩ : ∃ t, r.netTotal.add file.net = some t := Tally.exists_add fun i => by
    rw [hr.net]
    refine hfits i (·.net.count i) fun f hf => ?_
    have := hsides f hf i
    simp only [FileDiff.load]
    omega
  rw [addFile, hpre, hpost, hnet]
  exact ⟨_, rfl⟩

/-- One entry can be made if its tallies have a net, if what it lists stays in range together with what was
listed, and if the numbers of files do. -/
theorem exists_enter {r : Report} {change : Change} {fate : Fate} (hr : r.Balanced)
    (hsided : ∀ linter pre post, fate = .linted linter pre post → change.Sided pre post)
    (hnet : ∀ linter pre post, fate = .linted linter pre post → ∃ net, Tally.net pre post = some net)
    (hnonneg : ∀ f ∈ r.files ++ (fate.file? change).toList, f.Nonneg)
    (hload : ∀ i, ((r.files ++ (fate.file? change).toList).map (·.load i)).sum < 2 ^ 63)
    (hcount : ∀ name, r.fileCount name + (fate.names change).count name < 2 ^ 64) :
    ∃ r', r.enter change fate = some r' := by
  have hlabel : r.fileCount change.kind.label + 1 < 18446744073709551616 := by
    have := hcount change.kind.label
    cases fate <;> simp only [Fate.names, List.count_cons_self] at this <;> omega
  unfold enter
  rw [countFile_eq_some_iff.2 ⟨hlabel, rfl⟩]
  cases fate with
  | linted linter pre post =>
    obtain ⟨net, hnet⟩ := hnet linter pre post rfl
    have hname : Report.fileCount { r with fileCounts := r.fileCounts.up change.kind.label }
        (lintedName change.kind linter) + 1 < 18446744073709551616 := by
      have := hcount (lintedName change.kind linter)
      rw [fileCount, number_up]
      simp only [Fate.names, List.count_cons, fileCount, BEq.rfl, if_true, List.count_nil] at this ⊢
      omega
    rw [Fate.file?, make_eq_some hnet] at hnonneg hload
    obtain ⟨r', h'⟩ := exists_addFile
      (r := { r with fileCounts := (r.fileCounts.up change.kind.label).up (lintedName change.kind linter) })
      ⟨hr.files, hr.pre, hr.post, hr.net⟩ (FileDiff.balanced_of_sided linter (hsided linter pre post rfl) hnet)
      hnonneg hload
    refine ⟨r', ?_⟩
    simp only [make_eq_some hnet, record, bind, Option.bind, countFile_eq_some_iff.2 ⟨hname, rfl⟩]
    exact h'
  | _ => exact ⟨_, rfl⟩

end Report

end LintDelta
