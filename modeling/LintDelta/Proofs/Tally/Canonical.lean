import Mathlib.Data.Set.Card
import LintDelta.Proofs.Tally.Folding

/-!
# What is stored of a tally

A tally stores the issues whose count is not zero, each once and in order. Counts come and go while
tallies are added up and subtracted, and what remains is no trace of that: whatever sequence of
operations led to a tally, its entries are read off from the exact count of every issue that the
sequence comes to. So tallies are equal when they count alike, the tally of nothing is the one that
counts nothing, and the size of a tally is the number of issues that it counts.

Main statement: `canonical_of_computed`.
-/

namespace LintDelta

namespace Tally

/-- Tallies that a sequence of operations leads to, with the exact count of every issue that the
sequence comes to. A sequence leads nowhere if one of its operations overflows. -/
inductive Computed : (Issue → Int) → Tally → Prop
  | counts {counts : List (Issue × Int)} {t : Tally} (h : ofCounts counts = some t) :
      Computed (fun i => countIn i counts) t
  | occurrences {issues : List Issue} {t : Tally} (h : ofIssues issues = some t) :
      Computed (fun i => issues.count i) t
  | add {f g : Issue → Int} {a b t : Tally} (ha : Computed f a) (hb : Computed g b)
      (h : a.add b = some t) : Computed (fun i => f i + g i) t
  | net {f g : Issue → Int} {pre post t : Tally} (hpre : Computed f pre) (hpost : Computed g post)
      (h : Tally.net pre post = some t) : Computed (fun i => g i - f i) t
  | neg {f : Issue → Int} {a t : Tally} (ha : Computed f a) (h : a.neg = some t) :
      Computed (fun i => -f i) t
  | sum {value : Tally → Issue → Int} {ts : List Tally} {t : Tally}
      (hts : ∀ a ∈ ts, Computed (value a) a) (h : Tally.sum ts = some t) :
      Computed (fun i => (ts.map fun a => value a i).sum) t

/-- A tally counts exactly what the sequence of operations that leads to it comes to. -/
theorem count_of_computed {f : Issue → Int} {t : Tally} (ht : Computed f t) (i : Issue) :
    t.count i = f i := by
  induction ht with
  | counts h => rw [count_bumpAll h, count_empty, Int.zero_add]
  | occurrences h => exact count_ofIssues h i
  | add _ _ h iha ihb => rw [count_add h, iha, ihb]
  | net _ _ h ihpre ihpost => rw [count_net h, ihpre, ihpost]
  | neg _ h ih => rw [count_neg h, ih]
  | @sum value ts t hts h ih =>
    have hall : ts.map (fun a => a.count i) = ts.map fun a => value a i := List.map_congr_left ih
    rw [count_sum h, hall]

/-! ## What counts determine -/

theorem mem_entries_iff {t : Tally} {i : Issue} {n : Int} :
    (i, n) ∈ t.entries ↔ t.count i = n ∧ n ≠ 0 := by
  rw [entries, OrderedMap.mem_bindings_iff t.canonical.ordered]
  constructor
  · exact count_ne_zero_of_find?
  · rintro ⟨rfl, hn⟩
    rw [find?_counts, if_neg hn]

theorem isEmpty_iff {t : Tally} : t.isEmpty = true ↔ ∀ i, t.count i = 0 := by
  constructor
  · intro h i
    by_contra hi
    have hmem : (i, t.count i) ∈ t.entries := mem_entries_iff.2 ⟨rfl, hi⟩
    rw [List.isEmpty_iff.1 h] at hmem
    cases hmem
  · intro h
    refine List.isEmpty_iff.2 (List.eq_nil_iff_forall_not_mem.2 fun (i, n) hmem => ?_)
    obtain ⟨rfl, hn⟩ := mem_entries_iff.1 hmem
    exact hn (h i)

theorem size_eq_ncard (t : Tally) : t.size = {i | t.count i ≠ 0}.ncard := by
  have hset : {i | t.count i ≠ 0} = (t.issues.toFinset : Set Issue) := by
    ext i
    simp [mem_issues_iff]
  rw [hset, Set.ncard_coe_finset, List.toFinset_card_of_nodup t.nodup_issues]
  exact (List.length_map _).symm

/-- **Tallies are in canonical form, however they came about.** The entries of a tally that a sequence
of operations leads to rise strictly, and they are the counts that the sequence comes to, less those
that are zero. So two such tallies are equal exactly when they count alike, a tally is empty exactly
when it counts nothing, and its size is the number of issues that it counts. -/
theorem canonical_of_computed {f g : Issue → Int} {a b : Tally} (ha : Computed f a) (hb : Computed g b) :
    a.entries.Pairwise (fun x y => Ord.compare x.1 y.1 = .lt) ∧
    (∀ i n, (i, n) ∈ a.entries ↔ f i = n ∧ n ≠ 0) ∧
    (a = b ↔ ∀ i, a.count i = b.count i) ∧
    (a = b ↔ ∀ i, f i = g i) ∧
    (a.isEmpty = true ↔ ∀ i, a.count i = 0) ∧
    a.size = {i | a.count i ≠ 0}.ncard := by
  have hiff : a = b ↔ ∀ i, a.count i = b.count i := ⟨fun h _ => h ▸ rfl, eq_of_count_eq⟩
  refine ⟨a.canonical.ordered, fun i n => ?_, hiff, ?_, isEmpty_iff, size_eq_ncard a⟩
  · rw [mem_entries_iff, count_of_computed ha]
  · simp only [hiff, count_of_computed ha, count_of_computed hb]

/-- An occurrence that is taken away again leaves nothing, not a count of zero. -/
theorem canonical_of_computed_of_cancelled :
    ∃ once gone : Tally, ofIssues [default] = some once ∧ Tally.net once once = some gone ∧
      (default, 1) ∈ once.entries ∧ gone.isEmpty = true ∧ once ≠ gone := by
  obtain ⟨once, honce⟩ : ∃ t, ofIssues [default] = some t := ⟨_, rfl⟩
  obtain ⟨gone, hgone⟩ : ∃ t, Tally.net once once = some t := by
    cases honce
    exact ⟨_, rfl⟩
  have hc : Computed _ once := .occurrences honce
  obtain ⟨-, honceEntries, -, hne, -, -⟩ := canonical_of_computed hc (.net hc hc hgone)
  obtain ⟨-, -, -, -, hempty, -⟩ := canonical_of_computed (.net hc hc hgone) hc
  refine ⟨once, gone, honce, hgone, (honceEntries _ _).2 (by decide), hempty.2 fun i => ?_, fun heq => ?_⟩
  · rw [count_net hgone, Int.sub_self]
  · exact absurd (hne.1 heq default) (by decide)

end Tally

end LintDelta
