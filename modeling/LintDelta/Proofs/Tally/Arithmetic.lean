import LintDelta.Tally

/-!
# The arithmetic of tallies

A tally is known by its counts, and every operation that has a result does to each count what its
name says: `count_add`, `count_neg`, `count_net`. The entries of a sum may come and go on the way,
as counts cancel and come back, so the statements are about counts and not about entries.
-/

namespace LintDelta

namespace Tally

/-- What a list of counts gives to an issue in all. -/
def countIn (i : Issue) : List (Issue × Int) → Int
  | [] => 0
  | (k, n) :: rest => (if k = i then n else 0) + countIn i rest

theorem count_bump {t t' : Tally} {k : Issue} {delta : Int} (h : t.bump k delta = some t') (i : Issue) :
    t'.count i = t.count i + if k = i then delta else 0 := by
  unfold bump at h
  split at h
  · next h0 => cases h; simp [h0]
  · rw [count_put h]
    by_cases hk : i = k
    · subst hk; simp
    · simp [hk, Ne.symm hk]

/-- Adding counts one after another adds to each issue what the list gives to it. -/
theorem count_bumpAll {t t' : Tally} {counts : List (Issue × Int)} (h : t.bumpAll counts = some t')
    (i : Issue) : t'.count i = t.count i + countIn i counts := by
  induction counts generalizing t with
  | nil => cases h; simp [countIn]
  | cons b rest ih =>
    obtain ⟨t₁, hb, hrest⟩ := Option.bind_eq_some_iff.1 h
    rw [ih hrest, count_bump hb i, countIn]
    omega

/-- Among ordered bindings an issue has one count, the one that is looked up. -/
theorem countIn_eq_lookup {l : List (Issue × Int)}
    (hl : OrderedMap.Ordered ⟨l⟩) (i : Issue) :
    countIn i l = (OrderedMap.lookup i l).getD 0 := by
  induction l with
  | nil => rfl
  | cons b rest ih =>
    obtain ⟨hb, hrest⟩ := List.pairwise_cons.1 hl
    rw [countIn, ih hrest, OrderedMap.lookup_tail hb i]
    cases hc : Ord.compare i b.1 with
    | lt =>
      have hne : b.1 ≠ i := by rintro rfl; simp [Std.ReflCmp.compare_self] at hc
      simp [OrderedMap.lookup, hc, hne]
    | eq =>
      obtain rfl := Std.LawfulEqCmp.eq_of_compare hc
      simp [OrderedMap.lookup]
    | gt =>
      have hne : b.1 ≠ i := by rintro rfl; simp [Std.ReflCmp.compare_self] at hc
      simp [hne]

theorem countIn_entries (t : Tally) (i : Issue) : countIn i t.entries = t.count i :=
  countIn_eq_lookup t.canonical.ordered i

/-! ## Sums and differences -/

theorem count_add {a b c : Tally} (h : a.add b = some c) (i : Issue) :
    c.count i = a.count i + b.count i := by
  rw [count_bumpAll h, countIn_entries]

theorem count_neg {a c : Tally} (h : a.neg = some c) (i : Issue) : c.count i = -a.count i := by
  unfold neg at h
  split at h
  · cases h
    simp only [count, OrderedMap.find?_map]
    cases a.counts.find? i <;> simp
  · cases h

/-- **What a change adds**: after it, less before it. -/
theorem count_net {pre post c : Tally} (h : net pre post = some c) (i : Issue) :
    c.count i = post.count i - pre.count i := by
  obtain ⟨n, hn, hadd⟩ := Option.bind_eq_some_iff.1 h
  rw [count_add hadd, count_neg hn]
  omega

/-! ## Lists of counts -/

theorem fits_count (t : Tally) (i : Issue) : Machine.fits (t.count i) = true := by
  cases h : t.counts.find? i with
  | none => simp [count, h, Machine.fits]
  | some n =>
    rw [(count_ne_zero_of_find? h).1]
    exact t.canonical.fits (i, n) (OrderedMap.mem_of_find? h)

theorem mem_issues_iff {t : Tally} {i : Issue} : i ∈ t.issues ↔ t.count i ≠ 0 := by
  rw [issues, OrderedMap.mem_keys_iff t.canonical.ordered, find?_counts]
  by_cases h : t.count i = 0 <;> simp [h]

theorem countIn_perm {l l' : List (Issue × Int)} (h : l.Perm l') (i : Issue) :
    countIn i l = countIn i l' := by
  induction h with
  | nil => rfl
  | cons b _ ih => rw [countIn, countIn, ih]
  | swap b c l => simp only [countIn]; omega
  | trans _ _ ih₁ ih₂ => exact ih₁.trans ih₂

/-- A list that names no issue twice gives an issue what it says of it. -/
theorem countIn_map {issues : List Issue} (hn : issues.Nodup) (f : Issue → Int) (i : Issue) :
    countIn i (issues.map fun k => (k, f k)) = if i ∈ issues then f i else 0 := by
  induction issues with
  | nil => rfl
  | cons k rest ih =>
    obtain ⟨hk, hrest⟩ := List.nodup_cons.1 hn
    rw [List.map_cons, countIn, ih hrest]
    by_cases hki : k = i
    · subst hki
      simp [hk]
    · simp [hki, Ne.symm hki]

theorem exists_bump {t : Tally} {k : Issue} {delta : Int} (h : Machine.fits (t.count k + delta) = true) :
    ∃ t', t.bump k delta = some t' := by
  unfold bump
  split
  · exact ⟨t, rfl⟩
  · rw [← Option.ne_none_iff_exists', Ne, put_eq_none_iff, h]
    nofun

/-- A list that names no issue twice can be added if every count that it changes still fits. -/
theorem exists_bumpAll {counts : List (Issue × Int)} (hn : (counts.map (·.1)).Nodup) :
    ∀ {t : Tally}, (∀ b ∈ counts, Machine.fits (t.count b.1 + b.2) = true) →
      ∃ t', t.bumpAll counts = some t' := by
  induction counts with
  | nil => exact fun {t} _ => ⟨t, rfl⟩
  | cons b rest ih =>
    intro t ht
    obtain ⟨hb, hrest⟩ := List.nodup_cons.1 hn
    obtain ⟨t₁, h₁⟩ := exists_bump (ht b List.mem_cons_self)
    obtain ⟨t', h'⟩ := ih hrest (t := t₁) fun c hc => by
      have hne : b.1 ≠ c.1 := fun heq => hb (List.mem_map.2 ⟨c, hc, heq.symm⟩)
      rw [count_bump h₁, if_neg hne, Int.add_zero]
      exact ht c (List.mem_cons_of_mem b hc)
    exact ⟨t', Option.bind_eq_some_iff.2 ⟨t₁, h₁, h'⟩⟩

theorem nodup_issues (t : Tally) : t.issues.Nodup :=
  OrderedMap.nodup_keys t.canonical.ordered

theorem count_of_mem_entries {t : Tally} {b : Issue × Int} (h : b ∈ t.entries) : t.count b.1 = b.2 :=
  (count_ne_zero_of_find? ((OrderedMap.mem_bindings_iff t.canonical.ordered).1 h)).1

/-- **Tallies can be added** if every count of the sum fits. -/
theorem exists_add {a b : Tally} (h : ∀ i, Machine.fits (a.count i + b.count i) = true) :
    ∃ c, a.add b = some c :=
  exists_bumpAll b.nodup_issues fun entry hentry => count_of_mem_entries hentry ▸ h entry.1

/-- **A tally is what its counts say**: a list that names no issue twice makes up the tally that counts as
the list does. -/
theorem ofCounts_eq_some {counts : List (Issue × Int)} {t : Tally} (hn : (counts.map (·.1)).Nodup)
    (hfits : ∀ b ∈ counts, Machine.fits b.2 = true) (h : ∀ i, countIn i counts = t.count i) :
    ofCounts counts = some t := by
  obtain ⟨t', ht'⟩ := exists_bumpAll hn (t := empty) fun b hb => by
    rw [count_empty, Int.zero_add]
    exact hfits b hb
  have heq : t' = t := eq_of_count_eq fun i => by rw [count_bumpAll ht', count_empty, Int.zero_add, h]
  rw [ofCounts, ht', heq]

theorem countIn_occurrences (i : Issue) (issues : List Issue) :
    countIn i (issues.map fun k => (k, 1)) = issues.count i := by
  induction issues with
  | nil => rfl
  | cons k rest ih =>
    rw [List.map_cons, countIn, ih, List.count_cons]
    by_cases hk : k = i
    · subst hk
      simp
      omega
    · simp [hk]

/-- A tally of occurrences counts them. -/
theorem count_ofIssues {issues : List Issue} {t : Tally} (h : ofIssues issues = some t) (i : Issue) :
    t.count i = issues.count i := by
  rw [count_bumpAll h, count_empty, countIn_occurrences, Int.zero_add]

end Tally

end LintDelta
