import Mathlib.Algebra.BigOperators.Group.List.Basic
import Mathlib.Algebra.Order.Ring.Int
import LintDelta.Proofs.Tally.Group

/-!
# Folding counts

Counts are added up one after another, or tally after tally. Both folds take steps of one kind: a step
adds to every count what its element gives, and has a result exactly if every count still fits
(`Gains`). A count that cancels out on the way is dropped and comes back later, but that is a matter of
what is stored. So a fold of such steps fails exactly if some partial sum of some issue leaves the range
of machine integers, and otherwise its counts are the sums (`Gains.foldlM_eq_none_iff`,
`Gains.count_foldlM`).

Partial sums depend on the order of the elements, sums do not. Where nothing is negative the partial
sums stay below the sum, and then the order does not matter for success either.

Main statement: `folding_is_exact`.
-/

namespace LintDelta

namespace Tally

/-! ## Steps that add -/

section Steps

variable {α : Type} {step : Tally → α → Option Tally} {gain : α → Issue → Int} {t t' : Tally} {xs ys : List α}

/-- What elements give to an issue in all. -/
def gained (gain : α → Issue → Int) (i : Issue) (xs : List α) : Int :=
  (xs.map fun x => gain x i).sum

@[simp] theorem gained_nil (i : Issue) : gained gain i [] = 0 := rfl

@[simp] theorem gained_cons (i : Issue) (x : α) (xs : List α) :
    gained gain i (x :: xs) = gain x i + gained gain i xs := by
  simp [gained]

@[simp] theorem gained_append (i : Issue) (xs ys : List α) :
    gained gain i (xs ++ ys) = gained gain i xs + gained gain i ys := by
  simp [gained]

theorem gained_perm (h : xs.Perm ys) (i : Issue) : gained gain i xs = gained gain i ys :=
  (h.map _).sum_eq

theorem gained_nonneg (h : ∀ x ∈ xs, ∀ i, 0 ≤ gain x i) (i : Issue) : 0 ≤ gained gain i xs := by
  induction xs with
  | nil => simp
  | cons x xs ih =>
    have hx := h x List.mem_cons_self i
    have hxs := ih fun y hy => h y (List.mem_cons_of_mem x hy)
    rw [gained_cons]
    omega

/-- A step adds to every count what its element gives, and has a result exactly if every count fits. -/
structure Gains (step : Tally → α → Option Tally) (gain : α → Issue → Int) : Prop where
  eq_none_iff : ∀ t x, step t x = none ↔ ∃ i, Machine.fits (t.count i + gain x i) = false
  count : ∀ {t t' x}, step t x = some t' → ∀ i, t'.count i = t.count i + gain x i

namespace Gains

/-- **A fold counts the sums.** -/
theorem count_foldlM (hg : Gains step gain) (h : xs.foldlM step t = some t') (i : Issue) :
    t'.count i = t.count i + gained gain i xs := by
  induction xs generalizing t with
  | nil =>
    cases h
    simp
  | cons x xs ih =>
    obtain ⟨t₁, hstep, hrest⟩ := Option.bind_eq_some_iff.1 h
    rw [ih hrest, hg.count hstep, gained_cons]
    omega

/-- **A fold fails** exactly if some partial sum does not fit, by induction on the elements: the partial
sums behind the first element are those of the fold that starts with it. -/
theorem foldlM_eq_none_iff (hg : Gains step gain) :
    xs.foldlM step t = none ↔
      ∃ i part, part <+: xs ∧ Machine.fits (t.count i + gained gain i part) = false := by
  induction xs generalizing t with
  | nil =>
    simp [fits_count]
  | cons x xs ih =>
    rw [List.foldlM_cons]
    cases hstep : step t x with
    | none =>
      obtain ⟨i, hi⟩ := (hg.eq_none_iff t x).1 hstep
      have hpart : [x] <+: x :: xs := ⟨xs, rfl⟩
      simp only [bind, Option.bind_none, true_iff]
      exact ⟨i, [x], hpart, by simpa using hi⟩
    | some t₁ =>
      have hcount := hg.count hstep
      simp only [bind, Option.bind_some, ih]
      constructor
      · rintro ⟨i, part, hpart, hi⟩
        refine ⟨i, x :: part, List.cons_prefix_cons.2 ⟨rfl, hpart⟩, ?_⟩
        rwa [gained_cons, ← Int.add_assoc, ← hcount]
      · rintro ⟨i, part, hpart, hi⟩
        rcases List.prefix_cons_iff.1 hpart with rfl | ⟨tail, rfl, htail⟩
        · simp [fits_count] at hi
        · refine ⟨i, tail, htail, ?_⟩
          rwa [gained_cons, ← Int.add_assoc, ← hcount] at hi

/-- Folds over the same elements that succeed have the same result, whatever the order. -/
theorem eq_of_perm (hg : Gains step gain) (h : xs.Perm ys) {a b : Tally} (ha : xs.foldlM step t = some a)
    (hb : ys.foldlM step t = some b) : a = b := by
  apply eq_of_count_eq
  intro i
  rw [hg.count_foldlM ha, hg.count_foldlM hb, gained_perm h]

/-- Where nothing is negative, a fold fails exactly if a sum does not fit: no partial sum is above the
sum. -/
theorem foldlM_eq_none_iff_of_nonneg (hg : Gains step gain) (h : ∀ x ∈ xs, ∀ i, 0 ≤ gain x i) :
    xs.foldlM step t = none ↔ ∃ i, Machine.fits (t.count i + gained gain i xs) = false := by
  rw [hg.foldlM_eq_none_iff]
  constructor
  · rintro ⟨i, part, ⟨rest, rfl⟩, hi⟩
    have hpart : 0 ≤ gained gain i part := gained_nonneg (fun x hx => h x (List.mem_append_left rest hx)) i
    have hrest : 0 ≤ gained gain i rest := gained_nonneg (fun x hx => h x (List.mem_append_right part hx)) i
    have hstart := fits_count t i
    refine ⟨i, ?_⟩
    rw [gained_append]
    simp only [Machine.fits, Bool.and_eq_true, Bool.and_eq_false_iff, decide_eq_true_eq,
      decide_eq_false_iff_not] at hi hstart ⊢
    omega
  · rintro ⟨i, hi⟩
    exact ⟨i, xs, List.prefix_refl xs, hi⟩

/-- Where nothing is negative, the order of the elements does not matter at all. -/
theorem foldlM_perm (hg : Gains step gain) (hperm : xs.Perm ys) (h : ∀ x ∈ xs, ∀ i, 0 ≤ gain x i) :
    xs.foldlM step t = ys.foldlM step t := by
  have h' : ∀ y ∈ ys, ∀ i, 0 ≤ gain y i := fun y hy => h y (hperm.mem_iff.2 hy)
  have hnone : xs.foldlM step t = none ↔ ys.foldlM step t = none := by
    rw [hg.foldlM_eq_none_iff_of_nonneg h, hg.foldlM_eq_none_iff_of_nonneg h']
    simp only [gained_perm hperm]
  cases hx : xs.foldlM step t with
  | none => rw [hnone.1 hx]
  | some a =>
    cases hy : ys.foldlM step t with
    | none => rw [hnone.2 hy] at hx; cases hx
    | some b => rw [hg.eq_of_perm hperm hx hy]

end Gains

end Steps

/-! ## The two folds -/

/-- What a count gives: its number to its own issue, and nothing to the others. -/
def gainOf (b : Issue × Int) (i : Issue) : Int :=
  if b.1 = i then b.2 else 0

theorem gained_gainOf (i : Issue) (counts : List (Issue × Int)) :
    gained gainOf i counts = countIn i counts := by
  induction counts with
  | nil => rfl
  | cons b rest ih => rw [gained_cons, ih, countIn, gainOf]

theorem bump_eq_none_iff {t : Tally} {k : Issue} {n : Int} :
    t.bump k n = none ↔ ∃ i, Machine.fits (t.count i + if k = i then n else 0) = false := by
  unfold bump
  by_cases hn : n = 0
  · simp [hn, fits_count]
  · rw [if_neg hn, put_eq_none_iff]
    constructor
    · intro h
      exact ⟨k, by simpa using h⟩
    · rintro ⟨i, hi⟩
      by_cases hk : k = i
      · simpa [hk] using hi
      · simp [hk, fits_count] at hi

theorem gains_bump : Gains (fun t (b : Issue × Int) => t.bump b.1 b.2) gainOf where
  eq_none_iff _ _ := bump_eq_none_iff
  count h i := count_bump h i

theorem gains_add : Gains add fun a i => a.count i where
  eq_none_iff _ _ := add_eq_none_iff
  count h i := count_add h i

theorem ofCounts_eq_none_iff {counts : List (Issue × Int)} :
    ofCounts counts = none ↔ ∃ i part, part <+: counts ∧ Machine.fits (countIn i part) = false := by
  have h : ofCounts counts = none ↔ _ := gains_bump.foldlM_eq_none_iff
  simp only [count_empty, Int.zero_add, gained_gainOf] at h
  exact h

theorem sum_eq_none_iff {ts : List Tally} :
    Tally.sum ts = none ↔
      ∃ i part, part <+: ts ∧ Machine.fits (part.map fun a => a.count i).sum = false := by
  have h : Tally.sum ts = none ↔ _ := gains_add.foldlM_eq_none_iff
  simp only [count_empty, Int.zero_add] at h
  exact h

theorem count_sum {ts : List Tally} {t : Tally} (h : Tally.sum ts = some t) (i : Issue) :
    t.count i = (ts.map fun a => a.count i).sum := by
  rw [gains_add.count_foldlM h, count_empty, Int.zero_add, gained]

/-! ## Occurrences -/

/-- Occurrences cannot be counted exactly if there are too many of one issue. -/
theorem ofIssues_eq_none_iff {xs : List Issue} :
    ofIssues xs = none ↔ ∃ i, Machine.fits (xs.count i) = false := by
  have hnonneg : ∀ b ∈ xs.map fun x => (x, (1 : Int)), ∀ i, 0 ≤ gainOf b i := by
    intro b hb i
    obtain ⟨x, -, rfl⟩ := List.mem_map.1 hb
    by_cases hx : x = i <;> simp [gainOf, hx]
  have h := gains_bump.foldlM_eq_none_iff_of_nonneg (t := empty) hnonneg
  simp only [count_empty, Int.zero_add, gained_gainOf, countIn_occurrences] at h
  exact h

/-- Fewer than 2^63 occurrences can be counted. -/
theorem exists_ofIssues {xs : List Issue} (h : xs.length < 9223372036854775808) : ∃ t, ofIssues xs = some t := by
  rw [← Option.ne_none_iff_exists', Ne, ofIssues_eq_none_iff]
  rintro ⟨i, hi⟩
  have hle : xs.count i ≤ xs.length := List.count_le_length
  simp only [Machine.fits, Bool.and_eq_false_iff, decide_eq_false_iff_not] at hi
  omega

/-- The tally of occurrences is the one that counts them. -/
theorem ofIssues_eq_some_iff {xs : List Issue} {t : Tally} : ofIssues xs = some t ↔ ∀ i, t.count i = xs.count i := by
  constructor
  · exact fun h => count_ofIssues h
  · intro h
    cases hxs : ofIssues xs with
    | none =>
      obtain ⟨i, hi⟩ := ofIssues_eq_none_iff.1 hxs
      rw [← h, fits_count] at hi
      cases hi
    | some t' =>
      have heq : t' = t := eq_of_count_eq fun i => by rw [count_ofIssues hxs, h]
      rw [heq]

/-- **Occurrences of two lists** are those of the one and those of the other, and there are too many of
them in one sweep exactly if there are too many in two. -/
theorem ofIssues_append (xs ys : List Issue) :
    ofIssues (xs ++ ys) = (ofIssues xs).bind fun a => (ofIssues ys).bind a.add := by
  cases h : ofIssues (xs ++ ys) with
  | some t =>
    have hfits (i : Issue) : Machine.fits ((xs.count i : Int) + ys.count i) = true := by
      have := fits_count t i
      rwa [count_ofIssues h, List.count_append, Int.natCast_add] at this
    have hone {zs : List Issue} (hzs : ∀ i, zs.count i ≤ xs.count i + ys.count i) :
        ∃ a, ofIssues zs = some a := by
      rw [← Option.ne_none_iff_exists', Ne, ofIssues_eq_none_iff]
      rintro ⟨i, hi⟩
      have hle := hzs i
      have hsum := hfits i
      simp only [Machine.fits, Bool.and_eq_true, Bool.and_eq_false_iff, decide_eq_true_eq,
        decide_eq_false_iff_not] at hi hsum
      omega
    obtain ⟨a, ha⟩ := hone fun i => Nat.le_add_right (xs.count i) (ys.count i)
    obtain ⟨b, hb⟩ := hone fun i => Nat.le_add_left (ys.count i) (xs.count i)
    rw [ha, hb, Option.bind_some, Option.bind_some, eq_comm, add_eq_some_iff]
    intro i
    rw [count_ofIssues h, count_ofIssues ha, count_ofIssues hb, List.count_append, Int.natCast_add]
  | none =>
    obtain ⟨i, hi⟩ := ofIssues_eq_none_iff.1 h
    cases ha : ofIssues xs with
    | none => rfl
    | some a =>
      cases hb : ofIssues ys with
      | none => rfl
      | some b =>
        rw [Option.bind_some, Option.bind_some, eq_comm, add_eq_none_iff]
        refine ⟨i, ?_⟩
        rwa [count_ofIssues ha, count_ofIssues hb, ← Int.natCast_add, ← List.count_append]

/-- **Folding counts is exact.** A list of counts has no tally exactly if some issue has a partial sum of
its counts that does not fit, and otherwise its tally counts the sums; the same holds for the sum of a list
of tallies. So what a fold comes to does not depend on the order of the list, and where no count is
negative, neither does whether it comes to anything. Occurrences may be counted list by list, and fewer
than 2^63 of them can always be counted. -/
theorem folding_is_exact (counts counts' : List (Issue × Int)) (ts ts' : List Tally) (xs ys : List Issue) :
    -- counts
    (ofCounts counts = none ↔ ∃ i part, part <+: counts ∧ Machine.fits (countIn i part) = false) ∧
    (∀ t, ofCounts counts = some t → ∀ i, t.count i = countIn i counts) ∧
    -- tallies
    (Tally.sum ts = none ↔
      ∃ i part, part <+: ts ∧ Machine.fits (part.map fun a => a.count i).sum = false) ∧
    (∀ t, Tally.sum ts = some t → ∀ i, t.count i = (ts.map fun a => a.count i).sum) ∧
    -- the order
    (counts.Perm counts' → ∀ t t', ofCounts counts = some t → ofCounts counts' = some t' → t = t') ∧
    (ts.Perm ts' → ∀ t t', Tally.sum ts = some t → Tally.sum ts' = some t' → t = t') ∧
    (counts.Perm counts' → (∀ b ∈ counts, 0 ≤ b.2) → ofCounts counts = ofCounts counts') ∧
    (ts.Perm ts' → (∀ a ∈ ts, ∀ i, 0 ≤ a.count i) → Tally.sum ts = Tally.sum ts') ∧
    -- occurrences
    ofIssues (xs ++ ys) = (ofIssues xs).bind (fun a => (ofIssues ys).bind a.add) ∧
    (∀ t, ofIssues xs = some t → ∀ i, t.count i = xs.count i) ∧
    (xs.length < 9223372036854775808 → ∃ t, ofIssues xs = some t) := by
  refine ⟨ofCounts_eq_none_iff, fun t h i => ?_, sum_eq_none_iff, fun t => count_sum, fun hperm t t' => ?_,
    fun hperm t t' => ?_, fun hperm hnonneg => ?_, fun hperm hnonneg => ?_, ofIssues_append xs ys,
    fun t => count_ofIssues, exists_ofIssues⟩
  · rw [count_bumpAll h, count_empty, Int.zero_add]
  · exact gains_bump.eq_of_perm hperm
  · exact gains_add.eq_of_perm hperm
  · apply gains_bump.foldlM_perm hperm
    intro b hb i
    have := hnonneg b hb
    unfold gainOf
    split <;> omega
  · exact gains_add.foldlM_perm hperm hnonneg

/-- At the brim success depends on the order: the greatest count takes one more only after it was made one
less. Orders that succeed agree, and so do all orders where nothing is negative. -/
theorem folding_is_exact_of_brim :
    ofCounts [(default, 9223372036854775807), (default, 1), (default, -1)] = none ∧
    (∃ t t', ofCounts [(default, 9223372036854775807), (default, -1), (default, 1)] = some t ∧
      ofCounts [(default, -1), (default, 9223372036854775807), (default, 1)] = some t' ∧ t = t') ∧
    ofCounts [(default, 1), (default, 9223372036854775807)] =
      ofCounts [(default, 9223372036854775807), (default, 1)] ∧
    ∃ brim more less : Tally, brim.count default = 9223372036854775807 ∧ more.count default = 1 ∧
      Tally.sum [brim, more, less] = none ∧
      (∃ t t', Tally.sum [brim, less, more] = some t ∧ Tally.sum [less, brim, more] = some t' ∧ t = t') ∧
      Tally.sum [brim, more] = Tally.sum [more, brim] ∧
      ofIssues ([default] ++ [default]) = more.add more := by
  have hswap {α : Type} (x y z : α) : [x, y, z].Perm [y, x, z] := .swap y x [z]
  obtain ⟨brim, hbrim⟩ : ∃ t, ofCounts [(default, 9223372036854775807)] = some t := ⟨_, rfl⟩
  obtain ⟨more, hmore⟩ : ∃ t, ofIssues [default] = some t := ⟨_, rfl⟩
  obtain ⟨less, hless⟩ : ∃ t, ofCounts [(default, -1)] = some t := ⟨_, rfl⟩
  obtain ⟨t, ht⟩ : ∃ t, ofCounts [(default, 9223372036854775807), (default, -1), (default, 1)] = some t :=
    ⟨_, rfl⟩
  obtain ⟨t', ht'⟩ : ∃ t, ofCounts [(default, -1), (default, 9223372036854775807), (default, 1)] = some t :=
    ⟨_, rfl⟩
  obtain ⟨a, ha⟩ : ∃ t, Tally.sum [brim, less, more] = some t := by
    cases hbrim; cases hmore; cases hless
    exact ⟨_, rfl⟩
  obtain ⟨a', ha'⟩ : ∃ t, Tally.sum [less, brim, more] = some t := by
    cases hbrim; cases hmore; cases hless
    exact ⟨_, rfl⟩
  obtain ⟨-, hcount, -⟩ := folding_is_exact [(default, 9223372036854775807)] [] [] [] [] []
  obtain ⟨hnone, -, hsum, -, -, -, -, -, happend, honce, -⟩ := folding_is_exact
    [(default, 9223372036854775807), (default, 1), (default, -1)] [] [brim, more, less] [] [default] [default]
  obtain ⟨-, -, -, -, heq, heqSum, -⟩ := folding_is_exact
    [(default, 9223372036854775807), (default, -1), (default, 1)]
    [(default, -1), (default, 9223372036854775807), (default, 1)] [brim, less, more] [less, brim, more] [] []
  obtain ⟨-, -, -, -, -, -, hperm, hpermSum, -⟩ := folding_is_exact
    [(default, 1), (default, 9223372036854775807)] [(default, 9223372036854775807), (default, 1)]
    [brim, more] [more, brim] [] []
  have hbrimCount : brim.count default = 9223372036854775807 := hcount brim hbrim default
  have hmoreCount (i : Issue) : more.count i = [default].count i := honce more hmore i
  have hfull : Machine.fits (([brim, more].map fun a => a.count default).sum) = false := by
    simp only [List.map_cons, List.map_nil, List.sum_cons, List.sum_nil, hbrimCount, hmoreCount]
    decide
  refine ⟨hnone.2 ⟨default, [(default, 9223372036854775807), (default, 1)], ⟨[(default, -1)], rfl⟩, by decide⟩,
    ⟨t, t', ht, ht', heq (hswap _ _ _) t t' ht ht'⟩, hperm (.swap ..) (by decide), brim, more, less, hbrimCount,
    hmoreCount default, hsum.2 ⟨default, [brim, more], ⟨[less], rfl⟩, hfull⟩,
    ⟨a, a', ha, ha', heqSum (hswap _ _ _) a a' ha ha'⟩, hpermSum (.swap ..) fun b hb i => ?_, ?_⟩
  · obtain rfl | rfl : b = brim ∨ b = more := by simpa using hb
    · rw [hcount _ hbrim, countIn, countIn]
      split <;> decide
    · rw [hmoreCount]
      omega
  · rw [happend, hmore]
    rfl

end Tally

end LintDelta
