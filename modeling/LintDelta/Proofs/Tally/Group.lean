import Mathlib.Tactic.ByContra
import LintDelta.Proofs.Tally.Arithmetic

/-!
# Tallies as a partial group

Tallies under `add` are a commutative group as far as machine integers allow. An operation has a
result exactly when every count of the result fits, and then it is the tally with those counts:
`add_eq_some_iff`, `neg_eq_some_iff`, `net_eq_some_iff`. As tallies that count alike are equal, the
laws of a group follow from the laws of the integers. What is lost is that a grouping of three
tallies may overflow on the way while the other does not, so associativity is about groupings that
both have a result.

Main statement: `partial_commutative_group`.
-/

namespace LintDelta

namespace Tally

variable {a b c t : Tally}

/-! ## When an operation has a result -/

/-- **Addition is exact**: the sum is the tally that counts every issue as the two do together, and
there is no sum if there is no such tally. -/
theorem add_eq_some_iff : a.add b = some t ↔ ∀ k, t.count k = a.count k + b.count k := by
  constructor
  · exact count_add
  · intro h
    obtain ⟨t', ht'⟩ := exists_add (a := a) (b := b) fun k => h k ▸ fits_count t k
    rw [ht', eq_of_count_eq fun k => (count_add ht' k).trans (h k).symm]

theorem add_eq_none_iff : a.add b = none ↔ ∃ k, Machine.fits (a.count k + b.count k) = false := by
  constructor
  · intro h
    by_contra hfits
    have hall : ∀ k, Machine.fits (a.count k + b.count k) = true := by simpa using hfits
    obtain ⟨t, ht⟩ := exists_add hall
    rw [h] at ht
    cases ht
  · rintro ⟨k, hk⟩
    cases h : a.add b with
    | none => rfl
    | some t =>
      have := fits_count t k
      rw [count_add h, hk] at this
      cases this

/-- A machine integer has a negative unless it is the least one. -/
theorem fits_neg_iff {n : Int} (h : Machine.fits n = true) :
    Machine.fits (-n) = true ↔ n ≠ -9223372036854775808 := by
  simp only [Machine.fits, Bool.and_eq_true, decide_eq_true_eq] at h ⊢
  omega

theorem exists_neg (h : ∀ k, a.count k ≠ -9223372036854775808) : ∃ t, a.neg = some t := by
  have hall : ∀ entry ∈ a.entries, Machine.fits (-entry.2) = true := fun entry hentry =>
    (fits_neg_iff (a.canonical.fits entry hentry)).2 (count_of_mem_entries hentry ▸ h entry.1)
  exact ⟨_, dif_pos hall⟩

theorem count_ne_min_of_neg (h : a.neg = some t) (k : Issue) : a.count k ≠ -9223372036854775808 := by
  have := fits_count t k
  rw [count_neg h, fits_neg_iff (fits_count a k)] at this
  exact this

/-- **Negation is exact**: the negative is the tally that counts every issue the other way. -/
theorem neg_eq_some_iff : a.neg = some t ↔ ∀ k, t.count k = -a.count k := by
  constructor
  · exact count_neg
  · intro h
    obtain ⟨t', ht'⟩ := exists_neg (a := a) fun k => by
      rw [← fits_neg_iff (fits_count a k), ← h k]
      exact fits_count t k
    rw [ht', eq_of_count_eq fun k => (count_neg ht' k).trans (h k).symm]

theorem neg_eq_none_iff : a.neg = none ↔ ∃ k, a.count k = -9223372036854775808 := by
  constructor
  · intro h
    by_contra hmin
    obtain ⟨t, ht⟩ := exists_neg (not_exists.1 hmin)
    rw [h] at ht
    cases ht
  · rintro ⟨k, hk⟩
    cases h : a.neg with
    | none => rfl
    | some t => exact absurd hk (count_ne_min_of_neg h k)

/-- **Subtraction is addition of the negative**, and so it has no result where the negative has none,
even if the difference itself would fit. -/
theorem net_eq_some_iff :
    net b a = some t ↔
      (∀ k, b.count k ≠ -9223372036854775808) ∧ ∀ k, t.count k = a.count k - b.count k := by
  constructor
  · intro h
    obtain ⟨n, hn, -⟩ := Option.bind_eq_some_iff.1 h
    exact ⟨count_ne_min_of_neg hn, count_net h⟩
  · rintro ⟨hmin, h⟩
    obtain ⟨n, hn⟩ := exists_neg hmin
    refine Option.bind_eq_some_iff.2 ⟨n, hn, add_eq_some_iff.2 fun k => ?_⟩
    rw [h, count_neg hn]
    omega

theorem net_eq_none_iff :
    net b a = none ↔
      (∃ k, b.count k = -9223372036854775808) ∨ ∃ k, Machine.fits (a.count k - b.count k) = false := by
  show b.neg.bind a.add = none ↔ _
  cases hn : b.neg with
  | none => simp [neg_eq_none_iff.1 hn]
  | some n =>
    have hmin : ¬∃ k, b.count k = -9223372036854775808 := fun ⟨k, hk⟩ => count_ne_min_of_neg hn k hk
    rw [Option.bind_some, add_eq_none_iff, or_iff_right hmin]
    simp only [count_neg hn, Int.sub_eq_add_neg]

/-! ## The laws of a group -/

/-- The order of two tallies does not matter, not even for whether they have a sum. -/
protected theorem add_comm : a.add b = b.add a := by
  cases h : b.add a with
  | none =>
    obtain ⟨k, hk⟩ := add_eq_none_iff.1 h
    exact add_eq_none_iff.2 ⟨k, by rw [Int.add_comm, hk]⟩
  | some t => exact add_eq_some_iff.2 fun k => by rw [count_add h, Int.add_comm]

theorem empty_add : empty.add a = some a :=
  Tally.add_comm.trans (add_empty a)

/-- A tally and its negative cancel, and leave nothing stored. -/
theorem add_neg_cancel (h : a.neg = some t) : a.add t = some empty :=
  add_eq_some_iff.2 fun k => by rw [count_neg h, count_empty, Int.add_right_neg]

/-- Two groupings of the same three tallies agree where both have a result. -/
theorem add_assoc_of_some {x y : Tally} (hx : (a.add b).bind (·.add c) = some x)
    (hy : (b.add c).bind a.add = some y) : x = y := by
  obtain ⟨ab, hab, hx⟩ := Option.bind_eq_some_iff.1 hx
  obtain ⟨bc, hbc, hy⟩ := Option.bind_eq_some_iff.1 hy
  refine eq_of_count_eq fun k => ?_
  rw [count_add hx, count_add hab, count_add hy, count_add hbc, Int.add_assoc]

/-- **Tallies are a commutative group as far as machine integers allow.** A sum, a negative or a
difference is missing exactly when some count of it does not fit (a difference also when the negative
is missing), and otherwise counts every issue exactly. The laws of a group hold for what is stored: of
commutativity with the missing results, of associativity where neither grouping overflows. -/
theorem partial_commutative_group (a b c : Tally) :
    -- sums
    (a.add b = none ↔ ∃ k, Machine.fits (a.count k + b.count k) = false) ∧
    (∀ t, a.add b = some t ↔ ∀ k, t.count k = a.count k + b.count k) ∧
    -- negatives
    (a.neg = none ↔ ∃ k, a.count k = -9223372036854775808) ∧
    (∀ t, a.neg = some t ↔ ∀ k, t.count k = -a.count k) ∧
    -- differences
    net b a = b.neg.bind a.add ∧
    (net b a = none ↔
      (∃ k, b.count k = -9223372036854775808) ∨ ∃ k, Machine.fits (a.count k - b.count k) = false) ∧
    (∀ t, net b a = some t → ∀ k, t.count k = a.count k - b.count k) ∧
    -- laws
    a.add b = b.add a ∧
    a.add ∅ = some a ∧ Tally.add ∅ a = some a ∧
    (∀ t, a.neg = some t → a.add t = some ∅) ∧
    (∀ x y, (a.add b).bind (·.add c) = some x → (b.add c).bind a.add = some y → x = y) :=
  ⟨add_eq_none_iff, fun _ => add_eq_some_iff, neg_eq_none_iff, fun _ => neg_eq_some_iff, rfl,
    net_eq_none_iff, fun _ => count_net, Tally.add_comm, add_empty a, empty_add, fun _ => add_neg_cancel,
    fun _ _ => add_assoc_of_some⟩

/-- At the brim the grouping matters: the greatest count takes no more, but it takes one more and one
less once these two have cancelled. -/
theorem partial_commutative_group_of_brim :
    ∃ brim more less : Tally,
      ofCounts [(default, 9223372036854775807)] = some brim ∧ ofCounts [(default, 1)] = some more ∧
      more.neg = some less ∧ more.add less = some ∅ ∧
      (brim.add more).bind (·.add less) = none ∧ (more.add less).bind brim.add = some brim := by
  obtain ⟨brim, hbrim⟩ : ∃ t, ofCounts [(default, 9223372036854775807)] = some t := ⟨_, rfl⟩
  obtain ⟨more, hmore⟩ : ∃ t, ofCounts [(default, 1)] = some t := ⟨_, rfl⟩
  have hover : Machine.fits (brim.count default + more.count default) = false := by
    rw [count_bumpAll hbrim, count_bumpAll hmore]
    decide
  obtain ⟨less, hless⟩ : ∃ t, more.neg = some t := by
    cases hmore
    exact ⟨_, rfl⟩
  obtain ⟨hnone, -, -, -, -, -, -, -, -, -, -, -⟩ := partial_commutative_group brim more less
  obtain ⟨-, -, -, -, -, -, -, -, -, -, hcancel, -⟩ := partial_commutative_group more brim less
  have hzero : more.add less = some ∅ := hcancel less hless
  refine ⟨brim, more, less, hbrim, hmore, hless, hzero, ?_, ?_⟩
  · rw [hnone.2 ⟨default, hover⟩, Option.bind_none]
  · rw [hzero]
    rfl

end Tally

end LintDelta
