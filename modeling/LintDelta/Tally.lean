import LintDelta.Issue
import LintDelta.Number.Machine
import LintDelta.OrderedMap

/-!
# Tallies

A tally counts issues: the issues whose count is not zero, in order, each with its count. Tallies
add up issue by issue, so the counts of files make up the counts of a commit. Counts are machine
integers, and an operation whose exact result does not fit has no result (`none`).

Main statements: what a count is after one count was put, and that tallies which count alike are
equal.
-/

namespace LintDelta

/-- The counts that a tally may hold: ordered, machine integers, and none of them zero. -/
structure Tally.Canonical (counts : OrderedMap Issue Int) : Prop where
  ordered : counts.Ordered
  fits : ∀ b ∈ counts.bindings, Machine.fits b.2 = true
  ne_zero : ∀ b ∈ counts.bindings, b.2 ≠ 0

/-- How often each issue occurs. -/
structure Tally where
  counts : OrderedMap Issue Int
  canonical : Tally.Canonical counts
  deriving DecidableEq, Repr

namespace Tally

namespace Canonical

theorem empty : Canonical OrderedMap.empty :=
  ⟨OrderedMap.ordered_empty, nofun, nofun⟩

theorem insert {m : OrderedMap Issue Int} (h : Canonical m) (i : Issue) {n : Int}
    (hn : Machine.fits n = true) (h0 : n ≠ 0) : Canonical (m.insert i n) where
  ordered := OrderedMap.ordered_insert h.ordered i n
  fits b hb := by
    rcases OrderedMap.mem_put hb with rfl | hb
    · exact hn
    · exact h.fits b hb
  ne_zero b hb := by
    rcases OrderedMap.mem_put hb with rfl | hb
    · exact h0
    · exact h.ne_zero b hb

theorem erase {m : OrderedMap Issue Int} (h : Canonical m) (i : Issue) : Canonical (m.erase i) where
  ordered := OrderedMap.ordered_erase h.ordered i
  fits b hb := h.fits b (OrderedMap.mem_of_mem_drop hb)
  ne_zero b hb := h.ne_zero b (OrderedMap.mem_of_mem_drop hb)

theorem neg {m : OrderedMap Issue Int} (h : Canonical m)
    (hn : ∀ b ∈ m.bindings, Machine.fits (-b.2) = true) : Canonical (m.map (- ·)) where
  ordered := OrderedMap.ordered_map h.ordered _
  fits b hb := by
    obtain ⟨a, ha, rfl⟩ := List.mem_map.1 hb
    exact hn a ha
  ne_zero b hb := by
    obtain ⟨a, ha, rfl⟩ := List.mem_map.1 hb
    have := h.ne_zero a ha
    show -a.2 ≠ 0
    omega

end Canonical

def empty : Tally := ⟨OrderedMap.empty, .empty⟩

instance : EmptyCollection Tally := ⟨empty⟩

def entries (t : Tally) : List (Issue × Int) := t.counts.bindings

def count (t : Tally) (i : Issue) : Int := (t.counts.find? i).getD 0

def isEmpty (t : Tally) : Bool := t.entries.isEmpty

def size (t : Tally) : Nat := t.entries.length

def issues (t : Tally) : List Issue := t.counts.keys

/-- Puts the count of an issue, if it is a machine integer; a count of zero is dropped. -/
def put (t : Tally) (i : Issue) (n : Int) : Option Tally :=
  if hn : Machine.fits n = true then
    if h0 : n = 0 then some ⟨t.counts.erase i, t.canonical.erase i⟩
    else some ⟨t.counts.insert i n, t.canonical.insert i hn h0⟩
  else none

def bump (t : Tally) (i : Issue) (delta : Int) : Option Tally :=
  if delta = 0 then some t else t.put i (t.count i + delta)

def bumpAll (t : Tally) (counts : List (Issue × Int)) : Option Tally :=
  counts.foldlM (fun t (i, n) => t.bump i n) t

def ofCounts (counts : List (Issue × Int)) : Option Tally :=
  empty.bumpAll counts

/-- The tally of occurrences, each counted once. -/
def ofIssues (issues : List Issue) : Option Tally :=
  ofCounts (issues.map fun i => (i, 1))

def add (a b : Tally) : Option Tally :=
  a.bumpAll b.entries

def neg (t : Tally) : Option Tally :=
  if h : ∀ b ∈ t.entries, Machine.fits (-b.2) = true then some ⟨t.counts.map (- ·), t.canonical.neg h⟩
  else none

/-- What has to be added to `pre` to get `post`. -/
def net (pre post : Tally) : Option Tally := do
  -- `pre` is negated first, which the least count does not allow whatever `post` is
  post.add (← pre.neg)

def sum (ts : List Tally) : Option Tally :=
  ts.foldlM add empty

/-- The sum of all counts, in the order of the issues. -/
def total (t : Tally) : Option Int :=
  t.entries.foldlM (fun sum (_, n) => Machine.add sum n) 0

/-! ## Comparing two tallies -/

/-- The count of an issue before and after a change. -/
structure Movement where
  issue : Issue
  pre : Int
  post : Int
  deriving DecidableEq, Repr

def Movement.net (m : Movement) : Option Int := Machine.sub m.post m.pre

def Movement.isImprovement (m : Movement) : Bool := m.post < m.pre

/-- The counts of every issue of either tally, before and after, in order. -/
def compare (pre post : Tally) : List Movement :=
  (OrderedMap.distinct (pre.issues ++ post.issues)).map fun i => ⟨i, pre.count i, post.count i⟩

/-! ## Laws -/

theorem count_empty (i : Issue) : empty.count i = 0 := rfl

theorem add_empty (t : Tally) : t.add empty = some t := rfl

theorem count_put {t t' : Tally} {i : Issue} {n : Int} (h : t.put i n = some t') (k : Issue) :
    t'.count k = if k = i then n else t.count k := by
  unfold put at h
  split at h
  · split at h <;> cases h <;> by_cases hk : k = i
    · subst hk
      simp [count, *, OrderedMap.find?_erase_self t.canonical.ordered]
    · simp [count, hk, OrderedMap.find?_erase_of_ne t.canonical.ordered hk]
    · subst hk
      simp [count, OrderedMap.find?_insert_self]
    · simp [count, hk, OrderedMap.find?_insert_of_ne t.counts n hk]
  · cases h

theorem put_eq_none_iff {t : Tally} {i : Issue} {n : Int} :
    t.put i n = none ↔ Machine.fits n = false := by
  unfold put
  split
  · split <;> simp_all
  · simp_all

/-- Counts that are stored are not zero, so a count of zero means that an issue is not stored. -/
theorem count_ne_zero_of_find? {t : Tally} {i : Issue} {n : Int} (h : t.counts.find? i = some n) :
    t.count i = n ∧ n ≠ 0 :=
  ⟨by simp [count, h], t.canonical.ne_zero (i, n) (OrderedMap.mem_of_find? h)⟩

theorem find?_counts (t : Tally) (i : Issue) :
    t.counts.find? i = if t.count i = 0 then none else some (t.count i) := by
  cases h : t.counts.find? i with
  | none => simp [count, h]
  | some n =>
    obtain ⟨hc, h0⟩ := count_ne_zero_of_find? h
    simp [hc, h0]

/-- Tallies that count alike are equal. -/
theorem eq_of_count_eq {a b : Tally} (h : ∀ i, a.count i = b.count i) : a = b := by
  have hm : a.counts = b.counts :=
    OrderedMap.eq_of_find?_eq a.canonical.ordered b.canonical.ordered fun i => by
      rw [find?_counts, find?_counts, h i]
  cases a
  cases b
  simpa using hm

end Tally

end LintDelta
