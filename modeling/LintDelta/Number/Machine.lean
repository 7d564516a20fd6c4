/-!
# Machine integers

Counts are 64-bit integers. They are modelled as unbounded integers together with a check after
every operation: an operation whose exact result does not fit has no result.
-/

namespace LintDelta.Machine

/-- Whether an integer fits a signed 64-bit word. -/
def fits (n : Int) : Bool :=
  -9223372036854775808 ≤ n && n ≤ 9223372036854775807

def check (n : Int) : Option Int :=
  if fits n then some n else none

def add (a b : Int) : Option Int := check (a + b)

def sub (a b : Int) : Option Int := check (a - b)

/-- The next unsigned 64-bit word. -/
def next (n : Nat) : Option Nat :=
  if n + 1 < 18446744073709551616 then some (n + 1) else none

theorem check_eq_some_iff {n m : Int} : check n = some m ↔ fits n = true ∧ n = m := by
  simp [check]

theorem check_eq_none_iff {n : Int} : check n = none ↔ fits n = false := by
  simp [check]

end LintDelta.Machine
