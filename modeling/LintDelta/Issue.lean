import LintDelta.Category

/-!
# Issues

An issue is a kind of finding: its symbol, the linter that reports it and its category. Two findings
are of one kind only if all three agree.

Main statements: the order of issues is total, and issues that it does not tell apart are equal.
-/

namespace LintDelta

/-- A kind of finding. -/
structure Issue where
  symbol : String
  linter : String
  category : Category
  deriving DecidableEq, Repr, Inhabited

namespace Issue

/-- A name as a symbol: trimmed, with dashes for spaces and slashes. -/
def normalizeSymbol (native : String) : String :=
  String.ofList ((Text.trimChars native.toList).map fun c => if c = ' ' || c = '/' then '-' else c)

/-- The issue that a tool reports under a native name. -/
def ofNative (native linter : String) (category : Category) : Issue :=
  ⟨normalizeSymbol native, linter, category⟩

/-- Issues are ordered by symbol, then linter, then category. -/
instance : Ord Issue where
  compare a b :=
    (compare a.symbol b.symbol).then
      ((compare a.linter b.linter).then (compare a.category b.category))

def describe (i : Issue) : String :=
  i.symbol ++ " (" ++ i.linter ++ "): " ++ i.category.describe.2

/-! ## Laws -/

/-- A symbol holds neither spaces nor slashes. -/
theorem ne_of_mem_normalizeSymbol {native : String} {c : Char}
    (h : c ∈ (normalizeSymbol native).toList) : c ≠ ' ' ∧ c ≠ '/' := by
  rw [normalizeSymbol, String.toList_ofList] at h
  obtain ⟨d, -, rfl⟩ := List.mem_map.1 h
  split
  · decide
  · next hd => simpa using hd

instance : Std.TransOrd Issue :=
  inferInstanceAs (Std.TransCmp (compareLex (compareOn symbol)
    (compareLex (compareOn linter) (compareOn category))))

instance : Std.LawfulEqOrd Issue where
  compare_self := Std.ReflCmp.compare_self
  eq_of_compare {a b} h := by
    obtain ⟨hs, h⟩ := Ordering.then_eq_eq.1 h
    obtain ⟨hl, hc⟩ := Ordering.then_eq_eq.1 h
    cases a; cases b; congr
    · exact Std.LawfulEqOrd.eq_of_compare hs
    · exact Std.LawfulEqOrd.eq_of_compare hl
    · exact Std.LawfulEqOrd.eq_of_compare hc

end Issue

end LintDelta
