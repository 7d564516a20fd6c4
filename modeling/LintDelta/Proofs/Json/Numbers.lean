import Mathlib.Order.Nat
import LintDelta.Json.Lexeme
import LintDelta.Json.Skip

/-!
# Numbers

The digits of a number are read back as long as no other digit follows them, and the reader of numbers takes every
64-bit integer, signed or not, as it was written (`numeral_toString`). A number of any size is passed over
(`skipMagnitude_append`).
-/

namespace LintDelta.Json

/-! ## Integers -/

/-- What may stand behind a value: white space, a comma, a closing bracket, or nothing. -/
def AfterValue : List Char → Prop
  | [] => True
  | c :: _ => isSpace c = true ∨ c = ',' ∨ c = ']' ∨ c = '}'

/-- No number goes on there. -/
theorem AfterValue.ne {c : Char} {rest : List Char} (h : AfterValue (c :: rest)) :
    isDigit c = false ∧ c ≠ '.' ∧ c ≠ 'e' ∧ c ≠ 'E' := by
  rcases h with hspace | rfl | rfl | rfl
  · simp only [isSpace, Bool.or_eq_true, beq_iff_eq] at hspace
    rcases hspace with ((rfl | rfl) | rfl) | rfl <;> decide
  all_goals decide

theorem le_ofDigitChars (ds : List Char) (n : Nat) : n ≤ Nat.ofDigitChars 10 ds n := by
  induction ds generalizing n with
  | nil => exact Nat.le_of_eq Nat.ofDigitChars_nil.symm
  | cons d ds ih =>
    rw [Nat.ofDigitChars_cons]
    have := ih (10 * n + (d.toNat - '0'.toNat))
    omega

/-- Digits are all taken if the number that they make is within the limit, by induction on them. -/
theorem accumulate_digits {limit : Nat} {ds rest : List Char} (hds : ∀ d ∈ ds, isDigit d = true)
    (hrest : AfterValue rest) {n : Nat} (hlimit : Nat.ofDigitChars 10 ds n ≤ limit) (count : Nat) :
    accumulate limit n count (ds ++ rest) = (Nat.ofDigitChars 10 ds n, count + ds.length, rest) := by
  induction ds generalizing n count with
  | nil =>
    cases rest with
    | nil => simp [accumulate]
    | cons c rest => simp [accumulate, hrest.ne.1]
  | cons d ds ih =>
    have hd := hds d List.mem_cons_self
    have hvalue : n * 10 + digitValue d = 10 * n + (d.toNat - '0'.toNat) := by
      rw [digitValue, Nat.mul_comm]
      rfl
    rw [Nat.ofDigitChars_cons] at hlimit ⊢
    have hle := le_ofDigitChars ds (10 * n + (d.toNat - '0'.toNat))
    rw [List.cons_append, accumulate, hvalue, hd, Bool.true_and, if_pos (decide_eq_true (hle.trans hlimit)),
      ih (fun d' hd' => hds d' (List.mem_cons_of_mem d hd')) hlimit, List.length_cons, Nat.add_assoc,
      Nat.add_comm 1]

/-- The digits of a positive number start with one that is not zero. -/
theorem exists_toDigits_eq_cons {n : Nat} (h : 0 < n) : ∃ d ds, Nat.toDigits 10 n = d :: ds ∧ d ≠ '0' := by
  induction n using Nat.strong_induction_on with
  | _ n ih =>
    by_cases hlt : n < 10
    · exact ⟨_, [], Nat.toDigits_of_lt_base hlt, by simpa using Nat.ne_of_gt h⟩
    · obtain ⟨d, ds, heq, hd⟩ := ih (n / 10) (by omega) (by omega)
      exact ⟨d, _, by rw [Nat.toDigits_of_base_le (by decide) (Nat.not_lt.1 hlt), heq]; rfl, hd⟩

theorem isDigit_of_mem_toDigits {n : Nat} {d : Char} (h : d ∈ Nat.toDigits 10 n) : isDigit d = true :=
  Nat.isDigit_of_mem_toDigits (by decide) (by decide) h

theorem afterInteger_of_afterValue {rest : List Char} (h : AfterValue rest) (negative : Bool) (n : Nat) :
    afterInteger negative n rest = wholeNumber negative n rest := by
  cases rest with
  | nil => rfl
  | cons c rest =>
    obtain ⟨-, hpoint, he, hE⟩ := h.ne
    unfold afterInteger
    split
    · next heq => cases heq; exact absurd rfl hpoint
    · next heq => cases heq; exact absurd rfl he
    · next heq => cases heq; exact absurd rfl hE
    · rfl

theorem magnitude_toDigits {n : Nat} (hn : n ≤ maxWord) {rest : List Char} (h : AfterValue rest) (negative : Bool) :
    magnitude negative (Nat.toDigits 10 n ++ rest) = wholeNumber negative n rest := by
  rcases Nat.eq_zero_or_pos n with rfl | hpos
  · rw [Nat.toDigits_zero, List.singleton_append]
    cases rest with
    | nil => exact afterInteger_of_afterValue h negative 0
    | cons c rest =>
      show (if isDigit c then _ else afterInteger negative 0 (c :: rest)) = _
      rw [h.ne.1]
      exact afterInteger_of_afterValue h negative 0
  · obtain ⟨d, ds, heq, hd⟩ := exists_toDigits_eq_cons hpos
    have hdigits : ∀ d' ∈ d :: ds, isDigit d' = true := fun d' hd' => isDigit_of_mem_toDigits (heq ▸ hd')
    have hvalue : Nat.ofDigitChars 10 ds (digitValue d) = n := by
      have := Nat.ofDigitChars_ten_toDigits (n := n)
      rw [heq, Nat.ofDigitChars_cons, Nat.mul_zero, Nat.zero_add] at this
      exact this
    have hall := accumulate_digits (fun d' hd' => hdigits d' (List.mem_cons_of_mem d hd')) h
      (Nat.le_trans (Nat.le_of_eq hvalue) hn) 0
    rw [heq, List.cons_append, magnitude, if_pos (hdigits d List.mem_cons_self), hall, hvalue]
    · cases rest with
      | nil => exact afterInteger_of_afterValue h negative n
      | cons c rest =>
        dsimp only
        rw [h.ne.1]
        exact afterInteger_of_afterValue h negative n
    · exact hd

theorem numeral_toDigits (n : Nat) (rest : List Char) :
    numeral (Nat.toDigits 10 n ++ rest) = magnitude false (Nat.toDigits 10 n ++ rest) := by
  obtain ⟨d, ds, hds⟩ := List.exists_cons_of_ne_nil (Nat.toDigits_ne_nil (n := n) (b := 10))
  have hd : isDigit d = true := isDigit_of_mem_toDigits (n := n) (hds ▸ List.mem_cons_self)
  rw [hds, List.cons_append, numeral]
  rintro _ heq
  cases heq
  exact absurd hd (by decide)

/-- **An integer is read back**, if it fits 64 bits with or without a sign. -/
theorem numeral_toString {n : Int} (hmin : -9223372036854775808 ≤ n) (hmax : n ≤ 18446744073709551615)
    {rest : List Char} (h : AfterValue rest) : numeral ((toString n).toList ++ rest) = .ok (.integer n, rest) := by
  rw [Int.toString_eq_repr, Int.repr_eq_if]
  split
  · next hpos =>
    have hn : n.toNat ≤ maxWord := by
      unfold maxWord
      omega
    rw [Nat.toList_repr, numeral_toDigits, magnitude_toDigits hn h, wholeNumber, Bool.not_false, if_pos rfl,
      Int.toNat_of_nonneg hpos]
  · next hneg =>
    have hn : (-n).toNat ≤ 9223372036854775808 := by omega
    have hmaxWord : (-n).toNat ≤ maxWord := hn.trans (by decide)
    rw [String.toList_append, Nat.toList_repr]
    show magnitude true (Nat.toDigits 10 (-n).toNat ++ rest) = _
    rw [magnitude_toDigits hmaxWord h, wholeNumber, if_neg (by decide), if_neg (by omega)]
    congr 3
    omega

/-! ## Numbers of any size -/

/-- At least one digit. -/
def Digits (ds : List Char) : Prop := ds ≠ [] ∧ ∀ d ∈ ds, isDigit d = true

/-- The digits before the point: no zero stands in front of another digit. -/
inductive Whole : List Char → Prop
  | zero : Whole ['0']
  | digits {d : Char} {ds : List Char} (hne : d ≠ '0') (h : ∀ c ∈ d :: ds, isDigit c = true) : Whole (d :: ds)

inductive Fraction : List Char → Prop
  | none : Fraction []
  | digits {ds : List Char} (h : Digits ds) : Fraction ('.' :: ds)

inductive Exponent : List Char → Prop
  | none : Exponent []
  | digits {e : Char} {sign ds : List Char} (he : e = 'e' ∨ e = 'E') (hsign : sign = [] ∨ sign = ['+'] ∨ sign = ['-'])
    (h : Digits ds) : Exponent (e :: (sign ++ ds))

/-- A number without its sign. -/
inductive Magnitude : List Char → Prop
  | mk {whole fraction exponent : List Char} (hwhole : Whole whole) (hfraction : Fraction fraction)
    (hexponent : Exponent exponent) : Magnitude (whole ++ (fraction ++ exponent))

theorem Magnitude.exists_cons {cs : List Char} (h : Magnitude cs) : ∃ d ds, cs = d :: ds ∧ isDigit d = true := by
  obtain ⟨hwhole, -, -⟩ := h
  cases hwhole with
  | zero => exact ⟨_, _, rfl, by decide⟩
  | digits hne h => exact ⟨_, _, rfl, h _ List.mem_cons_self⟩

/-- No digit goes on there. -/
def AfterDigits : List Char → Prop
  | [] => True
  | c :: _ => isDigit c = false

theorem skipDigits_append {ds rest : List Char} (h : Digits ds) (hrest : AfterDigits rest) :
    skipDigits (ds ++ rest) = .ok rest := by
  obtain ⟨hne, hdigits⟩ := h
  obtain ⟨d, ds, rfl⟩ := List.exists_cons_of_ne_nil hne
  have hdrop : (ds ++ rest).dropWhile isDigit = rest := by
    rw [List.dropWhile_append_of_pos fun c hc => hdigits c (List.mem_cons_of_mem d hc)]
    cases rest with
    | nil => rfl
    | cons c rest => exact List.dropWhile_cons_of_neg (Bool.eq_false_iff.1 hrest)
  rw [List.cons_append, skipDigits, if_pos (hdigits d List.mem_cons_self), hdrop]

theorem AfterValue.afterDigits {rest : List Char} (h : AfterValue rest) : AfterDigits rest := by
  cases rest with
  | nil => trivial
  | cons c rest => exact h.ne.1

theorem skipExponent_of_digit {ds : List Char} (h : Digits ds) (rest : List Char) :
    skipExponent (ds ++ rest) = skipDigits (ds ++ rest) := by
  obtain ⟨hne, hdigits⟩ := h
  obtain ⟨d, ds, rfl⟩ := List.exists_cons_of_ne_nil hne
  have hd := hdigits d List.mem_cons_self
  rw [List.cons_append, skipExponent]
  · rintro more heq
    cases heq
    cases hd
  · rintro more heq
    cases heq
    cases hd

theorem skipOptionalExponent_append {exponent rest : List Char} (h : Exponent exponent) (hrest : AfterValue rest) :
    skipOptionalExponent (exponent ++ rest) = .ok rest := by
  cases h with
  | none =>
    cases rest with
    | nil => rfl
    | cons c rest =>
      obtain ⟨-, -, he, hE⟩ := hrest.ne
      simp [skipOptionalExponent, he, hE]
  | @digits e sign ds he hsign hds =>
    have hskip : skipOptionalExponent (e :: (sign ++ ds ++ rest)) = skipExponent (sign ++ ds ++ rest) := by
      rcases he with rfl | rfl <;> rfl
    have hall := skipDigits_append hds hrest.afterDigits
    rw [List.cons_append, hskip]
    rcases hsign with rfl | rfl | rfl
    · rw [List.nil_append, skipExponent_of_digit hds, hall]
    · exact hall
    · exact hall

theorem afterDigits_exponent {exponent rest : List Char} (h : Exponent exponent) (hrest : AfterValue rest) :
    AfterDigits (exponent ++ rest) := by
  cases h with
  | none => exact hrest.afterDigits
  | digits he => rcases he with rfl | rfl <;> rfl

theorem afterDigits_fraction {fraction cs : List Char} (h : Fraction fraction) (hcs : AfterDigits cs) :
    AfterDigits (fraction ++ cs) := by
  cases h with
  | none => exact hcs
  | digits => rfl

/-- What follows the digits before the point is passed over. -/
def skipDecimals (cs : List Char) : Except Error (List Char) :=
  match cs with
  | '.' :: rest => do skipOptionalExponent (← skipDigits rest)
  | _ => skipOptionalExponent cs

theorem skipDecimals_append {fraction exponent rest : List Char} (hfraction : Fraction fraction)
    (hexponent : Exponent exponent) (hrest : AfterValue rest) :
    skipDecimals (fraction ++ (exponent ++ rest)) = .ok rest := by
  have hend := skipOptionalExponent_append hexponent hrest
  cases hfraction with
  | digits hds =>
    rw [List.cons_append, skipDecimals, skipDigits_append hds (afterDigits_exponent hexponent hrest)]
    exact hend
  | none =>
    rw [List.nil_append, skipDecimals]
    · exact hend
    · -- neither an exponent nor what follows a number starts with a point
      cases hexponent with
      | none =>
        rintro more rfl
        exact absurd rfl hrest.ne.2.1
      | digits he =>
        rintro more heq
        cases heq
        rcases he with he | he <;> cases he

/-- **Every number is passed over**, of whatever size. -/
theorem skipMagnitude_append {cs rest : List Char} (h : Magnitude cs) (hrest : AfterValue rest) :
    skipMagnitude (cs ++ rest) = .ok rest := by
  obtain ⟨hwhole, hfraction, hexponent⟩ := h
  rename_i whole fraction exponent
  have hend := skipDecimals_append hfraction hexponent hrest
  have hdigits := afterDigits_fraction hfraction (afterDigits_exponent hexponent hrest)
  simp only [List.append_assoc]
  generalize fraction ++ (exponent ++ rest) = more at hend hdigits
  cases hwhole with
  | zero =>
    cases more with
    | nil => exact hend
    | cons c more =>
      have hc : ¬isDigit c = true := Bool.eq_false_iff.1 hdigits
      rw [List.cons_append, List.nil_append, skipMagnitude]
      simp only [if_neg hc]
      exact hend
  | @digits d ds hne hds =>
    have hall : Digits (d :: ds) := ⟨List.cons_ne_nil d ds, hds⟩
    have hskip := skipDigits_append hall hdigits
    rw [skipMagnitude]
    · simp only [hskip]
      exact hend
    · rintro c rest heq
      exact hne (List.cons.inj heq).1
    · rintro heq
      exact hne (List.cons.inj heq).1

end LintDelta.Json
