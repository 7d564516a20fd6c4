/-!
# Double precision numbers

A finite double is a sign, a significand below `2 ^ 53` and a binary exponent. Reading rounds an
exact quotient to the nearest double, a tie to the even significand (`ofRatio`); writing gives the
fewest decimal digits that read back as the same double (`digits`), and `text` lays them out.
-/

namespace LintDelta

/-- A finite double: `significand * 2 ^ exponent`, negated if `negative`. -/
structure Binary64 where
  negative : Bool
  significand : Nat
  exponent : Int
  deriving DecidableEq, Repr

namespace Binary64

/-- The exponent of the smallest doubles. -/
def minExponent : Int := -1074

/-- The exponent of the largest doubles. -/
def maxExponent : Int := 971

def zero (negative : Bool) : Binary64 := ⟨negative, 0, minExponent⟩

def twoPow (n : Nat) : Nat := Nat.pow 2 n

def tenPow (n : Nat) : Nat := Nat.pow 10 n

/-- Numerator and denominator of `num / den` counted in units of `2 ^ e`. -/
def inUnits (num den : Nat) (e : Int) : Nat × Nat :=
  if 0 ≤ e then (num, den * twoPow e.toNat) else (num * twoPow (-e).toNat, den)

/-- A quotient rounded to the nearest natural number, a tie to the even one. -/
def roundQuotient (num den : Nat) : Nat :=
  let q := num / den
  let r := num % den
  if den < 2 * r || (2 * r == den && q % 2 == 1) then q + 1 else q

/-- The double nearest to a positive quotient, or `none` past the largest one. -/
def ofRatio (negative : Bool) (num den : Nat) : Option Binary64 :=
  if num = 0 then some (zero negative)
  else
    let size : Int := (Nat.log2 num : Int) - Nat.log2 den
    let low := max (size - 53) minExponent
    let (n, d) := inUnits num den low
    -- in units of `2 ^ low` the quotient may have one bit more than a significand
    let e := if twoPow 53 ≤ n / d then low + 1 else low
    let (n, d) := inUnits num den e
    let m := roundQuotient n d
    -- rounding up can carry into a new bit
    let (m, e) := if m = twoPow 53 then (twoPow 52, e + 1) else (m, e)
    if maxExponent < e then none else some ⟨negative, m, e⟩

def ratio (x : Binary64) : Nat × Nat :=
  if 0 ≤ x.exponent then (x.significand * twoPow x.exponent.toNat, 1)
  else (x.significand, twoPow (-x.exponent).toNat)

def neg (x : Binary64) : Binary64 := { x with negative := !x.negative }

def isZero (x : Binary64) : Bool := x.significand == 0

def ofNat (n : Nat) : Option Binary64 := ofRatio false n 1

/-- The rounded product of magnitudes. -/
def mul (x y : Binary64) : Option Binary64 :=
  let (a, b) := x.ratio
  let (c, d) := y.ratio
  ofRatio false (a * c) (b * d)

def div (x y : Binary64) : Option Binary64 :=
  let (a, b) := x.ratio
  let (c, d) := y.ratio
  ofRatio false (a * d) (b * c)

/-! ## Reading scaled decimals -/

/-- The doubles nearest to the powers of ten; the largest has exponent 308. -/
def powerOfTen (n : Nat) : Option Binary64 := ofRatio false (tenPow n) 1

/-- `significand * 10 ^ exponent` with one rounding for the significand and one for each scaling
step; a power of ten past `10 ^ 308` is applied in several steps. `none` means that the number lies
past the largest double. -/
def ofScaled (significand : Nat) (exponent : Int) : Option Binary64 := do
  let x ← ofNat significand
  if x.isZero then return x
  if 308 < exponent then none
  else if 0 ≤ exponent then x.mul (← powerOfTen exponent.toNat)
  else scaleDown (exponent.natAbs / 308 + 1) x exponent.natAbs
where
  /-- Divides by `10 ^ n`, in steps of at most `10 ^ 308`. -/
  scaleDown : Nat → Binary64 → Nat → Option Binary64
  | 0, x, _ => some x
  | steps + 1, x, n => do
    if x.isZero then return x
    if n ≤ 308 then x.div (← powerOfTen n)
    else scaleDown steps (← x.div (← powerOfTen 308)) (n - 308)

/-! ## Shortest digits -/

/-- The ends of the interval of reals that round to a double, as numerators over a common
denominator, with the double itself between them. -/
def interval (x : Binary64) : Nat × Nat × Nat × Nat :=
  let m := 4 * x.significand
  -- below a power of two the doubles lie closer together
  let down := if x.significand = twoPow 52 && minExponent < x.exponent then 1 else 2
  let e := x.exponent - 2
  if 0 ≤ e then
    let u := twoPow e.toNat
    ((m - down) * u, m * u, (m + 2) * u, 1)
  else (m - down, m, m + 2, twoPow (-e).toNat)

/-- The decimal exponent of a positive quotient: the greatest `p` with `10 ^ p ≤ num / den`. -/
def decimalExponent (num den : Nat) : Int :=
  if den ≤ num then (Nat.toDigits 10 (num / den)).length - 1
  else
    let k := (Nat.toDigits 10 (den / num)).length
    if den ≤ num * tenPow (k - 1) then -((k : Int) - 1) else -(k : Int)

def gridPoint (d : Nat) (unit : Int) : Nat × Nat :=
  if 0 ≤ unit then (d * tenPow unit.toNat, 1) else (d, tenPow (-unit).toNat)

/-- The neighbour of a double on the grid of step `10 ^ unit` that reads back as the double, the
nearer one where both do. -/
def onGrid (x : Binary64) (unit : Int) : Option Nat :=
  let (lo, v, hi, den) := x.interval
  let d := if 0 ≤ unit then v / (den * tenPow unit.toNat) else v * tenPow (-unit).toNat / den
  -- a tie goes to the even significand, so the ends of the interval belong to it
  let even := x.significand % 2 == 0
  let readsBack := fun (p, q) =>
    if even then lo * q ≤ p * den && p * den ≤ hi * q else lo * q < p * den && p * den < hi * q
  let below := gridPoint d unit
  let above := gridPoint (d + 1) unit
  match readsBack below, readsBack above with
  | true, true =>
    let toBelow := v * below.2 - below.1 * den
    let toAbove := above.1 * den - v * above.2
    if toAbove < toBelow || (toAbove == toBelow && d % 2 == 1) then some (d + 1) else some d
  | true, false => some d
  | false, true => some (d + 1)
  | false, false => none

/-- The first grid, from `count` digits on, that holds a decimal for the double. -/
def digitsFrom (x : Binary64) (first : Int) : Nat → Nat → Nat × Int
  | _, 0 => (0, 0)
  | count, tries + 1 =>
    let unit := first + 1 - count
    match x.onGrid unit with
    | some d => (d, unit)
    | none => digitsFrom x first (count + 1) tries

/-- The fewest digits that read back as a positive double, as an integer and a power of ten. -/
def digits (x : Binary64) : Nat × Int :=
  let (num, den) := x.ratio
  digitsFrom x (decimalExponent num den) 1 17

/-! ## Text -/

def dropTrailingZeros (ds : List Char) : List Char :=
  (ds.reverse.dropWhile (· == '0')).reverse

/-- The text of a double: the shortest digits, positional from `10 ^ -5` up to `10 ^ 16` and always
with a point there, and otherwise with a signed exponent of at least two digits. -/
def text (x : Binary64) : String :=
  let sign := if x.negative then "-" else ""
  if x.isZero then sign ++ "0.0"
  else
    let (d, unit) := x.digits
    let all := Nat.toDigits 10 d
    let ds := dropTrailingZeros all
    let point : Int := unit + all.length
    let zeros := fun (n : Nat) => List.replicate n '0'
    if -5 < point && point ≤ 0 then
      sign ++ "0." ++ String.ofList (zeros (-point).toNat ++ ds)
    else if 0 < point && point ≤ 16 then
      let n := point.toNat
      if ds.length ≤ n then sign ++ String.ofList (ds ++ zeros (n - ds.length)) ++ ".0"
      else sign ++ String.ofList (ds.take n) ++ "." ++ String.ofList (ds.drop n)
    else
      let e := point - 1
      let size := toString e.natAbs
      let mantissa := match ds with
        | first :: rest@(_ :: _) => String.ofList (first :: '.' :: rest)
        | _ => String.ofList ds
      sign ++ mantissa ++ (if e < 0 then "e-" else "e+") ++
        (if size.length < 2 then "0" ++ size else size)

end Binary64

end LintDelta
