import LintDelta.Json.Error
import LintDelta.Text.Blank

/-!
# Lexemes of JSON

Readers for white space, words, texts and numbers. A reader takes the characters that are left and
gives the value with what is left after it, or the first error.
-/

namespace LintDelta.Json

/-- Reads a value off the front of the characters. -/
abbrev Reader (α : Type) := List Char → Except Error (α × List Char)

def isSpace (c : Char) : Bool :=
  c == ' ' || c == '\n' || c == '\t' || c == '\r'

def skipSpace (cs : List Char) : List Char :=
  cs.dropWhile isSpace

/-- The rest of a word whose first letter was seen. -/
def word : List Char → List Char → Except Error (List Char)
  | [], cs => .ok cs
  | _ :: _, [] => .error .endInValue
  | w :: ws, c :: cs => if w = c then word ws cs else .error .badWord

/-! ## Texts -/

def hexValue (c : Char) : Option Nat :=
  if '0' ≤ c && c ≤ '9' then some (c.toNat - 48)
  else if 'a' ≤ c && c ≤ 'f' then some (c.toNat - 87)
  else if 'A' ≤ c && c ≤ 'F' then some (c.toNat - 55)
  else none

def byteCount (cs : List Char) : Nat :=
  cs.foldl (fun n c => n + c.utf8Size) 0

/-- The four digits of an escape by code unit. -/
def codeUnit : Reader Nat
  | a :: b :: c :: d :: rest =>
    match hexValue a, hexValue b, hexValue c, hexValue d with
    | some a, some b, some c, some d => .ok (a * 4096 + b * 256 + c * 16 + d, rest)
    | _, _, _, _ => .error .badEscape
  | cs => .error (if byteCount cs < 4 then .endInText else .badEscape)

/-- The character that an escape `\u` stands for; one past U+FFFF takes a second escape. -/
def escapedUnit : Reader Char := fun cs => do
  let (n, rest) ← codeUnit cs
  if 0xDC00 ≤ n ∧ n ≤ 0xDFFF then throw .loneSurrogate
  if n < 0xD800 ∨ 0xDBFF < n then return (Char.ofNat n, rest)
  -- the other half of the pair must follow at once
  match rest with
  | [] => throw .endInText
  | '\\' :: [] => throw .endInText
  | '\\' :: 'u' :: rest =>
    let (low, rest) ← codeUnit rest
    if low < 0xDC00 ∨ 0xDFFF < low then throw .loneSurrogate
    return (Char.ofNat ((n - 0xD800) * 0x400 + (low - 0xDC00) + 0x10000), rest)
  | _ => throw .cutEscape

def shortEscape (c : Char) : Option Char :=
  match c with
  | '"' => some '"'
  | '\\' => some '\\'
  | '/' => some '/'
  | 'b' => some (Char.ofNat 8)
  | 'f' => some (Char.ofNat 12)
  | 'n' => some '\n'
  | 'r' => some '\r'
  | 't' => some '\t'
  | _ => none

/-- The characters of a text after its opening quote. The first argument bounds the steps; every
step takes a character, so the number of characters is enough. -/
def textFrom : Nat → Reader (List Char)
  | 0, _ => .error .endInText
  | steps + 1, cs =>
    match cs with
    | [] => .error .endInText
    | '"' :: rest => .ok ([], rest)
    | '\\' :: [] => .error .endInText
    | '\\' :: 'u' :: rest => do
      let (c, rest) ← escapedUnit rest
      let (more, rest) ← textFrom steps rest
      return (c :: more, rest)
    | '\\' :: e :: rest =>
      match shortEscape e with
      | none => .error .badEscape
      | some c => do
        let (more, rest) ← textFrom steps rest
        return (c :: more, rest)
    | c :: rest =>
      if c.toNat < 0x20 then .error .controlCharacter
      else do
        let (more, rest) ← textFrom steps rest
        return (c :: more, rest)

/-- A character that is no quote, no backslash and no control character reads as itself. -/
theorem textFrom_plain {c : Char} {cs : List Char} {steps : Nat} (hquote : c ≠ '"') (hback : c ≠ '\\')
    (hcontrol : 0x20 ≤ c.toNat) :
    textFrom (steps + 1) (c :: cs) = do
      let (more, rest) ← textFrom steps cs
      return (c :: more, rest) := by
  simp [textFrom, hback, Nat.not_lt.2 hcontrol]

def textBody : Reader String := fun cs => do
  let (body, rest) ← textFrom cs.length cs
  return (String.ofList body, rest)

/-- Passes over a text after its opening quote: escapes are checked for their form alone. -/
def skipTextFrom : Nat → List Char → Except Error (List Char)
  | 0, _ => .error .endInText
  | steps + 1, cs =>
    match cs with
    | [] => .error .endInText
    | '"' :: rest => .ok rest
    | '\\' :: [] => .error .endInText
    | '\\' :: 'u' :: rest => do
      let (_, rest) ← codeUnit rest
      skipTextFrom steps rest
    | '\\' :: e :: rest =>
      if (shortEscape e).isSome then skipTextFrom steps rest else .error .badEscape
    | c :: rest =>
      if c.toNat < 0x20 then .error .controlCharacter else skipTextFrom steps rest

def skipText (cs : List Char) : Except Error (List Char) :=
  skipTextFrom cs.length cs

/-! ## Numbers -/

/-- A number as its reader delivers it: an integer of at most 64 bits, or a double. -/
inductive Numeral where
  | integer (n : Int)
  | float (x : Binary64)
  deriving DecidableEq, Repr

def isDigit (c : Char) : Bool := '0' ≤ c && c ≤ '9'

def digitValue (c : Char) : Nat := c.toNat - 48

def maxWord : Nat := 18446744073709551615

/-- Appends digits to a significand as long as it fits 64 bits; gives the significand, how many
digits went into it and what is left. -/
def accumulate (limit : Nat) : Nat → Nat → List Char → Nat × Nat × List Char
  | n, count, [] => (n, count, [])
  | n, count, c :: cs =>
    if isDigit c && n * 10 + digitValue c ≤ limit then
      accumulate limit (n * 10 + digitValue c) (count + 1) cs
    else (n, count, c :: cs)

def signed (negative : Bool) (x : Binary64) : Binary64 :=
  if negative then x.neg else x

/-- A double from a significand and a power of ten. -/
def scaled (negative : Bool) (significand : Nat) (exponent : Int) (rest : List Char) :
    Except Error (Numeral × List Char) :=
  match Binary64.ofScaled significand exponent with
  | some x => .ok (.float (signed negative x), rest)
  | none => .error .numberTooLarge

def maxExponent : Nat := 2147483647

/-- The exponent after its letter, and with it the number. -/
def exponentPart (negative : Bool) (significand : Nat) (start : Int) (cs : List Char) :
    Except Error (Numeral × List Char) :=
  let (down, cs) := match cs with
    | '+' :: rest => (false, rest)
    | '-' :: rest => (true, rest)
    | _ => (false, cs)
  match cs with
  | [] => .error .endInValue
  | c :: rest =>
    if isDigit c then
      let (e, _, rest) := accumulate maxExponent (digitValue c) 0 rest
      match rest with
      | d :: _ =>
        if isDigit d then
          -- an exponent too large to hold: the number is too large, or a zero
          if significand ≠ 0 && !down then .error .numberTooLarge
          else .ok (.float (Binary64.zero negative), rest.dropWhile isDigit)
        else finish down e rest
      | [] => finish down e rest
    else .error .badNumber
where
  /-- Applies the exponent; the sum stays within 32 bits. -/
  finish (down : Bool) (e : Nat) (rest : List Char) : Except Error (Numeral × List Char) :=
    let sum := if down then start - e else start + e
    scaled negative significand (max (-2147483648) (min 2147483647 sum)) rest

def afterFraction (negative : Bool) (significand : Nat) (exponent : Int) (cs : List Char) :
    Except Error (Numeral × List Char) :=
  match cs with
  | 'e' :: rest | 'E' :: rest => exponentPart negative significand exponent rest
  | _ => scaled negative significand exponent cs

/-- The fraction after its point. Digits past 64 bits do not change the number. -/
def fractionPart (negative : Bool) (significand : Nat) (start : Int) (cs : List Char) :
    Except Error (Numeral × List Char) :=
  let (n, count, rest) := accumulate maxWord significand 0 cs
  match rest with
  | d :: _ =>
    if isDigit d then afterFraction negative n (start - count) (rest.dropWhile isDigit)
    else if count = 0 then .error .badNumber
    else afterFraction negative n (start - count) rest
  | [] =>
    if count = 0 then .error .endInValue else afterFraction negative n (start - count) rest

/-- An integer without fraction or exponent: one below the signed range, and a negative zero, is a
double. -/
def wholeNumber (negative : Bool) (n : Nat) (rest : List Char) :
    Except Error (Numeral × List Char) :=
  if !negative then .ok (.integer n, rest)
  else if n = 0 ∨ 9223372036854775808 < n then scaled true n 0 rest
  else .ok (.integer (-(n : Int)), rest)

def afterInteger (negative : Bool) (n : Nat) (cs : List Char) :
    Except Error (Numeral × List Char) :=
  match cs with
  | '.' :: rest => fractionPart negative n 0 rest
  | 'e' :: rest | 'E' :: rest => exponentPart negative n 0 rest
  | _ => wholeNumber negative n cs

/-- The digits of an integer that leaves 64 bits count as a power of ten. -/
def longInteger (negative : Bool) (n : Nat) (cs : List Char) : Except Error (Numeral × List Char) :=
  let extra : Int := (cs.takeWhile isDigit).length
  match cs.dropWhile isDigit with
  | '.' :: rest => fractionPart negative n extra rest
  | 'e' :: rest | 'E' :: rest => exponentPart negative n extra rest
  | rest => scaled negative n extra rest

/-- A number after its sign. -/
def magnitude (negative : Bool) : Reader Numeral
  | [] => .error .endInValue
  | '0' :: rest =>
    match rest with
    | d :: _ => if isDigit d then .error .badNumber else afterInteger negative 0 rest
    | [] => afterInteger negative 0 rest
  | c :: rest =>
    if isDigit c then
      let (n, _, rest) := accumulate maxWord (digitValue c) 0 rest
      match rest with
      | d :: _ => if isDigit d then longInteger negative n rest else afterInteger negative n rest
      | [] => afterInteger negative n rest
    else .error .badNumber

def numeral : Reader Numeral
  | '-' :: rest => magnitude true rest
  | cs => magnitude false cs

def Numeral.toJson : Numeral → Json
  | .integer n => Json.integer n
  | .float x => Json.float x

/-! ### Passing over numbers -/

/-- At least one digit, and all that follow it. -/
def skipDigits (cs : List Char) : Except Error (List Char) :=
  match cs with
  | c :: rest => if isDigit c then .ok (rest.dropWhile isDigit) else .error .badNumber
  | [] => .error .badNumber

def skipExponent (cs : List Char) : Except Error (List Char) :=
  match cs with
  | '+' :: rest | '-' :: rest => skipDigits rest
  | _ => skipDigits cs

def skipOptionalExponent (cs : List Char) : Except Error (List Char) :=
  match cs with
  | 'e' :: rest | 'E' :: rest => skipExponent rest
  | _ => .ok cs

/-- Passes over a number after its sign: its form is checked, its size is not. -/
def skipMagnitude (cs : List Char) : Except Error (List Char) := do
  let rest ← match cs with
    | '0' :: d :: rest => if isDigit d then throw .badNumber else pure (d :: rest)
    | '0' :: [] => pure []
    | _ => skipDigits cs
  match rest with
  | '.' :: rest => skipOptionalExponent (← skipDigits rest)
  | _ => skipOptionalExponent rest

end LintDelta.Json
