import LintDelta.Json.Lexeme

/-!
# Passing over values

The value of a field that nobody reads is passed over with a check of its form alone: to any depth,
with numbers of any size and escapes of any code unit. The open brackets are kept on a stack.
-/

namespace LintDelta.Json

inductive Bracket where
  | list
  | object
  deriving DecidableEq, Repr

def Bracket.ending : Bracket → Error
  | .list => .endInList
  | .object => .endInObject

def Bracket.separator : Bracket → Error
  | .list => .noListSeparator
  | .object => .noObjectSeparator

def skipName (cs : List Char) : Except Error (List Char) :=
  match skipSpace cs with
  | [] => .error .endInObject
  | '"' :: rest => do
    let rest ← skipText rest
    match skipSpace rest with
    | [] => throw .endInObject
    | ':' :: rest => return rest
    | _ => throw .noColon
  | _ => .error .keyNotText

/-- What a stretch of a skipped value left behind: whether a value must follow or has just ended. -/
inductive Expecting where
  | value
  /-- A bracket was just opened: its end, or what it holds, must follow. -/
  | content
  /-- A value ended: a comma or the end of its bracket must follow. -/
  | separator
  deriving DecidableEq, Repr

/-- The start of a value: a whole scalar, or an opening bracket. -/
def skipStart (cs : List Char) : Except Error (Option Bracket × List Char) :=
  match skipSpace cs with
  | [] => .error .endInValue
  | 'n' :: rest => do return (none, ← word ['u', 'l', 'l'] rest)
  | 't' :: rest => do return (none, ← word ['r', 'u', 'e'] rest)
  | 'f' :: rest => do return (none, ← word ['a', 'l', 's', 'e'] rest)
  | '-' :: rest => do return (none, ← skipMagnitude rest)
  | '"' :: rest => do return (none, ← skipText rest)
  | '[' :: rest => .ok (some .list, rest)
  | '{' :: rest => .ok (some .object, rest)
  | c :: rest =>
    if isDigit c then do return (none, ← skipMagnitude (c :: rest))
    else .error .noValue

/-- Passes over what the open brackets still need. Every step takes a character or moves on to one
that does, so twice the number of characters bounds the steps. -/
def skipOpen : Nat → Expecting → List Bracket → List Char → Except Error (List Char)
  | 0, _, _, _ => .error .endInValue
  | steps + 1, .value, stack, cs => do
    match ← skipStart cs with
    | (some bracket, rest) => skipOpen steps .content (bracket :: stack) rest
    | (none, rest) => skipOpen steps .separator stack rest
  | steps + 1, expecting, stack, cs =>
    match stack with
    | [] => .ok cs
    | bracket :: outer =>
      match bracket, skipSpace cs with
      | _, [] => .error bracket.ending
      | .list, ']' :: rest => skipOpen steps .separator outer rest
      | .object, '}' :: rest => skipOpen steps .separator outer rest
      | _, rest => do
        -- a comma stands between two values, not before the first one
        let rest ← match expecting, rest with
          | .separator, ',' :: rest => pure rest
          | .separator, _ => throw bracket.separator
          | _, rest => pure rest
        let rest ← if bracket = .object then skipName rest else pure rest
        skipOpen steps .value stack rest

def skipValue (cs : List Char) : Except Error (List Char) :=
  skipOpen (2 * cs.length + 2) .value [] cs

end LintDelta.Json
