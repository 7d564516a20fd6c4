import LintDelta.Json.Lexeme

/-!
# Lists and objects

The brackets, separators and names around values, for any reader of what stands inside. Readers of
lists and objects differ in what they do with an item or a member, and share these loops.
-/

namespace LintDelta.Json

variable {α : Type}

def colon (cs : List Char) : Except Error (List Char) :=
  match skipSpace cs with
  | [] => .error .endInObject
  | ':' :: rest => .ok rest
  | _ => .error .noColon

/-- Moves to the next item of a list: `none` at the closing bracket, which is left in place. -/
def nextItem (first : Bool) (cs : List Char) : Except Error (Option (List Char)) :=
  match skipSpace cs with
  | [] => .error .endInList
  | ']' :: _ => .ok none
  | c :: rest =>
    if first then .ok (some (c :: rest))
    else if c = ',' then
      match skipSpace rest with
      | [] => .error .endInValue
      | ']' :: _ => .error .trailingComma
      | rest => .ok (some rest)
    else .error .noListSeparator

/-- The closing bracket of a list from which nothing more is read. -/
def closeList (cs : List Char) : Except Error (List Char) :=
  match skipSpace cs with
  | [] => .error .endInList
  | ']' :: rest => .ok rest
  | ',' :: rest =>
    match skipSpace rest with
    | ']' :: _ => .error .trailingComma
    | _ => .error .trailingCharacters
  | _ => .error .trailingCharacters

/-- The items of a list after its opening bracket, up to and with the closing one. -/
def items (item : Reader α) : Nat → Bool → Reader (List α)
  | 0, _, _ => .error .endInList
  | steps + 1, first, cs => do
    match ← nextItem first cs with
    | none => return ([], ← closeList cs)
    | some cs =>
      let (x, rest) ← item cs
      let (xs, rest) ← items item steps false rest
      return (x :: xs, rest)

def listBody (item : Reader α) : Reader (List α) := fun cs =>
  items item (cs.length + 1) true cs

/-- Moves to the name of the next member: `none` at the closing brace, which is left in place. -/
def nextName (first : Bool) (cs : List Char) : Except Error (Option (String × List Char)) :=
  match skipSpace cs with
  | [] => .error .endInObject
  | '}' :: _ => .ok none
  | c :: rest => do
    let cs ← if first then pure (c :: rest)
      else if c = ',' then pure (skipSpace rest)
      else throw .noObjectSeparator
    match cs with
    | [] => throw .endInValue
    | '"' :: rest => return some (← textBody rest)
    | '}' :: _ => throw .trailingComma
    | _ => throw .keyNotText

/-- Folds over the members of an object after its opening brace, up to and with the closing one.
`member` gets the name of a member and reads on from the colon. -/
def members (member : String → α → Reader α) : Nat → Bool → α → Reader α
  | 0, _, _, _ => .error .endInObject
  | steps + 1, first, state, cs => do
    match ← nextName first cs with
    | none =>
      match skipSpace cs with
      | _ :: rest => return (state, rest)
      | [] => throw .endInObject
    | some (name, rest) =>
      let (state, rest) ← member name state rest
      members member steps false state rest

def objectBody (member : String → α → Reader α) (start : α) : Reader α := fun cs =>
  members member (cs.length + 1) true start cs

/-! ## Values of any kind -/

/-- How many brackets may stand open in each other. -/
def maxDepth : Nat := 127

/-- Reads any value fully; the argument is how many brackets may still be opened. -/
def anyValue : Nat → Reader Json
  | depth, cs =>
    match skipSpace cs with
    | [] => .error .endInValue
    | 'n' :: rest => do return (.null, ← word ['u', 'l', 'l'] rest)
    | 't' :: rest => do return (.bool true, ← word ['r', 'u', 'e'] rest)
    | 'f' :: rest => do return (.bool false, ← word ['a', 'l', 's', 'e'] rest)
    | '"' :: rest => do
      let (s, rest) ← textBody rest
      return (.text s, rest)
    | '[' :: rest =>
      match depth with
      | 0 => .error .tooDeep
      | depth + 1 => do
        let (xs, rest) ← listBody (anyValue depth) rest
        return (.list xs, rest)
    | '{' :: rest =>
      match depth with
      | 0 => .error .tooDeep
      | depth + 1 => do
        let (ms, rest) ← objectBody (fun name ms cs => do
          let (x, rest) ← anyValue depth (← colon cs)
          return ((name, x) :: ms, rest)) [] rest
        return (.object ms.reverse, rest)
    | c :: rest =>
      if c = '-' || isDigit c then do
        let (n, rest) ← numeral (c :: rest)
        return (n.toJson, rest)
      else .error .noValue

/-- The error of a reader that wants something else than what stands here: scalars are read to be
named, brackets are named at sight. -/
def mismatch (wanted : String) (cs : List Char) : Error :=
  match skipSpace cs with
  | [] => .endInValue
  | '[' :: _ => .wrongType .list wanted
  | '{' :: _ => .wrongType .object wanted
  | cs =>
    -- no bracket stands here, so none has to be opened
    match anyValue 0 cs with
    | .ok (x, _) => .wrongType x.found wanted
    | .error e => e

/-- Reads a whole text with a reader: only white space may follow the value. -/
def readAll (reader : Reader α) (text : String) : Except Error α := do
  let (x, rest) ← reader text.toList
  if (skipSpace rest).isEmpty then return x else throw .trailingCharacters

end LintDelta.Json
