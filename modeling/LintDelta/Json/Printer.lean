import LintDelta.Json.Value
import LintDelta.Text.Quoted

/-!
# Writing JSON

Two layouts: `compact`, without white space, and `pretty`, with one member or item a line and two
blanks of indentation a level. Characters past ASCII are written as they are.
-/

namespace LintDelta.Json

def fourDigits (n : Nat) : String :=
  String.ofList (List.replicate (4 - (Nat.toDigits 16 n).length) '0' ++ Nat.toDigits 16 n)

def escapeChar (c : Char) : String :=
  if c = '"' then "\\\""
  else if c = '\\' then "\\\\"
  else if c.toNat = 8 then "\\b"
  else if c.toNat = 12 then "\\f"
  else if c = '\n' then "\\n"
  else if c = '\r' then "\\r"
  else if c = '\t' then "\\t"
  else if c.toNat < 0x20 then "\\u" ++ fourDigits c.toNat
  else c.toString

def writeText (s : String) : String :=
  "\"" ++ String.join (s.toList.map escapeChar) ++ "\""

mutual

/-- A value without white space. -/
def compact : Json → String
  | .null => "null"
  | .bool b => if b then "true" else "false"
  | .integer n => toString n
  | .float x => x.text
  | .text s => writeText s
  | .list items => "[" ++ String.intercalate "," (compactItems items) ++ "]"
  | .object members => "\x7b" ++ String.intercalate "," (compactMembers members) ++ "\x7d"

def compactItems : List Json → List String
  | [] => []
  | x :: xs => compact x :: compactItems xs

def compactMembers : List (String × Json) → List String
  | [] => []
  | (name, x) :: rest => (writeText name ++ ":" ++ compact x) :: compactMembers rest

end

def newline (level : Nat) : String :=
  "\n" ++ String.join (List.replicate level "  ")

/-- Parts between brackets, each on a line of its own. -/
def block (opening closing : String) (level : Nat) (parts : List String) : String :=
  if parts.isEmpty then opening ++ closing
  else opening ++ newline (level + 1) ++ String.intercalate ("," ++ newline (level + 1)) parts ++
    newline level ++ closing

mutual

/-- A value over several lines, from an indentation level on. -/
def prettyAt : Nat → Json → String
  | level, .list items => block "[" "]" level (prettyItems (level + 1) items)
  | level, .object members => block "\x7b" "\x7d" level (prettyMembers (level + 1) members)
  | _, .null => "null"
  | _, .bool b => if b then "true" else "false"
  | _, .integer n => toString n
  | _, .float x => x.text
  | _, .text s => writeText s

def prettyItems : Nat → List Json → List String
  | _, [] => []
  | level, x :: xs => prettyAt level x :: prettyItems level xs

def prettyMembers : Nat → List (String × Json) → List String
  | _, [] => []
  | level, (name, x) :: rest =>
    (writeText name ++ ": " ++ prettyAt level x) :: prettyMembers level rest

end

def pretty (x : Json) : String :=
  prettyAt 0 x

end LintDelta.Json
