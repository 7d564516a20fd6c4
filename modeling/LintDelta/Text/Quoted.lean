import LintDelta.Text.Lowercase
import LintDelta.Text.PrintTables

/-!
# Quoted text

A text in double quotes for messages: quotes and backslashes are escaped, and so is every character
that a reader could not see.
-/

namespace LintDelta.Text

def hex (n : Nat) : String :=
  String.ofList (Nat.toDigits 16 n)

/-- Whether a character shows as itself: it has a glyph and does not combine with its neighbour. -/
def isVisible (c : Char) : Bool :=
  let n := c.toNat
  if n < 0x7F then 0x20 ≤ n
  else !inRanges unprintableRanges c && !inRanges markRanges c

def quotedChar (c : Char) : String :=
  if c = '"' then "\\\""
  else if c = '\\' then "\\\\"
  else if c = '\n' then "\\n"
  else if c = '\r' then "\\r"
  else if c = '\t' then "\\t"
  else if c.toNat = 0 then "\\0"
  else if isVisible c then c.toString
  else "\\u\x7b" ++ hex c.toNat ++ "\x7d"

/-- A text in double quotes. -/
def quoted (s : String) : String :=
  "\"" ++ String.join (s.toList.map quotedChar) ++ "\""

end LintDelta.Text
