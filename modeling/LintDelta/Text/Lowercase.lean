import LintDelta.Text.CaseTables

/-!
# Lowercase

The full Unicode mapping to lowercase, character by character (`lowerChar`), and for a text
(`lowercase`), where a capital sigma that ends a word becomes the final small sigma.

Main statements: on ASCII the mapping is the familiar one, and it leaves small letters alone.
-/

namespace LintDelta.Text

def lowerCode (n : Nat) : Nat :=
  match lowercaseRows.find? fun (first, last, step, _) =>
      first ≤ n && n ≤ last && (n - first) % step == 0 with
  | some (_, _, _, delta) => (n + delta).toNat
  | none => n

/-- The lowercase of one character; only the dotted capital `İ` becomes two characters. -/
def lowerChar (c : Char) : List Char :=
  if c.toNat < 0x80 then [c.toLower]
  else if c.toNat = 0x130 then ['i', Char.ofNat 0x307]
  else [Char.ofNat (lowerCode c.toNat)]

def inRanges (ranges : List (Nat × Nat)) (c : Char) : Bool :=
  ranges.any fun (first, last) => first ≤ c.toNat && c.toNat ≤ last

/-- Whether the first character that counts is a letter with case. -/
def startsCased (cs : List Char) : Bool :=
  match cs.dropWhile (inRanges skippedRanges) with
  | c :: _ => inRanges casedRanges c
  | [] => false

/-- The lowercase of characters, with the reversed characters that stand before them. -/
def lowerAfter : List Char → List Char → List Char
  | _, [] => []
  | before, c :: after =>
    -- a capital sigma at the end of a word
    (if c.toNat = 0x3A3 then
      [Char.ofNat (if startsCased before && !startsCased after then 0x3C2 else 0x3C3)]
    else lowerChar c) ++ lowerAfter (c :: before) after

def lowercase (s : String) : String :=
  String.ofList (lowerAfter [] s.toList)

theorem lowerChar_of_ascii {c : Char} (h : c.toNat < 0x80) : lowerChar c = [c.toLower] := by
  simp [lowerChar, h]

theorem lowerChar_of_small {c : Char} (ha : 'a' ≤ c) (hz : c ≤ 'z') : lowerChar c = [c] := by
  have ha : 97 ≤ c.val.toNat := ha
  have hz : c.val.toNat ≤ 122 := hz
  have h : c.toNat < 0x80 := Nat.lt_of_le_of_lt hz (by decide)
  have hcapital : ¬(c.val ≥ 'A'.val ∧ c.val ≤ 'Z'.val) := fun hc => by
    have hc : c.val.toNat ≤ 90 := hc.2
    omega
  rw [lowerChar_of_ascii h]
  exact congrArg (fun d => [d]) (dif_neg hcapital : c.toLower = c)

end LintDelta.Text
