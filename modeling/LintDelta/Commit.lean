import LintDelta.Text.Utf8

/-!
# Commits and blobs

Commits and blobs are known by their ids, which are texts. A commit is shown by the first eight
bytes of its id; an id whose eighth byte lies inside a character has no such abbreviation.

Main statements: an id of characters that take one byte each has an abbreviation.
-/

namespace LintDelta

structure CommitId where
  text : String
  deriving DecidableEq, Repr, Inhabited

/-- The id of the content of a file version. -/
structure BlobId where
  text : String
  deriving DecidableEq, Repr, Inhabited

/-- The characters that take exactly `n` bytes together, if the cut does not split a character. -/
def takeBytes : Nat → List Char → Option (List Char)
  | 0, _ => some []
  | _ + 1, [] => none
  | n + 1, c :: cs =>
    if c.utf8Size ≤ n + 1 then (takeBytes (n + 1 - c.utf8Size) cs).map (c :: ·) else none

def CommitId.shownBytes : Nat := 8

/-- The abbreviation of an id; a short id is its own. -/
def CommitId.short (c : CommitId) : Option String :=
  if c.text.utf8ByteSize ≤ shownBytes then some c.text
  else (takeBytes shownBytes c.text.toList).map String.ofList

/-- Every character of the id takes one byte. -/
def CommitId.IsAscii (c : CommitId) : Prop :=
  ∀ ch ∈ c.text.toList, ch.utf8Size = 1

instance (c : CommitId) : Decidable c.IsAscii :=
  List.decidableBAll (fun ch : Char => ch.utf8Size = 1) c.text.toList

inductive Head where
  | branch (name : String)
  /-- At a commit, on no branch. -/
  | detached (commit : CommitId)
  deriving DecidableEq, Repr

def Head.display : Head → Option String
  | .branch name => some name
  | .detached commit => commit.short.map (· ++ " (detached)")

/-! ## Laws -/

theorem takeBytes_of_ascii {n : Nat} {cs : List Char} (hascii : ∀ ch ∈ cs, ch.utf8Size = 1)
    (hn : n ≤ cs.length) : takeBytes n cs = some (cs.take n) := by
  induction cs generalizing n with
  | nil =>
    obtain rfl : n = 0 := by simpa using hn
    rfl
  | cons c cs ih =>
    cases n with
    | zero => rfl
    | succ n =>
      have hc : c.utf8Size = 1 := hascii c List.mem_cons_self
      have htaken := ih (fun ch hch => hascii ch (List.mem_cons_of_mem c hch)) (Nat.le_of_succ_le_succ hn)
      simp [takeBytes, hc, htaken]

theorem utf8ByteSize_of_ascii {cs : List Char} (hascii : ∀ ch ∈ cs, ch.utf8Size = 1) :
    (String.ofList cs).utf8ByteSize = cs.length := by
  rw [← String.size_toByteArray, String.toByteArray_ofList]
  induction cs with
  | nil => rfl
  | cons c cs ih =>
    have hc : c.utf8Size = 1 := hascii c List.mem_cons_self
    have hrest := ih fun ch hch => hascii ch (List.mem_cons_of_mem c hch)
    rw [List.utf8Encode_cons, ByteArray.size_append, hrest, List.utf8Encode_singleton,
      List.size_toByteArray, String.length_utf8EncodeChar, hc, List.length_cons, Nat.add_comm]

/-- An id of characters that take one byte each can be cut anywhere. -/
theorem CommitId.short_of_ascii {c : CommitId} (h : c.IsAscii) :
    c.short = some (String.ofList (c.text.toList.take shownBytes)) := by
  have hsize : c.text.utf8ByteSize = c.text.toList.length := by
    rw [← utf8ByteSize_of_ascii h, String.ofList_toList]
  unfold short
  split
  · next hshort =>
    rw [List.take_of_length_le (hsize ▸ hshort), String.ofList_toList]
  · next hlong =>
    rw [takeBytes_of_ascii h (by omega)]
    rfl

end LintDelta
