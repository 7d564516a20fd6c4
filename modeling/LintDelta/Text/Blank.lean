/-!
# Blanks, fields and lines

What counts as white space in this library is the Unicode property `White_Space`. On top of it stand
the three ways in which text is taken apart: trimming, fields separated by blanks, and lines.

Main statements: a trimmed text neither starts nor ends with a blank, and lines hold nothing but
characters of the text.
-/

namespace LintDelta.Text

/-- Whether a character has the Unicode property `White_Space`. -/
def isBlank (c : Char) : Bool :=
  let n := c.toNat
  (9 ≤ n && n ≤ 13) || n == 0x20 || n == 0x85 || n == 0xA0 || n == 0x1680 ||
    (0x2000 ≤ n && n ≤ 0x200A) || n == 0x2028 || n == 0x2029 || n == 0x202F || n == 0x205F ||
    n == 0x3000

def trimChars (cs : List Char) : List Char :=
  ((cs.dropWhile isBlank).reverse.dropWhile isBlank).reverse

def trim (s : String) : String :=
  String.ofList (trimChars s.toList)

def isBlankText (s : String) : Bool :=
  s.toList.all isBlank

/-- The stretches between separators, empty ones included: one more than there are separators. -/
def pieces (sep : Char → Bool) : List Char → List (List Char)
  | [] => [[]]
  | c :: cs =>
    if sep c then [] :: pieces sep cs
    else match pieces sep cs with
      | [] => [[c]]
      | p :: ps => (c :: p) :: ps

/-- The fields of a line: its longest stretches without a blank. -/
def fields (cs : List Char) : List (List Char) :=
  (pieces isBlank cs).filter fun p => !p.isEmpty

def dropReturn (line : List Char) : List Char :=
  if line.getLast? = some '\r' then line.dropLast else line

/-- The lines of a text: each ends before `\n` or `\r\n`, and the last one may lack its ending. -/
def lines (cs : List Char) : List (List Char) :=
  match (pieces (· == '\n') cs).reverse with
  | [] => []
  | final :: earlier =>
    -- behind the last line feed a line begins only if something stands there
    (earlier.map dropReturn).reverse ++ (if final.isEmpty then [] else [final])

/-- Cuts at the first occurrence of a character. -/
def cutAt (sep : Char) : List Char → Option (List Char × List Char)
  | [] => none
  | c :: cs =>
    if c = sep then some ([], cs)
    else (cutAt sep cs).map fun (before, after) => (c :: before, after)

/-! ## Trimming -/

theorem head?_dropWhile_isBlank {cs : List Char} {c : Char}
    (h : (cs.dropWhile isBlank).head? = some c) : isBlank c = false := by
  have := List.head?_dropWhile_not isBlank cs
  rw [h] at this
  simpa using this

theorem not_isBlank_of_getLast?_trimChars {cs : List Char} {c : Char}
    (h : (trimChars cs).getLast? = some c) : isBlank c = false := by
  rw [trimChars, List.getLast?_reverse] at h
  exact head?_dropWhile_isBlank h

theorem trimChars_eq_nil_of_all {cs : List Char} (h : cs.all isBlank = true) : trimChars cs = [] := by
  have : cs.dropWhile isBlank = [] := by
    induction cs with
    | nil => rfl
    | cons c cs ih => simp_all
  simp [trimChars, this]

theorem not_isBlank_of_head?_trimChars {cs : List Char} {c : Char}
    (h : (trimChars cs).head? = some c) : isBlank c = false := by
  obtain ⟨suffix, hs⟩ : ∃ suffix, cs.dropWhile isBlank = trimChars cs ++ suffix := by
    refine ⟨((cs.dropWhile isBlank).reverse.takeWhile isBlank).reverse, ?_⟩
    rw [trimChars, ← List.reverse_append, List.takeWhile_append_dropWhile, List.reverse_reverse]
  refine head?_dropWhile_isBlank (?_ : (cs.dropWhile isBlank).head? = some c)
  rw [hs]
  cases ht : trimChars cs <;> simp_all

/-! ## Pieces, fields and lines -/

theorem pieces_ne_nil (sep : Char → Bool) (cs : List Char) : pieces sep cs ≠ [] := by
  cases cs with
  | nil => simp [pieces]
  | cons c cs =>
    unfold pieces
    split
    · simp
    · split <;> simp

theorem mem_of_mem_pieces {sep : Char → Bool} {cs p : List Char} {c : Char}
    (hp : p ∈ pieces sep cs) (hc : c ∈ p) : c ∈ cs := by
  induction cs generalizing p with
  | nil => simp [pieces] at hp; simp [hp] at hc
  | cons d cs ih =>
    unfold pieces at hp
    split at hp
    · rcases List.mem_cons.1 hp with rfl | hp
      · simp at hc
      · exact List.mem_cons_of_mem _ (ih hp hc)
    · split at hp
      · next h => exact absurd h (pieces_ne_nil sep cs)
      · next q qs h =>
        rcases List.mem_cons.1 hp with rfl | hp
        · rcases List.mem_cons.1 hc with rfl | hc
          · exact List.mem_cons_self
          · exact List.mem_cons_of_mem _ (ih (h ▸ List.mem_cons_self) hc)
        · exact List.mem_cons_of_mem _ (ih (h ▸ List.mem_cons_of_mem _ hp) hc)

theorem mem_of_mem_dropReturn {line : List Char} {c : Char} (h : c ∈ dropReturn line) : c ∈ line := by
  unfold dropReturn at h
  split at h
  · exact (List.dropLast_sublist line).mem h
  · exact h

theorem mem_of_mem_lines {cs line : List Char} {c : Char} (hl : line ∈ lines cs) (hc : c ∈ line) :
    c ∈ cs := by
  unfold lines at hl
  split at hl
  · simp at hl
  · next final earlier h =>
    have hmem : ∀ p, p ∈ final :: earlier → p ∈ pieces (· == '\n') cs := fun p hp =>
      List.mem_reverse.1 (h ▸ hp)
    rcases List.mem_append.1 hl with hl | hl
    · obtain ⟨p, hp, rfl⟩ := List.mem_map.1 (List.mem_reverse.1 hl)
      exact mem_of_mem_pieces (hmem p (List.mem_cons_of_mem _ hp)) (mem_of_mem_dropReturn hc)
    · split at hl
      · simp at hl
      · obtain rfl := List.mem_singleton.1 hl
        exact mem_of_mem_pieces (hmem _ List.mem_cons_self) hc

end LintDelta.Text
