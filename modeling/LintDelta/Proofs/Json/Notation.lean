import LintDelta.Proofs.Json.Numbers
import LintDelta.Proofs.Json.Texts

/-!
# The notation of JSON

Which characters spell a value, with white space wherever the notation allows it: `Spells`, with `Items` and
`Members` for what stands between brackets. Texts and integers are spelled as they are written; doubles are left
out, since nothing that is stored holds one.

A value that can be stored is spelled by its text over several lines (`spells_prettyAt`) and by its text on one
line (`spells_compact`).
-/

namespace LintDelta.Json

/-! ## Spellings -/

/-- White space, or nothing. -/
def Blank (cs : List Char) : Prop :=
  ∀ c ∈ cs, isSpace c = true

/-- What stands before an item or a member: a comma with white space around it, or for the first one white space
alone. -/
inductive Separator : Bool → List Char → Prop
  | first {gap : List Char} (h : Blank gap) : Separator true gap
  | comma {gap gap' : List Char} (h : Blank gap) (h' : Blank gap') : Separator false (gap ++ ',' :: gap')

/-- The items of a list and the closing bracket, where `R` says how a value is spelled. -/
inductive Items {α : Type} (R : α → List Char → Prop) : Bool → List α → List Char → Prop
  | close {first : Bool} {gap : List Char} (h : Blank gap) : Items R first [] (gap ++ [']'])
  | item {first : Bool} {sep text more : List Char} {x : α} {xs : List α} (hsep : Separator first sep)
    (hx : R x text) (hmore : Items R false xs more) : Items R first (x :: xs) (sep ++ (text ++ more))

/-- The members of an object and the closing brace. -/
inductive Members (R : Json → List Char → Prop) : Bool → List (String × Json) → List Char → Prop
  | close {first : Bool} {gap : List Char} (h : Blank gap) : Members R first [] (gap ++ ['}'])
  | member {first : Bool} {sep gap gap' text more : List Char} (name : String) {x : Json} {ms : List (String × Json)}
    (hsep : Separator first sep) (hgap : Blank gap) (hgap' : Blank gap') (hx : R x text)
    (hmore : Members R false ms more) :
    Members R first ((name, x) :: ms)
      (sep ++ '"' :: (escaped name ++ '"' :: (gap ++ ':' :: (gap' ++ (text ++ more)))))

/-- Which characters spell a value. -/
inductive Spells : Json → List Char → Prop
  | null : Spells .null ['n', 'u', 'l', 'l']
  | yes : Spells (.bool true) ['t', 'r', 'u', 'e']
  | no : Spells (.bool false) ['f', 'a', 'l', 's', 'e']
  | integer {n : Int} (hmin : -9223372036854775808 ≤ n) (hmax : n ≤ 18446744073709551615) :
    Spells (.integer n) (toString n).toList
  | text (s : String) : Spells (.text s) ('"' :: (escaped s ++ ['"']))
  | list {xs : List Json} {cs : List Char} (h : Items Spells true xs cs) : Spells (.list xs) ('[' :: cs)
  | object {ms : List (String × Json)} {cs : List Char} (h : Members Spells true ms cs) :
    Spells (.object ms) ('{' :: cs)

theorem blank_nil : Blank [] := nofun

theorem blank_singleton {c : Char} (h : isSpace c = true) : Blank [c] := by
  intro d hd
  rwa [List.mem_singleton.1 hd]

theorem Blank.head {c : Char} {cs : List Char} (h : Blank (c :: cs)) : isSpace c = true :=
  h c List.mem_cons_self

/-- A number starts with a digit or with the minus sign. -/
theorem exists_toString_eq_cons (n : Int) :
    ∃ c cs, (toString n).toList = c :: cs ∧ (c = '-' ∨ isDigit c = true) := by
  rw [Int.toString_eq_repr, Int.repr_eq_if]
  split
  · rw [Nat.toList_repr]
    obtain ⟨d, ds, hds⟩ := List.exists_cons_of_ne_nil (Nat.toDigits_ne_nil (n := n.toNat) (b := 10))
    exact ⟨d, ds, hds, Or.inr (isDigit_of_mem_toDigits (n := n.toNat) (hds ▸ List.mem_cons_self))⟩
  · exact ⟨'-', _, by rw [String.toList_append]; rfl, Or.inl rfl⟩

/-- A number is told from other values by how it starts. -/
theorem ne_of_numeral {c : Char} (hc : c = '-' ∨ isDigit c = true) {d : Char} (hd : isDigit d = false)
    (hminus : d ≠ '-') : c ≠ d := by
  rintro rfl
  rcases hc with rfl | hc
  · exact hminus rfl
  · rw [hd] at hc
    cases hc

theorem isSpace_of_numeral {c : Char} (hc : c = '-' ∨ isDigit c = true) : isSpace c = false := by
  simp only [isSpace, Bool.or_eq_false_iff, beq_eq_false_iff_ne]
  exact ⟨⟨⟨ne_of_numeral hc (by decide) (by decide), ne_of_numeral hc (by decide) (by decide)⟩,
    ne_of_numeral hc (by decide) (by decide)⟩, ne_of_numeral hc (by decide) (by decide)⟩

/-- **How a value starts**: not with white space, with no bracket that closes, and with an `n` only for null. -/
theorem Spells.exists_cons {x : Json} {cs : List Char} (h : Spells x cs) :
    ∃ c rest, cs = c :: rest ∧ isSpace c = false ∧ c ≠ ']' ∧ (c = 'n' → x = .null) := by
  cases h with
  | integer =>
    rename_i n _ _
    obtain ⟨c, rest, heq, hc⟩ := exists_toString_eq_cons n
    refine ⟨c, rest, heq, ?_⟩
    exact ⟨isSpace_of_numeral hc, ne_of_numeral hc (by decide) (by decide), fun hn =>
      absurd hn (ne_of_numeral hc (by decide) (by decide))⟩
  | _ => exact ⟨_, _, rfl, by decide, by decide, by simp⟩

/-! ## Written values -/

/-- A value that can be stored: no doubles, integers of 64 bits with or without a sign, and brackets that stand in
each other at most so deep. -/
inductive Storable : Nat → Json → Prop
  | null {depth : Nat} : Storable depth .null
  | bool {depth : Nat} (b : Bool) : Storable depth (.bool b)
  | integer {depth : Nat} {n : Int} (hmin : -9223372036854775808 ≤ n) (hmax : n ≤ 18446744073709551615) :
    Storable depth (.integer n)
  | text {depth : Nat} (s : String) : Storable depth (.text s)
  | list {depth : Nat} {xs : List Json} (h : ∀ x ∈ xs, Storable depth x) : Storable (depth + 1) (.list xs)
  | object {depth : Nat} {ms : List (String × Json)} (h : ∀ m ∈ ms, Storable depth m.2) :
    Storable (depth + 1) (.object ms)

theorem Storable.mono {depth depth' : Nat} {x : Json} (h : Storable depth x) (hle : depth ≤ depth') :
    Storable depth' x := by
  induction h generalizing depth' with
  | null => exact .null
  | bool b => exact .bool b
  | integer hmin hmax => exact .integer hmin hmax
  | text s => exact .text s
  | list h ih =>
    obtain ⟨k, rfl⟩ : ∃ k, depth' = k + 1 := ⟨depth' - 1, by omega⟩
    exact .list fun x hx => ih x hx (Nat.le_of_succ_le_succ hle)
  | object h ih =>
    obtain ⟨k, rfl⟩ : ∃ k, depth' = k + 1 := ⟨depth' - 1, by omega⟩
    exact .object fun m hm => ih m hm (Nat.le_of_succ_le_succ hle)

theorem toList_block_nil (opening closing : String) (level : Nat) :
    (block opening closing level []).toList = opening.toList ++ closing.toList :=
  String.toList_append

theorem blank_newline (level : Nat) : Blank (newline level).toList := by
  intro c hc
  rw [newline, String.toList_append, String.toList_join, List.mem_append, List.mem_flatMap] at hc
  rcases hc with hc | ⟨s, hs, hc⟩
  · rcases List.mem_singleton.1 hc with rfl
    decide
  · obtain rfl := List.eq_of_mem_replicate hs
    have hspace : c = ' ' := by simpa using hc
    rw [hspace]
    rfl

/-- Parts with a separator in front of each but the first. -/
theorem toList_intercalate_cons (sep part : String) (parts : List String) :
    (String.intercalate sep (part :: parts)).toList =
      part.toList ++ parts.flatMap fun p => sep.toList ++ p.toList := by
  induction parts generalizing part with
  | nil => simp
  | cons p parts ih =>
    rw [String.intercalate_cons_cons, String.toList_append, String.toList_append, ih p]
    simp

/-- A block is empty, or its parts stand between the brackets, the first behind a line break and each other one
behind a comma and a line break. -/
theorem toList_block (opening closing : String) (level : Nat) (part : String) (parts : List String) :
    (block opening closing level (part :: parts)).toList =
      opening.toList ++ ((newline (level + 1)).toList ++ (part.toList ++
        (parts.flatMap (fun p => ',' :: (newline (level + 1)).toList ++ p.toList) ++
          ((newline level).toList ++ closing.toList)))) := by
  rw [block, if_neg (by simp)]
  simp only [String.toList_append, toList_intercalate_cons]
  simp

theorem prettyItems_eq (level : Nat) (xs : List Json) : prettyItems level xs = xs.map (prettyAt level) := by
  induction xs with
  | nil => rfl
  | cons x xs ih => rw [prettyItems, ih, List.map_cons]

theorem prettyMembers_eq (level : Nat) (ms : List (String × Json)) :
    prettyMembers level ms = ms.map fun (name, x) => writeText name ++ ": " ++ prettyAt level x := by
  induction ms with
  | nil => rfl
  | cons m ms ih => rw [prettyMembers, ih, List.map_cons]

theorem compactItems_eq (xs : List Json) : compactItems xs = xs.map compact := by
  induction xs with
  | nil => rfl
  | cons x xs ih => rw [compactItems, ih, List.map_cons]

theorem compactMembers_eq (ms : List (String × Json)) :
    compactMembers ms = ms.map fun (name, x) => writeText name ++ ":" ++ compact x := by
  induction ms with
  | nil => rfl
  | cons m ms ih => rw [compactMembers, ih, List.map_cons]

section Layout

variable {gap gap' space : List Char} (f : Json → List Char) (hgap : Blank gap) (hgap' : Blank gap')
include hgap hgap'

/-- Items behind the first one. -/
theorem items_of_forall {xs : List Json} (h : ∀ x ∈ xs, Spells x (f x)) :
    Items Spells false xs (xs.flatMap (fun x => ',' :: gap ++ f x) ++ (gap' ++ [']'])) := by
  induction xs with
  | nil => exact .close hgap'
  | cons x xs ih =>
    have := Items.item (Separator.comma blank_nil hgap) (h x List.mem_cons_self)
      (ih fun y hy => h y (List.mem_cons_of_mem x hy))
    simpa using this

/-- Members behind the first one, with `space` between a colon and a value. -/
theorem members_of_forall (hspace : Blank space) {ms : List (String × Json)} (h : ∀ m ∈ ms, Spells m.2 (f m.2)) :
    Members Spells false ms
      (ms.flatMap (fun m => ',' :: gap ++ ('"' :: escaped m.1 ++ '"' :: ':' :: space ++ f m.2)) ++
        (gap' ++ ['}'])) := by
  induction ms with
  | nil => exact .close hgap'
  | cons m ms ih =>
    have := Members.member m.1 (Separator.comma blank_nil hgap) blank_nil hspace (h m List.mem_cons_self)
      (ih fun m' hm' => h m' (List.mem_cons_of_mem m hm'))
    simpa using this

end Layout

/-- **A value that can be stored is spelled by its text over several lines**, at every level of indentation. -/
theorem spells_prettyAt {depth : Nat} {x : Json} (h : Storable depth x) :
    ∀ level, Spells x (prettyAt level x).toList := by
  induction h with
  | null => exact fun _ => by rw [prettyAt]; exact .null
  | bool b => cases b <;> exact fun _ => by rw [prettyAt]; constructor
  | integer hmin hmax => exact fun _ => by rw [prettyAt]; exact .integer hmin hmax
  | text s => exact fun _ => by rw [prettyAt, toList_writeText]; exact .text s
  | @list depth xs h ih =>
    intro level
    rw [prettyAt, prettyItems_eq]
    cases xs with
    | nil =>
      rw [List.map_nil, toList_block_nil]
      exact .list (.close blank_nil)
    | cons x xs =>
      have htail := items_of_forall (fun x => (prettyAt (level + 1) x).toList) (blank_newline (level + 1))
        (blank_newline level) fun y hy => ih y (List.mem_cons_of_mem x hy) (level + 1)
      have hall := Items.item (Separator.first (blank_newline (level + 1))) (ih x List.mem_cons_self (level + 1)) htail
      rw [List.map_cons, toList_block, List.flatMap_map]
      exact .list hall
  | @object depth ms h ih =>
    intro level
    rw [prettyAt, prettyMembers_eq]
    cases ms with
    | nil =>
      rw [List.map_nil, toList_block_nil]
      exact .object (.close blank_nil)
    | cons m ms =>
      have hspace : Blank [' '] := blank_singleton rfl
      have htail := members_of_forall (fun x => (prettyAt (level + 1) x).toList) (blank_newline (level + 1))
        (blank_newline level) hspace fun m' hm' => ih m' (List.mem_cons_of_mem m hm') (level + 1)
      have hall := Members.member m.1 (Separator.first (blank_newline (level + 1))) blank_nil hspace
        (ih m List.mem_cons_self (level + 1)) htail
      rw [List.map_cons, toList_block, List.flatMap_map]
      refine .object ?_
      simpa [toList_writeText, String.toList_append] using hall

/-- **A value that can be stored is spelled by its text on one line.** -/
theorem spells_compact {depth : Nat} {x : Json} (h : Storable depth x) : Spells x (compact x).toList := by
  induction h with
  | null =>
    rw [compact]
    exact .null
  | bool b =>
    rw [compact]
    cases b <;> constructor
  | integer hmin hmax =>
    rw [compact]
    exact .integer hmin hmax
  | text s =>
    rw [compact, toList_writeText]
    exact .text s
  | @list depth xs h ih =>
    rw [compact, compactItems_eq, String.toList_append, String.toList_append]
    cases xs with
    | nil => exact .list (.close blank_nil)
    | cons x xs =>
      have htail := items_of_forall (fun x => (compact x).toList) blank_nil blank_nil
        fun y hy => ih y (List.mem_cons_of_mem x hy)
      have hall := Items.item (Separator.first blank_nil) (ih x List.mem_cons_self) htail
      rw [List.map_cons, toList_intercalate_cons, List.flatMap_map]
      refine .list ?_
      simpa using hall
  | @object depth ms h ih =>
    rw [compact, compactMembers_eq, String.toList_append, String.toList_append]
    cases ms with
    | nil => exact .object (.close blank_nil)
    | cons m ms =>
      have htail := members_of_forall (fun x => (compact x).toList) blank_nil blank_nil blank_nil
        fun m' hm' => ih m' (List.mem_cons_of_mem m hm')
      have hall := Members.member m.1 (Separator.first blank_nil) blank_nil blank_nil
        (ih m List.mem_cons_self) htail
      rw [List.map_cons, toList_intercalate_cons, List.flatMap_map]
      refine .object ?_
      simpa [toList_writeText, String.toList_append] using hall

end LintDelta.Json
