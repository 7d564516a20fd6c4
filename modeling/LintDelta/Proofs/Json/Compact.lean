import LintDelta.Proofs.Json.Documents

/-!
# Writing documents

Every document can be written: on one line, without white space and with an escape wherever one is needed
(`Doc.spells_compact`). A text that stands for no characters is written as half of a surrogate pair.
-/

namespace LintDelta.Json

namespace Doc

def compactText (s : Option String) : List Char :=
  '"' :: ((match s with | some s => escaped s | none => ['\\', 'u', 'd', '8', '0', '0']) ++ ['"'])

/-- What stands in front of a part. -/
def compactSeparator (first : Bool) : List Char :=
  if first then [] else [',']

mutual

/-- A document on one line. -/
def compact : Doc → List Char
  | .null => ['n', 'u', 'l', 'l']
  | .scalar => ['0']
  | .text s => compactText s
  | .list xs => '[' :: compactItems true xs
  | .object ms => '{' :: compactMembers true ms

def compactItems : Bool → List Doc → List Char
  | _, [] => [']']
  | first, x :: xs => compactSeparator first ++ (x.compact ++ compactItems false xs)

def compactMembers : Bool → List (Option String × Doc) → List Char
  | _, [] => ['}']
  | first, (name, x) :: ms =>
    compactSeparator first ++ (compactText name ++ ':' :: (x.compact ++ compactMembers false ms))

end

theorem separator_compact (first : Bool) : Separator first (compactSeparator first) := by
  cases first with
  | true => exact .first blank_nil
  | false => exact .comma blank_nil blank_nil

theorem quoted_compactText (s : Option String) : Quoted s (compactText s) := by
  cases s with
  | some s =>
    have hquoted := Quoted.mk (decodes_escaped s.toList)
    rwa [Option.map_some, String.ofList_toList] at hquoted
  | none =>
    have hhalf : HexUnit ['d', '8', '0', '0'] 0xD800 := @HexUnit.mk 'd' '8' '0' '0' 13 8 0 0 rfl rfl rfl rfl
    exact Quoted.mk (.lone hhalf (Or.inr ⟨by decide, fun _ _ _ _ _ => (List.cons_ne_nil _ _).symm⟩) .nil)

/-- **Every document is spelled by its text on one line.** -/
theorem spells_compact (x : Doc) : x.Spells x.compact := by
  induction x with
  | null => exact .null
  | scalar => exact .number (@Magnitude.mk ['0'] [] [] .zero .none .none)
  | text s => exact .text (quoted_compactText s)
  | list xs ih =>
    have hitems : ∀ first, Items Spells first xs (compactItems first xs) := by
      induction xs with
      | nil => exact fun _ => .close blank_nil
      | cons x xs ih' =>
        intro first
        exact .item (separator_compact first) (ih x List.mem_cons_self)
          (ih' (fun y hy => ih y (List.mem_cons_of_mem x hy)) false)
    exact .list (hitems true)
  | object ms ih =>
    have hmembers : ∀ first, Members Spells first ms (compactMembers first ms) := by
      induction ms with
      | nil => exact fun _ => .close blank_nil
      | cons m ms ih' =>
        intro first
        exact .member (separator_compact first) (quoted_compactText m.1) blank_nil blank_nil (ih m List.mem_cons_self)
          (ih' (fun m' hm' => ih m' (List.mem_cons_of_mem m hm')) false)
    exact .object (hmembers true)

theorem writtenAs_compact (x : Doc) : x.WrittenAs (String.ofList x.compact) :=
  ⟨[], x.compact, [], blank_nil, x.spells_compact, blank_nil, by simp⟩

end Doc

end LintDelta.Json
