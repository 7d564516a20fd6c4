import LintDelta.Proofs.Json.Notation

/-!
# Documents

JSON as other programs write it. `Doc.Spells` says which characters spell a document: white space wherever the
notation allows it, any escape in texts and names, numbers of any size, and brackets in each other to any depth. A
document keeps the texts, the lists and the members of objects in their order, and of truth values and numbers only
that they are there.
-/

namespace LintDelta.Json

/-- A document. A text or a name is `none` if it stands for no characters. -/
inductive Doc where
  | null
  /-- A truth value or a number. -/
  | scalar
  | text (s : Option String)
  | list (items : List Doc)
  | object (members : List (Option String × Doc))

namespace Doc

/-- A property of all documents holds of each if it passes from the parts to the whole. -/
@[elab_as_elim, induction_eliminator]
theorem induct {P : Doc → Prop} (null : P .null) (scalar : P .scalar) (text : ∀ s, P (.text s))
    (list : ∀ xs, (∀ x ∈ xs, P x) → P (.list xs)) (object : ∀ ms, (∀ m ∈ ms, P m.2) → P (.object ms)) : ∀ x, P x
  | .null => null
  | .scalar => scalar
  | .text s => text s
  | .list xs => list xs fun x _ => induct null scalar text list object x
  | .object ms => object ms fun m hm =>
    have : sizeOf m.2 < sizeOf ms := by
      have hlt := List.sizeOf_lt_of_mem hm
      obtain ⟨name, x⟩ := m
      rw [Prod.mk.sizeOf_spec] at hlt
      show sizeOf x < sizeOf ms
      omega
    induct null scalar text list object m.2

/-- The members of an object and the closing brace, where `R` says how a document is spelled. -/
inductive Members (R : Doc → List Char → Prop) : Bool → List (Option String × Doc) → List Char → Prop
  | close {first : Bool} {gap : List Char} (h : Blank gap) : Members R first [] (gap ++ ['}'])
  | member {first : Bool} {sep quoted gap gap' text more : List Char} {name : Option String} {x : Doc}
    {ms : List (Option String × Doc)} (hsep : Separator first sep) (hname : Quoted name quoted) (hgap : Blank gap)
    (hgap' : Blank gap') (hx : R x text) (hmore : Members R false ms more) :
    Members R first ((name, x) :: ms) (sep ++ (quoted ++ (gap ++ ':' :: (gap' ++ (text ++ more)))))

/-- Which characters spell a document. -/
inductive Spells : Doc → List Char → Prop
  | null : Spells .null ['n', 'u', 'l', 'l']
  | yes : Spells .scalar ['t', 'r', 'u', 'e']
  | no : Spells .scalar ['f', 'a', 'l', 's', 'e']
  | number {cs : List Char} (h : Magnitude cs) : Spells .scalar cs
  | negative {cs : List Char} (h : Magnitude cs) : Spells .scalar ('-' :: cs)
  | text {s : Option String} {cs : List Char} (h : Quoted s cs) : Spells (.text s) cs
  | list {xs : List Doc} {cs : List Char} (h : Items Spells true xs cs) : Spells (.list xs) ('[' :: cs)
  | object {ms : List (Option String × Doc)} {cs : List Char} (h : Members Spells true ms cs) :
    Spells (.object ms) ('{' :: cs)

/-- A report is a document with white space around it. -/
def WrittenAs (x : Doc) (report : String) : Prop :=
  ∃ before text after, Blank before ∧ x.Spells text ∧ Blank after ∧ report.toList = before ++ (text ++ after)

/-- With which characters a document may start. -/
def starts : Doc → Char → Prop
  | .null, c => c = 'n'
  | .scalar, c => c = 't' ∨ c = 'f' ∨ c = '-' ∨ isDigit c = true
  | .text _, c => c = '"'
  | .list _, c => c = '['
  | .object _, c => c = '{'

theorem Spells.exists_cons {x : Doc} {text : List Char} (h : x.Spells text) :
    ∃ c rest, text = c :: rest ∧ x.starts c := by
  cases h with
  | number h =>
    obtain ⟨d, ds, rfl, hd⟩ := h.exists_cons
    exact ⟨d, ds, rfl, Or.inr (Or.inr (Or.inr hd))⟩
  | text h =>
    cases h
    exact ⟨_, _, rfl, rfl⟩
  | negative => exact ⟨_, _, rfl, Or.inr (Or.inr (Or.inl rfl))⟩
  | yes => exact ⟨_, _, rfl, Or.inl rfl⟩
  | no => exact ⟨_, _, rfl, Or.inr (Or.inl rfl)⟩
  | _ => exact ⟨_, _, rfl, rfl⟩

theorem not_mem_of_numeral {c : Char} (hc : c = '-' ∨ isDigit c = true) {marks : List Char}
    (hmarks : (marks.all fun d => d != '-' && !isDigit d) = true) : c ∉ marks := by
  intro hmem
  have hmark := List.all_eq_true.1 hmarks c hmem
  rcases hc with rfl | hc
  · cases hmark
  · simp [hc] at hmark

/-- A document starts neither with white space nor with a mark that stands between documents. -/
theorem starts_ne {x : Doc} {c d : Char} (h : x.starts c) (hd : d ∈ [' ', '\n', '\t', '\r', ',', ':', ']', '}']) :
    c ≠ d := by
  rintro rfl
  cases x with
  | scalar =>
    rcases h with rfl | rfl | hc
    · exact absurd hd (by decide)
    · exact absurd hd (by decide)
    · exact not_mem_of_numeral hc (by decide) hd
  | _ =>
    obtain rfl := h
    exact absurd hd (by decide)

theorem isSpace_of_starts {x : Doc} {c : Char} (h : x.starts c) : isSpace c = false := by
  simp [isSpace, starts_ne h]

/-- Only documents of one kind start alike. -/
theorem eq_of_starts {x : Doc} {c : Char} (h : x.starts c) :
    (c = 'n' → x = .null) ∧ (c = '"' → ∃ s, x = .text s) ∧ (c = '[' → ∃ xs, x = .list xs) ∧
      (c = '{' → ∃ ms, x = .object ms) := by
  cases x with
  | scalar =>
    have hne (d : Char) (hd : d ∈ ['n', '"', '[', '{']) : c ≠ d := by
      rintro rfl
      rcases h with rfl | rfl | hc
      · exact absurd hd (by decide)
      · exact absurd hd (by decide)
      · exact not_mem_of_numeral hc (by decide) hd
    refine ⟨fun hc => ?_, fun hc => ?_, fun hc => ?_, fun hc => ?_⟩ <;> exact absurd hc (hne _ (by decide))
  | _ =>
    obtain rfl := h
    simp

end Doc

end LintDelta.Json
