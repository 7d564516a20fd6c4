import Mathlib.Tactic.IntervalCases
import LintDelta.Json.Printer
import LintDelta.Json.Skip

/-!
# Texts

What may stand between the quotes of a text, and the characters that it stands for (`Decodes`). A text whose escapes
give half of a surrogate pair stands for no characters. It can be passed over (`skipText_of_decodes`) but not read: the
reader of texts delivers the characters of a text exactly if there are some (`textBody_of_decodes`).

A character is written in one of three ways (`escapeChar_cases`), and each is an escape that stands for it; so a text is
read back from its quotes (`textBody_escaped`).
-/

namespace LintDelta.Json

theorem eq_ok_of_toOption {α ε : Type} {r : Except ε α} {v : α} (h : r.toOption = some v) : r = .ok v := by
  cases r with
  | error e => cases h
  | ok w =>
    cases h
    rfl

theorem toOption_bind {α β : Type} (r : Except Error α) (f : α → Except Error β) :
    (r >>= f).toOption = r.toOption.bind fun x => (f x).toOption := by
  cases r <;> rfl

/-! ## Escapes -/

/-- Four hexadecimal digits and the code unit that they give. -/
inductive HexUnit : List Char → Nat → Prop
  | mk {w x y z : Char} {a b c d : Nat} (hw : hexValue w = some a) (hx : hexValue x = some b) (hy : hexValue y = some c)
    (hz : hexValue z = some d) : HexUnit [w, x, y, z] (a * 4096 + b * 256 + c * 16 + d)

/-- The first half of a surrogate pair. -/
abbrev High (n : Nat) : Prop := 0xD800 ≤ n ∧ n ≤ 0xDBFF

/-- The second half of a surrogate pair. -/
abbrev Low (n : Nat) : Prop := 0xDC00 ≤ n ∧ n ≤ 0xDFFF

/-- What stands between the quotes of a text and the characters that it stands for, if it stands for any: a character
as it is, behind a backslash as a letter, or as one or two code units. -/
inductive Decodes : Option (List Char) → List Char → Prop
  | nil : Decodes (some []) []
  | plain {c : Char} {v : Option (List Char)} {body : List Char} (hquote : c ≠ '"') (hback : c ≠ '\\')
    (hcontrol : 0x20 ≤ c.toNat) (h : Decodes v body) : Decodes (v.map (c :: ·)) (c :: body)
  | letter {c e : Char} {v : Option (List Char)} {body : List Char} (he : shortEscape e = some c) (h : Decodes v body) :
    Decodes (v.map (c :: ·)) ('\\' :: e :: body)
  | unit {digits body : List Char} {n : Nat} {v : Option (List Char)} (hdigits : HexUnit digits n) (hhigh : ¬High n)
    (hlow : ¬Low n) (h : Decodes v body) : Decodes (v.map (Char.ofNat n :: ·)) ('\\' :: 'u' :: (digits ++ body))
  | pair {digits digits' body : List Char} {n m : Nat} {v : Option (List Char)} (hdigits : HexUnit digits n)
    (hhigh : High n) (hdigits' : HexUnit digits' m) (hlow : Low m) (h : Decodes v body) :
    Decodes (v.map (Char.ofNat ((n - 0xD800) * 0x400 + (m - 0xDC00) + 0x10000) :: ·))
      ('\\' :: 'u' :: (digits ++ '\\' :: 'u' :: (digits' ++ body)))
  /-- A half that stands alone: a second one, or a first one behind which no second one stands. -/
  | lone {digits body : List Char} {n : Nat} {v : Option (List Char)} (hdigits : HexUnit digits n)
    (hhalf : Low n ∨ High n ∧ ∀ digits' m body', HexUnit digits' m → Low m → body ≠ '\\' :: 'u' :: (digits' ++ body'))
    (h : Decodes v body) : Decodes none ('\\' :: 'u' :: (digits ++ body))

/-- A text in its quotes, with the characters that it stands for. -/
inductive Quoted : Option String → List Char → Prop
  | mk {v : Option (List Char)} {body : List Char} (h : Decodes v body) :
    Quoted (v.map String.ofList) ('"' :: (body ++ ['"']))

theorem codeUnit_append {digits : List Char} {n : Nat} (h : HexUnit digits n) (rest : List Char) :
    codeUnit (digits ++ rest) = .ok (n, rest) := by
  cases h with
  | mk hw hx hy hz => simp [codeUnit, hw, hx, hy, hz]

theorem ne_u_of_shortEscape {c e : Char} (h : shortEscape e = some c) : e ≠ 'u' := by
  rintro rfl
  cases h

section Escapes

variable {digits digits' rest : List Char} {n m : Nat}

theorem escapedUnit_of_unit (hdigits : HexUnit digits n) (hhigh : ¬High n) (hlow : ¬Low n) :
    escapedUnit (digits ++ rest) = .ok (Char.ofNat n, rest) := by
  have hsingle : n < 0xD800 ∨ 0xDBFF < n := by omega
  rw [escapedUnit, codeUnit_append hdigits]
  simp only [bind, Except.bind, pure, Except.pure, if_neg hlow, if_pos hsingle]

theorem escapedUnit_of_low (hdigits : HexUnit digits n) (hlow : Low n) :
    escapedUnit (digits ++ rest) = .error .loneSurrogate := by
  rw [escapedUnit, codeUnit_append hdigits]
  simp only [bind, Except.bind, if_pos hlow]
  rfl

theorem not_low_of_high (h : High n) : ¬Low n := by
  omega

theorem not_single_of_high (h : High n) : ¬(n < 0xD800 ∨ 0xDBFF < n) := by
  omega

/-- Behind the first half of a pair another escape must stand. -/
theorem escapedUnit_of_high (hdigits : HexUnit digits n) (hhigh : High n) :
    escapedUnit (digits ++ '\\' :: 'u' :: rest) = do
      let (low, rest) ← codeUnit rest
      if low < 0xDC00 ∨ 0xDFFF < low then throw .loneSurrogate
      return (Char.ofNat ((n - 0xD800) * 0x400 + (low - 0xDC00) + 0x10000), rest) := by
  rw [escapedUnit, codeUnit_append hdigits]
  simp only [bind, Except.bind, pure, Except.pure, if_neg (not_low_of_high hhigh), if_neg (not_single_of_high hhigh)]

theorem escapedUnit_of_pair (hdigits : HexUnit digits n) (hhigh : High n) (hdigits' : HexUnit digits' m) (hlow : Low m) :
    escapedUnit (digits ++ '\\' :: 'u' :: (digits' ++ rest)) =
      .ok (Char.ofNat ((n - 0xD800) * 0x400 + (m - 0xDC00) + 0x10000), rest) := by
  have hlow' : ¬(m < 0xDC00 ∨ 0xDFFF < m) := by omega
  rw [escapedUnit_of_high hdigits hhigh, codeUnit_append hdigits']
  simp only [bind, Except.bind, pure, Except.pure, if_neg hlow']

theorem escapedUnit_of_unpaired (hdigits : HexUnit digits n) (hhigh : High n) (hdigits' : HexUnit digits' m)
    (hlow : ¬Low m) : escapedUnit (digits ++ '\\' :: 'u' :: (digits' ++ rest)) = .error .loneSurrogate := by
  have hlow' : m < 0xDC00 ∨ 0xDFFF < m := by omega
  rw [escapedUnit_of_high hdigits hhigh, codeUnit_append hdigits']
  simp only [bind, Except.bind, if_pos hlow']
  rfl

/-- Behind the first half of a pair nothing else may stand. -/
theorem escapedUnit_of_cut (hdigits : HexUnit digits n) (hhigh : High n) (hrest : rest ≠ []) (hback : rest ≠ ['\\'])
    (hunit : ∀ more, rest ≠ '\\' :: 'u' :: more) : escapedUnit (digits ++ rest) = .error .cutEscape := by
  rw [escapedUnit, codeUnit_append hdigits]
  simp only [bind, Except.bind, if_neg (not_low_of_high hhigh), if_neg (not_single_of_high hhigh)]
  rfl

end Escapes

/-- **A half of a pair that stands alone is an error**, whatever stands behind it. -/
theorem escapedUnit_of_lone {digits body : List Char} {n : Nat} {v : Option (List Char)} (hdigits : HexUnit digits n)
    (hhalf : Low n ∨ High n ∧ ∀ digits' m body', HexUnit digits' m → Low m → body ≠ '\\' :: 'u' :: (digits' ++ body'))
    (h : Decodes v body) (rest : List Char) : (escapedUnit (digits ++ (body ++ '"' :: rest))).toOption = none := by
  rcases hhalf with hlow | ⟨hhigh, hlone⟩
  · rw [escapedUnit_of_low hdigits hlow]
    rfl
  -- what stands behind a first half is told by how the rest of the text goes on
  cases h with
  | nil =>
    rw [escapedUnit_of_cut hdigits hhigh (by simp) (by simp) (by simp)]
    rfl
  | plain hquote hback =>
    rw [escapedUnit_of_cut hdigits hhigh (by simp) (by simp [hback]) (by simp [hback])]
    rfl
  | letter he =>
    rw [escapedUnit_of_cut hdigits hhigh (by simp) (by simp) (by simp [ne_u_of_shortEscape he])]
    rfl
  | unit hdigits' _ hlow =>
    rw [List.cons_append, List.cons_append, List.append_assoc, escapedUnit_of_unpaired hdigits hhigh hdigits' hlow]
    rfl
  | pair hdigits' hhigh' =>
    rw [List.cons_append, List.cons_append, List.append_assoc,
      escapedUnit_of_unpaired hdigits hhigh hdigits' (not_low_of_high hhigh')]
    rfl
  | lone hdigits' hhalf' =>
    rcases hhalf' with hlow | ⟨hhigh', -⟩
    · exact absurd rfl (hlone _ _ _ hdigits' hlow)
    · rw [List.cons_append, List.cons_append, List.append_assoc,
        escapedUnit_of_unpaired hdigits hhigh hdigits' (not_low_of_high hhigh')]
      rfl

/-! ## One step of the readers -/

theorem textFrom_letter {steps : Nat} {e c : Char} {cs : List Char} (h : shortEscape e = some c) :
    textFrom (steps + 1) ('\\' :: e :: cs) = do
      let (more, rest) ← textFrom steps cs
      return (c :: more, rest) := by
  simp [textFrom, ne_u_of_shortEscape h, h]

theorem textFrom_unit {steps : Nat} {cs : List Char} :
    textFrom (steps + 1) ('\\' :: 'u' :: cs) = do
      let (c, rest) ← escapedUnit cs
      let (more, rest) ← textFrom steps rest
      return (c :: more, rest) :=
  rfl

theorem skipTextFrom_plain {steps : Nat} {c : Char} {cs : List Char} (hquote : c ≠ '"') (hback : c ≠ '\\')
    (hcontrol : 0x20 ≤ c.toNat) : skipTextFrom (steps + 1) (c :: cs) = skipTextFrom steps cs := by
  simp [skipTextFrom, hback, Nat.not_lt.2 hcontrol]

theorem skipTextFrom_letter {steps : Nat} {e c : Char} {cs : List Char} (h : shortEscape e = some c) :
    skipTextFrom (steps + 1) ('\\' :: e :: cs) = skipTextFrom steps cs := by
  simp [skipTextFrom, ne_u_of_shortEscape h, h]

/-! ## Texts as they are read -/

theorem toOption_cons {r : Except Error (List Char × List Char)} {v : Option (List Char)} {rest : List Char}
    (h : r.toOption = v.map (·, rest)) (c : Char) :
    (do
      let (more, rest) ← r
      return (c :: more, rest) : Except Error (List Char × List Char)).toOption = (v.map (c :: ·)).map (·, rest) := by
  rw [toOption_bind, h]
  cases v <;> rfl

/-- **A text is read exactly if it stands for characters**, by induction on what stands between its quotes. -/
theorem textFrom_of_decodes {v : Option (List Char)} {body : List Char} (h : Decodes v body) (rest : List Char)
    {steps : Nat} (hsteps : body.length < steps) :
    (textFrom steps (body ++ '"' :: rest)).toOption = v.map (·, rest) := by
  induction h generalizing steps with
  | nil =>
    obtain ⟨k, rfl⟩ := Nat.exists_eq_add_of_lt hsteps
    rfl
  | @plain c v body hquote hback hcontrol h ih =>
    obtain ⟨k, rfl⟩ : ∃ k, steps = k + 1 := ⟨steps - 1, by omega⟩
    rw [List.cons_append, textFrom_plain hquote hback hcontrol]
    exact toOption_cons (ih (Nat.lt_of_succ_lt_succ hsteps)) c
  | @letter c e v body he h ih =>
    obtain ⟨k, rfl⟩ : ∃ k, steps = k + 1 := ⟨steps - 1, by omega⟩
    have hk : body.length < k := by
      simp only [List.length_cons] at hsteps
      omega
    rw [List.cons_append, List.cons_append, textFrom_letter he]
    exact toOption_cons (ih hk) c
  | unit hdigits hhigh hlow h ih =>
    obtain ⟨k, rfl⟩ : ∃ k, steps = k + 1 := ⟨steps - 1, by omega⟩
    simp only [List.length_cons, List.length_append] at hsteps
    rw [List.cons_append, List.cons_append, List.append_assoc, textFrom_unit,
      escapedUnit_of_unit hdigits hhigh hlow]
    exact toOption_cons (ih (by omega)) _
  | pair hdigits hhigh hdigits' hlow h ih =>
    obtain ⟨k, rfl⟩ : ∃ k, steps = k + 1 := ⟨steps - 1, by omega⟩
    simp only [List.length_cons, List.length_append] at hsteps
    rw [List.cons_append, List.cons_append, List.append_assoc, textFrom_unit, List.cons_append, List.cons_append,
      List.append_assoc, escapedUnit_of_pair hdigits hhigh hdigits' hlow]
    exact toOption_cons (ih (by omega)) _
  | lone hdigits hhalf h ih =>
    obtain ⟨k, rfl⟩ : ∃ k, steps = k + 1 := ⟨steps - 1, by omega⟩
    rw [List.cons_append, List.cons_append, List.append_assoc, textFrom_unit, toOption_bind,
      escapedUnit_of_lone hdigits hhalf h]
    rfl

theorem textBody_of_decodes {v : Option (List Char)} {body : List Char} (h : Decodes v body) (rest : List Char) :
    (textBody (body ++ '"' :: rest)).toOption = (v.map String.ofList).map (·, rest) := by
  have hsteps : body.length < (body ++ '"' :: rest).length := by
    rw [List.length_append, List.length_cons]
    omega
  rw [textBody, toOption_bind, textFrom_of_decodes h rest hsteps]
  cases v <;> rfl

/-- **Every text is passed over**, whatever its escapes give. -/
theorem skipTextFrom_of_decodes {v : Option (List Char)} {body : List Char} (h : Decodes v body) (rest : List Char)
    {steps : Nat} (hsteps : body.length < steps) : skipTextFrom steps (body ++ '"' :: rest) = .ok rest := by
  induction h generalizing steps with
  | nil =>
    obtain ⟨k, rfl⟩ := Nat.exists_eq_add_of_lt hsteps
    rfl
  | @plain c v body hquote hback hcontrol h ih =>
    obtain ⟨k, rfl⟩ : ∃ k, steps = k + 1 := ⟨steps - 1, by omega⟩
    rw [List.cons_append, skipTextFrom_plain hquote hback hcontrol]
    exact ih (Nat.lt_of_succ_lt_succ hsteps)
  | @letter c e v body he h ih =>
    obtain ⟨k, rfl⟩ : ∃ k, steps = k + 1 := ⟨steps - 1, by omega⟩
    simp only [List.length_cons] at hsteps
    rw [List.cons_append, List.cons_append, skipTextFrom_letter he]
    exact ih (by omega)
  | unit hdigits hhigh hlow h ih =>
    obtain ⟨k, rfl⟩ : ∃ k, steps = k + 1 := ⟨steps - 1, by omega⟩
    simp only [List.length_cons, List.length_append] at hsteps
    rw [List.cons_append, List.cons_append, List.append_assoc, skipTextFrom, codeUnit_append hdigits]
    exact ih (by omega)
  | pair hdigits hhigh hdigits' hlow h ih =>
    -- two escapes, so two steps
    obtain ⟨k, rfl⟩ : ∃ k, steps = k + 2 := ⟨steps - 2, by simp only [List.length_cons, List.length_append] at hsteps; omega⟩
    simp only [List.length_cons, List.length_append] at hsteps
    rw [List.cons_append, List.cons_append, List.append_assoc, skipTextFrom, codeUnit_append hdigits]
    simp only [bind, Except.bind, List.cons_append, List.append_assoc]
    rw [skipTextFrom, codeUnit_append hdigits']
    exact ih (by omega)
  | lone hdigits hhalf h ih =>
    obtain ⟨k, rfl⟩ : ∃ k, steps = k + 1 := ⟨steps - 1, by omega⟩
    simp only [List.length_cons, List.length_append] at hsteps
    rw [List.cons_append, List.cons_append, List.append_assoc, skipTextFrom, codeUnit_append hdigits]
    exact ih (by omega)

theorem skipText_of_decodes {v : Option (List Char)} {body : List Char} (h : Decodes v body) (rest : List Char) :
    skipText (body ++ '"' :: rest) = .ok rest := by
  have hsteps : body.length < (body ++ '"' :: rest).length := by
    rw [List.length_append, List.length_cons]
    omega
  exact skipTextFrom_of_decodes h rest hsteps

/-! ## Texts as they are written -/

/-- **How a character is written**: behind a backslash as a letter, as a code unit, or as it is. -/
theorem escapeChar_cases (c : Char) :
    (∃ e, e ≠ 'u' ∧ shortEscape e = some c ∧ (escapeChar c).toList = ['\\', e]) ∨
    (c.toNat < 0x20 ∧ (escapeChar c).toList = '\\' :: 'u' :: (fourDigits c.toNat).toList) ∨
    (c ≠ '"' ∧ c ≠ '\\' ∧ 0x20 ≤ c.toNat ∧ (escapeChar c).toList = [c]) := by
  have hcode : ∀ {n : Nat}, c.toNat = n → some (Char.ofNat n) = some c := by
    intro n h
    rw [← h, Char.ofNat_toNat]
  unfold escapeChar
  split
  · next hc => exact Or.inl ⟨'"', by decide, by rw [hc]; rfl, rfl⟩
  split
  · next hc => exact Or.inl ⟨'\\', by decide, by rw [hc]; rfl, rfl⟩
  split
  · next hc => exact Or.inl ⟨'b', by decide, hcode hc, rfl⟩
  split
  · next hc => exact Or.inl ⟨'f', by decide, hcode hc, rfl⟩
  split
  · next hc => exact Or.inl ⟨'n', by decide, by rw [hc]; rfl, rfl⟩
  split
  · next hc => exact Or.inl ⟨'r', by decide, by rw [hc]; rfl, rfl⟩
  split
  · next hc => exact Or.inl ⟨'t', by decide, by rw [hc]; rfl, rfl⟩
  split
  · next hc => exact Or.inr (Or.inl ⟨hc, by rw [String.toList_append]; rfl⟩)
  · next hquote hback _ _ _ _ _ hcontrol =>
    exact Or.inr (Or.inr ⟨hquote, hback, Nat.not_lt.1 hcontrol, by simp⟩)

theorem hexUnit_of_codeUnit {digits : List Char} {n : Nat} (h : codeUnit digits = .ok (n, [])) : HexUnit digits n := by
  unfold codeUnit at h
  split at h
  · next w x y z rest =>
    split at h
    · next a b c d hw hx hy hz =>
      cases h
      exact .mk hw hx hy hz
    · cases h
  · cases h

theorem hexUnit_fourDigits {n : Nat} (h : n < 0x20) : HexUnit (fourDigits n).toList n :=
  hexUnit_of_codeUnit (by interval_cases n <;> rfl)

/-- What stands between the quotes of a text. -/
def escaped (s : String) : List Char :=
  s.toList.flatMap fun c => (escapeChar c).toList

theorem toList_writeText (s : String) : (writeText s).toList = '"' :: (escaped s ++ ['"']) := by
  simp [writeText, escaped, String.toList_append, List.flatMap_map]

/-- Characters are what their escapes stand for. -/
theorem decodes_escaped (cs : List Char) : Decodes (some cs) (cs.flatMap fun c => (escapeChar c).toList) := by
  induction cs with
  | nil => exact .nil
  | cons c cs ih =>
    rw [List.flatMap_cons]
    rcases escapeChar_cases c with ⟨e, -, he, hc⟩ | ⟨hlt, hc⟩ | ⟨hquote, hback, hcontrol, hc⟩ <;> rw [hc]
    · exact .letter he ih
    · have hunit := Decodes.unit (hexUnit_fourDigits hlt) (by omega) (by omega) ih
      rwa [Char.ofNat_toNat] at hunit
    · exact .plain hquote hback hcontrol ih

/-- **A text is read back** from what stands behind its opening quote. -/
theorem textBody_escaped (s : String) (rest : List Char) :
    textBody (escaped s ++ '"' :: rest) = .ok (s, rest) := by
  have hread := textBody_of_decodes (decodes_escaped s.toList) rest
  rw [Option.map_some, Option.map_some, String.ofList_toList] at hread
  exact eq_ok_of_toOption hread

end LintDelta.Json
