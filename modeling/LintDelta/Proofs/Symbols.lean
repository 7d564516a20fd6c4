import LintDelta.Issue
import LintDelta.Proofs.Text.Lines

/-!
# Symbols

A native name becomes a symbol in two steps that look at different characters. Trimming takes every Unicode
blank from the ends; after it, dashes replace two ASCII characters wherever they stand. The second step does
not undo the first, since a dash is no blank, and a text on which both have no work stays as it is
(`normalizeSymbol_eq_self_iff`). So naming is a projection, and an issue can be made again from its own parts.

Main statement: `projection_of_normalizeSymbol`.
-/

namespace LintDelta.Issue

/-! ## Characters -/

/-- What a character of a trimmed name becomes. -/
def dash (c : Char) : Char := if c = ' ' || c = '/' then '-' else c

theorem dash_of_ne {c : Char} (hspace : c ≠ ' ') (hslash : c ≠ '/') : dash c = c := by
  simp [dash, hspace, hslash]

theorem dash_of_eq {c : Char} (h : c = ' ' ∨ c = '/') : dash c = '-' := by
  rcases h with rfl | rfl <;> rfl

/-- What a character becomes is blank only if the character is. -/
theorem isBlank_dash {c : Char} (h : Text.isBlank c = false) : Text.isBlank (dash c) = false := by
  unfold dash
  split
  · decide
  · exact h

/-! ## Names -/

theorem toList_normalizeSymbol (native : String) :
    (normalizeSymbol native).toList = (Text.trim native).toList.map dash := by
  rw [normalizeSymbol, String.toList_ofList, Text.toList_trim]
  rfl

theorem getElem?_normalizeSymbol {native : String} {k : Nat} {c : Char}
    (h : (Text.trim native).toList[k]? = some c) : (normalizeSymbol native).toList[k]? = some (dash c) := by
  rw [toList_normalizeSymbol, List.getElem?_map, h, Option.map_some]

theorem length_normalizeSymbol (native : String) : (normalizeSymbol native).length = (Text.trim native).length := by
  rw [← String.length_toList, toList_normalizeSymbol, List.length_map, String.length_toList]

/-- **The ends of a symbol are no blanks**: those of the trimmed name are none, and dashes make none. -/
theorem trimmed_normalizeSymbol (native : String) : Text.Trimmed (normalizeSymbol native).toList := by
  rw [toList_normalizeSymbol, Text.toList_trim]
  exact (Text.trimmed_trimChars native.toList).map fun _ => isBlank_dash

/-- **The texts that are their own symbols** are those with nothing to trim and nothing to replace. -/
theorem normalizeSymbol_eq_self_iff {s : String} :
    normalizeSymbol s = s ↔ (∀ c ∈ s.toList, c ≠ ' ' ∧ c ≠ '/') ∧ Text.Trimmed s.toList := by
  constructor
  · intro h
    rw [← h]
    exact ⟨fun _ => ne_of_mem_normalizeSymbol, trimmed_normalizeSymbol s⟩
  · rintro ⟨hplain, htrimmed⟩
    -- neither step finds anything to do
    have hdash : s.toList.map dash = s.toList := by
      rw [List.map_congr_left fun c hc => dash_of_ne (hplain c hc).1 (hplain c hc).2, List.map_id']
    rw [← String.toList_inj, toList_normalizeSymbol, Text.toList_trim, htrimmed.trimChars_eq, hdash]

theorem normalizeSymbol_normalizeSymbol (native : String) :
    normalizeSymbol (normalizeSymbol native) = normalizeSymbol native :=
  normalizeSymbol_eq_self_iff.2 ⟨fun _ => ne_of_mem_normalizeSymbol, trimmed_normalizeSymbol native⟩

/-- An issue that was made from a native name is what its own parts make. -/
theorem ofNative_symbol (native linter : String) (category : Category) :
    ofNative (ofNative native linter category).symbol linter category = ofNative native linter category := by
  simp only [ofNative, normalizeSymbol_normalizeSymbol]

/-- **Naming is a projection.** The symbol of a native name holds neither spaces nor slashes, and neither end is a
blank. It is as long as the trimmed name, has a dash where that has a space or a slash, and agrees with it at every
other character. The texts that are their own symbols are those without spaces, slashes and blank ends. So a symbol
named again stays what it is, and an issue that was made from a native name is what its own parts make. -/
theorem projection_of_normalizeSymbol :
    (∀ native : String,
      (∀ c ∈ (normalizeSymbol native).toList, c ≠ ' ' ∧ c ≠ '/') ∧
      Text.Trimmed (normalizeSymbol native).toList ∧
      (∀ body, Text.Trims native.toList body ↔ body = (Text.trim native).toList) ∧
      (normalizeSymbol native).length = (Text.trim native).length ∧
      (∀ (k : Nat) (c : Char), (Text.trim native).toList[k]? = some c →
        (c ≠ ' ' → c ≠ '/' → (normalizeSymbol native).toList[k]? = some c) ∧
        (c = ' ' ∨ c = '/' → (normalizeSymbol native).toList[k]? = some '-')) ∧
      normalizeSymbol (normalizeSymbol native) = normalizeSymbol native) ∧
    (∀ s : String, normalizeSymbol s = s ↔
      (∀ c ∈ s.toList, c ≠ ' ' ∧ c ≠ '/') ∧ Text.Trimmed s.toList) ∧
    ∀ (native linter : String) (category : Category) (i : Issue), i = ofNative native linter category →
      ofNative i.symbol i.linter i.category = i := by
  refine ⟨fun native => ?_, fun _ => normalizeSymbol_eq_self_iff, ?_⟩
  · refine ⟨fun _ => ne_of_mem_normalizeSymbol, trimmed_normalizeSymbol native, fun body => ?_,
      length_normalizeSymbol native, fun k c hc => ?_, normalizeSymbol_normalizeSymbol native⟩
    · rw [Text.toList_trim]
      exact Text.trims_iff
    · have hk : (normalizeSymbol native).toList[k]? = some (dash c) := getElem?_normalizeSymbol hc
      constructor
      · intro hspace hslash
        rw [hk, dash_of_ne hspace hslash]
      · intro h
        rw [hk, dash_of_eq h]
  · rintro native linter category i rfl
    exact ofNative_symbol native linter category

/-- A name between blanks that are not ASCII, with a slash at one of its ends and a tab inside. -/
def slashed : String := "\u2003/ Use\tfoldr /build \u0085"

/-- The tab stays, and the slash at the end of the trimmed name is a dash. -/
theorem projection_of_normalizeSymbol_of_slashed :
    normalizeSymbol slashed = "--Use\tfoldr--build" ∧
    (Text.trim slashed).toList[5]? = some '\t' ∧ (normalizeSymbol slashed).toList[5]? = some '\t' ∧
    (Text.trim slashed).toList[0]? = some '/' ∧ (normalizeSymbol slashed).toList[0]? = some '-' ∧
    (normalizeSymbol slashed).toList.head? = some '-' ∧ Text.isBlank '-' = false ∧
    '\t' ∈ (normalizeSymbol slashed).toList ∧ '\t' ≠ ' ' ∧
    Text.Trims slashed.toList (Text.trim slashed).toList ∧
    normalizeSymbol "--Use\tfoldr--build" = "--Use\tfoldr--build" ∧
    ofNative "--Use\tfoldr--build" "HLint" .hint = ofNative slashed "HLint" .hint := by
  obtain ⟨hplain, htrimmed, htrims, -, hplaces, hagain⟩ := projection_of_normalizeSymbol.1 slashed
  have hsymbol : normalizeSymbol slashed = "--Use\tfoldr--build" := by decide +kernel
  have htab : (Text.trim slashed).toList[5]? = some '\t' := by decide +kernel
  have hslash : (Text.trim slashed).toList[0]? = some '/' := by decide +kernel
  have hhead : (normalizeSymbol slashed).toList.head? = some '-' := by decide +kernel
  have hmem : '\t' ∈ (normalizeSymbol slashed).toList := by decide +kernel
  have hissue : ofNative (normalizeSymbol slashed) "HLint" .hint = ofNative slashed "HLint" .hint :=
    projection_of_normalizeSymbol.2.2 slashed "HLint" .hint (ofNative slashed "HLint" .hint) rfl
  rw [hsymbol] at hagain hissue
  exact ⟨hsymbol, htab, (hplaces 5 '\t' htab).1 (by decide) (by decide), hslash, (hplaces 0 '/' hslash).2 (.inr rfl),
    hhead, htrimmed.head '-' hhead, hmem, (hplain '\t' hmem).1, (htrims _).2 rfl, hagain, hissue⟩

end LintDelta.Issue
