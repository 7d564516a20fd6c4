import LintDelta.Proofs.Json.Agreement
import LintDelta.Proofs.Linter.Judging
import LintDelta.Proofs.Partial
import LintDelta.Proofs.Tally.Folding

/-!
# Reports as documents

The findings of a report that is a JSON document are those of what the document is in the shape of the tool
(`Findings.toOption_shaped`), and the report has a tally if there are some (`Tool.exists_tally_of_findings`).

What a document is in a shape is a tuple of fields. Proofs about reports speak of what stands in the document instead:
`Shape.Agrees` says that looking at a document and reading it in a shape come to the same, field by field.
-/

namespace LintDelta

open Json (Doc Shape Fields)

/-! ## Findings of a report -/

theorem isBlank_of_isDigit {c : Char} (h : Json.isDigit c = true) : Text.isBlank c = false := by
  have hle : 48 ≤ c.toNat ∧ c.toNat ≤ 57 := by
    simpa [Json.isDigit, Char.le_def, UInt32.le_iff_toNat_le] using h
  simp only [Text.isBlank, Bool.or_eq_false_iff, Bool.and_eq_false_iff, decide_eq_false_iff_not, beq_eq_false_iff_ne]
  omega

/-- No document starts with a blank. -/
theorem Json.Doc.isBlank_of_starts {x : Doc} {c : Char} (h : x.starts c) : Text.isBlank c = false := by
  cases x with
  | scalar =>
    rcases h with rfl | rfl | rfl | hc
    · decide
    · decide
    · decide
    · exact isBlank_of_isDigit hc
  | _ =>
    obtain rfl := h
    decide

theorem Json.Doc.WrittenAs.not_blank {x : Doc} {report : String} (h : x.WrittenAs report) :
    Text.isBlankText report = false := by
  obtain ⟨before, text, after, -, htext, -, hreport⟩ := h
  obtain ⟨c, cs, rfl, hc⟩ := htext.exists_cons
  rw [Text.isBlankText, hreport, List.all_eq_false]
  exact ⟨c, by simp, by rw [Doc.isBlank_of_starts hc]; decide⟩

theorem Json.Doc.WrittenAs.le_length {x : Doc} {report : String} (h : x.WrittenAs report) {n : Nat} (hn : x.Takes n) :
    n ≤ report.length := by
  obtain ⟨before, text, after, -, htext, -, hreport⟩ := h
  have := hn text htext
  rw [← String.length_toList, hreport]
  simp only [List.length_append]
  omega

/-- **The findings of a report** are those of what its document is in the shape of the tool. -/
theorem Findings.toOption_shaped {shape : Shape} (hshape : shape.isReport = true) (issues : shape.Val → List Issue)
    {x : Doc} {report : String} (h : x.WrittenAs report) :
    (shaped shape issues report).toOption = (shape.ofDoc? x).map issues := by
  rw [shaped, h.not_blank, if_neg (by decide), ← Shape.toOption_readText hshape h]
  cases shape.readText report <;> rfl

/-- A report that cannot be read has no tally. -/
theorem Tool.exists_error_of_findings {tool : Tool} {report : String} (h : (tool.findings report).toOption = none) :
    ∃ e, tool.parseReport report = .error e := by
  unfold parseReport
  cases hfindings : tool.findings report with
  | ok issues =>
    rw [hfindings] at h
    cases h
  | error e => exact ⟨e, rfl⟩

/-- A report that can be read is the tally of its findings, if there are fewer than 2^63 of them. -/
theorem Tool.exists_tally_of_findings {tool : Tool} {report : String} {issues : List Issue}
    (h : (tool.findings report).toOption = some issues) (hlength : issues.length < 2 ^ 63) :
    ∃ t, tool.parseReport report = .ok t ∧ ∀ i, t.count i = issues.count i := by
  obtain ⟨t, ht⟩ := Tally.exists_ofIssues hlength
  exact ⟨t, parseReport_eq_ok_iff.2 ⟨issues, Json.eq_ok_of_toOption h, ht⟩, Tally.count_ofIssues ht⟩

/-! ## Looking and reading -/

namespace Json.Shape

variable {α : Type}

/-- What is found by looking at a document is what is made of its value in a shape. -/
def Agrees (shape : Shape) (make : shape.Val → α) (look? : Doc → Option α) : Prop :=
  ∀ x v, look? x = some v → (shape.ofDoc? x).map make = some v

theorem agrees_text (wanted : String) : (text wanted).Agrees id Doc.text? := by
  intro x v h
  show x.text?.map id = some v
  rw [h]
  rfl

section

variable {shape : Shape} {make : shape.Val → α} {look? : Doc → Option α}

theorem Agrees.mapM (h : shape.Agrees make look?) {xs : List Doc} {vs : List α} (hvs : xs.mapM look? = some vs) :
    (xs.mapM fun x => shape.ofDoc? x).map (List.map make) = some vs := by
  rw [map_mapM]
  exact mapM_mono h hvs

/-- The same for what stands under a name. -/
theorem Agrees.at? (h : shape.Agrees make look?) {key : String} {x : Doc} {v : α}
    (hv : x.at? none look? key = some v) : (x.at? none (fun x => shape.ofDoc? x) key).map make = some v := by
  obtain ⟨ms, rfl, -⟩ := Doc.exists_of_at? hv
  rw [Doc.at?] at hv ⊢
  cases hlegible : Doc.legible ms with
  | false =>
    rw [hlegible] at hv
    cases hv
  | true =>
    rw [hlegible, if_pos rfl] at hv
    rw [if_pos rfl]
    obtain ⟨y, hunder, hy⟩ := Doc.once_none_eq_some_iff.1 hv
    rw [hunder]
    exact h y v hy

/-- A record of one field that must be there. -/
theorem Agrees.required (h : shape.Agrees make look?) (wanted key : String) :
    (record wanted (.required key shape .nil)).Agrees (fun v => make v.1) (Doc.at? none look? key) := by
  intro x v hv
  have hat := h.at? hv
  obtain ⟨ms, rfl, -⟩ := Doc.exists_of_at? hv
  have hlast := (ofDoc?_required wanted key .nil ms shape).trans (at?_last wanted key ms _ _)
  exact (congrArg (Option.map _) hlast).trans ((Option.map_map ..).trans hat)

/-- A record of one text that may be missing or `null`. -/
theorem agrees_optionalText (wanted key : String) (what : String) :
    (record wanted (.optional key (text what) .nil)).Agrees (fun v => v.1) (Doc.optionalTextAt? key) := by
  intro x v hv
  obtain ⟨ms, rfl, -⟩ := Doc.exists_of_at? hv
  have hlast := (ofDoc?_optional wanted key .nil ms (text what)).trans (at?_last wanted key ms _ _)
  exact (congrArg (Option.map _) hlast).trans ((Option.map_map ..).trans ((congrFun Option.map_id _).trans hv))

/-- A record of one list. -/
theorem Agrees.listed (h : shape.Agrees make look?) (wanted key : String) :
    (record wanted (.listed key shape .nil)).Agrees (fun v => v.1.map make) fun x =>
      (x.listAt? key).bind fun xs => xs.mapM look? := by
  intro x vs hvs
  obtain ⟨xs, hxs, hvs⟩ := Option.bind_eq_some_iff.1 hvs
  have hlist := ofDoc?_of_listAt? wanted shape hxs
  exact (congrArg (Option.map _) hlist).trans ((Option.map_map ..).trans (h.mapM hvs))

/-- A field in front of others. -/
theorem Agrees.pair (h : shape.Agrees make look?) {wanted key : String} {rest : Fields} {β γ : Type}
    {make' : (record wanted rest).Val → β} {look'? : Doc → Option β} (h' : (record wanted rest).Agrees make' look'?)
    (f : α → β → γ) :
    (record wanted (.required key shape rest)).Agrees (fun v => f (make v.1) (make' v.2)) fun x =>
      (x.at? none look? key).bind fun v => (look'? x).map (f v) := by
  intro x _ hpair
  obtain ⟨a, ha, hpair⟩ := Option.bind_eq_some_iff.1 hpair
  obtain ⟨b, hb, rfl⟩ := Option.map_eq_some_iff.1 hpair
  obtain ⟨ms, rfl, -⟩ := Doc.exists_of_at? ha
  obtain ⟨v, hv, rfl⟩ := Option.map_eq_some_iff.1 (h.at? ha)
  obtain ⟨w, hw, rfl⟩ := Option.map_eq_some_iff.1 (h' _ b hb)
  refine (congrArg (Option.map _) (ofDoc?_required wanted key rest ms shape)).trans ?_
  rw [hv, hw]
  rfl

end

end Json.Shape

end LintDelta
