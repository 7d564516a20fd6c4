import LintDelta.Proofs.Json.Compact
import LintDelta.Proofs.Json.Likeness
import LintDelta.Proofs.Linter.Lines
import LintDelta.Proofs.Linter.Reports

/-!
# Grades in other spellings

A tool grades its findings in words, and the same word is spelled with blanks, hyphens or underscores in it, or with
capitals. A category is found for what is left of a word without them, in small letters, so respelling a word does
not move it to another category (`Category.ofNative_of_respelling`). Two reports that differ in the spelling of
grades at most list the same issues.

In a JSON report a grade is a text of its own and may be respelled in any way. Cppcheck writes it as one of the two
words of a line: with a blank in it, it is no longer a grade, and the line no longer a row.

Main statement: `Tool.parseReport_of_regraded`.
-/

namespace LintDelta

open Text (Lined Row)

/-! ## Spellings of a grade -/

namespace Category

/-- A character that does not count in a grade: a blank, a hyphen or an underscore. -/
def IsSeparator (c : Char) : Prop :=
  Text.isBlank c = true ∨ c = '-' ∨ c = '_'

/-- Another spelling: separators are put in or left out anywhere, and ASCII letters change their case. -/
inductive Respelling : List Char → List Char → Prop
  | nil : Respelling [] []
  | keep {c d : Char} {cs ds : List Char} (h : c.toLower = d.toLower) (rest : Respelling cs ds) :
    Respelling (c :: cs) (d :: ds)
  | insert {d : Char} {cs ds : List Char} (h : IsSeparator d) (rest : Respelling cs ds) : Respelling cs (d :: ds)
  | delete {c : Char} {cs ds : List Char} (h : IsSeparator c) (rest : Respelling cs ds) : Respelling (c :: cs) ds

def Respelled (s t : String) : Prop := Respelling s.toList t.toList

/-- An ASCII letter. -/
def IsLetter (c : Char) : Prop :=
  (65 ≤ c.toNat ∧ c.toNat ≤ 90) ∨ (97 ≤ c.toNat ∧ c.toNat ≤ 122)

theorem toNat_toLower (c : Char) :
    c.toLower.toNat = if 65 ≤ c.toNat ∧ c.toNat ≤ 90 then c.toNat + 32 else c.toNat := by
  unfold Char.toLower
  by_cases h : c.val ≥ 'A'.val ∧ c.val ≤ 'Z'.val
  · have hcapital : 65 ≤ c.toNat ∧ c.toNat ≤ 90 := h
    have hle : c.val.toNat ≤ 90 := hcapital.2
    rw [dif_pos h, if_pos hcapital]
    show (c.val.toNat + 32) % 2 ^ 32 = c.val.toNat + 32
    omega
  · have hother : ¬(65 ≤ c.toNat ∧ c.toNat ≤ 90) := h
    rw [dif_neg h, if_neg hother]

/-- Only letters change with their case. -/
theorem eq_or_isLetter_of_toLower {c d : Char} (h : c.toLower = d.toLower) : c = d ∨ (IsLetter c ∧ IsLetter d) := by
  have hnat := congrArg Char.toNat h
  rw [toNat_toLower, toNat_toLower] at hnat
  by_cases heq : c.toNat = d.toNat
  · exact Or.inl (Char.toNat_inj.1 heq)
  · right
    unfold IsLetter
    split at hnat <;> split at hnat <;> omega

theorem not_isSeparator_of_isLetter {c : Char} (h : IsLetter c) : ¬IsSeparator c := by
  unfold IsLetter at h
  rintro (hblank | rfl | rfl)
  · simp only [Text.isBlank, Bool.or_eq_true, Bool.and_eq_true, decide_eq_true_eq, beq_iff_eq] at hblank
    omega
  · simp at h
  · simp at h

/-- The characters that count, in small letters. -/
def letters (cs : List Char) : List Char :=
  (cs.filter fun c => !Text.isBlank c && c != '-' && c != '_').flatMap Text.lowerChar

theorem key_eq (native : String) : key native = String.ofList (letters native.toList) := rfl

theorem letters_cons_of_isSeparator {c : Char} (h : IsSeparator c) (cs : List Char) :
    letters (c :: cs) = letters cs := by
  have hout : (!Text.isBlank c && c != '-' && c != '_') = false := by
    rcases h with h | rfl | rfl
    · simp [h]
    · rfl
    · rfl
  rw [letters, List.filter_cons_of_neg (by simp [hout]), letters]

theorem letters_cons_of_not_isSeparator {c : Char} (h : ¬IsSeparator c) (cs : List Char) :
    letters (c :: cs) = Text.lowerChar c ++ letters cs := by
  have hin : (!Text.isBlank c && c != '-' && c != '_') = true := by
    simpa [IsSeparator, and_assoc] using h
  rw [letters, List.filter_cons_of_pos (by simpa using hin), List.flatMap_cons, letters]

/-- Characters that respell each other have the same letters. -/
theorem letters_of_respelling {cs ds : List Char} (h : Respelling cs ds) : letters cs = letters ds := by
  induction h with
  | nil => rfl
  | insert h _ ih => rw [letters_cons_of_isSeparator h, ih]
  | delete h _ ih => rw [letters_cons_of_isSeparator h, ih]
  | @keep c d cs ds h _ ih =>
    rcases eq_or_isLetter_of_toLower h with rfl | ⟨hc, hd⟩
    · by_cases hsep : IsSeparator c
      · rw [letters_cons_of_isSeparator hsep, letters_cons_of_isSeparator hsep, ih]
      · rw [letters_cons_of_not_isSeparator hsep, letters_cons_of_not_isSeparator hsep, ih]
    · have hascii {e : Char} (he : IsLetter e) : e.toNat < 0x80 := by
        unfold IsLetter at he
        omega
      rw [letters_cons_of_not_isSeparator (not_isSeparator_of_isLetter hc),
        letters_cons_of_not_isSeparator (not_isSeparator_of_isLetter hd), ih,
        Text.lowerChar_of_ascii (hascii hc), Text.lowerChar_of_ascii (hascii hd), h]

/-- **Respelling a grade does not change its category.** -/
theorem ofNative_of_respelled {s t : String} (h : Respelled s t) : ofNative s = ofNative t := by
  have hkey : key s = key t := by rw [key_eq, key_eq, letters_of_respelling h]
  unfold ofNative
  rw [hkey]

end Category

/-! ## Reports that differ in grades -/

namespace Findings

open Category (Respelled Respelling)
open Json (Shape Fields Doc)

/-- JSON reports that differ in the spelling of the texts under `grade` at most, but for members that do not count. -/
def Regraded (shape : Shape) (grade : String) (report report' : String) : Prop :=
  ∃ x y : Doc, x.WrittenAs report ∧ y.WrittenAs report' ∧ shape.AlikeDocs grade Respelled false x y

/-- Such reports list the same issues, if respelling a grade of a finding leaves its issue as it is. -/
theorem toOption_shaped_of_regraded {shape : Shape} (hshape : shape.isReport = true) {issues : shape.Val → List Issue}
    {grade : String} (hissues : ∀ v w, shape.AlikeVals grade Respelled false v w → issues v = issues w)
    {report report' : String} (h : Regraded shape grade report report') :
    (shaped shape issues report).toOption = (shaped shape issues report').toOption := by
  obtain ⟨x, y, hx, hy, halike⟩ := h
  rw [toOption_shaped hshape issues hx, toOption_shaped hshape issues hy]
  exact Json.map_eq_of_rel hissues (shape.rel_ofDoc? halike)

/-- What is made alike of elements that are alike is the same list. -/
theorem map_eq_of_forall₂ {α β : Type} {R : α → α → Prop} {f : α → β} {xs ys : List α} (h : List.Forall₂ R xs ys)
    (hf : ∀ x y, R x y → f x = f y) : xs.map f = ys.map f := by
  induction h with
  | nil => rfl
  | cons hxy _ ih => rw [List.map_cons, List.map_cons, hf _ _ hxy, ih]

/-- An ungraded text is the same in both reports. -/
theorem eq_of_alikeVals {wanted grade s t : String} {graded : Bool} (hgraded : graded = false)
    (h : (Shape.text wanted).AlikeVals grade Respelled graded s t) : s = t := by
  rcases h with h | ⟨htrue, -⟩
  · exact h
  · rw [hgraded] at htrue
    cases htrue

/-- A graded text has the same category in both. -/
theorem ofNative_of_alikeVals {wanted grade s t : String} {graded : Bool}
    (h : (Shape.text wanted).AlikeVals grade Respelled graded s t) :
    Category.ofNative s = Category.ofNative t := by
  rcases h with rfl | ⟨-, h⟩
  · rfl
  · exact Category.ofNative_of_respelled h

/-- The shape of a finding of a name and a grade. -/
def findingShape (wanted key grade : String) : Shape :=
  .record wanted (field key (field grade .nil))

/-- The issue of such a finding. -/
def findingIssue (title : String) {wanted key grade : String} : (findingShape wanted key grade).Val → Issue :=
  fun (symbol, kind, _) => .ofNative symbol title (.ofNative kind)

/-- A finding of a name and a grade is the same issue in both. -/
theorem findingIssue_of_alikeVals {wanted key grade : String} (hkey : (key == grade) = false) (title : String)
    {m n : (findingShape wanted key grade).Val}
    (h : (findingShape wanted key grade).AlikeVals grade Respelled false m n) :
    findingIssue title m = findingIssue title n := by
  obtain ⟨symbol, kind, _⟩ := m
  obtain ⟨symbol', kind', _⟩ := n
  obtain ⟨hsymbol, hkind, -⟩ := h
  have hname : symbol = symbol' := eq_of_alikeVals hkey hsymbol
  have hcategory : Category.ofNative kind = Category.ofNative kind' := ofNative_of_alikeVals hkind
  show Issue.ofNative symbol title (.ofNative kind) = Issue.ofNative symbol' title (.ofNative kind')
  rw [hname, hcategory]

/-- The same for a list of findings. -/
theorem map_findingIssue_of_alikeVals {wanted key grade : String} (hkey : (key == grade) = false) (title : String)
    {v w : List (findingShape wanted key grade).Val}
    (h : List.Forall₂ ((findingShape wanted key grade).AlikeVals grade Respelled false) v w) :
    v.map (findingIssue title) = w.map (findingIssue title) :=
  map_eq_of_forall₂ h fun _ _ => findingIssue_of_alikeVals hkey title

theorem pylint_of_alikeVals (v w : pylintShape.Val) (h : pylintShape.AlikeVals "type" Respelled false v w) :
    pylint v = pylint w := by
  have hfindings : List.Forall₂ ((findingShape "struct Message" "symbol" "type").AlikeVals "type" Respelled false)
      v w := h
  exact map_findingIssue_of_alikeVals (by decide) Tool.pylint.title hfindings

theorem hlint_of_alikeVals (v w : hlintShape.Val) (h : hlintShape.AlikeVals "severity" Respelled false v w) :
    hlint v = hlint w := by
  have hfindings : List.Forall₂ ((findingShape "struct Idea" "hint" "severity").AlikeVals "severity" Respelled false)
      v w := h
  exact map_findingIssue_of_alikeVals (by decide) Tool.hlint.title hfindings

theorem oclint_of_alikeVals (v w : oclintShape.Val) (h : oclintShape.AlikeVals "category" Respelled false v w) :
    oclint v = oclint w := by
  obtain ⟨violations, _⟩ := v
  obtain ⟨violations', _⟩ := w
  have hfindings : List.Forall₂
      ((findingShape "struct Violation" "rule" "category").AlikeVals "category" Respelled false)
      violations violations' := h.1
  exact map_findingIssue_of_alikeVals (by decide) Tool.oclint.title hfindings

theorem pmd_of_alikeVals (v w : pmdShape.Val) (h : pmdShape.AlikeVals "ruleset" Respelled false v w) :
    pmd v = pmd w := by
  obtain ⟨files, _⟩ := v
  obtain ⟨files', _⟩ := w
  let file : Fields := .listed "violations" (findingShape "struct Violation" "rule" "ruleset") .nil
  have hfiles : List.Forall₂ (file.AlikeVals "ruleset" Respelled) files files' := h.1
  have hfile (m n : file.Val) (hmn : file.AlikeVals "ruleset" Respelled m n) :
      m.1.map (findingIssue Tool.pmd.title) = n.1.map (findingIssue Tool.pmd.title) :=
    map_findingIssue_of_alikeVals (by decide) Tool.pmd.title hmn.1
  exact congrArg List.flatten (map_eq_of_forall₂ hfiles hfile)

/-- The rules of a run are the same in both reports, since none of their texts is a level. -/
theorem rules_of_alikeVals {rules rules' : List ruleShape.Val}
    (h : List.Forall₂ (ruleShape.AlikeVals "level" Respelled false) rules rules') : rules = rules' := by
  rw [← List.forall₂_eq_eq_eq]
  refine h.imp ?_
  rintro ⟨id, name, _⟩ ⟨id', name', _⟩ ⟨hid, hname, -⟩
  obtain rfl : id = id' := eq_of_alikeVals (by decide) hid
  obtain rfl : name = name' := by
    cases hname with
    | none => rfl
    | some hname => exact congrArg some (eq_of_alikeVals (by decide) hname)
  rfl

/-- A result has the same issue in both reports; without a level it has one in neither. -/
theorem ruleIssue_of_alikeVals (rules : List Rule) {m n : resultShape.Val}
    (h : resultShape.AlikeVals "level" Respelled false m n) :
    ruleIssue rules ⟨m.1, m.2.1⟩ = ruleIssue rules ⟨n.1, n.2.1⟩ := by
  obtain ⟨ruleId, level, _⟩ := m
  obtain ⟨ruleId', level', _⟩ := n
  obtain ⟨hrule, hlevel, -⟩ := h
  obtain rfl : ruleId = ruleId' := eq_of_alikeVals (by decide) hrule
  cases hlevel with
  | none => rfl
  | @some s t hlevel =>
    have hcategory : Category.ofNative s = Category.ofNative t := ofNative_of_alikeVals hlevel
    show Issue.ofNative (ruleName rules ruleId) Tool.flawfinder.title (.ofNative s) =
      Issue.ofNative (ruleName rules ruleId) Tool.flawfinder.title (.ofNative t)
    rw [hcategory]

/-- The fields of a run. -/
def runFields : Fields :=
  .required "tool" (.record "struct Tool"
    (.required "driver" (.record "struct Driver" (.listed "rules" ruleShape .nil)) .nil))
    (.listed "results" resultShape .nil)

/-- The issues of a run. -/
def runIssues : runFields.Val → List Issue := fun (((rules, _), _), results, _) =>
  let rules := rules.map fun (id, name, _) => (⟨id, name⟩ : Rule)
  results.map fun (ruleId, level, _) => ruleIssue rules ⟨ruleId, level⟩

theorem runIssues_of_alikeVals {m n : runFields.Val} (h : runFields.AlikeVals "level" Respelled m n) :
    runIssues m = runIssues n := by
  obtain ⟨⟨⟨rules, _⟩, _⟩, results, _⟩ := m
  obtain ⟨⟨⟨rules', _⟩, _⟩, results', _⟩ := n
  obtain ⟨⟨⟨hrules, -⟩, -⟩, hresults, -⟩ := h
  obtain rfl : rules = rules' := rules_of_alikeVals hrules
  exact map_eq_of_forall₂ hresults fun _ _ => ruleIssue_of_alikeVals _

theorem flawfinder_of_alikeVals (v w : flawfinderShape.Val) (h : flawfinderShape.AlikeVals "level" Respelled false v w) :
    flawfinder v = flawfinder w := by
  obtain ⟨runs, _⟩ := v
  obtain ⟨runs', _⟩ := w
  have hruns : List.Forall₂ (runFields.AlikeVals "level" Respelled) runs runs' := h.1
  exact congrArg List.flatten (map_eq_of_forall₂ hruns fun _ _ => runIssues_of_alikeVals)

/-! ## Lines that differ in grades -/

/-- Lines that are the same, or rows of one id whose severities respell each other. -/
inductive LinesAlike : List Char → List Char → Prop
  | same (l : List Char) : LinesAlike l l
  | row {l l' id severity severity' : List Char} (h : Row l id severity) (h' : Row l' id severity')
    (hseverity : Respelling severity severity') : LinesAlike l l'

/-- Such lines list the same issues, or are rejected for the same line. -/
theorem ofLines_of_linesAlike {ls ls' : List (List Char)} (h : List.Forall₂ LinesAlike ls ls') :
    ofLines ls = ofLines ls' := by
  induction h with
  | nil => rfl
  | @cons l l' ls ls' hl _ ih =>
    cases hl with
    | same =>
      by_cases hblank : Text.AllBlank l
      · rw [ofLines_blank hblank, ofLines_blank hblank, ih]
      · rw [ofLines_cons hblank, ofLines_cons hblank, ih]
    | row h h' hseverity =>
      rename_i id severity severity'
      have hrespelled : Respelled (String.ofList severity) (String.ofList severity') := by
        unfold Category.Respelled
        rw [String.toList_ofList, String.toList_ofList]
        exact hseverity
      rw [ofLines_cons h.not_allBlank, ofLines_cons h'.not_allBlank, line_of_row h, line_of_row h', ih,
        Category.ofNative_of_respelled hrespelled]

end Findings

namespace Tool

open Findings

/-- Reports that differ in the spelling of the grades of their findings at most. Findings of ktlint have none, and
a severity of Cppcheck stays one of the two words of its line. -/
def Regraded : Tool → String → String → Prop
  | pylint => Findings.Regraded pylintShape "type"
  | flawfinder => Findings.Regraded flawfinderShape "level"
  | hlint => Findings.Regraded hlintShape "severity"
  | ktlint => fun report report' => report = report'
  | pmd => Findings.Regraded pmdShape "ruleset"
  | cppcheck => fun report report' =>
    ∃ ls ls', Lined report.toList ls ∧ Lined report'.toList ls' ∧ List.Forall₂ LinesAlike ls ls'
  | oclint => Findings.Regraded oclintShape "category"

variable {tool : Tool} {report report' : String}

/-- Such reports list the same issues, or none of them can be read. -/
theorem toOption_findings_of_regraded (h : tool.Regraded report report') :
    (tool.findings report).toOption = (tool.findings report').toOption := by
  cases tool with
  | pylint => exact toOption_shaped_of_regraded (by decide) pylint_of_alikeVals h
  | flawfinder => exact toOption_shaped_of_regraded (by decide) flawfinder_of_alikeVals h
  | hlint => exact toOption_shaped_of_regraded (by decide) hlint_of_alikeVals h
  | ktlint =>
    obtain rfl : report = report' := h
    rfl
  | pmd => exact toOption_shaped_of_regraded (by decide) pmd_of_alikeVals h
  | cppcheck =>
    obtain ⟨ls, ls', hls, hls', halike⟩ := h
    show (Findings.cppcheck report).toOption = (Findings.cppcheck report').toOption
    rw [cppcheck_of_lined hls, cppcheck_of_lined hls', ofLines_of_linesAlike halike]
  | oclint => exact toOption_shaped_of_regraded (by decide) oclint_of_alikeVals h

/-- **Spelling does not split categories.** Two native grades have the same category if one is got from the other by
putting in or leaving out blanks, hyphens and underscores anywhere, and by changing the case of ASCII letters. So two
reports of a tool that differ in such spellings of their grades at most have the same tally, or none: of the types
of Pylint, the severities of HLint, the rulesets of PMD, the categories of OCLint and the levels of flawfinder in any
way, and of the severities of Cppcheck if each of them is still one word. -/
theorem parseReport_of_regraded :
    (∀ s t : String, Category.Respelled s t → Category.ofNative s = Category.ofNative t) ∧
    ∀ (tool : Tool) (report report' : String), tool.Regraded report report' →
      ∀ t : Tally, tool.parseReport report = .ok t ↔ tool.parseReport report' = .ok t := by
  refine ⟨fun s t => Category.ofNative_of_respelled, ?_⟩
  intro tool report report' h t
  have hfindings (issues : List Issue) :
      tool.findings report = .ok issues ↔ tool.findings report' = .ok issues := by
    have hsame := toOption_findings_of_regraded h
    constructor
    · intro hleft
      rw [hleft] at hsame
      exact Json.eq_ok_of_toOption hsame.symm
    · intro hright
      rw [hright] at hsame
      exact Json.eq_ok_of_toOption hsame
  simp only [parseReport_eq_ok_iff, hfindings]

/-- A report of PMD with two violations, an object with a member that is no field and a list of the fields. -/
def twoViolations (first second : String) (other : Json.Doc) : Json.Doc :=
  .object [(some "files", .list [.object [(some "violations", .list
    [.object [(some "rule", .text (some "A")), (some "ruleset", .text (some first)), (some "priority", other)],
      .list [.text (some "B"), .text (some second)]])]])]

theorem regraded_twoViolations {first second first' second' : String} (hfirst : Category.Respelled first first')
    (hsecond : Category.Respelled second second') (other other' : Json.Doc) :
    pmd.Regraded (String.ofList (twoViolations first second other).compact)
      (String.ofList (twoViolations first' second' other').compact) := by
  refine ⟨_, _, Json.Doc.writtenAs_compact _, Json.Doc.writtenAs_compact _, ?_⟩
  let violation := findingShape "struct Violation" "rule" "ruleset"
  have hobject : violation.AlikeDocs "ruleset" Category.Respelled false
      (.object [(some "rule", .text (some "A")), (some "ruleset", .text (some first)), (some "priority", other)])
      (.object [(some "rule", .text (some "A")), (some "ruleset", .text (some first')), (some "priority", other')]) := by
    refine Or.inr (Or.inl ⟨_, _, rfl, rfl, .cons ?_ (.cons ?_ (.cons ?_ .nil))⟩)
    · exact ⟨fun _ => Or.inl rfl, fun hname => absurd hname (by simp), rfl⟩
    · exact ⟨fun hname => absurd hname (by simp), fun _ => Or.inr ⟨rfl, _, _, rfl, rfl, hfirst⟩, rfl⟩
    · exact ⟨fun hname => absurd hname (by simp), fun hname => absurd hname (by simp), rfl⟩
  have hitems : violation.AlikeDocs "ruleset" Category.Respelled false
      (.list [.text (some "B"), .text (some second)]) (.list [.text (some "B"), .text (some second')]) := by
    refine Or.inr (Or.inr ⟨_, _, rfl, rfl, Or.inr ⟨_, _, _, _, rfl, rfl, Or.inl rfl, ?_⟩⟩)
    exact Or.inr ⟨_, _, _, _, rfl, rfl, Or.inr ⟨rfl, _, _, rfl, rfl, hsecond⟩, rfl⟩
  have hviolations := List.Forall₂.cons hobject (.cons hitems .nil)
  refine Or.inr (Or.inl ⟨_, _, rfl, rfl, .cons ⟨fun _ => Or.inr ⟨_, _, rfl, rfl, .cons ?_ .nil⟩, rfl⟩ .nil⟩)
  exact Or.inr (Or.inl ⟨_, _, rfl, rfl, .cons ⟨fun _ => Or.inr ⟨_, _, rfl, rfl, hviolations⟩, rfl⟩ .nil⟩)

/-- Rulesets and a severity in other spellings, the latter on a line with other blanks around its words. -/
theorem parseReport_of_regraded_of_spellings :
    (let report := String.ofList (twoViolations "Code Style" "unused" .null).compact
     let report' := String.ofList (twoViolations "CODE-style" "_UnUsed" .scalar).compact
     pmd.Regraded report report' ∧ ∀ t : Tally, pmd.parseReport report = .ok t ↔ pmd.parseReport report' = .ok t) ∧
    (let report := "\nnullPointer style\n"
     let report' := "\n nullPointer\tSTY-LE"
     cppcheck.Regraded report report' ∧
      ∀ t : Tally, cppcheck.parseReport report = .ok t ↔ cppcheck.parseReport report' = .ok t) := by
  have hstyle : Category.Respelling ['s', 't', 'y', 'l', 'e'] ['S', 'T', 'Y', '-', 'L', 'E'] :=
    .keep rfl (.keep rfl (.keep rfl (.insert (Or.inr (Or.inl rfl)) (.keep rfl (.keep rfl .nil)))))
  refine ⟨?_, ?_⟩
  · intro report report'
    have hfirst : Category.Respelled "Code Style" "CODE-style" :=
      .keep rfl (.keep rfl (.keep rfl (.keep rfl (.delete (Or.inl rfl) (.insert (Or.inr (Or.inl rfl))
        (.keep rfl (.keep rfl (.keep rfl (.keep rfl (.keep rfl .nil))))))))))
    have hsecond : Category.Respelled "unused" "_UnUsed" :=
      .insert (Or.inr (Or.inr rfl)) (.keep rfl (.keep rfl (.keep rfl (.keep rfl (.keep rfl (.keep rfl .nil))))))
    have h : pmd.Regraded report report' := regraded_twoViolations hfirst hsecond .null .scalar
    exact ⟨h, parseReport_of_regraded.2 pmd report report' h⟩
  · intro report report'
    have hlines : List.Forall₂ LinesAlike [[], "nullPointer style".toList] [[], " nullPointer\tSTY-LE".toList] :=
      .cons (.same []) (.cons (.row (Text.row_iff.2 rfl) (Text.row_iff.2 rfl) hstyle) .nil)
    have hreport : Lined report.toList [[], "nullPointer style".toList] := Text.lined_iff.2 (by decide +kernel)
    have hreport' : Lined report'.toList [[], " nullPointer\tSTY-LE".toList] := Text.lined_iff.2 (by decide +kernel)
    have h : cppcheck.Regraded report report' := ⟨_, _, hreport, hreport', hlines⟩
    exact ⟨h, parseReport_of_regraded.2 cppcheck report report' h⟩

/-- A severity of Cppcheck with a blank in it is two words, and its line is no row any more. -/
theorem parseReport_of_split_severity :
    Category.Respelled "error" "er ror" ∧
      (∃ t, cppcheck.parseReport "nullPointer error" = .ok t ∧ t.count ⟨"nullPointer", "Cppcheck", .error⟩ = 1) ∧
      cppcheck.parseReport "nullPointer er ror" = .error (.malformedLine "nullPointer er ror") := by
  refine ⟨?_, ?_, ?_⟩
  · exact .keep rfl (.keep rfl (.insert (Or.inl rfl) (.keep rfl (.keep rfl (.keep rfl .nil)))))
  · have hfindings : (cppcheck.findings "nullPointer error").toOption =
        some [⟨"nullPointer", "Cppcheck", .error⟩] := rfl
    obtain ⟨t, ht, hcount⟩ := exists_tally_of_findings hfindings (by decide)
    exact ⟨t, ht, hcount _⟩
  · rw [parseReport_eq_malformedLine_iff]
    rfl

end Tool

end LintDelta
