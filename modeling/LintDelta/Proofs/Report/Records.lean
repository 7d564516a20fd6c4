import LintDelta.Proofs.Json.RoundTrip
import LintDelta.Proofs.Report.Storage

/-!
# Stored records

Each record of the library is stored by a codec that is faithful: the names that it writes tell the parts of the
record, and its stored form stands for no other value. So a record that is written is read back as it was. A path
has a stored form only if its bytes are those of a text, and a record with paths is written exactly if all of its
paths are.

Main statement: `readText_of_writeText_records`.
-/

namespace LintDelta

open Json (Codec)

/-! ## Paths with a stored form -/

/-- The bytes of a path are those of a text. -/
def Path.IsText (p : Path) : Prop := ∃ name, p = .ofString name

theorem Path.ofString_of_text? {p : Path} {name : String} (h : p.text? = some name) : ofString name = p :=
  congrArg Path.mk (Text.encode_of_decode? h)

theorem Path.text?_ofString (name : String) : (ofString name).text? = some name :=
  Text.decode?_encode name

theorem Path.text?_eq_none_iff {p : Path} : p.text? = none ↔ ¬p.IsText := by
  constructor
  · rintro h ⟨name, rfl⟩
    rw [text?_ofString] at h
    cases h
  · intro h
    by_contra hne
    obtain ⟨name, hname⟩ := Option.ne_none_iff_exists'.1 hne
    exact h ⟨name, (ofString_of_text? hname).symm⟩

/-! ## Faithful codecs -/

theorem Category.faithful_codec : codec.Faithful where
  exact := by decide
  depth := by decide
  ofVal_toVal := Codec.ofVal_labelled fun _ _ => label_injective

theorem CommitId.faithful_codec : codec.Faithful where
  exact := rfl
  depth := by decide
  ofVal_toVal := by
    intro c v h
    cases h
    rfl

theorem Issue.faithful_codec : codec.Faithful where
  exact := by decide
  depth := by decide
  ofVal_toVal := by
    intro i v h
    obtain ⟨c, hc, h⟩ := Option.bind_eq_some_iff.1 h
    cases h
    exact congrArg (Issue.mk i.symbol i.linter) (Category.faithful_codec.ofVal_toVal hc)

theorem IssueEntry.faithful_codec : codec.Faithful where
  exact := by decide
  depth := by decide
  ofVal_toVal := by
    intro e v h
    obtain ⟨c, hc, h⟩ := Option.bind_eq_some_iff.1 h
    cases h
    exact congrArg (IssueEntry.mk e.pre e.post) (Category.faithful_codec.ofVal_toVal hc)

theorem FileFailure.faithful_codec : codec.Faithful where
  exact := by decide
  depth := by decide
  ofVal_toVal := by
    intro f v h
    obtain ⟨name, hname, h⟩ := Option.bind_eq_some_iff.1 h
    cases h
    exact congrArg (FileFailure.mk · f.linter f.error) (Path.ofString_of_text? hname)

theorem Change.faithful_codec : codec.Faithful where
  exact := by decide
  depth := by decide
  ofVal_toVal := by
    intro change v h
    cases change with
    | added path blob =>
      obtain ⟨name, hname, h⟩ := Option.bind_eq_some_iff.1 h
      cases h
      exact congrArg (Change.added · blob) (Path.ofString_of_text? hname)
    | deleted path blob =>
      obtain ⟨name, hname, h⟩ := Option.bind_eq_some_iff.1 h
      cases h
      exact congrArg (Change.deleted · blob) (Path.ofString_of_text? hname)
    | modified prePath preBlob postPath postBlob renamed =>
      obtain ⟨pre, hpre, h⟩ := Option.bind_eq_some_iff.1 h
      obtain ⟨post, hpost, h⟩ := Option.bind_eq_some_iff.1 h
      cases h
      exact congrArg₂ (Change.modified · preBlob · postBlob renamed) (Path.ofString_of_text? hpre)
        (Path.ofString_of_text? hpost)

/-! ## What is written -/

theorem Category.exists_toVal (c : Category) : ∃ v, codec.toVal c = some v :=
  Codec.exists_toVal_labelled (mem_all c)

/-- A codec writes what has a stored form. -/
theorem Json.Codec.exists_writeText {α : Type} {codec : Codec α} {x : α} {v : codec.shape.Val}
    (h : codec.toVal x = some v) : ∃ text, codec.writeText x = some text :=
  ⟨_, by rw [writeText, write, h]; rfl⟩

theorem FileFailure.writeText_eq_none_iff (f : FileFailure) : codec.writeText f = none ↔ ¬f.path.IsText := by
  rw [Codec.writeText_eq_none_iff, ← Path.text?_eq_none_iff]
  show (f.path.text?.bind fun name => some (name, f.linter, f.error, ())) = none ↔ _
  cases f.path.text? <;> simp

/-- A change is not written exactly if one of its paths is not text. -/
theorem Change.writeText_eq_none_iff (c : Change) :
    codec.writeText c = none ↔ ∃ v : Version, (c.pre = some v ∨ c.post = some v) ∧ ¬v.path.IsText := by
  rw [Codec.writeText_eq_none_iff]
  simp only [← Path.text?_eq_none_iff]
  cases c with
  | added path blob =>
    have hside : codec.toVal (added path blob) = none ↔ path.text? = none := by
      show path.text?.bind _ = none ↔ _
      cases path.text? <;> simp
    simp [hside, pre, post]
  | deleted path blob =>
    have hside : codec.toVal (deleted path blob) = none ↔ path.text? = none := by
      show path.text?.bind _ = none ↔ _
      cases path.text? <;> simp
    simp [hside, pre, post]
  | modified prePath preBlob postPath postBlob renamed =>
    have hsides : codec.toVal (modified prePath preBlob postPath postBlob renamed) = none ↔
        prePath.text? = none ∨ postPath.text? = none := by
      show (prePath.text?.bind fun pre => postPath.text?.bind fun post => _) = none ↔ _
      cases prePath.text? <;> cases postPath.text? <;> simp
    rw [hsides]
    constructor
    · rintro (h | h)
      · exact ⟨⟨prePath, preBlob⟩, Or.inl rfl, h⟩
      · exact ⟨⟨postPath, postBlob⟩, Or.inr rfl, h⟩
    · rintro ⟨v, hv | hv, h⟩
      · cases hv
        exact Or.inl h
      · cases hv
        exact Or.inr h

theorem Issue.readText_of_writeText (i : Issue) :
    ∃ text, codec.writeText i = some text ∧ codec.readText text = .ok i := by
  obtain ⟨c, hc⟩ := i.category.exists_toVal
  have hval : codec.toVal i = some (i.symbol, i.linter, c, ()) := by
    show (Category.codec.toVal i.category).bind _ = _
    rw [hc]
    rfl
  obtain ⟨text, htext⟩ := Codec.exists_writeText hval
  refine ⟨text, htext, faithful_codec.readText_of_writeText ?_ htext⟩
  intro v hv
  exact ⟨trivial, trivial, trivial, trivial⟩

theorem IssueEntry.readText_of_writeText {e : IssueEntry} (hpre : Machine.fits e.pre = true)
    (hpost : Machine.fits e.post = true) :
    ∃ text, codec.writeText e = some text ∧ codec.readText text = .ok e := by
  obtain ⟨c, hc⟩ := e.category.exists_toVal
  have hval : codec.toVal e = some (e.pre, e.post, c, ()) := by
    show (Category.codec.toVal e.category).bind _ = _
    rw [hc]
    rfl
  obtain ⟨text, htext⟩ := Codec.exists_writeText hval
  refine ⟨text, htext, faithful_codec.readText_of_writeText ?_ htext⟩
  intro v hv
  obtain rfl := Option.some.inj (hval.symm.trans hv)
  exact ⟨hpre, hpost, trivial, trivial⟩

/-- **Stored records are read back as they were.** A change is written exactly if the paths of its sides are text,
and a failure of a file if its path is; what is then written, on one line, is read as the same change or failure.
Issues with any names, entries with any counts of 64 bits and ids of commits are always written, and read back as
they were. -/
theorem readText_of_writeText_records :
    (∀ c : Change,
      (Change.codec.writeText c = none ↔
        ∃ v : Version, (c.pre = some v ∨ c.post = some v) ∧ ¬v.path.IsText) ∧
      ∀ text, Change.codec.writeText c = some text → Change.codec.readText text = .ok c) ∧
    (∀ f : FileFailure,
      (FileFailure.codec.writeText f = none ↔ ¬f.path.IsText) ∧
      ∀ text, FileFailure.codec.writeText f = some text → FileFailure.codec.readText text = .ok f) ∧
    (∀ i : Issue, ∃ text, Issue.codec.writeText i = some text ∧ Issue.codec.readText text = .ok i) ∧
    (∀ e : IssueEntry, Machine.fits e.pre = true → Machine.fits e.post = true →
      ∃ text, IssueEntry.codec.writeText e = some text ∧ IssueEntry.codec.readText text = .ok e) ∧
    ∀ c : CommitId, ∃ text, CommitId.codec.writeText c = some text ∧ CommitId.codec.readText text = .ok c := by
  refine ⟨fun c => ⟨c.writeText_eq_none_iff, ?_⟩, fun f => ⟨f.writeText_eq_none_iff, ?_⟩,
    Issue.readText_of_writeText, fun e => IssueEntry.readText_of_writeText, ?_⟩
  · intro text htext
    refine Change.faithful_codec.readText_of_writeText ?_ htext
    -- no field of a change is an integer
    rintro (⟨_, _, _⟩ | ⟨_, _, _⟩ | ⟨_, _, _, _, _, _⟩ | v) _
    · exact ⟨trivial, trivial, trivial⟩
    · exact ⟨trivial, trivial, trivial⟩
    · exact ⟨trivial, trivial, trivial, trivial, trivial, trivial⟩
    · exact nomatch v
  · intro text htext
    refine FileFailure.faithful_codec.readText_of_writeText ?_ htext
    intro v _
    exact ⟨trivial, trivial, trivial, trivial⟩
  · intro c
    refine ⟨_, rfl, CommitId.faithful_codec.readText_of_writeText ?_ rfl⟩
    intro v _
    exact trivial

/-- A renamed file whose new path has quotes and a line break in it, a failure on a path that is no text, and an
entry with the smallest and the largest count. -/
theorem readText_of_writeText_records_of_extremes :
    (let c : Change := .modified (.ofString "a.py") ⟨"1"⟩ (.ofString "\"b\"\n.py") ⟨"2"⟩ true
     let text := "\x7b\"Modified\":\x7b\"pre_path\":\"a.py\",\"pre_blob\":\"1\"," ++
       "\"post_path\":\"\\\"b\\\"\\n.py\",\"post_blob\":\"2\",\"renamed\":true\x7d\x7d"
     Change.codec.writeText c = some text ∧ Change.codec.readText text = .ok c) ∧
    (let f : FileFailure := ⟨⟨[0xFF]⟩, "", ""⟩
     ¬f.path.IsText ∧ FileFailure.codec.writeText f = none) ∧
    (let e : IssueEntry := ⟨-9223372036854775808, 9223372036854775807, .uncategorized⟩
     Machine.fits e.pre = true ∧ Machine.fits e.post = true ∧
      ∃ text, IssueEntry.codec.writeText e = some text ∧ IssueEntry.codec.readText text = .ok e) := by
  refine ⟨?_, ?_, ?_⟩
  · intro c text
    have htext : Change.codec.writeText c = some text := by decide +kernel
    exact ⟨htext, (readText_of_writeText_records.1 c).2 text htext⟩
  · intro f
    have hpath : ¬f.path.IsText := Path.text?_eq_none_iff.1 (by decide +kernel)
    exact ⟨hpath, (readText_of_writeText_records.2.1 f).1.2 hpath⟩
  · intro e
    exact ⟨rfl, rfl, readText_of_writeText_records.2.2.2.1 e rfl rfl⟩

end LintDelta
