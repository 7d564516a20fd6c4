import LintDelta.Language
import LintDelta.Policy
import LintDelta.Report.Structured

/-!
# Stored forms

The shape of every type of the library that is stored as JSON, and what a stored report holds.

Main statements: a value that is stored as a label is read back from it.
-/

namespace LintDelta

open Json (Codec Shape Fields Cases)

def Json.Shape.plain : Shape := .text "a string"

def Json.Shape.path : Shape := .text "path string"

/-- Values that are stored as one of some labels. -/
def Json.Codec.labelled {α : Type} [DecidableEq α] (all : List α) (label : α → String)
    (default : α) : Codec α where
  shape := .label (all.map label)
  toVal x := (all.map label).finIdxOf? (label x)
  ofVal i := all.getD i.val default

/-- A label reads back as its value, if it is the label of no other. -/
theorem Json.Codec.ofVal_labelled {α : Type} [DecidableEq α] {all : List α} {label : α → String}
    {default x : α} {v : (labelled all label default).shape.Val}
    (hlabel : ∀ y ∈ all, label y = label x → y = x)
    (h : (labelled all label default).toVal x = some v) :
    (labelled all label default).ofVal v = x := by
  obtain ⟨hv, -⟩ := List.finIdxOf?_eq_some_iff.1 h
  have hlt : v.val < all.length := by simpa using v.isLt
  have hget : label all[v.val] = label x := (List.getElem_map label).symm.trans hv
  have := hlabel _ (List.getElem_mem hlt) hget
  simpa [labelled, List.getD_eq_getElem?_getD, List.getElem?_eq_getElem hlt] using this

def Category.codec : Codec Category := .labelled all label uncategorized

def Category.ofJson (x : Json) : Except Json.Error Category := do
  return Category.all.getD (← Json.labelIn (Category.all.map Category.label) x).val .uncategorized

def Language.codec : Codec Language := .labelled all tag python

def Change.Kind.codec : Codec Change.Kind := .labelled all label unchanged

def Policy.codec : Codec Policy := .labelled all label degrade

def Issue.codec : Codec Issue where
  shape := .record "struct Issue" (.required "symbolic_name" .plain (.required "linter" .plain
    (.required "category" Category.codec.shape .nil)))
  toVal i := do return (i.symbol, i.linter, ← Category.codec.toVal i.category, ())
  ofVal := fun (symbol, linter, category, _) => ⟨symbol, linter, Category.codec.ofVal category⟩

def CommitId.codec : Codec CommitId where
  shape := .plain
  toVal c := some c.text
  ofVal s := ⟨s⟩

def IssueEntry.codec : Codec IssueEntry where
  shape := .record "struct IssueEntry" (.required "pre" .signed (.required "post" .signed
    (.required "category" Category.codec.shape .nil)))
  toVal e := do return (e.pre, e.post, ← Category.codec.toVal e.category, ())
  ofVal := fun (pre, post, category, _) => ⟨pre, post, Category.codec.ofVal category⟩

def FileFailure.codec : Codec FileFailure where
  shape := .record "struct FileFailure" (.required "path" .path (.required "linter" .plain
    (.required "error" .plain .nil)))
  toVal f := do return (← f.path.text?, f.linter, f.error, ())
  ofVal := fun (path, linter, error, _) => ⟨Path.ofString path, linter, error⟩

def Change.codec : Codec Change where
  shape := .variant "ChangeRecord"
    (.cons "Added" (.required "path" .path (.required "blob" .plain .nil))
    (.cons "Deleted" (.required "path" .path (.required "blob" .plain .nil))
    (.cons "Modified" (.required "pre_path" .path (.required "pre_blob" .plain
      (.required "post_path" .path (.required "post_blob" .plain (.required "renamed" .flag .nil)))))
    .nil)))
  toVal
    | .added path blob => do return .inl (← path.text?, blob.text, ())
    | .deleted path blob => do return .inr (.inl (← path.text?, blob.text, ()))
    | .modified prePath preBlob postPath postBlob renamed => do
      return .inr (.inr (.inl
        (← prePath.text?, preBlob.text, ← postPath.text?, postBlob.text, renamed, ())))
  ofVal
    | .inl (path, blob, _) => .added (Path.ofString path) ⟨blob⟩
    | .inr (.inl (path, blob, _)) => .deleted (Path.ofString path) ⟨blob⟩
    | .inr (.inr (.inl (prePath, preBlob, postPath, postBlob, renamed, _))) =>
      .modified (Path.ofString prePath) ⟨preBlob⟩ (Path.ofString postPath) ⟨postBlob⟩ renamed

namespace StructuredReport

/-- The shape of a stored report; the numbers of files are its unknown members. -/
def shape : Shape :=
  .openRecord "struct StructuredReport"
    (.required "results" (.dict (.dict IssueEntry.codec.shape))
    (.listed "failures" FileFailure.codec.shape .nil))

/-- A number of files: an unsigned 64-bit integer. -/
def fileCountOf : Json → Except Json.Error Nat
  | .integer n => if 0 ≤ n then .ok n.toNat else .error (.wrongValue (.integer n) "u64")
  | other => .error (.wrongType other.found "u64")

def readText (text : String) : Except Json.Error StructuredReport := do
  let ((results, failures, _), extra) ← shape.readText text
  let counts ← extra.mapM fun (name, x) => do return (name, ← fileCountOf x)
  return {
    results := OrderedMap.ofList (results.map fun (linter, entries) =>
      (linter, OrderedMap.ofList (entries.map fun (key, e) => (key, IssueEntry.codec.ofVal e))))
    fileCounts := OrderedMap.ofList counts
    failures := failures.map FileFailure.codec.ofVal }

/-- Members sorted by name; of two with one name the later stays. -/
def sortMembers (members : List (String × Json)) : List (String × Json) :=
  (OrderedMap.ofList members).bindings

def entryJson (e : IssueEntry) : Json :=
  .object [("category", .text e.category.label), ("post", .integer e.post), ("pre", .integer e.pre)]

/-- A failure, sorted by name, if its path is text. -/
def failureJson (f : FileFailure) : Option Json := do
  return .object [("error", .text f.error), ("linter", .text f.linter), ("path", .text (← f.path.text?))]

/-- The members of a stored report, in the order in which they take each other's place. -/
def members (r : StructuredReport) : Option (List (String × Json)) := do
  let results := r.results.bindings.map fun (linter, entries) =>
    (linter, Json.object (entries.bindings.map fun (key, e) => (key, entryJson e)))
  let counts := r.fileCounts.bindings.map fun (name, n) => (name, Json.integer n)
  let failures ← r.failures.mapM failureJson
  return [("results", .object results)] ++ counts ++
    (if failures.isEmpty then [] else [("failures", .list failures)])

/-- The text of a stored report, with the members of every object sorted by name. There is none if
the path of a failure is not text. -/
def writeText (r : StructuredReport) : Option String := do
  return (Json.object (sortMembers (← r.members))).pretty

end StructuredReport

end LintDelta
