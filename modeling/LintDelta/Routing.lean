import LintDelta.Language
import LintDelta.Linter.Adapter

/-!
# Routing

Which linter a file goes to: its extension decides, unless the contrast is confined to a language to
which the extension does not belong. Routes are kept by extension, with its dot.

Main statements: a route replaces the one that its extension had and disturbs no other, and a file
outside the language goes nowhere.
-/

namespace LintDelta

/-- A linter for each of some extensions. -/
structure Routing (α : Type) where
  routes : OrderedMap String α
  deriving DecidableEq, Repr

namespace Routing

variable {α β : Type}

def empty : Routing α := ⟨∅⟩

def dotted (extension : String) : String :=
  if extension.toList.head? = some '.' then extension else "." ++ extension

/-- Routes an extension, whatever its route was before. -/
def add (r : Routing α) (extension : String) (linter : α) : Routing α :=
  ⟨r.routes.insert (dotted extension) linter⟩

/-- The linter of a file, if it has one and belongs to the language. -/
def select (r : Routing α) (path : Path) (language : Option Language) : Option α :=
  if language.all (·.covers path) then path.extension.bind r.routes.find? else none

def extensions (r : Routing α) : List String := r.routes.keys

def map (f : α → β) (r : Routing α) : Routing β := ⟨r.routes.map f⟩

def standard : Routing Adapter :=
  [(".c", Tool.flawfinder), (".cpp", .flawfinder), (".h", .flawfinder), (".hpp", .flawfinder),
    (".hs", .hlint), (".java", .pmd), (".kt", .ktlint), (".kts", .ktlint), (".py", .pylint)].foldl
    (fun r (extension, tool) => r.add extension (.ofTool tool)) empty

/-! ## Overrides -/

structure Override where
  extension : String
  tool : Tool
  deriving DecidableEq, Repr

/-- Reads an override of the form `EXT=NAME`, with blanks allowed around both. -/
def Override.parse (spec : String) : Except Failure Override :=
  match Text.cutAt '=' spec.toList with
  | none =>
    .error (.configuration ("invalid linter override '" ++ spec ++ "', expected EXT=NAME"))
  | some (before, after) =>
    let extension := Text.trimChars before
    let name := String.ofList (Text.trimChars after)
    if extension.all (· == '.') then
      .error (.configuration ("invalid linter override '" ++ spec ++ "': empty extension"))
    else match Tool.byName? name with
      | none =>
        .error (.configuration ("unknown linter '" ++ name ++ "', expected one of: " ++ Tool.listing))
      | some tool => .ok ⟨String.ofList extension, tool⟩

def override (r : Routing Adapter) (spec : String) : Except Failure (Routing Adapter) := do
  let o ← Override.parse spec
  return r.add o.extension (.ofTool o.tool)

/-- Follows overrides one after another, up to the first that is refused. -/
def overrideAll (r : Routing Adapter) (specs : List String) : Except Failure (Routing Adapter) :=
  specs.foldlM override r

/-! ## Laws -/

theorem select_empty (path : Path) (language : Option Language) :
    (empty : Routing α).select path language = none := by
  unfold select
  split
  · cases path.extension <;> rfl
  · rfl

theorem select_eq_none_of_not_covers {r : Routing α} {path : Path} {l : Language}
    (h : l.covers path = false) : r.select path (some l) = none := by
  simp [select, h]

theorem select_add_self {r : Routing α} {path : Path} {extension : String} {linter : α}
    (h : path.extension = some (dotted extension)) :
    (r.add extension linter).select path none = some linter := by
  simp [select, add, h, OrderedMap.find?_insert_self]

theorem select_add_of_ne {r : Routing α} {path : Path} {extension : String} {linter : α}
    (h : path.extension ≠ some (dotted extension)) (language : Option Language) :
    (r.add extension linter).select path language = r.select path language := by
  simp only [select, add]
  split
  · cases hp : path.extension with
    | none => rfl
    | some e =>
      exact OrderedMap.find?_insert_of_ne _ _ fun he => h (he ▸ hp)
  · rfl

theorem select_map (f : α → β) (r : Routing α) (path : Path) (language : Option Language) :
    (r.map f).select path language = (r.select path language).map f := by
  simp only [select, map]
  split
  · cases path.extension with
    | none => rfl
    | some e => exact OrderedMap.find?_map _ f e
  · rfl

end Routing

end LintDelta
