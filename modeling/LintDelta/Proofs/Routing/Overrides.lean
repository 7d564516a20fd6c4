import LintDelta.CommandLine.Invocation
import LintDelta.Proofs.Text.Lines
import LintDelta.Proofs.Text.Utf8

/-!
# Overrides

Which overrides are followed (`Asks`) and which are refused (`Refused`), said by how they are put together; every
override is one or the other (`asks_or_refused`, `Asks.not_refused`).

One override replaces the route of one key (`override_of_asks`) or none (`override_of_refused`). So after any number of
them, where those that are refused are passed over (`heedAll`), the last one for an extension decides where its files go
(`select_heedAll_of_last`), and a file whose extension no override is for goes where it went before
(`select_heedAll_of_none`).
-/

namespace LintDelta

/-! ## Cutting -/

namespace Text

variable {sep : Char}

/-- What comes before the first separator is what is free of it. -/
theorem cutAt_append {before : List Char} (h : sep ∉ before) (rest : List Char) :
    cutAt sep (before ++ rest) = (cutAt sep rest).map fun (front, after) => (before ++ front, after) := by
  induction before with
  | nil => simp
  | cons c before ih =>
    obtain ⟨hc, hbefore⟩ := not_or.1 (mt List.mem_cons.2 h)
    rw [List.cons_append, cutAt, if_neg (Ne.symm hc), ih hbefore, Option.map_map]
    rfl

theorem cutAt_of_not_mem {cs : List Char} (h : sep ∉ cs) : cutAt sep cs = none := by
  simpa [cutAt] using cutAt_append h []

theorem cutAt_append_sep {before : List Char} (h : sep ∉ before) (after : List Char) :
    cutAt sep (before ++ sep :: after) = some (before, after) := by
  simpa [cutAt] using cutAt_append h (sep :: after)

end Text

/-! ## Names of tools -/

namespace Tool

theorem mem_all (tool : Tool) : tool ∈ all := by
  cases tool <;> decide

theorem byName?_of_command {name : String} {tool : Tool} (h : Text.lowercase name = tool.command) :
    byName? name = some tool := by
  rw [byName?, h]
  cases tool <;> rfl

theorem byName?_eq_none_iff {name : String} :
    byName? name = none ↔ ∀ tool : Tool, Text.lowercase name ≠ tool.command := by
  simp only [byName?, List.find?_eq_none, beq_iff_eq]
  constructor
  · intro h tool heq
    exact h tool (mem_all tool) heq.symm
  · intro h tool _ heq
    exact h tool heq.symm

end Tool

namespace Routing

/-! ## What an override says -/

theorem dotted_dotted (extension : String) : dotted (dotted extension) = dotted extension := by
  unfold dotted
  split
  · rfl
  · rw [if_pos (by rw [String.toList_append]; rfl)]

theorem add_dotted {α : Type} (r : Routing α) (extension : String) (linter : α) :
    r.add (dotted extension) linter = r.add extension linter := by
  rw [add, dotted_dotted, add]

/-- The overrides that are followed, each with the key that it is for and with its tool: before its first `=` there is
an extension, which is more than dots, and behind it the name of the tool in any case, both with blanks around them. -/
inductive Asks : String → String → Tool → Prop
  | intro {before after : String} {tool : Tool} (hfirst : '=' ∉ before.toList)
    (hextension : ∃ c ∈ (Text.trim before).toList, c ≠ '.')
    (hname : Text.lowercase (Text.trim after) = tool.command) :
    Asks (before ++ "=" ++ after) (dotted (Text.trim before)) tool

/-- The overrides that are refused. -/
inductive Refused : String → Prop
  /-- There is no `=`. -/
  | whole {spec : String} (h : '=' ∉ spec.toList) : Refused spec
  /-- There is no extension before the first `=`. -/
  | bare {before after : String} (hfirst : '=' ∉ before.toList) (h : ∀ c ∈ (Text.trim before).toList, c = '.') :
    Refused (before ++ "=" ++ after)
  /-- What is behind the first `=` names no tool. -/
  | unknown {before after : String} (hfirst : '=' ∉ before.toList)
    (h : ∀ tool : Tool, Text.lowercase (Text.trim after) ≠ tool.command) : Refused (before ++ "=" ++ after)

theorem Asks.dotted_key {spec key : String} {tool : Tool} (h : Asks spec key tool) : dotted key = key := by
  cases h with
  | intro => exact dotted_dotted _

theorem asks_or_refused (spec : String) : (∃ key tool, Asks spec key tool) ∨ Refused spec := by
  by_cases hsplit : '=' ∈ spec.toList
  · obtain ⟨cs, ds, hspec, hfirst⟩ := List.eq_append_cons_of_mem hsplit
    obtain ⟨before, rfl⟩ : ∃ before : String, before.toList = cs := ⟨String.ofList cs, String.toList_ofList⟩
    obtain ⟨after, rfl⟩ : ∃ after : String, after.toList = ds := ⟨String.ofList ds, String.toList_ofList⟩
    obtain rfl : spec = before ++ "=" ++ after := String.toList_inj.1 (hspec.trans (by simp))
    by_cases hextension : ∃ c ∈ (Text.trim before).toList, c ≠ '.'
    · by_cases hname : ∃ tool : Tool, Text.lowercase (Text.trim after) = tool.command
      · obtain ⟨tool, hname⟩ := hname
        exact Or.inl ⟨_, tool, .intro hfirst hextension hname⟩
      · exact Or.inr (.unknown hfirst fun tool h => hname ⟨tool, h⟩)
    · exact Or.inr (.bare hfirst (by simpa using hextension))
  · exact Or.inr (.whole hsplit)

/-! ## One override -/

theorem cutAt_spec {before after : String} (hfirst : '=' ∉ before.toList) :
    Text.cutAt '=' (before ++ "=" ++ after).toList = some (before.toList, after.toList) := by
  have hspec : (before ++ "=" ++ after).toList = before.toList ++ '=' :: after.toList := by simp
  rw [hspec, Text.cutAt_append_sep hfirst]

theorem parse_spec {before after : String} (hfirst : '=' ∉ before.toList) :
    Override.parse (before ++ "=" ++ after) =
      if (Text.trim before).toList.all (· == '.') then
        .error (.configuration ("invalid linter override '" ++ (before ++ "=" ++ after) ++ "': empty extension"))
      else (Tool.byName? (Text.trim after)).elim
        (.error (.configuration ("unknown linter '" ++ Text.trim after ++ "', expected one of: " ++ Tool.listing)))
        fun tool => .ok ⟨Text.trim before, tool⟩ := by
  rw [Override.parse, cutAt_spec hfirst, Text.toList_trim]
  simp only [Text.trim]
  cases Tool.byName? (String.ofList (Text.trimChars after.toList)) <;> rfl

/-- An override that is followed routes its key, whatever the routes are. -/
theorem override_of_asks {spec key : String} {tool : Tool} (h : Asks spec key tool) (r : Routing Adapter) :
    r.override spec = .ok (r.add key (.ofTool tool)) := by
  cases h with
  | @intro before after tool hfirst hextension hname =>
    have hdots : ¬ (Text.trim before).toList.all (· == '.') = true := by
      simpa using hextension
    rw [override, parse_spec hfirst, if_neg hdots, Tool.byName?_of_command hname, add_dotted]
    rfl

theorem parse_of_refused {spec : String} (h : Refused spec) :
    ∃ message, Override.parse spec = .error (.configuration message) := by
  cases h with
  | whole h => exact ⟨_, by rw [Override.parse, Text.cutAt_of_not_mem h]⟩
  | @bare before after hfirst h =>
    have hdots : (Text.trim before).toList.all (· == '.') = true := by
      simpa using h
    exact ⟨_, by rw [parse_spec hfirst, if_pos hdots]⟩
  | @unknown before after hfirst h =>
    rw [parse_spec hfirst, Tool.byName?_eq_none_iff.2 h]
    split
    · exact ⟨_, rfl⟩
    · exact ⟨_, rfl⟩

/-- An override that is refused is an error of configuration, whatever the routes are. -/
theorem override_of_refused {spec : String} (h : Refused spec) :
    ∃ message, ∀ r : Routing Adapter, r.override spec = .error (.configuration message) := by
  obtain ⟨message, hparse⟩ := parse_of_refused h
  refine ⟨message, fun r => ?_⟩
  rw [override, hparse]
  rfl

theorem Asks.not_refused {spec key : String} {tool : Tool} (h : Asks spec key tool) : ¬ Refused spec := by
  intro hrefused
  obtain ⟨message, herror⟩ := override_of_refused hrefused
  cases (override_of_asks h empty).symm.trans (herror empty)

/-- An override is followed in one way only. -/
theorem Asks.unique {spec key key' : String} {tool tool' : Tool} (h : Asks spec key tool)
    (h' : Asks spec key' tool') : key = key' ∧ tool = tool' := by
  have hadd := Except.ok.inj ((override_of_asks h empty).symm.trans (override_of_asks h' empty))
  have hbindings : [(dotted key, Adapter.ofTool tool)] = [(dotted key', .ofTool tool')] :=
    congrArg (·.routes.bindings) hadd
  rw [h.dotted_key, h'.dotted_key] at hbindings
  simp only [List.cons.injEq, Prod.mk.injEq, and_true] at hbindings
  exact ⟨hbindings.1, congrArg Adapter.tool hbindings.2⟩

theorem override_eq_ok_iff {r r' : Routing Adapter} {spec : String} :
    r.override spec = .ok r' ↔ ∃ key tool, Asks spec key tool ∧ r' = r.add key (.ofTool tool) := by
  constructor
  · intro h
    rcases asks_or_refused spec with ⟨key, tool, hasks⟩ | hrefused
    · exact ⟨key, tool, hasks, Except.ok.inj (h.symm.trans (override_of_asks hasks r))⟩
    · obtain ⟨message, herror⟩ := override_of_refused hrefused
      cases h.symm.trans (herror r)
  · rintro ⟨key, tool, hasks, rfl⟩
    exact override_of_asks hasks r

theorem exists_override_eq_error_iff {r : Routing Adapter} {spec : String} :
    (∃ e, r.override spec = .error e) ↔ Refused spec := by
  constructor
  · rintro ⟨e, h⟩
    rcases asks_or_refused spec with ⟨key, tool, hasks⟩ | hrefused
    · cases h.symm.trans (override_of_asks hasks r)
    · exact hrefused
  · intro h
    obtain ⟨message, herror⟩ := override_of_refused h
    exact ⟨_, herror r⟩

/-! ## One override after another -/

/-- The routes after an override, which stay as they are if it is refused. -/
def heed (r : Routing Adapter) (spec : String) : Routing Adapter :=
  match r.override spec with
  | .ok r' => r'
  | .error _ => r

/-- The routes after overrides, of which those that are refused are passed over. -/
def heedAll (r : Routing Adapter) (specs : List String) : Routing Adapter :=
  specs.foldl heed r

theorem heed_of_asks {spec key : String} {tool : Tool} (h : Asks spec key tool) (r : Routing Adapter) :
    r.heed spec = r.add key (.ofTool tool) := by
  rw [heed, override_of_asks h]

theorem heed_of_refused {spec : String} (h : Refused spec) (r : Routing Adapter) : r.heed spec = r := by
  obtain ⟨message, herror⟩ := override_of_refused h
  rw [heed, herror]

section Selecting

variable {path : Path} {key : String}

theorem select_heed_of_asks {spec : String} {tool : Tool} (hasks : Asks spec key tool)
    (hpath : path.extension = some key) (r : Routing Adapter) : (r.heed spec).select path none = some (.ofTool tool) := by
  rw [heed_of_asks hasks, select_add_self (by rw [hasks.dotted_key, hpath])]

theorem select_heed_of_not_asks {spec : String}
    (h : ∀ key, path.extension = some key → ∀ tool, ¬ Asks spec key tool) (r : Routing Adapter) :
    (r.heed spec).select path none = r.select path none := by
  rcases asks_or_refused spec with ⟨key, tool, hasks⟩ | hrefused
  · rw [heed_of_asks hasks, select_add_of_ne]
    rw [hasks.dotted_key]
    exact fun hpath => h key hpath tool hasks
  · rw [heed_of_refused hrefused]

/-- **A file whose extension no override is for goes where it went before.** -/
theorem select_heedAll_of_none {specs : List String}
    (h : ∀ key, path.extension = some key → ∀ spec ∈ specs, ∀ tool, ¬ Asks spec key tool) (r : Routing Adapter) :
    (r.heedAll specs).select path none = r.select path none := by
  induction specs generalizing r with
  | nil => rfl
  | cons spec specs ih =>
    have hspecs := ih (fun key hpath s hs => h key hpath s (List.mem_cons_of_mem _ hs)) (r.heed spec)
    have hspec : (r.heed spec).select path none = r.select path none :=
      select_heed_of_not_asks (fun key hpath => h key hpath spec List.mem_cons_self) r
    exact hspecs.trans hspec

/-- **The last override for an extension decides where its files go.** -/
theorem select_heedAll_of_last {earlier later : List String} {spec : String} {tool : Tool} (hasks : Asks spec key tool)
    (hlater : ∀ s ∈ later, ∀ t, ¬ Asks s key t) (hpath : path.extension = some key) (r : Routing Adapter) :
    (r.heedAll (earlier ++ spec :: later)).select path none = some (.ofTool tool) := by
  have hrest : ∀ key', path.extension = some key' → ∀ s ∈ later, ∀ t, ¬ Asks s key' t := by
    intro key' hpath'
    obtain rfl : key = key' := Option.some.inj (hpath.symm.trans hpath')
    exact hlater
  calc (r.heedAll (earlier ++ spec :: later)).select path none
      = (((r.heedAll earlier).heed spec).heedAll later).select path none := by
        rw [heedAll, List.foldl_append, List.foldl_cons]; rfl
    _ = ((r.heedAll earlier).heed spec).select path none := select_heedAll_of_none hrest _
    _ = some (.ofTool tool) := select_heed_of_asks hasks hpath _

end Selecting

/-- A language keeps the files with its extensions and sends no other anywhere. -/
theorem select_language {α : Type} (r : Routing α) (path : Path) (l : Language) :
    ((∃ e ∈ l.extensions, path.extension = some e) → r.select path (some l) = r.select path none) ∧
      ((∀ e ∈ l.extensions, path.extension ≠ some e) → r.select path (some l) = none) := by
  constructor
  · rintro ⟨e, he, hpath⟩
    have hcovers : l.covers path = true := by
      rw [Language.covers, hpath]
      exact List.contains_iff_mem.2 he
    simp [select, hcovers]
  · intro h
    refine select_eq_none_of_not_covers ?_
    unfold Language.covers
    split
    · next e hpath => exact Bool.eq_false_iff.2 fun he => h e (List.contains_iff_mem.1 he) hpath
    · rfl

/-! ## The keys -/

theorem ordered_standard : standard.routes.Ordered := by
  unfold OrderedMap.Ordered
  decide

theorem ordered_heedAll {r : Routing Adapter} (h : r.routes.Ordered) (specs : List String) :
    (r.heedAll specs).routes.Ordered := by
  induction specs generalizing r with
  | nil => exact h
  | cons spec specs ih =>
    refine ih ?_
    rcases asks_or_refused spec with ⟨key, tool, hasks⟩ | hrefused
    · rw [heed_of_asks hasks]
      exact OrderedMap.ordered_insert h _ _
    · rwa [heed_of_refused hrefused]

theorem mem_extensions_heed {r : Routing Adapter} (h : r.routes.Ordered) {spec e : String} :
    e ∈ (r.heed spec).extensions ↔ e ∈ r.extensions ∨ ∃ tool, Asks spec e tool := by
  rcases asks_or_refused spec with ⟨key, tool, hasks⟩ | hrefused
  · have hkey : (∃ t, Asks spec e t) ↔ e = key := by
      constructor
      · rintro ⟨t, he⟩
        exact (he.unique hasks).1
      · rintro rfl
        exact ⟨tool, hasks⟩
    rw [heed_of_asks hasks, extensions, add, hasks.dotted_key, OrderedMap.mem_keys_insert h, hkey, or_comm]
    rfl
  · have hnone : ¬ ∃ t, Asks spec e t := by
      rintro ⟨t, he⟩
      exact he.not_refused hrefused
    rw [heed_of_refused hrefused, or_iff_left hnone]

/-- The extensions that have a route are those that had one and those of the overrides that were followed. -/
theorem mem_extensions_heedAll {r : Routing Adapter} (h : r.routes.Ordered) {specs : List String} {e : String} :
    e ∈ (r.heedAll specs).extensions ↔ e ∈ r.extensions ∨ ∃ spec ∈ specs, ∃ tool, Asks spec e tool := by
  -- from the end, where the routes before the last override are those of the others
  induction specs using List.reverseRecOn with
  | nil => simp [heedAll]
  | append_singleton specs spec ih =>
    have hlast : r.heedAll (specs ++ [spec]) = (r.heedAll specs).heed spec := by
      rw [heedAll, List.foldl_append]
      rfl
    rw [hlast, mem_extensions_heed (ordered_heedAll h specs), ih]
    simp only [List.mem_append, List.mem_singleton, or_assoc, or_and_right, exists_or, exists_eq_left]

/-- Extensions are listed in the order of their bytes, each once. -/
theorem pairwise_extensions {α : Type} {r : Routing α} (h : r.routes.Ordered) :
    r.extensions.Pairwise fun a b => Text.encode a < Text.encode b := by
  refine List.pairwise_map.2 (h.imp fun {a b} hlt => ?_)
  exact Text.encode_lt_encode (compareOfLessAndEq_eq_lt.1 hlt)

/-! ## Command lines -/

theorem overrideAll_cons (r : Routing Adapter) (spec : String) (specs : List String) :
    r.overrideAll (spec :: specs) = (r.override spec >>= (overrideAll · specs)) :=
  List.foldlM_cons

/-- Overrides that come with one that is refused lead nowhere. -/
theorem overrideAll_eq_ok_iff {r r' : Routing Adapter} {specs : List String} :
    r.overrideAll specs = .ok r' ↔ (∀ spec ∈ specs, ¬ Refused spec) ∧ r' = r.heedAll specs := by
  induction specs generalizing r with
  | nil =>
    have hnil : r.overrideAll [] = .ok r := rfl
    rw [hnil, Except.ok.injEq, eq_comm]
    exact (and_iff_right (List.forall_mem_nil _)).symm
  | cons spec specs ih =>
    rw [overrideAll_cons, List.forall_mem_cons]
    rcases asks_or_refused spec with ⟨key, tool, hasks⟩ | hrefused
    · rw [override_of_asks hasks, ← heed_of_asks hasks]
      exact ih.trans (and_congr_left fun _ => (and_iff_right hasks.not_refused).symm)
    · obtain ⟨message, herror⟩ := override_of_refused hrefused
      rw [herror]
      constructor
      · intro h
        cases h
      · rintro ⟨⟨hspec, -⟩, -⟩
        exact absurd hrefused hspec

/-- The first override that is refused is the one that is reported. -/
theorem overrideAll_of_refused {earlier later : List String} {spec : String} {e : Failure}
    (hearlier : ∀ s ∈ earlier, ¬ Refused s) (hspec : ∀ r : Routing Adapter, r.override spec = .error e)
    (r : Routing Adapter) : r.overrideAll (earlier ++ spec :: later) = .error e := by
  induction earlier generalizing r with
  | nil =>
    rw [List.nil_append, overrideAll_cons, hspec]
    rfl
  | cons s earlier ih =>
    obtain ⟨hs, hearlier⟩ := List.forall_mem_cons.1 hearlier
    obtain ⟨key, tool, hasks⟩ := (asks_or_refused s).resolve_right hs
    rw [List.cons_append, overrideAll_cons, override_of_asks hasks]
    exact ih hearlier _

end Routing

namespace CommandLine.Invocation

open Routing

theorem options_of_error {i : Invocation} {e : Failure} (h : Routing.standard.overrideAll i.overrides = .error e) :
    i.options = .error e.message := by
  rw [options, h]
  rfl

theorem options_of_ok {i : Invocation} {r : Routing Adapter} (h : Routing.standard.overrideAll i.overrides = .ok r) :
    i.options = (i.language.mapM Language.parse).map fun language => ⟨language, r, i.policy⟩ := by
  rw [options, h]
  cases i.language.mapM Language.parse <;> rfl

/-- A command line has options exactly if all of its overrides are followed and its language is known. -/
theorem options_eq_ok_iff {i : Invocation} {o : Options Adapter} :
    i.options = .ok o ↔ (∀ spec ∈ i.overrides, ¬ Refused spec) ∧ i.language.mapM Language.parse = .ok o.language ∧
      o.routing = Routing.standard.heedAll i.overrides ∧ o.policy = i.policy := by
  obtain ⟨language, routing, policy⟩ := o
  cases h : Routing.standard.overrideAll i.overrides with
  | error e =>
    have hnot : ¬ ∀ spec ∈ i.overrides, ¬ Refused spec := by
      intro hall
      cases h.symm.trans (overrideAll_eq_ok_iff.2 ⟨hall, rfl⟩)
    rw [options_of_error h]
    exact ⟨nofun, fun hall => absurd hall.1 hnot⟩
  | ok r =>
    obtain ⟨hall, rfl⟩ := overrideAll_eq_ok_iff.1 h
    rw [options_of_ok h, and_iff_right hall]
    cases i.language.mapM Language.parse with
    | error e => exact ⟨nofun, fun h => nomatch h.1⟩
    | ok l => simp [Except.map, eq_comm]

end CommandLine.Invocation

/-! ## All of it -/

/-- **Where files go after overrides.** An override is refused exactly if it has no `=`, no extension before the first
one or no name of a tool behind it; that is an error of configuration, and the routes stay as they are. After any
overrides a file goes to the tool of the last one for its extension, or where it went before if there is none; a
language keeps the files with its extensions and sends no other anywhere; and the extensions are listed in the order of
their bytes, each once. The options of a command line are those of its overrides in order, and the first one that is
refused is what is wrong with it. -/
theorem Routing.routes_of_overrides :
    (∀ (r : Routing Adapter) (spec : String),
      ((∃ e, r.override spec = .error e) ↔ Refused spec) ∧
      (∀ e, r.override spec = .error e → (∃ message, e = .configuration message) ∧ r.heed spec = r) ∧
      ∀ r', r.override spec = .ok r' ↔ ∃ key tool, Asks spec key tool ∧ r' = r.add key (.ofTool tool)) ∧
    (∀ (r : Routing Adapter) (specs : List String) (path : Path),
      (∀ earlier spec later key tool, specs = earlier ++ spec :: later → Asks spec key tool →
        (∀ s ∈ later, ∀ t, ¬ Asks s key t) → path.extension = some key →
        (r.heedAll specs).select path none = some (.ofTool tool)) ∧
      ((∀ key, path.extension = some key → ∀ s ∈ specs, ∀ t, ¬ Asks s key t) →
        (r.heedAll specs).select path none = r.select path none) ∧
      ∀ l : Language,
        ((∃ e ∈ l.extensions, path.extension = some e) →
          (r.heedAll specs).select path (some l) = (r.heedAll specs).select path none) ∧
        ((∀ e ∈ l.extensions, path.extension ≠ some e) → (r.heedAll specs).select path (some l) = none)) ∧
    (∀ (r : Routing Adapter) (specs : List String), r.routes.Ordered →
      (r.heedAll specs).extensions.Pairwise (fun a b => Text.encode a < Text.encode b) ∧
      ∀ e, (e ∈ (r.heedAll specs).extensions ↔ ∃ a, (r.heedAll specs).routes.find? e = some a) ∧
        (e ∈ (r.heedAll specs).extensions ↔ e ∈ r.extensions ∨ ∃ spec ∈ specs, ∃ tool, Asks spec e tool)) ∧
    (∀ i : CommandLine.Invocation,
      (∀ o, i.options = .ok o ↔ (∀ spec ∈ i.overrides, ¬ Refused spec) ∧
        i.language.mapM Language.parse = .ok o.language ∧ o.routing = standard.heedAll i.overrides ∧
        o.policy = i.policy) ∧
      ∀ earlier spec later, i.overrides = earlier ++ spec :: later → (∀ s ∈ earlier, ¬ Refused s) → Refused spec →
        ∃ e, (∀ r : Routing Adapter, r.override spec = .error e) ∧ i.options = .error e.message) := by
  refine ⟨fun r spec => ⟨exists_override_eq_error_iff, fun e he => ?_, fun r' => override_eq_ok_iff⟩,
    fun r specs path => ⟨?_, fun h => select_heedAll_of_none h r, fun l => select_language _ path l⟩,
    fun r specs h => ⟨pairwise_extensions (ordered_heedAll h specs), fun e => ⟨?_, mem_extensions_heedAll h⟩⟩,
    fun i => ⟨fun o => CommandLine.Invocation.options_eq_ok_iff, ?_⟩⟩
  · have hrefused : Refused spec := exists_override_eq_error_iff.1 ⟨e, he⟩
    obtain ⟨message, herror⟩ := override_of_refused hrefused
    exact ⟨⟨message, Except.error.inj (he.symm.trans (herror r))⟩, heed_of_refused hrefused r⟩
  · rintro earlier spec later key tool rfl hasks hlater hpath
    exact select_heedAll_of_last hasks hlater hpath r
  · exact OrderedMap.mem_keys_iff (ordered_heedAll h specs)
  · intro earlier spec later hspecs hearlier hrefused
    obtain ⟨message, herror⟩ := override_of_refused hrefused
    refine ⟨_, herror, CommandLine.Invocation.options_of_error ?_⟩
    rw [hspecs]
    exact overrideAll_of_refused hearlier herror standard

/-- Three overrides for one extension, the second without its dot and the third for a tool that is not known. -/
def Routing.respelled : List String := [".c=cppcheck", "c= OCLint ", "c=eslint"]

/-- The second of them counts, and on a command line the third is a mistake. -/
theorem Routing.routes_of_overrides_of_respelled :
    (standard.heedAll respelled).select (.ofString "src/main.c") none = some (.ofTool .oclint) ∧
    (standard.heedAll respelled).select (.ofString "src/main.c") (some .cpp) = some (.ofTool .oclint) ∧
    (standard.heedAll respelled).select (.ofString "src/main.c") (some .python) = none ∧
    (standard.heedAll respelled).select (.ofString "util.hpp") none = some (.ofTool .flawfinder) ∧
    (".c" ∈ (standard.heedAll respelled).extensions ∧ ".d" ∉ (standard.heedAll respelled).extensions) ∧
    ∃ e : Failure, standard.override "c=eslint" = .error e ∧
      CommandLine.Invocation.options ⟨["HEAD"], .text, none, .degrade, respelled, ".", false⟩ = .error e.message := by
  obtain ⟨-, hselect, hlist, hoptions⟩ := routes_of_overrides
  have hfirst : Asks ".c=cppcheck" ".c" .cppcheck :=
    @Asks.intro ".c" "cppcheck" _ (by decide) ⟨'c', by decide, by decide⟩ (by decide)
  have hsecond : Asks "c= OCLint " ".c" .oclint :=
    @Asks.intro "c" " OCLint " _ (by decide) ⟨'c', by decide, by decide⟩ (by decide)
  have hthird : Refused "c=eslint" := @Refused.unknown "c" "eslint" (by decide) fun tool => by cases tool <;> decide
  have hnone {key : String} {tool : Tool} (h : Asks "c=eslint" key tool) : False := h.not_refused hthird
  have hkey {key : String} (h : ∃ spec ∈ respelled, ∃ tool, Asks spec key tool) : key = ".c" := by
    obtain ⟨spec, hspec, tool, hasks⟩ := h
    simp only [respelled, List.mem_cons, List.not_mem_nil, or_false] at hspec
    rcases hspec with rfl | rfl | rfl
    · exact (hasks.unique hfirst).1
    · exact (hasks.unique hsecond).1
    · exact (hnone hasks).elim
  obtain ⟨hlast, -, hlanguage⟩ := hselect standard respelled (.ofString "src/main.c")
  have hmain := hlast [".c=cppcheck"] _ ["c=eslint"] ".c" .oclint rfl hsecond
    (List.forall_mem_singleton.2 fun tool h => hnone h) (by decide +kernel)
  refine ⟨hmain, ((hlanguage .cpp).1 ⟨".c", by decide, by decide +kernel⟩).trans hmain,
    (hlanguage .python).2 (by decide +kernel), ?_, ⟨?_, ?_⟩, ?_⟩
  · have hbefore := (hselect standard respelled (.ofString "util.hpp")).2.1
    refine (hbefore fun key hpath spec hspec tool h => ?_).trans (by decide +kernel)
    obtain rfl := hkey ⟨spec, hspec, tool, h⟩
    exact absurd hpath (by decide +kernel)
  · exact ((hlist standard respelled ordered_standard).2 ".c").2.2 (Or.inr ⟨_, List.mem_cons_self, _, hfirst⟩)
  · intro hmem
    rcases ((hlist standard respelled ordered_standard).2 ".d").2.1 hmem with h | h
    · exact absurd h (by decide)
    · exact absurd (hkey h) (by decide)
  · obtain ⟨e, herror, hwrong⟩ := (hoptions ⟨["HEAD"], .text, none, .degrade, respelled, ".", false⟩).2
      [".c=cppcheck", "c= OCLint "] "c=eslint" [] rfl
      (List.forall_mem_cons.2 ⟨hfirst.not_refused, List.forall_mem_singleton.2 hsecond.not_refused⟩) hthird
    exact ⟨e, herror standard, hwrong⟩

end LintDelta
