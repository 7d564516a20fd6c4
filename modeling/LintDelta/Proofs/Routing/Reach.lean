import LintDelta.Proofs.Path
import LintDelta.Proofs.Routing.Overrides

/-!
# Routes that files take

A route is kept under what its override says, and a file looks for it under its own extension. Some file has an
extension exactly if there is no second dot in it and no slash (`exists_extension_iff`). A route that is kept under any
other key is taken by no file, though the override is followed (`reach_of_override`).
-/

namespace LintDelta

/-! ## What extensions look like -/

namespace Path

/-- A dot, and behind it neither a dot nor a slash. -/
def IsExtension (e : String) : Prop :=
  ∃ rest : String, e = "." ++ rest ∧ '.' ∉ rest.toList ∧ '/' ∉ rest.toList

/-- A file that is called `x` with an extension has this extension. -/
theorem extension_of_isExtension {e : String} (h : IsExtension e) : (ofString ("x" ++ e)).extension = some e := by
  obtain ⟨rest, rfl, hdot, hslash⟩ := h
  have hdot' : dot ∉ Text.encode rest := by
    intro hmem
    exact hdot (Text.mem_toList_of_mem_encode (by decide) hmem)
  have hslash' : slash ∉ Text.encode rest := by
    intro hmem
    exact hslash (Text.mem_toList_of_mem_encode (by decide) hmem)
  have hbytes : Text.encode ("x" ++ ("." ++ rest)) = 0x78 :: dot :: Text.encode rest := by
    rw [Text.encode_append, Text.encode_append]
    rfl
  have hname : (ofString ("x" ++ ("." ++ rest))).fileName = some (0x78 :: dot :: Text.encode rest) := by
    rw [ofString, hbytes]
    refine fileName_of_head (by decide) ?_
    rw [List.mem_cons, List.mem_cons, not_or, not_or]
    exact ⟨by decide, by decide, hslash'⟩
  rw [extension_of_cut hname (cutLastDot_append_dot [0x78] hdot'), if_neg (List.cons_ne_nil _ _), Text.decode?_encode]
  rfl

/-- **Which texts are extensions of files.** -/
theorem exists_extension_iff {e : String} : (∃ p : Path, p.extension = some e) ↔ IsExtension e := by
  constructor
  · rintro ⟨p, h⟩
    obtain ⟨ext, rest, -, hdot, hslash, hdecode, rfl⟩ := exists_of_extension h
    obtain rfl := Text.encode_of_decode? hdecode
    refine ⟨rest, rfl, ?_, ?_⟩
    · intro hmem
      exact hdot (List.mem_flatMap.2 ⟨'.', hmem, by decide⟩)
    · intro hmem
      exact hslash (List.mem_flatMap.2 ⟨'/', hmem, by decide⟩)
  · intro h
    exact ⟨_, extension_of_isExtension h⟩

end Path

/-! ## What overrides come to -/

namespace Routing

/-- A route that no file asks for changes nothing. -/
theorem select_add_of_not_isExtension {key : String} (h : ¬ Path.IsExtension key) (hkey : dotted key = key)
    (r : Routing Adapter) (linter : Adapter) (path : Path) (language : Option Language) :
    (r.add key linter).select path language = r.select path language := by
  refine select_add_of_ne (fun hpath => ?_) language
  rw [hkey] at hpath
  exact h (Path.exists_extension_iff.1 ⟨path, hpath⟩)

/-- **When an override takes effect.** An override that is followed leaves a route to its tool. If a file can have its
key as extension, this is the route of a file called `x` with that extension. If the key holds a slash or another dot
than its first, no file has it, and all files go where they went before. -/
theorem reach_of_override {r r' : Routing Adapter} {spec : String} (h : r.override spec = .ok r') :
    ∃ key tool, Asks spec key tool ∧ r'.routes.find? key = some (.ofTool tool) ∧
      (Path.IsExtension key → (Path.ofString ("x" ++ key)).extension = some key ∧
        r'.select (.ofString ("x" ++ key)) none = some (.ofTool tool)) ∧
      (¬ Path.IsExtension key → (∀ path : Path, path.extension ≠ some key) ∧
        ∀ path language, r'.select path language = r.select path language) := by
  obtain ⟨key, tool, hasks, rfl⟩ := override_eq_ok_iff.1 h
  have hkey : dotted key = key := hasks.dotted_key
  refine ⟨key, tool, hasks, ?_, fun hfile => ?_, fun hnone => ⟨fun path hpath => ?_, ?_⟩⟩
  · rw [add, hkey, OrderedMap.find?_insert_self]
  · have hpath := Path.extension_of_isExtension hfile
    refine ⟨hpath, select_add_self ?_⟩
    rw [hpath, hkey]
  · exact hnone (Path.exists_extension_iff.1 ⟨path, hpath⟩)
  · exact select_add_of_not_isExtension hnone hkey r (.ofTool tool)

/-- One override routes files; the other is followed as well, but its route is for no file. -/
theorem reach_of_override_of_tarball :
    (∃ r', standard.override ".pyi=pylint" = .ok r' ∧
      r'.select (.ofString "x.pyi") none = some (.ofTool .pylint)) ∧
    ∃ r', standard.override ".tar.gz=pylint" = .ok r' ∧ r'.routes.find? ".tar.gz" = some (.ofTool .pylint) ∧
      (∀ path : Path, path.extension ≠ some ".tar.gz") ∧ r'.select (.ofString "x.tar.gz") none = none := by
  have hstub : Asks ".pyi=pylint" ".pyi" .pylint :=
    @Asks.intro ".pyi" "pylint" _ (by decide) ⟨'y', by decide, by decide⟩ (by decide)
  have htarball : Asks ".tar.gz=pylint" ".tar.gz" .pylint :=
    @Asks.intro ".tar.gz" "pylint" _ (by decide) ⟨'t', by decide, by decide⟩ (by decide)
  constructor
  · have hoverride := override_of_asks hstub standard
    obtain ⟨key, tool, hasks, -, htaken, -⟩ := reach_of_override hoverride
    obtain ⟨rfl, rfl⟩ := hasks.unique hstub
    exact ⟨_, hoverride, (htaken ⟨"pyi", by decide, by decide, by decide⟩).2⟩
  · have hoverride := override_of_asks htarball standard
    obtain ⟨key, tool, hasks, hroute, -, hwaits⟩ := reach_of_override hoverride
    obtain ⟨rfl, rfl⟩ := hasks.unique htarball
    have hnot : ¬ Path.IsExtension ".tar.gz" := by
      rintro ⟨rest, hrest, hdot, -⟩
      obtain rfl : rest = "tar.gz" := String.append_right_inj _ |>.1 (hrest.symm.trans rfl)
      exact absurd hdot (by decide)
    obtain ⟨hno, hsame⟩ := hwaits hnot
    exact ⟨_, hoverride, hroute, hno, (hsame _ none).trans (by decide +kernel)⟩

end Routing

end LintDelta
