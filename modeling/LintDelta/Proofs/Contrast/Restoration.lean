import LintDelta.Proofs.Contrast.Frames

/-!
# HEAD after a contrast

A contrast moves HEAD to lint files in the tree, and moves it back by checking out what version control
called it before. So HEAD is put back as well as that name is good: `state_of_contrast` says that it ends
where the name leads, which is where it was exactly if the name leads there. Other checkouts may fail,
as may every question, and a tool may do what it likes.

The invariant is that HEAD is at its first place or where the name of that place leads
(`settles_contrast`), because each linting in the tree starts by asking again.
-/

namespace LintDelta

open Run (Keeps Chain)

variable {σ H : Type}

namespace VersionControl

/-- The worlds to which the calls of a contrast can lead. What is checked out is one of the two commits,
or a HEAD that was answered. -/
inductive Reaches (vcs : VersionControl σ) (source target : CommitId) (start : σ) : σ → Prop
  | start : Reaches vcs source target start start
  | changes {w : σ} (hw : Reaches vcs source target start w) :
    Reaches vcs source target start (vcs.changes source target w).2
  | readBlob {w : σ} (hw : Reaches vcs source target start w) (blob : BlobId) :
    Reaches vcs source target start (vcs.readBlob blob w).2
  | head {w : σ} (hw : Reaches vcs source target start w) : Reaches vcs source target start (vcs.head w).2
  | isClean {w : σ} (hw : Reaches vcs source target start w) :
    Reaches vcs source target start (vcs.isClean w).2
  | visit {w : σ} (hw : Reaches vcs source target start w) {commit : CommitId}
    (hc : commit = source ∨ commit = target) :
    Reaches vcs source target start (vcs.checkout (.detached commit) w).2
  | restore {w w' : σ} (hw : Reaches vcs source target start w)
    (hw' : Reaches vcs source target start w') {name : Head} (hname : (vcs.head w').1 = .ok name) :
    Reaches vcs source target start (vcs.checkout name w).2

/-- HEAD, seen as `place`, stays when it is asked about, and checking out what is answered at the place
`initial` succeeds and leads to the place `back`, where the same holds. Nothing is said about other
checkouts. -/
structure LeadsBack (vcs : VersionControl σ) (worlds : σ → Prop) (place : σ → H) (initial back : H) :
    Prop where
  changes : ∀ {w}, worlds w → ∀ source target, place (vcs.changes source target w).2 = place w
  readBlob : ∀ {w}, worlds w → ∀ blob, place (vcs.readBlob blob w).2 = place w
  head : ∀ {w}, worlds w → place (vcs.head w).2 = place w
  isClean : ∀ {w}, worlds w → place (vcs.isClean w).2 = place w
  checkout : ∀ {w w' name}, worlds w → worlds w' → place w' = initial ∨ place w' = back →
    (vcs.head w').1 = .ok name →
      (vcs.checkout name w).1 = .ok () ∧ place (vcs.checkout name w).2 = back

end VersionControl

/-! ## Three relations -/

/-- Nothing was checked out, and HEAD is where it was. -/
def Quiet (worlds : σ → Prop) (place : σ → H) (s s' : Session σ) : Prop :=
  worlds s.world → worlds s'.world ∧ place s'.world = place s.world ∧
    ∃ events, s'.trace = s.trace ++ events ∧ ∀ t, Event.checkout t ∉ events

/-- Anything may have been checked out. -/
def Roams (worlds : σ → Prop) (s s' : Session σ) : Prop :=
  worlds s.world → worlds s'.world ∧ ∃ events, s'.trace = s.trace ++ events

/-- HEAD is where it was if nothing was checked out, and else it is `back`. -/
def Settles (worlds : σ → Prop) (place : σ → H) (initial back : H) (s s' : Session σ) : Prop :=
  worlds s.world → place s.world = initial ∨ place s.world = back →
    worlds s'.world ∧ ∃ events, s'.trace = s.trace ++ events ∧
      ((∀ t, Event.checkout t ∉ events) ∧ place s'.world = place s.world ∨
        (∃ t, Event.checkout t ∈ events) ∧ place s'.world = back)

variable {worlds : σ → Prop} {place : σ → H} {initial back : H}

theorem chain_quiet : Chain (Quiet worlds place) where
  refl s hw := ⟨hw, rfl, [], (List.append_nil _).symm, fun _ => List.not_mem_nil⟩
  trans h h' hw := by
    obtain ⟨hw₁, hp₁, events, ht, hn⟩ := h hw
    obtain ⟨hw₂, hp₂, events', ht', hn'⟩ := h' hw₁
    refine ⟨hw₂, hp₂.trans hp₁, events ++ events', by rw [ht', ht, List.append_assoc], fun t hmem => ?_⟩
    rcases List.mem_append.1 hmem with hmem | hmem
    · exact hn t hmem
    · exact hn' t hmem

theorem chain_roams : Chain (Roams worlds) where
  refl s hw := ⟨hw, [], (List.append_nil _).symm⟩
  trans h h' hw := by
    obtain ⟨hw₁, events, ht⟩ := h hw
    obtain ⟨hw₂, events', ht'⟩ := h' hw₁
    exact ⟨hw₂, events ++ events', by rw [ht', ht, List.append_assoc]⟩

theorem chain_settles : Chain (Settles worlds place initial back) where
  refl s hw _ := ⟨hw, [], (List.append_nil _).symm, Or.inl ⟨fun _ => List.not_mem_nil, rfl⟩⟩
  trans := by
    intro s s₁ s₂ h h' hw hp
    obtain ⟨hw₁, events, ht, hcases⟩ := h hw hp
    have hp₁ : place s₁.world = initial ∨ place s₁.world = back := by
      rcases hcases with ⟨-, heq⟩ | ⟨-, heq⟩
      · rwa [heq]
      · exact Or.inr heq
    obtain ⟨hw₂, events', ht', hcases'⟩ := h' hw₁ hp₁
    refine ⟨hw₂, events ++ events', by rw [ht', ht, List.append_assoc], ?_⟩
    -- the later part decides where HEAD is, unless it checked nothing out
    rcases hcases' with ⟨hn', heq'⟩ | ⟨⟨t, hmem⟩, heq'⟩
    · rcases hcases with ⟨hn, heq⟩ | ⟨⟨t, hmem⟩, heq⟩
      · refine Or.inl ⟨fun t hmem => ?_, heq'.trans heq⟩
        exact (List.mem_append.1 hmem).elim (hn t) (hn' t)
      · exact Or.inr ⟨⟨t, List.mem_append_left _ hmem⟩, heq'.trans heq⟩
    · exact Or.inr ⟨⟨t, List.mem_append_right _ hmem⟩, heq'⟩

theorem Quiet.roams {s s' : Session σ} (h : Quiet worlds place s s') : Roams worlds s s' := fun hw => by
  obtain ⟨hw', -, events, ht, -⟩ := h hw
  exact ⟨hw', events, ht⟩

theorem Quiet.settles {s s' : Session σ} (h : Quiet worlds place s s') :
    Settles worlds place initial back s s' := fun hw _ => by
  obtain ⟨hw', hp, events, ht, hn⟩ := h hw
  exact ⟨hw', events, ht, Or.inl ⟨hn, hp⟩⟩

/-- Adding something else than a checkout to the trace is quiet. -/
theorem quiet_record {e : Event} (he : ∀ t, e ≠ .checkout t) :
    Keeps (Quiet worlds place) (Run.record e) := fun _ hw =>
  ⟨hw, rfl, [e], rfl, fun t hmem => he t (List.mem_singleton.1 hmem).symm⟩

/-- A question that leaves HEAD alone is quiet. -/
theorem quiet_call {α : Type} {e : Event} {f : σ → Except Failure α × σ} (he : ∀ t, e ≠ .checkout t)
    (hw : ∀ {w}, worlds w → worlds (f w).2) (hp : ∀ {w}, worlds w → place (f w).2 = place w) :
    Keeps (Quiet worlds place) (Run.call e f) :=
  Keeps.call fun _ hs => ⟨hw hs, hp hs, [e], rfl, fun t hmem => he t (List.mem_singleton.1 hmem).symm⟩

theorem frame_quiet : Frame (Quiet worlds place) (Quiet worlds place) where
  chain := chain_quiet
  chain_inner := chain_quiet
  inner_of h := h
  note _ := quiet_record nofun
  tool _ _ := quiet_record nofun
  fill content s hw := by
    rcases s with ⟨world, _ | ⟨latest, others⟩, made, trace⟩ <;>
      exact ⟨hw, rfl, [], (List.append_nil _).symm, fun _ => List.not_mem_nil⟩
  file h := h

theorem frame_settles : Frame (Settles worlds place initial back) (Settles worlds place initial back) where
  chain := chain_settles
  chain_inner := chain_settles
  inner_of h := h
  note n := (frame_quiet.note n).mono Quiet.settles
  tool program arguments := (frame_quiet.tool program arguments).mono Quiet.settles
  fill content := (frame_quiet.fill content).mono Quiet.settles
  file h := h

/-! ## The tree -/

namespace Bench

variable {b : Bench σ} {source target : CommitId} {start : σ}

theorem exec_restore_of_ok {name : Head} {s : Session σ} (h : (b.vcs.checkout name s.world).1 = .ok ()) :
    (b.restore name).exec s =
      (.ok (), { s with world := (b.vcs.checkout name s.world).2, trace := s.trace ++ [.checkout name] }) := by
  simp only [restore, Run.exec_bind, Run.exec_attempt, Run.exec_call, h]
  rfl

section Tree

variable (laws : b.vcs.LeadsBack (b.vcs.Reaches source target start) place initial back)
include laws

/-- Asking for HEAD before a checkout is quiet. -/
theorem quiet_holdTree (path : Path) :
    Keeps (Quiet (b.vcs.Reaches source target start) place) (b.holdTree path) := by
  refine chain_quiet.bind ((quiet_call (e := .isClean) nofun .isClean laws.isClean).reword _) fun clean => ?_
  cases clean
  · exact chain_quiet.fail _
  · exact (quiet_call (e := .head) nofun .head laws.head).reword _

/-- The name of HEAD that is held for a checkout was answered where HEAD is. -/
theorem answered_of_holdTree {path : Path} {name : Head} {s s' : Session σ}
    (h : (b.holdTree path).exec s = (.ok name, s')) (hw : b.vcs.Reaches source target start s.world) :
    ∃ w, b.vcs.Reaches source target start w ∧ place w = place s.world ∧ (b.vcs.head w).1 = .ok name := by
  simp only [holdTree, Run.bind_eq_ok_iff] at h
  obtain ⟨clean, s₁, hclean, h⟩ := h
  have hquiet := (quiet_call (e := .isClean) nofun .isClean laws.isClean).reword
    (fun e => Failure.resource path e.message) s hw
  rw [hclean] at hquiet
  cases clean with
  | false => cases h
  | true =>
    rw [if_pos rfl, Run.reword_eq_ok_iff, Run.exec_call] at h
    refine ⟨s₁.world, hquiet.1, hquiet.2.1, ?_⟩
    obtain ⟨hname, -⟩ := Prod.mk.inj h
    cases hanswer : (b.vcs.head s₁.world).1 <;> rw [hanswer] at hname <;> cases hname
    rfl

omit laws in
theorem roams_visit (a : Adapter) {side : Side} (hc : side.commit = source ∨ side.commit = target) :
    Keeps (Roams (b.vcs.Reaches source target start)) (b.visit (a.linter b.box) side) := by
  refine chain_roams.bind (Keeps.reword (Keeps.call fun s hw => ⟨.visit hw hc, _, rfl⟩) _) fun _ => ?_
  have hlint : Keeps (Quiet (b.vcs.Reaches source target start) fun _ => ())
      (lintAs side (a.linter b.box) (b.vcs.workdir.join side.path)) := frame_quiet.lintAs a b.box side _
  exact hlint.mono Quiet.roams

/-- **What is done last puts HEAD back**: whatever a body checks out and however it ends, HEAD is where
its name leads. -/
theorem settles_ensuring {α : Type} {body : Run σ α} {name : Head} {w : σ}
    (hbody : Keeps (Roams (b.vcs.Reaches source target start)) body)
    (hw : b.vcs.Reaches source target start w) (hplace : place w = initial ∨ place w = back)
    (hname : (b.vcs.head w).1 = .ok name) :
    Keeps (Settles (b.vcs.Reaches source target start) place initial back)
      (body.ensuring (b.restore name)) := fun s hs _ => by
  obtain ⟨hs₁, events, ht⟩ := hbody s hs
  obtain ⟨hok, hback⟩ := laws.checkout hs₁ hw hplace hname
  rw [Run.exec_ensuring, exec_restore_of_ok hok]
  exact ⟨.restore hs₁ hw hname, events ++ [.checkout name], by simp [ht],
    Or.inr ⟨⟨name, List.mem_append_right _ List.mem_cons_self⟩, hback⟩⟩

/-- Linting in the tree leaves HEAD where its name leads, if it checks anything out. -/
theorem settles_lintInTree (a : Adapter) (path : Path) {pre post : Option Side}
    (hpre : ∀ side, pre = some side → side.commit = source)
    (hpost : ∀ side, post = some side → side.commit = target) :
    Keeps (Settles (b.vcs.Reaches source target start) place initial back)
      (b.lintInTree (a.linter b.box) path pre post) := fun s hw hplace => by
  unfold lintInTree
  rw [Run.exec_bind]
  have hhold := quiet_holdTree laws path s
  rcases hrun : (b.holdTree path).exec s with ⟨_ | name, s₁⟩ <;> rw [hrun] at hhold
  · exact hhold.settles hw hplace
  · obtain ⟨w, hw', hp, hname⟩ := answered_of_holdTree laws hrun hw
    have hannounce (side : Side) : Keeps (Quiet (b.vcs.Reaches source target start) place)
        (b.announce (a.linter b.box) side) := frame_quiet.announce b _ side
    have hlast {α : Type} {body : Run σ α} (hbody : Keeps (Roams (b.vcs.Reaches source target start)) body) :
        Keeps (Settles (b.vcs.Reaches source target start) place initial back)
          (body.ensuring (b.restore name)) :=
      settles_ensuring laws hbody hw' (by rwa [hp]) hname
    -- the name was answered before anything moved, and whatever moves is followed by its checkout
    refine chain_settles.trans hhold.settles ?_ hw hplace
    rcases pre with _ | before <;> rcases post with _ | after
    · exact chain_settles.pure _ s₁
    · refine chain_settles.bind ((hannounce after).mono Quiet.settles) (fun _ => hlast ?_) s₁
      exact chain_roams.bind (roams_visit a (Or.inr (hpost after rfl))) fun _ => chain_roams.pure _
    · refine chain_settles.bind ((hannounce before).mono Quiet.settles) (fun _ => hlast ?_) s₁
      exact chain_roams.bind (roams_visit a (Or.inl (hpre before rfl))) fun _ => chain_roams.pure _
    · refine chain_settles.bind ((hannounce before).mono Quiet.settles) (fun _ => hlast ?_) s₁
      refine chain_roams.bind (roams_visit a (Or.inl (hpre before rfl))) fun _ => ?_
      refine chain_roams.bind ((hannounce after).mono Quiet.roams) fun _ => ?_
      exact chain_roams.bind (roams_visit a (Or.inr (hpost after rfl))) fun _ => chain_roams.pure _

/-- A whole contrast leaves HEAD where its name leads, if it checks anything out. -/
theorem settles_contrast (options : Options Adapter) :
    Keeps (Settles (b.vcs.Reaches source target start) place initial back)
      (b.contrast (options.equip b.box) source target) := by
  refine keeps_contrast chain_settles frame_settles.note ?_ fun path linter hsel change => ?_
  · exact Keeps.mono (quiet_call (e := .changes source target) nofun .changes (laws.changes · _ _)) Quiet.settles
  · obtain ⟨a, rfl⟩ := Options.exists_adapter_of_select hsel
    refine frame_settles.lintChange (fun blob => ?_) a ?_
    · exact Keeps.mono (quiet_call (e := .readBlob blob) nofun (.readBlob · blob) (laws.readBlob · blob))
        Quiet.settles
    · refine settles_lintInTree laws a change.path (fun side h => ?_) (fun side h => ?_)
      · obtain ⟨version, -, rfl⟩ := Option.map_eq_some_iff.1 h
        rfl
      · obtain ⟨version, -, rfl⟩ := Option.map_eq_some_iff.1 h
        rfl

end Tree

/-- **The state after a contrast** with the tools, however it ends. No temporary file is left. And if
checking out the name of the first HEAD succeeds, HEAD is back where it was exactly if nothing was
checked out or that name leads there. -/
theorem state_of_contrast (b : Bench σ) (options : Options Adapter) (source target : CommitId)
    (s : Session σ) {place : σ → H} {back : H} :
    ((b.contrast (options.equip b.box) source target).exec s).2.temps = s.temps ∧
    (b.vcs.LeadsBack (b.vcs.Reaches source target s.world) place (place s.world) back →
      ∃ events, ((b.contrast (options.equip b.box) source target).exec s).2.trace = s.trace ++ events ∧
        (place ((b.contrast (options.equip b.box) source target).exec s).2.world = place s.world ↔
          (∀ t, Event.checkout t ∉ events) ∨ back = place s.world)) := by
  refine ⟨temps_of_contrast b options source target s, fun laws => ?_⟩
  obtain ⟨-, events, ht, hcases⟩ := settles_contrast laws options s .start (Or.inl rfl)
  refine ⟨events, ht, ?_⟩
  rcases hcases with ⟨hn, heq⟩ | ⟨⟨t, hmem⟩, heq⟩
  · exact ⟨fun _ => Or.inl hn, fun _ => heq⟩
  · rw [heq]
    exact ⟨Or.inr, fun h => h.resolve_left fun hn => hn t hmem⟩

/-- A bench that nothing disturbs, but for a tag beside every branch: a branch is called by a longer name,
and checking that name out detaches HEAD. -/
def shadowed (changes : List Change) : Bench Head :=
  { placid changes with
    vcs := { (placid changes).vcs with
      head := fun head => (.ok (match head with
        | .branch name => .branch ("heads/" ++ name)
        | .detached commit => .detached commit), head)
      checkout := fun target _ => (.ok (), match target with
        | .branch _ => .detached ⟨"tip"⟩
        | .detached commit => .detached commit) } }

/-- With a tag beside the branch, one file that is linted in the tree leaves HEAD detached. -/
theorem state_of_contrast_of_shadowed :
    (((shadowed [.added (.ofString "a.c") ⟨"1"⟩]).contrast
      (Options.equip ⟨none, Routing.empty.add ".c" (.ofTool .cppcheck), .abort⟩ (shadowed []).box)
      ⟨"s"⟩ ⟨"t"⟩).exec (Session.start (.branch "main"))).2.world ≠ .branch "main" := by
  have laws : (shadowed [.added (.ofString "a.c") ⟨"1"⟩]).vcs.LeadsBack
      ((shadowed [.added (.ofString "a.c") ⟨"1"⟩]).vcs.Reaches ⟨"s"⟩ ⟨"t"⟩ (.branch "main")) id
      (.branch "main") (.detached ⟨"tip"⟩) :=
    { changes := fun _ _ _ => rfl
      readBlob := fun _ _ => rfl
      head := fun _ => rfl
      isClean := fun _ => rfl
      checkout := by
        rintro w w' name - - (rfl | rfl) hname <;> cases hname <;> exact ⟨rfl, rfl⟩ }
  obtain ⟨-, hhead⟩ := state_of_contrast (shadowed [.added (.ofString "a.c") ⟨"1"⟩])
    ⟨none, Routing.empty.add ".c" (.ofTool .cppcheck), .abort⟩ ⟨"s"⟩ ⟨"t"⟩ (Session.start (.branch "main"))
  obtain ⟨events, htrace, hback⟩ := hhead laws
  intro hworld
  rcases hback.1 hworld with hnone | hleads
  · refine hnone (.detached ⟨"t"⟩) ?_
    rw [← List.nil_append events]
    exact htrace ▸ by decide
  · cases hleads

end Bench

end LintDelta
