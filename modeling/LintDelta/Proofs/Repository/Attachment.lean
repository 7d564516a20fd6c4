import LintDelta.Proofs.Contrast.Discipline
import LintDelta.Repository

/-!
# Whether HEAD is attached again

A repository is asked where HEAD is before it lints in the tree, and what it answers is checked out last. For
a HEAD on a branch the answer is a text, the shortest name that the order of lookup leaves to the branch, and
a checkout takes a text for the name of a branch first. The two fit together exactly if the answer is the bare
name of the branch, that is, if no other reference shadows the branch (`Shadowed`). Otherwise the answer is a
longer text, which names another branch or none.

The theorem follows the calls of a guard of the working tree (`Bench.Guarding`): the questions leave the repository
as it is, every side that is linted leaves HEAD detached, and so the last checkout alone decides where HEAD is.

Main statement: `head_of_lintChange`.
-/

namespace LintDelta

namespace Repository

/-! ## Short names -/

theorem withoutStart_append (start rest : String) : withoutStart start (start ++ rest) = some rest := by
  have hprefix : start.toList.isPrefixOf (start ++ rest).toList = true := by
    rw [String.toList_append, List.isPrefixOf_iff_prefix]
    exact List.prefix_append _ _
  rw [withoutStart, if_pos hprefix, String.toList_append, ← String.length_toList, List.drop_left,
    String.ofList_toList]

/-- Another reference comes before the branch of this name wherever a short name is looked up. -/
def Shadowed (r : Repository) (name : String) : Prop :=
  ∃ full ∈ (expansions name).take 3, r.hasRef full = true

instance (r : Repository) (name : String) : Decidable (r.Shadowed name) :=
  inferInstanceAs (Decidable (∃ full ∈ (expansions name).take 3, r.hasRef full = true))

/-- A name before which no other reference comes is the short name of its branch. -/
theorem shortName_of_not_shadowed {r : Repository} {name : String} (h : ¬ r.Shadowed name) :
    r.shortName (branches ++ name) = name := by
  have hfree : (((expansions name).take 3).all fun full => full == branches ++ name || !r.hasRef full) = true := by
    rw [List.all_eq_true]
    intro full hfull
    have hno : r.hasRef full = false := Bool.eq_false_iff.2 fun hyes => h ⟨full, hfull, hyes⟩
    rw [hno]
    exact Bool.or_true _
  simp only [shortName, withoutStart_append, Option.filter_some, hfree, if_true, Option.some_or, Option.getD_some]

theorem withoutStart_tags (name : String) : withoutStart tags (branches ++ name) = none := by
  rw [withoutStart, if_neg]
  rw [String.toList_append]
  exact Bool.false_ne_true

/-- What a name can be mistaken for is shorter than the full name of its branch. -/
theorem ne_of_mem_expansions {name full : String} (h : full ∈ (expansions name).take 3) :
    full ≠ branches ++ name := by
  refine ne_of_apply_ne String.length (Nat.ne_of_lt ?_)
  have hcases : full = name ∨ full = "refs/" ++ name ∨ full = tags ++ name := by simpa [expansions] using h
  rcases hcases with rfl | rfl | rfl
  · rw [String.length_append]
    have : branches.length = 11 := by decide
    omega
  · rw [String.length_append, String.length_append]
    exact Nat.add_lt_add_right (by decide) _
  · rw [String.length_append, String.length_append]
    exact Nat.add_lt_add_right (by decide) _

/-- The short name of a branch that another reference shadows goes back as far as to `heads/`, or even to the full
name. -/
theorem shortName_of_shadowed {r : Repository} {name : String} (h : r.Shadowed name) :
    r.shortName (branches ++ name) =
      if r.hasRef ("heads/" ++ name) then branches ++ name else "heads/" ++ name := by
  obtain ⟨full, hfull, hyes⟩ := h
  have hnot : (((expansions name).take 3).all fun full => full == branches ++ name || !r.hasRef full) = false := by
    rw [List.all_eq_false]
    exact ⟨full, hfull, by simp [ne_of_mem_expansions hfull, hyes]⟩
  have hsplit : branches ++ name = "refs/" ++ ("heads/" ++ name) := by
    rw [← String.append_assoc]
    rfl
  have hshort : ("heads/" ++ name == branches ++ name) = false := by
    refine beq_false_of_ne (ne_of_apply_ne String.length (Nat.ne_of_lt ?_))
    rw [String.length_append, String.length_append]
    exact Nat.add_lt_add_right (by decide) _
  have hone : (((expansions ("heads/" ++ name)).take 1).all fun full =>
      full == branches ++ name || !r.hasRef full) = !r.hasRef ("heads/" ++ name) := by
    simp [expansions, hshort]
  have hbelow : withoutStart "refs/" (branches ++ name) = some ("heads/" ++ name) := by
    rw [hsplit, withoutStart_append]
  simp only [shortName, withoutStart_append, withoutStart_tags, hbelow, Option.filter_some, hnot, hone,
    Option.filter_none, Bool.false_eq_true, if_false, Option.none_or]
  cases r.hasRef ("heads/" ++ name) <;> rfl

/-! ## What a checkout does to HEAD -/

variable {r w w' : Repository} {name : String}

theorem head_switchTo {target : Snapshot} (h : w.switchTo target = some w') :
    w'.refs = w.refs ∧ w'.head = w.head := by
  obtain ⟨moves, -, h⟩ := Option.bind_eq_some_iff.1 h
  split at h
  · cases h
    exact ⟨rfl, rfl⟩
  · cases h

theorem head_detach {id : CommitId} (h : w.detach id = some w') :
    w'.refs = w.refs ∧ w'.head = .direct id := by
  obtain ⟨switched, hswitch, h⟩ := Option.bind_eq_some_iff.1 h
  cases h
  exact ⟨(head_switchTo hswitch).1, rfl⟩

theorem checkout_branch_eq_ok_iff : w.checkout (.branch name) = .ok w' ↔ w.checkoutName name = some w' := by
  simp only [checkout]
  cases w.checkoutName name <;> simp

theorem checkout_detached_eq_ok_iff {id : CommitId} :
    w.checkout (.detached id) = .ok w' ↔ ∃ commit, w.resolve true id.text = some commit ∧ w.detach commit = some w' := by
  rw [← Option.bind_eq_some_iff]
  simp only [checkout]
  cases (w.resolve true id.text).bind w.detach <;> simp

/-- Checking out a commit detaches HEAD. -/
theorem head_of_checkout_detached {id : CommitId} (h : w.checkout (.detached id) = .ok w') :
    w'.refs = w.refs ∧ ∃ commit, w'.head = .direct commit := by
  obtain ⟨commit, -, hdetach⟩ := checkout_detached_eq_ok_iff.1 h
  obtain ⟨hrefs, hhead⟩ := head_detach hdetach
  exact ⟨hrefs, commit, hhead⟩

/-- **Checking out a name** attaches HEAD to the branch of that name. Without such a branch HEAD is detached, or
it stays, if the name stands for HEAD or for files. -/
theorem head_of_checkoutName (h : w.checkoutName name = some w') :
    (w.branchTip name).isSome = true ∧ w'.head = .symbolic (branches ++ name) ∨
    w.branchTip name = none ∧ (w'.head = w.head ∨ ∃ commit, w'.head = .direct commit) := by
  unfold checkoutName at h
  cases htip : w.branchTip name with
  | some id =>
    rw [htip] at h
    obtain ⟨switched, -, h⟩ := Option.bind_eq_some_iff.1 h
    cases h
    exact Or.inl ⟨rfl, rfl⟩
  | none =>
    rw [htip] at h
    refine Or.inr ⟨rfl, ?_⟩
    dsimp only at h
    split at h
    · split at h
      · exact Or.inl (head_switchTo h).2
      · exact Or.inr ⟨_, (head_detach h).2⟩
    · split at h
      · cases h
      · unfold restorePath at h
        dsimp only at h
        split at h
        · cases h
        · cases h
          exact Or.inl rfl

/-- **Putting HEAD back on its branch** by the short name succeeds exactly if no other reference shadows the
branch. Else HEAD ends up on another branch, of which the short name is the name, or stays detached. -/
theorem head_of_checkout_currentHead (hrefs : w.refs = r.refs) (hhead : r.head = .symbolic (branches ++ name))
    (hborn : (r.branchTip name).isSome = true) (hdetached : ∃ commit, w.head = .direct commit)
    (h : w.checkout r.currentHead = .ok w') :
    (w'.head = r.head ↔ ¬ r.Shadowed name) ∧
    (r.Shadowed name → w'.head = .symbolic (branches ++ r.shortName (branches ++ name)) ∨
      ∃ commit, w'.head = .direct commit) := by
  rw [currentHead, hhead] at h
  have hname : w.checkoutName (r.shortName (branches ++ name)) = some w' := checkout_branch_eq_ok_iff.1 h
  have htip (short : String) : w.branchTip short = r.branchTip short := by
    rw [branchTip, branchTip, hrefs]
  have hcases := head_of_checkoutName hname
  by_cases hshadowed : r.Shadowed name
  · have hlost : w'.head = .symbolic (branches ++ r.shortName (branches ++ name)) ∨
        ∃ commit, w'.head = .direct commit := by
      obtain ⟨commit, hcommit⟩ := hdetached
      rcases hcases with ⟨-, h⟩ | ⟨-, h | h⟩
      · exact Or.inl h
      · exact Or.inr ⟨commit, h.trans hcommit⟩
      · exact Or.inr h
    refine ⟨⟨fun heq => ?_, fun hno => absurd hshadowed hno⟩, fun _ => hlost⟩
    rw [heq, hhead] at hlost
    rcases hlost with hsame | ⟨commit, hcommit⟩
    · have hshort : name = r.shortName (branches ++ name) := by
        have := congrArg String.toList (HeadRef.symbolic.inj hsame)
        simpa [String.toList_append, String.toList_inj] using this
      rw [shortName_of_shadowed hshadowed] at hshort
      have hlonger : name.length < (if r.hasRef ("heads/" ++ name) then branches ++ name
          else "heads/" ++ name).length := by
        have hbranches : branches.length = 11 := by decide
        have hheads : "heads/".length = 6 := by decide
        split <;> rw [String.length_append] <;> omega
      exact absurd hshort (ne_of_apply_ne String.length (Nat.ne_of_lt hlonger))
    · cases hcommit
  · rw [shortName_of_not_shadowed hshadowed, htip] at hcases
    refine ⟨⟨fun _ => hshadowed, fun _ => ?_⟩, fun hyes => absurd hyes hshadowed⟩
    rcases hcases with ⟨-, h⟩ | ⟨hnone, -⟩
    · rw [h, hhead]
    · rw [hnone] at hborn
      cases hborn

end Repository

/-! ## Under a guard -/

/-- No call failed. -/
def Faultless (seen : List Call) : Prop := ∀ call ∈ seen, ∀ e, call.2 ≠ .fault e

/-- Something was checked out, or that was tried. -/
def ChecksOut (seen : List Call) : Prop := ∃ target answer, (Event.checkout target, answer) ∈ seen

namespace Repository

variable {w w' : Repository} {workdir : Path} {box : Toolbox Repository} {linter : Linter Repository}

/-- Tools leave the repository as it is. -/
theorem eq_of_leads_ran {file : Path} {runs : List Call} (hruns : linter.Ran file runs)
    (h : (services workdir).Leads w runs w') : w' = w := by
  induction runs with
  | nil => exact h
  | cons call rest ih =>
    obtain ⟨program, arguments, rfl, -⟩ := hruns call List.mem_cons_self
    exact ih (fun call hcall => hruns call (List.mem_cons_of_mem _ hcall)) h.2

/-- A checkout that is answered well succeeds. -/
theorem checkout_of_leads {target : Head} {answer : Answer} (hanswer : ∀ e, answer ≠ .fault e)
    (h : (services workdir).Leads w [(.checkout target, answer)] w') : w.checkout target = .ok w' := by
  obtain ⟨hsaid, hworld⟩ := h
  simp only [VersionControl.answer, services] at hsaid hworld
  cases hrun : w.checkout target with
  | ok switched =>
    rw [hrun] at hworld
    exact congrArg Except.ok hworld.symm
  | error e =>
    rw [hrun] at hsaid
    exact absurd hsaid.symm (hanswer e)

/-- A side that is tended in the tree without a fault leaves HEAD detached. -/
theorem head_of_tends {side? : Option Side} {seen : List Call} (htree : linter.needsCheckout = true)
    (htends : (Bench.mk (services workdir) box).Tends linter side? seen) (hseen : Faultless seen)
    (h : (services workdir).Leads w seen w') :
    w'.refs = w.refs ∧ (seen = [] ∧ w' = w ∨ seen ≠ [] ∧ ∃ commit, w'.head = .direct commit) := by
  cases htends with
  | missing => exact ⟨congrArg refs h, Or.inl ⟨rfl, h⟩⟩
  | untried side => exact ⟨congrArg refs h, Or.inl ⟨rfl, h⟩⟩
  | refused side e => exact absurd rfl (hseen _ List.mem_cons_self e)
  | @supplied side file runs hfile hruns =>
    rw [show linter.supply side = .checkout (.detached side.commit) by rw [Linter.supply, if_pos htree]] at h ⊢
    rw [← List.singleton_append] at h
    obtain ⟨w₁, hcheckout, hrest⟩ := VersionControl.leads_append.1 h
    have hdone : ∀ e, Answer.done ≠ .fault e := by
      intro e h
      cases h
    obtain ⟨hrefs, hhead⟩ := head_of_checkout_detached (checkout_of_leads hdone hcheckout)
    rw [eq_of_leads_ran hruns hrest]
    exact ⟨hrefs, Or.inr ⟨List.cons_ne_nil _ _, hhead⟩⟩

/-- Two sides that are tended one after the other, at least one of them, leave HEAD detached. -/
theorem head_of_both {pre post : Option Side} {linted : Side → Prop} {first second : List Call}
    (htree : linter.needsCheckout = true)
    (horder : (Bench.mk (services workdir) box).InOrder linter pre post linted first second)
    (htried : first ++ second ≠ []) (hseen : Faultless (first ++ second))
    (h : (services workdir).Leads w (first ++ second) w') :
    w'.refs = w.refs ∧ ∃ commit, w'.head = .direct commit := by
  obtain ⟨w₁, hfirst, hsecond⟩ := VersionControl.leads_append.1 h
  obtain ⟨hrefs₁, hhead₁⟩ := head_of_tends htree horder.tends_pre
    (fun call hcall => hseen call (List.mem_append_left _ hcall)) hfirst
  obtain ⟨hrefs₂, hhead₂⟩ := head_of_tends htree horder.tends_post
    (fun call hcall => hseen call (List.mem_append_right _ hcall)) hsecond
  refine ⟨hrefs₂.trans hrefs₁, ?_⟩
  rcases hhead₂ with ⟨hnil, rfl⟩ | ⟨-, hhead₂⟩
  · rcases hhead₁ with ⟨hnil₁, -⟩ | ⟨-, hhead₁⟩
    · exact absurd (by rw [hnil₁, hnil, List.append_nil]) htried
    · exact hhead₁
  · exact hhead₂

/-- What a guard asks first is answered by the repository itself, and leaves it as it is. -/
theorem eq_of_leads_asked {head : Head} (h : (services workdir).Leads w (Settled.asked head) w') :
    head = w.currentHead ∧ w' = w := by
  obtain ⟨-, hplace, hworld⟩ := h
  exact ⟨(Answer.place.inj hplace).symm, hworld⟩

/-- **HEAD after linting in the tree.** A change is linted in a repository whose HEAD is on an existing branch, by
a linter that needs the tree, and no call fails. Then HEAD is on the branch again exactly if nothing was
checked out or no other reference shadows the branch. If one does, HEAD ends up on the branch of which the short
name is the name, or stays detached. -/
theorem head_of_lintChange {workdir : Path} {box : Toolbox Repository} {linter : Linter Repository}
    (hlinter : linter.RunsTools (services workdir)) (htree : linter.needsCheckout = true) {change : Change}
    {source target : CommitId} {s s' : Session Repository} {outcome : Except Stop (Tally × Tally)} {name : String}
    (hhead : s.world.head = .symbolic (branches ++ name)) (hborn : (s.world.branchTip name).isSome = true)
    (hrun : ((Bench.mk (services workdir) box).lintChange linter change source target).exec s = (outcome, s')) :
    ∃ seen, (services workdir).Between s s' seen ∧ (Faultless seen →
      (s'.world.head = s.world.head ↔ ¬ ChecksOut seen ∨ ¬ s.world.Shadowed name) ∧
      (ChecksOut seen → s.world.Shadowed name →
        s'.world.head = .symbolic (branches ++ s.world.shortName (branches ++ name)) ∨
        ∃ commit, s'.world.head = .direct commit)) := by
  simp only [Bench.lintChange, htree, if_true] at hrun
  obtain ⟨seen, hbetween, hguard⟩ := Bench.guarding_lintInTree (b := Bench.mk (services workdir) box) hlinter htree
    change.path (Side.before change source) (Side.after change target) s
  rw [hrun] at hbetween
  refine ⟨seen, hbetween, fun hseen => ?_⟩
  have hleads := hbetween.leads
  -- where nothing is checked out, nothing is done to the repository
  have hstill (hworld : s'.world = s.world) (hno : ¬ ChecksOut seen) :
      (s'.world.head = s.world.head ↔ ¬ ChecksOut seen ∨ ¬ s.world.Shadowed name) ∧
      (ChecksOut seen → s.world.Shadowed name →
        s'.world.head = .symbolic (branches ++ s.world.shortName (branches ++ name)) ∨
        ∃ commit, s'.world.head = .direct commit) :=
    ⟨⟨fun _ => Or.inl hno, fun _ => congrArg head hworld⟩, fun hyes => absurd hyes hno⟩
  cases hguard with
  | refused hrefusal =>
    cases hrefusal with
    | unknown e => exact absurd rfl (hseen _ List.mem_cons_self e)
    | unclean => exact hstill hleads.2 (by simp [ChecksOut])
    | lost e => exact absurd rfl (hseen (.head, .fault e) (by simp) e)
  | idle asked => exact hstill (eq_of_leads_asked hleads).2 (by simp [ChecksOut, Settled.asked])
  | @moved asked first second answer horder htried =>
    obtain ⟨w₂, hmoved, hrestore⟩ := VersionControl.leads_append.1 hleads
    obtain ⟨w₁, hasked, hboth⟩ := VersionControl.leads_append.1 hmoved
    obtain ⟨rfl, rfl⟩ := eq_of_leads_asked hasked
    obtain ⟨hrefs, hdetached⟩ := head_of_both htree horder htried
      (fun call hcall => hseen call (List.mem_append_left _ (List.mem_append_right _ hcall))) hboth
    have hlast : (Event.checkout s.world.currentHead, answer) ∈ Settled.asked s.world.currentHead ++
        (first ++ second) ++ [(.checkout s.world.currentHead, answer)] :=
      List.mem_append_right _ (List.mem_singleton_self _)
    have hcheckout := checkout_of_leads (hseen _ hlast) hrestore
    obtain ⟨hback, hlost⟩ := head_of_checkout_currentHead hrefs hhead hborn hdetached hcheckout
    have hyes : ChecksOut (Settled.asked s.world.currentHead ++ (first ++ second) ++
        [(.checkout s.world.currentHead, answer)]) := ⟨_, answer, hlast⟩
    refine ⟨hback.trans ⟨Or.inr, fun h => h.resolve_left (fun hno => hno hyes)⟩, fun _ => hlost⟩

/-- A repository with one commit, on a branch `main` beside which there is a tag `main`. -/
def clashing : Repository where
  commits := [⟨⟨"c0ffee"⟩, [], ∅⟩]
  refs := (OrderedMap.empty.insert "refs/heads/main" (.commit ⟨"c0ffee"⟩)).insert "refs/tags/main" (.commit ⟨"c0ffee"⟩)
  head := .symbolic "refs/heads/main"
  index := ∅
  worktree := ∅
  tracking := .off

/-- Tools that leave blank reports. -/
def silentBox : Toolbox Repository where
  start _ _ _ := .ok ⟨.code 0, [], [], some []⟩
  temp := ⟨.ofString "/tmp", true, fun made => toString made⟩
  shows _ _ := false

/-- What comes of linting one file with Cppcheck in the tree of that repository. -/
def clash : Except Stop (Tally × Tally) × Session Repository :=
  ((Bench.mk (services (.ofString "/work")) silentBox).lintChange ((Adapter.ofTool .cppcheck).linter silentBox)
    (.added (.ofString "a.c") ⟨"1"⟩) ⟨"c0ffee"⟩ ⟨"c0ffee"⟩).exec (Session.start clashing)

/-- The calls of that linting. -/
def clashCalls : List Call :=
  [(.isClean, .clean true), (.head, .place (.branch "heads/main")), (.checkout (.detached ⟨"c0ffee"⟩), .done),
    (.tool "cppcheck" ((Adapter.ofTool .cppcheck).arguments none (.ofString "/work/a.c")), .done),
    (.checkout (.branch "heads/main"), .done)]

/-- No call fails, and HEAD is off its branch. -/
theorem head_of_lintChange_of_clashing :
    Faultless clashCalls ∧ (services (.ofString "/work")).Between (Session.start clashing) clash.2 clashCalls ∧
      clash.2.world.head ≠ .symbolic (branches ++ "main") := by
  have hlinter : ((Adapter.ofTool .cppcheck).linter silentBox).RunsTools (services (.ofString "/work")) :=
    (Adapter.ofTool .cppcheck).onlyTools_lint _ silentBox
  have hhead : (Session.start clashing).world.head = .symbolic (branches ++ "main") := by decide +kernel
  have hborn : ((Session.start clashing).world.branchTip "main").isSome = true := by decide +kernel
  have hshadowed : (Session.start clashing).world.Shadowed "main" := by decide +kernel
  have hrun : ((Bench.mk (services (.ofString "/work")) silentBox).lintChange
      ((Adapter.ofTool .cppcheck).linter silentBox) (.added (.ofString "a.c") ⟨"1"⟩) ⟨"c0ffee"⟩ ⟨"c0ffee"⟩).exec
      (Session.start clashing) = (clash.1, clash.2) := rfl
  obtain ⟨seen, hbetween, h⟩ := head_of_lintChange hlinter rfl hhead hborn hrun
  -- the session started with an empty trace, so the calls are those of the whole trace
  have hseen : seen = clashCalls := by
    obtain ⟨events, htrace, -, rfl⟩ := hbetween
    rw [show events = clash.2.trace from htrace.symm]
    decide +kernel
  subst hseen
  have hfaultless : Faultless clashCalls := by simp [Faultless, clashCalls]
  have hchecks : ChecksOut clashCalls := ⟨.branch "heads/main", .done, by simp [clashCalls]⟩
  refine ⟨hfaultless, hbetween, fun hback => ?_⟩
  rcases (h hfaultless).1.1 (hback.trans hhead.symm) with hnone | hclear
  · exact hnone hchecks
  · exact hclear hshadowed

end Repository

end LintDelta
