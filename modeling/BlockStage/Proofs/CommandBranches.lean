import BlockStage.Proofs.Scopes

/-!
What running a command parameter pushes. Either there is nothing to run, and nothing happens, or one
entry is pushed: the block of the branch if it can be found, and the null marker otherwise. Popping
that entry gives the thread back as it was.
-/

namespace BlockStage

/-! ## The value of a command parameter -/

/-- The nearest frame that owns parameters binds a name. -/
def Thread.Reads (t : Thread) (name : String) (v : Value) : Prop :=
  ∃ own, t.HasScope own ∧ own[name]? = some v

theorem Thread.parameter?_eq_some_iff (t : Thread) (name : String) (v : Value) :
    t.parameter? name = some v ↔ t.Reads name v := by
  simp only [parameter?, Option.bind_eq_some_iff, scope?_eq_some_iff, Reads]

theorem Thread.parameter?_eq_none_iff (t : Thread) (name : String) :
    t.parameter? name = none ↔ ∀ own, t.HasScope own → own[name]? = none := by
  simp only [parameter?, Option.bind_eq_none_iff, scope?_eq_some_iff]

namespace Scene

/-- The arguments name no parameter, or one that the nearest frame with parameters does not bind,
or one whose branch has no entry. -/
inductive HasNothingToRun (s : Scene) (args : Arguments) : Prop where
  | noName (hname : args.values["VALUE"]? = none)
  | unbound {name : Value} (hname : args.values["VALUE"]? = some name)
      (hown : ∀ own, s.thread.HasScope own → own[name.display]? = none)
  | noEntry {name : Value} {caller : Option String} (hname : args.values["VALUE"]? = some name)
      (hread : s.thread.Reads name.display (.branch ⟨none, caller⟩))

/-- The branch that a value stands for. A branch without a caller, one that cannot be found, and a
value that is no branch stand for none. -/
inductive Resolves (s : Scene) : Value → Option (String × String) → Prop where
  | found {entry caller block target : String} :
      s.branch? caller entry = some (block, target) →
      Resolves s (.branch ⟨some entry, some caller⟩) (some (block, target))
  | lost {entry caller : String} : s.branch? caller entry = none →
      Resolves s (.branch ⟨some entry, some caller⟩) none
  | noCaller {entry : String} : Resolves s (.branch ⟨some entry, none⟩) none
  | plain {v : Value} : v.branch? = none → Resolves s v none

end Scene

namespace Procedure

theorem commandBranch?_eq_none_iff (s : Scene) (v : Value) :
    commandBranch? s v = none ↔ ∃ caller, v = .branch ⟨none, caller⟩ := by
  cases v with
  | branch b =>
    obtain ⟨entry, caller⟩ := b
    cases entry <;> simp [commandBranch?]
  | integer | number | text | bool | array | vector => simp [commandBranch?]

theorem resolves_of_commandBranch? {s : Scene} {v : Value} {branch : Option (String × String)}
    (h : commandBranch? s v = some branch) : s.Resolves v branch := by
  cases v with
  | branch b =>
    obtain ⟨entry, caller⟩ := b
    obtain ⟨entry, rfl, rfl⟩ := Option.map_eq_some_iff.mp h
    cases caller with
    | none => exact .noCaller
    | some caller =>
      rw [Option.bind_some]
      cases hbranch : s.branch? caller entry with
      | none => exact .lost hbranch
      | some found => exact .found hbranch
  | integer | number | text | bool | array | vector =>
    cases h
    exact .plain rfl

end Procedure

/-! ## What is pushed -/

/-- Pushing a branch puts on one fresh entry, and leaves all else. -/
theorem Thread.pushBranch_eq (t : Thread) (branch : Option (String × String)) :
    ∃ target, t.pushBranch branch = { t with stack :=
      { block := branch.map Prod.fst
        frame := { warp := t.topFrame?.any Frame.warp, target } } :: t.stack } := by
  cases branch with
  | none => exact ⟨none, rfl⟩
  | some found =>
    obtain ⟨block, target⟩ := found
    by_cases hsame : target = t.currentTarget
    · exact ⟨none, by simp [pushBranch, pushOn, hsame, push]⟩
    · exact ⟨some target, by simp [pushBranch, pushOn, hsame, push, modifyTop]⟩

/-- A branch runs against its target, and the null marker against the target beneath it. -/
theorem Thread.currentTarget_pushBranch (t : Thread) (branch : Option (String × String)) :
    (t.pushBranch branch).currentTarget = (branch.map Prod.snd).getD t.currentTarget := by
  cases branch with
  | none => exact t.currentTarget_push none
  | some found => exact t.currentTarget_pushOn found.1 found.2

theorem Thread.pop_pushBranch (t : Thread) (branch : Option (String × String)) :
    (t.pushBranch branch).pop = t := by
  cases branch with
  | none => exact t.pop_push none
  | some found => exact t.pop_pushOn found.1 found.2

namespace Procedure

theorem reportCommand_of_nothing {s : Scene} {args : Arguments} (h : s.HasNothingToRun args) :
    reportCommand args s = s := by
  cases h with
  | noName hname => simp [reportCommand, hname]
  | unbound hname hown =>
    have hread := (s.thread.parameter?_eq_none_iff _).mpr hown
    simp [reportCommand, hname, hread]
  | @noEntry name caller hname hread =>
    have hvalue := (s.thread.parameter?_eq_some_iff _ _).mpr hread
    have hbranch := (commandBranch?_eq_none_iff s _).mpr ⟨caller, rfl⟩
    simp [reportCommand, hname, hvalue, hbranch]

theorem reportCommand_of_something {s : Scene} {args : Arguments} (h : ¬ s.HasNothingToRun args) :
    ∃ name v branch, args.values["VALUE"]? = some name ∧ s.thread.Reads name.display v ∧
      s.Resolves v branch ∧ reportCommand args s = s.mapThread (·.pushBranch branch) := by
  cases hname : args.values["VALUE"]? with
  | none => exact absurd (.noName hname) h
  | some name =>
    cases hvalue : s.thread.parameter? name.display with
    | none => exact absurd (.unbound hname ((s.thread.parameter?_eq_none_iff _).mp hvalue)) h
    | some v =>
      have hread := (s.thread.parameter?_eq_some_iff _ _).mp hvalue
      cases hbranch : commandBranch? s v with
      | none =>
        obtain ⟨caller, rfl⟩ := (commandBranch?_eq_none_iff s v).mp hbranch
        exact absurd (.noEntry hname hread) h
      | some branch =>
        refine ⟨name, v, branch, rfl, hread, resolves_of_commandBranch? hbranch, ?_⟩
        simp [reportCommand, hname, hvalue, hbranch]

/-- **At most one entry.** Running a command parameter gives no result. If there is nothing to run
it changes nothing. Otherwise the parameter is bound, and one fresh entry is pushed: the block of
the branch that the value stands for, on the target that owns it, or the null marker on the current
target if it stands for none. Popping the entry undoes that. -/
theorem reportCommand_pushes_at_most_one {σ : Type} (addons : Named (Addon σ)) (args : Arguments)
    (host : σ) (s : Scene) :
    ∃ after, run .reportCommand addons args host s = (none, host, after) ∧
      (s.HasNothingToRun args → after = s) ∧
      (¬ s.HasNothingToRun args →
        ∃ name v branch target, args.values["VALUE"]? = some name ∧
          s.thread.Reads name.display v ∧ s.Resolves v branch ∧
          after = { s with thread := { s.thread with stack :=
            { block := branch.map Prod.fst
              frame := {
                executed := false, parameters := none
                warp := s.thread.topFrame?.any Frame.warp, op := none, target } } ::
              s.thread.stack } } ∧
          after.thread.currentTarget = (branch.map Prod.snd).getD s.thread.currentTarget ∧
          after.thread.pop = s.thread) := by
  refine ⟨reportCommand args s, rfl, reportCommand_of_nothing, fun hsome => ?_⟩
  obtain ⟨name, v, branch, hname, hread, hresolves, hpush⟩ := reportCommand_of_something hsome
  obtain ⟨target, hpushed⟩ := s.thread.pushBranch_eq branch
  rw [hpush]
  refine ⟨name, v, branch, target, hname, hread, hresolves, ?_,
    s.thread.currentTarget_pushBranch branch, s.thread.pop_pushBranch branch⟩
  rw [Scene.mapThread, hpushed]

/-- The body of a procedure of the dog, whose parameter stands for a branch of the cat. -/
def borrowedBranch : Scene :=
  let hat : Block := { inputs := .ofList [("a", Input.block "b")] }
  let action : Parameters := .ofList [("action", Value.branch ⟨some "a", some "hat"⟩)]
  { project := { targets := [
      ⟨"Cat", "Cat", false, .ofNamed (.ofList [("hat", hat)]), [], {}⟩] }
    thread := {
      home := "Dog", topBlock := none
      stack := [{ block := some "body", frame := { parameters := some action } }] } }

theorem reportCommand_pushes_at_most_one_borrowedBranch :
    ∃ after, run .reportCommand (∅ : Named (Addon Unit))
        { values := .ofList [("VALUE", Value.text "action")] } () borrowedBranch =
          (none, (), after) ∧
      after.thread.topOfStack? = some "b" ∧ after.thread.currentTarget = "Cat" ∧
      after.thread.pop = borrowedBranch.thread := by
  obtain ⟨args, hargs⟩ : ∃ args : Arguments,
    args = { values := .ofList [("VALUE", Value.text "action")] } := ⟨_, rfl⟩
  have hname : args.values["VALUE"]? = some (.text "action") := by simp [hargs]
  have hparameter : borrowedBranch.thread.parameter? "action" =
      some (.branch ⟨some "a", some "hat"⟩) := by
    simp [borrowedBranch, Thread.parameter?, Thread.scope?]
  have hreads {name v : Value} (hvalue : args.values["VALUE"]? = some name)
      (hread : borrowedBranch.thread.Reads name.display v) :
      v = .branch ⟨some "a", some "hat"⟩ := by
    obtain rfl := Option.some.inj (hname.symm.trans hvalue)
    rw [← Thread.parameter?_eq_some_iff] at hread
    exact Option.some.inj (hread.symm.trans hparameter)
  have hsomething : ¬ borrowedBranch.HasNothingToRun args := by
    rintro (hnone | ⟨hvalue, hown⟩ | ⟨hvalue, hread⟩)
    · rw [hname] at hnone
      cases hnone
    · obtain rfl := Option.some.inj (hname.symm.trans hvalue)
      have hunbound := (Thread.parameter?_eq_none_iff _ _).mpr hown
      exact Option.some_ne_none _ (hparameter.symm.trans hunbound)
    · cases hreads hvalue hread
  have hbranch : borrowedBranch.branch? "hat" "a" = some ("b", "Cat") := by decide +kernel
  rw [← hargs]
  obtain ⟨after, hrun, -, hpush⟩ :=
    reportCommand_pushes_at_most_one (∅ : Named (Addon Unit)) args () borrowedBranch
  obtain ⟨name, v, branch, target, hvalue, hread, hresolves, hafter, htarget, hpop⟩ :=
    hpush hsomething
  obtain rfl := hreads hvalue hread
  obtain rfl : branch = some ("b", "Cat") := by
    cases hresolves with
    | found h => exact h.symm.trans hbranch
    | lost h => cases h.symm.trans hbranch
    | plain h => cases h
  exact ⟨after, hrun, by rw [hafter]; rfl, htarget, hpop⟩

end Procedure

end BlockStage
