import BlockStage.Proofs.Moves

/-!
Calls that come to nothing. A call is dropped for one of six reasons, all of which it finds before
it writes anything; so it leaves the scene as it was and no addon runs. There is no seventh reason:
any other call that no addon takes over ends executed, with parameters of its own.
-/

namespace BlockStage

theorem Project.target?_eq_none_iff (p : Project) (id : String) :
    p.target? id = none ↔ ∀ t ∈ p.targets, t.id ≠ id := by
  simp [Project.target?]

theorem Scene.sameSetting_startProcedure (s : Scene) (code : String) :
    s.SameSetting (s.startProcedure code) := by
  cases hdef : s.definition? code with
  | none =>
    rw [startProcedure_of_none hdef]
    exact ⟨rfl, rfl, rfl, rfl, rfl⟩
  | some id =>
    obtain ⟨signature, hsig⟩ := signature?_of_definition? hdef
    exact (startProcedure_enters hdef hsig).1

namespace Procedure

/-- Why a call is dropped. Only the blocks of the current target are asked for the code, so it does
not matter whether another target defines it or an addon is registered for it. -/
inductive Dropped (args : Arguments) (s : Scene) : Prop where
  | emptyStack (h : s.thread.stack = [])
  | executed {top : Entry} {below : List Entry} (hstack : s.thread.stack = top :: below)
      (h : top.frame.executed = true)
  | noMutation (h : args.mutation = none)
  | noCode {m : Mutation} (hmutation : args.mutation = some m) (h : m.code = none)
  | noTarget (h : ∀ t ∈ s.project.targets, t.id ≠ s.thread.currentTarget)
  | unknownCode {t : Target} {code : String}
      (htarget : s.project.target? s.thread.currentTarget = some t)
      (hcode : args.code? = some code) (h : t.blocks.signature? code = none)

section

variable {args : Arguments} {s : Scene}

/-- What a call finds if it is not dropped. -/
structure Dispatchable (args : Arguments) (s : Scene) (entry : Entry) (below : List Entry)
    (code : String) (signature : Signature) : Prop where
  stack : s.thread.stack = entry :: below
  fresh : entry.frame.executed = false
  named : args.code? = some code
  known : s.signature? code = some signature

theorem Dropped.not_dispatchable (h : Dropped args s) {entry : Entry} {below : List Entry}
    {code : String} {signature : Signature} : ¬ Dispatchable args s entry below code signature := by
  rintro ⟨hstack, hfresh, hcode, hsig⟩
  obtain ⟨target, htarget, hsig⟩ := Option.bind_eq_some_iff.mp hsig
  cases h with
  | emptyStack h => simp [h] at hstack
  | executed hstack' h =>
    rw [hstack'] at hstack
    cases hstack
    rw [h] at hfresh
    cases hfresh
  | noMutation h => simp [Arguments.code?, h] at hcode
  | noCode hmutation h => simp [Arguments.code?, hmutation, h] at hcode
  | noTarget h =>
    rw [Scene.target?, (Project.target?_eq_none_iff _ _).mpr h] at htarget
    cases htarget
  | unknownCode htarget' hcode' h =>
    rw [Scene.target?, htarget'] at htarget
    rw [hcode'] at hcode
    cases htarget
    cases hcode
    rw [h] at hsig
    cases hsig

/-- The six reasons are all there are. -/
theorem dropped_or_dispatchable (args : Arguments) (s : Scene) :
    Dropped args s ∨ ∃ entry below code signature,
      Dispatchable args s entry below code signature := by
  cases hstack : s.thread.stack with
  | nil => exact .inl (.emptyStack hstack)
  | cons entry below =>
    cases hfresh : entry.frame.executed with
    | true => exact .inl (.executed hstack hfresh)
    | false =>
      cases hmutation : args.mutation with
      | none => exact .inl (.noMutation hmutation)
      | some m =>
        cases hcode : m.code with
        | none => exact .inl (.noCode hmutation hcode)
        | some code =>
          have hcode' : args.code? = some code := by simp [Arguments.code?, hmutation, hcode]
          cases htarget : s.project.target? s.thread.currentTarget with
          | none => exact .inl (.noTarget ((Project.target?_eq_none_iff _ _).mp htarget))
          | some t =>
            cases hsig : t.blocks.signature? code with
            | none => exact .inl (.unknownCode htarget hcode' hsig)
            | some signature =>
              refine .inr ⟨entry, below, code, signature, hstack, hfresh, hcode', ?_⟩
              rw [Scene.signature?, Scene.target?, htarget]
              exact hsig

theorem Dropped.bind?_eq_none (h : Dropped args s) : bind? args s = none := by
  rw [Option.eq_none_iff_forall_ne_some]
  rintro ⟨code, bound⟩ hbind
  obtain ⟨entry, below, signature, hstack, hfresh, hcode, hsig, _⟩ :=
    (bind?_eq_some_iff args s code bound).mp hbind
  exact h.not_dispatchable ⟨hstack, hfresh, hcode, hsig⟩

/-- What a call leaves that is carried out without an addon: its entry is marked and owns
parameters, and at most one entry is pushed on it. -/
structure CarriedOut (s : Scene) (entry : Entry) (below : List Entry) (after : Scene) : Prop where
  setting : s.SameSetting after
  stack : ∃ pushed called, after.thread.stack = pushed ++ called :: below ∧ pushed.length ≤ 1 ∧
    called.block = entry.block ∧ called.frame.executed = true ∧
    called.frame.parameters.isSome = true

variable {σ : Type} {addons : Named (Addon σ)}

theorem Dispatchable.call_carriedOut {entry : Entry} {below : List Entry} {code : String}
    {signature : Signature} (h : Dispatchable args s entry below code signature)
    (hnone : addons[code]? = none) (host : σ) :
    ∃ after, call addons args host s = (none, host, after) ∧ CarriedOut s entry below after := by
  obtain ⟨parameters, hcall⟩ := call_of_no_addon h.stack h.fresh h.named h.known hnone host
  obtain ⟨called, hcalled⟩ : ∃ called : Entry, called = { entry with frame := { entry.frame with
    executed := true, parameters := some parameters } } := ⟨_, rfl⟩
  rw [← hcalled] at hcall
  have hmarked := s.sameSetting_of_stack (called :: below) (by simp [h.stack, hcalled])
  obtain ⟨marked, hmark⟩ : ∃ marked, marked = s.mapThread fun t => { t with
    stack := called :: below } := ⟨_, rfl⟩
  rw [← hmark] at hcall hmarked
  have hstack : marked.thread.stack = called :: below := by rw [hmark]; rfl
  have hmarks : called.block = entry.block ∧ called.frame.executed = true ∧
      called.frame.parameters.isSome = true := by
    rw [hcalled]
    exact ⟨rfl, rfl, rfl⟩
  refine ⟨_, hcall, hmarked.trans (marked.sameSetting_startProcedure code), ?_⟩
  rcases marked.stack_startProcedure code with hsame | ⟨id, _, _, _, hpushed⟩
  · exact ⟨[], called, hsame.trans hstack, by decide, hmarks⟩
  · exact ⟨[_], called, by rw [hpushed, hstack]; rfl, Nat.le_refl 1, hmarks⟩

theorem CarriedOut.ne {entry : Entry} {below : List Entry} {code : String} {signature : Signature}
    (h : Dispatchable args s entry below code signature) {after : Scene}
    (hafter : CarriedOut s entry below after) : after ≠ s := by
  rintro rfl
  obtain ⟨pushed, called, hstack, _, _, hexecuted, _⟩ := hafter.stack
  have hlength := congrArg List.length hstack
  rw [h.stack] at hstack hlength
  simp only [List.length_cons, List.length_append] at hlength
  obtain rfl : pushed = [] := List.length_eq_zero_iff.mp (by omega)
  cases hstack
  rw [h.fresh] at hexecuted
  cases hexecuted

/-- **Dropped calls.** A dropped call gives no result, runs no addon and leaves the project and the
thread as they were. Any other call names a procedure that the current target knows and stands on
an entry that is not executed; if no addon is registered for the procedure, that entry ends
executed with parameters of its own. So without an addon the calls that change nothing are the
dropped ones. -/
theorem call_inert_iff_dropped (addons : Named (Addon σ)) (args : Arguments) (host : σ)
    (s : Scene) :
    (Dropped args s → call addons args host s = (none, host, s)) ∧
    (¬ Dropped args s → ∃ entry below code signature,
      Dispatchable args s entry below code signature ∧
      (addons[code]? = none → ∃ after, call addons args host s = (none, host, after) ∧
        CarriedOut s entry below after)) ∧
    ((∀ code, args.code? = some code → addons[code]? = none) →
      (call addons args host s = (none, host, s) ↔ Dropped args s)) := by
  have hinert (h : Dropped args s) : call addons args host s = (none, host, s) := by
    simp [call, h.bind?_eq_none]
  refine ⟨hinert, ?_, ?_⟩
  · intro hnot
    obtain ⟨entry, below, code, signature, h⟩ :=
      (dropped_or_dispatchable args s).resolve_left hnot
    exact ⟨entry, below, code, signature, h, fun hnone => h.call_carriedOut hnone host⟩
  · intro hfree
    refine ⟨fun hsame => ?_, hinert⟩
    rcases dropped_or_dispatchable args s with hdropped | ⟨entry, below, code, signature, h⟩
    · exact hdropped
    · obtain ⟨after, hcall, hafter⟩ := h.call_carriedOut (hfree code h.named) host
      rw [hcall] at hsame
      cases hsame
      exact absurd rfl (hafter.ne h)

end

end Procedure

end BlockStage
