import BlockStage.Proofs.Actions

/-!
Whose parameters a thread reads. The nearest entry that owns any answers for all names, and a call
keeps what it bound for as long as its entry stays, whatever runs above.
-/

namespace BlockStage

/-! ## The nearest owner answers -/

/-- Both value reporters answer from one mapping, and with zero for any name that it does not
bind. They change nothing. -/
def Scene.AnswersFrom (s : Scene) (parameters : Parameters) : Prop :=
  ∀ (σ : Type) (addons : Named (Addon σ)) (args : Arguments) (host : σ) (opcode : Procedure.Opcode),
    opcode = .reportStringNumber ∨ opcode = .reportBoolean →
      Procedure.run opcode addons args host s =
        (some (((args.values["VALUE"]?).bind fun name => parameters[name.display]?).getD .zero),
          host, s)

theorem Thread.scope?_of_nearest {t : Thread} {nearer rest : List Entry} {owner : Entry}
    {own : Parameters} (hstack : t.stack = nearer ++ owner :: rest)
    (hnearer : ∀ e ∈ nearer, e.frame.parameters = none)
    (hown : owner.frame.parameters = some own) : t.scope? = some own := by
  have hnone : nearer.findSome? (·.frame.parameters) = none :=
    List.findSome?_eq_none_iff.mpr hnearer
  rw [scope?, hstack, List.findSome?_append, hnone, Option.none_or, List.findSome?_cons, hown]

/-- These are the parameters of the nearest entry that owns any. -/
def Thread.HasScope (t : Thread) (own : Parameters) : Prop :=
  ∃ nearer owner rest, t.stack = nearer ++ owner :: rest ∧
    (∀ e ∈ nearer, e.frame.parameters = none) ∧ owner.frame.parameters = some own

theorem Thread.scope?_eq_some_iff (t : Thread) (own : Parameters) :
    t.scope? = some own ↔ t.HasScope own := by
  rw [scope?, List.findSome?_eq_some_iff]
  constructor
  · rintro ⟨nearer, owner, rest, hstack, hown, hnearer⟩
    exact ⟨nearer, owner, rest, hstack, hnearer, hown⟩
  · rintro ⟨nearer, owner, rest, hstack, hnearer, hown⟩
    exact ⟨nearer, owner, rest, hstack, hown, hnearer⟩

theorem Scene.answersFrom_of_nearest {s : Scene} {nearer rest : List Entry} {owner : Entry}
    {own : Parameters} (hstack : s.thread.stack = nearer ++ owner :: rest)
    (hnearer : ∀ e ∈ nearer, e.frame.parameters = none)
    (hown : owner.frame.parameters = some own) : s.AnswersFrom own := by
  have hscope := Thread.scope?_of_nearest hstack hnearer hown
  intro σ addons args host opcode hopcode
  have hreport : Procedure.report args s =
      ((args.values["VALUE"]?).bind fun name => own[name.display]?).getD .zero := by
    simp [Procedure.report, Thread.parameter?, hscope]
  rcases hopcode with rfl | rfl <;> simp [Procedure.run, hreport]

/-! ## A call keeps its bindings -/

/-- **Isolation.** A call binds its parameters on the entry at a depth, and a run keeps that entry.
At every point of the run the entry owns just these bindings, except that at depth zero those set
since have come on top. While no entry above owns parameters, the reporters answer from them, and
from those of the topmost owner above otherwise. -/
theorem calls_keep_bindings {σ : Type} (addons : Named (Addon σ)) (args : Arguments) (host : σ)
    (s : Scene) (entry : Entry) (below : List Entry) (depth : Nat) (code : String)
    (signature : Signature) (start : σ × Scene) (hstack : s.thread.stack = entry :: below)
    (hdepth : below.length = depth) (hfresh : entry.frame.executed = false)
    (hcode : args.code? = some code) (hsig : s.signature? code = some signature)
    (hnone : addons[code]? = none) (hstart : act addons (host, s) (.block .call args) = start) :
    ∃ bound, Procedure.IsBinding signature args.values bound ∧
      ∀ actions, (∀ a ∈ actions, a.Unhooked addons) → Keeps addons depth start actions →
        ∀ before after, before <+: actions → (play addons start before).2 = after →
          ∃ above called now, after.thread.HasAt depth above called ∧
            called.frame.parameters = some now ∧
            now = (if depth = 0 then bound.insertMany (written addons start before) else bound) ∧
            ((∀ e ∈ above, e.frame.parameters = none) → after.AnswersFrom now) ∧
            ∀ nearer owner rest own, above = nearer ++ owner :: rest →
              (∀ e ∈ nearer, e.frame.parameters = none) → owner.frame.parameters = some own →
              after.AnswersFrom own := by
  obtain ⟨hids, hdefaults⟩ := Procedure.aligned_of_scene_signature? hsig
  obtain ⟨bound, hbound⟩ : ∃ bound : Parameters,
    bound = .ofList (Procedure.suppliedValues args signature) := ⟨_, rfl⟩
  obtain ⟨called, hcalled⟩ : ∃ called : Entry, called = { entry with frame := { entry.frame with
    executed := true, parameters := some bound } } := ⟨_, rfl⟩
  have hcall := Procedure.call_eq_startProcedure hstack hfresh hcode hsig hnone host
  rw [← hbound, ← hcalled] at hcall
  refine ⟨bound, hbound ▸ Procedure.isBinding_suppliedValues args signature hids hdefaults, ?_⟩
  have hmarked : (s.mapThread fun t => { t with stack := called :: below }).thread.HasAt depth []
      called := ⟨below, rfl, hdepth⟩
  obtain ⟨above, hentered⟩ := Scene.hasAt_move hmarked (.start code) rfl
  have hat : start.2.thread.HasAt depth above called := by
    rw [← hstart, act, Procedure.run, hcall]
    exact hentered
  rintro actions hfree hkept before after hbefore rfl
  obtain ⟨above, now, hat, _, hparameters⟩ :=
    play_carries hat before (fun a ha => hfree a (hbefore.subset ha)) (hkept.of_prefix hbefore)
  have hnow := hparameters bound (by rw [hcalled]) (by rw [hcalled])
  refine ⟨above, now, _, hat, hnow, rfl, ?_, ?_⟩
  · intro habove
    obtain ⟨_, hrest, _⟩ := hat
    exact Scene.answersFrom_of_nearest hrest habove hnow
  · rintro nearer owner between own rfl hnearer hown
    obtain ⟨_, hrest, _⟩ := hat
    rw [List.append_assoc, List.cons_append] at hrest
    exact Scene.answersFrom_of_nearest hrest hnearer hown

/-- A call of the procedure of `recursiveScene`. -/
def loopCall (n : String) : Arguments where
  values := .ofList [("n", Value.text n)]
  mutation := some { code := some "loop %s" }

/-- A recursive call from within the body binds `n` anew, and it is popped. -/
def loopRun : List Action :=
  [.move (.push (some "call")), .block .call (loopCall "2"), .move .pop, .move .pop]

theorem calls_keep_bindings_recursiveScene :
    ∃ signature bound, Procedure.recursiveScene.signature? "loop %s" = some signature ∧
      Procedure.IsBinding signature (loopCall "1").values bound ∧
      (play (∅ : Named (Addon Unit))
        (act ∅ ((), Procedure.recursiveScene) (.block .call (loopCall "1")))
          loopRun).2.AnswersFrom bound := by
  obtain ⟨signature, hsig⟩ := Option.isSome_iff_exists.mp
    (show (Procedure.recursiveScene.signature? "loop %s").isSome = true by decide +kernel)
  obtain ⟨bound, hbinding, hrun⟩ := calls_keep_bindings (∅ : Named (Addon Unit)) (loopCall "1") ()
    Procedure.recursiveScene _ _ 2 "loop %s" signature _ rfl rfl rfl rfl hsig (by simp) rfl
  obtain ⟨above, called, now, hat, _, hnow, hanswers, _⟩ := hrun loopRun
    (by simp [loopRun, Action.Unhooked]) (by decide +kernel) loopRun _ List.prefix_rfl rfl
  refine ⟨signature, bound, hsig, hbinding, ?_⟩
  rw [hnow, if_neg (by decide)] at hanswers
  apply hanswers
  -- the called entry is the third from below, and the body above it owns nothing
  have howners : ((play (∅ : Named (Addon Unit))
      (act ∅ ((), Procedure.recursiveScene) (.block .call (loopCall "1")))
        loopRun).2.thread.stack.map fun e => e.frame.parameters.isSome) =
      [false, true, false, false] := by decide +kernel
  obtain ⟨below, hstack, hbelow⟩ := hat
  rw [hstack, List.map_append, List.map_cons] at howners
  have habove : above.length = 1 := by
    have hlength := congrArg List.length howners
    simp only [List.length_append, List.length_map, List.length_cons, hbelow, List.length_nil]
      at hlength
    omega
  obtain ⟨body, rfl⟩ := List.length_eq_one_iff.mp habove
  have hbody : body.frame.parameters.isSome = false := (List.cons.inj howners).1
  simpa using hbody

end BlockStage
