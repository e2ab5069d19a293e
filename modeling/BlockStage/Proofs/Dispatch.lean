import BlockStage.Proofs.Binding

/-!
What a dispatched call hands over. It pushes the definition as one fresh entry, in warp mode if the
call or the procedure is, and yields if a procedure without warp is called again from one of the six
entries beneath the call.
-/

namespace BlockStage

/-! ## The current target -/

/-- Only the targets of the frames and the home of the thread decide the current target. -/
theorem currentTarget_congr {t t' : Thread} (hhome : t'.home = t.home)
    (htargets : t'.stack.map (·.frame.target) = t.stack.map (·.frame.target)) :
    t'.currentTarget = t.currentTarget := by
  have hfind (u : Thread) : u.stack.findSome? (·.frame.target) =
      (u.stack.map (·.frame.target)).findSome? id := by
    rw [List.findSome?_map]
    rfl
  rw [Thread.currentTarget, Thread.currentTarget, hfind, hfind, htargets, hhome]

namespace Scene

/-- `after` has the same project and, stack and status apart, the same thread; and the same target
is current. -/
structure SameSetting (s after : Scene) : Prop where
  project : after.project = s.project
  home : after.thread.home = s.thread.home
  topBlock : after.thread.topBlock = s.thread.topBlock
  mode : after.thread.mode = s.thread.mode
  currentTarget : after.thread.currentTarget = s.thread.currentTarget

theorem SameSetting.trans {s s' s'' : Scene} (h : s.SameSetting s') (h' : s'.SameSetting s'') :
    s.SameSetting s'' :=
  ⟨h'.project.trans h.project, h'.home.trans h.home, h'.topBlock.trans h.topBlock,
    h'.mode.trans h.mode, h'.currentTarget.trans h.currentTarget⟩

theorem SameSetting.target? {s after : Scene} (h : s.SameSetting after) :
    after.target? = s.target? := by
  rw [Scene.target?, Scene.target?, h.project, h.currentTarget]

theorem SameSetting.block? {s after : Scene} (h : s.SameSetting after) (id : String) :
    after.block? id = s.block? id := by
  rw [Scene.block?, Scene.block?, h.target?]

theorem SameSetting.signature? {s after : Scene} (h : s.SameSetting after) (code : String) :
    after.signature? code = s.signature? code := by
  rw [Scene.signature?, Scene.signature?, h.target?]

theorem SameSetting.definition? {s after : Scene} (h : s.SameSetting after) (code : String) :
    after.definition? code = s.definition? code := by
  rw [Scene.definition?, Scene.definition?, h.target?]

/-- A stack with the same targets on its frames keeps the setting. -/
theorem sameSetting_of_stack (s : Scene) (stack : List Entry)
    (h : stack.map (·.frame.target) = s.thread.stack.map (·.frame.target)) :
    s.SameSetting (s.mapThread fun t => { t with stack }) :=
  ⟨rfl, rfl, rfl, rfl, currentTarget_congr rfl h⟩

/-! ## Entering a body -/

/-- Entry `e` is a call of `code` by a block of the current target. -/
def Calls (s : Scene) (code : String) (e : Entry) : Prop :=
  ∃ id b, e.block = some id ∧ s.block? id = some b ∧ b.opcode = "procedures_call" ∧
    b.code? = some code

theorem SameSetting.calls_iff {s after : Scene} (h : s.SameSetting after) (code : String)
    (e : Entry) : after.Calls code e ↔ s.Calls code e := by
  simp only [Calls, h.block?]

theorem isRecursiveCall_iff (s : Scene) (target : Target) (code : String)
    (htarget : s.target? = some target) :
    s.thread.isRecursiveCall code target.blocks = true ↔
      ∃ e ∈ s.thread.stack.tail.take 6, s.Calls code e := by
  simp only [Thread.isRecursiveCall, recursionWindow, List.any_eq_true, Calls, Scene.block?,
    htarget, Option.bind_some, Option.any_eq_true, Option.bind_eq_some_iff, Bool.and_eq_true,
    beq_iff_eq]
  constructor
  · rintro ⟨e, he, b, ⟨id, hid, hb⟩, hop, hcode⟩
    exact ⟨e, he, id, b, hid, hb, hop, hcode⟩
  · rintro ⟨e, he, id, b, hid, hb, hop, hcode⟩
    exact ⟨e, he, b, ⟨id, hid, hb⟩, hop, hcode⟩

theorem startProcedure_of_none {s : Scene} {code : String} (h : s.definition? code = none) :
    s.startProcedure code = s := by
  cases htarget : s.target? with
  | none => simp [startProcedure, htarget]
  | some target =>
    have hnone : target.blocks.definition? code = none := by
      simpa [Scene.definition?, htarget] using h
    simp [startProcedure, htarget, hnone]

theorem startProcedure_of_some {s : Scene} {code id : String} {signature : Signature}
    (hdef : s.definition? code = some id) (hsig : s.signature? code = some signature) :
    ∃ recursive : Bool, (recursive = true ↔ ∃ e ∈ s.thread.stack.tail.take 6, s.Calls code e) ∧
      s.startProcedure code = s.mapThread fun t => enterBody t id signature.warp recursive := by
  obtain ⟨target, htarget, hdef'⟩ := Option.bind_eq_some_iff.mp hdef
  have hsig' : target.blocks.signature? code = some signature := by
    simpa [Scene.signature?, htarget] using hsig
  refine ⟨_, isRecursiveCall_iff s target code htarget, ?_⟩
  simp [startProcedure, htarget, hdef', hsig']

theorem enterBody_eq (t : Thread) (id : String) (warp recursive : Bool) :
    enterBody t id warp recursive = { t with
      status := if warp = false ∧ recursive = true then .yielding else t.status
      stack :=
        { block := some id
          frame := { warp := t.topFrame?.any Frame.warp || warp } } :: t.stack } := by
  cases warp <;> cases recursive <;> simp [enterBody, Thread.modifyTop, Thread.push]

/-- **Entering a body.** The hat is pushed on a fresh frame, in warp mode if the entry beneath or
the procedure is, and a recursive call without warp yields. -/
theorem startProcedure_enters {s : Scene} {code id : String} {signature : Signature}
    (hdef : s.definition? code = some id) (hsig : s.signature? code = some signature) :
    s.SameSetting (s.startProcedure code) ∧
      (s.startProcedure code).thread.stack =
        { block := some id
          frame := { warp := s.thread.topFrame?.any Frame.warp || signature.warp } } ::
          s.thread.stack ∧
      (signature.warp = false ∧ (∃ e ∈ s.thread.stack.tail.take 6, s.Calls code e) →
        (s.startProcedure code).thread.status = .yielding) ∧
      (¬ (signature.warp = false ∧ ∃ e ∈ s.thread.stack.tail.take 6, s.Calls code e) →
        (s.startProcedure code).thread.status = s.thread.status) := by
  obtain ⟨recursive, hrecursive, hstart⟩ := startProcedure_of_some hdef hsig
  rw [hstart, mapThread, enterBody_eq, ← hrecursive]
  refine ⟨⟨rfl, rfl, rfl, rfl, ?_⟩, rfl, fun h => if_pos h, fun h => if_neg h⟩
  simp [Thread.currentTarget]

/-- A procedure with a definition has a signature too. -/
theorem signature?_of_definition? {s : Scene} {code id : String}
    (h : s.definition? code = some id) : ∃ signature, s.signature? code = some signature := by
  obtain ⟨target, htarget, hdef⟩ := Option.bind_eq_some_iff.mp h
  obtain ⟨signature, hsig⟩ :=
    Option.isSome_iff_exists.mp (Blocks.signature?_isSome_of_definition? hdef)
  exact ⟨signature, by simpa [Scene.signature?, htarget] using hsig⟩

/-- The definition of a code is a hat that holds a block with the code. -/
theorem hat_of_definition? {s : Scene} {code id : String} (h : s.definition? code = some id) :
    ∃ hat held b, s.block? id = some hat ∧ hat.opcode = definitionOpcode ∧
      hat.inputs["custom_block"]? = some (.block held) ∧ s.block? held = some b ∧
      b.code? = some code := by
  obtain ⟨target, htarget, hdef⟩ := Option.bind_eq_some_iff.mp h
  obtain ⟨held, hat, b, hhat, hop, hin, hb, hcode⟩ := Blocks.hat_of_definition? hdef
  refine ⟨hat, held, b, ?_, hop, hin, ?_, hcode⟩
  · simpa [Scene.block?, htarget, Blocks.block?] using hhat
  · simpa [Scene.block?, htarget, Blocks.block?] using hb

end Scene

/-! ## Dispatched calls -/

namespace Procedure

/-- A call without an addon binds, marks its frame and starts the body. -/
theorem call_eq_startProcedure {σ : Type} {addons : Named (Addon σ)} {args : Arguments} {s : Scene}
    {entry : Entry} {below : List Entry} {code : String} {signature : Signature}
    (hstack : s.thread.stack = entry :: below) (hfresh : entry.frame.executed = false)
    (hcode : args.code? = some code) (hsig : s.signature? code = some signature)
    (hnone : addons[code]? = none) (host : σ) :
    call addons args host s = (none, host, (s.mapThread fun t => { t with
      stack := { entry with frame := { entry.frame with
        executed := true
        parameters := some (.ofList (suppliedValues args signature)) } } ::
          below }).startProcedure code) := by
  have hbind := (bind?_eq_some_iff args s code _).mpr
    ⟨entry, below, signature, hstack, hfresh, hcode, hsig, rfl⟩
  simp [call, hbind, hnone, markExecuted, Scene.mapThread, Thread.modifyTop, bindAll_eq]

theorem call_of_no_addon {σ : Type} {addons : Named (Addon σ)} {args : Arguments} {s : Scene}
    {entry : Entry} {below : List Entry} {code : String} {signature : Signature}
    (hstack : s.thread.stack = entry :: below) (hfresh : entry.frame.executed = false)
    (hcode : args.code? = some code) (hsig : s.signature? code = some signature)
    (hnone : addons[code]? = none) (host : σ) :
    ∃ parameters, call addons args host s = (none, host, (s.mapThread fun t => { t with
      stack := { entry with frame := { entry.frame with
        executed := true, parameters := some parameters } } :: below }).startProcedure code) :=
  ⟨_, call_eq_startProcedure hstack hfresh hcode hsig hnone host⟩

/-- **Control transfer.** A dispatched call ends executed. With a definition in the current target
it pushes one fresh entry for that hat, in warp mode if the call or the procedure is, and yields
exactly if the procedure has no warp and one of the six entries beneath the call calls it too.
Without a definition it pushes nothing. All beneath the call stays as it was. -/
theorem call_transfers_control {σ : Type} (addons : Named (Addon σ)) (args : Arguments) (host : σ)
    (s : Scene) (entry : Entry) (below : List Entry) (code : String) (signature : Signature)
    (hstack : s.thread.stack = entry :: below) (hfresh : entry.frame.executed = false)
    (hcode : args.code? = some code) (hsig : s.signature? code = some signature)
    (hnone : addons[code]? = none) :
    ∃ parameters called after,
      called = { entry with frame := { entry.frame with
        executed := true, parameters := some parameters } } ∧
      call addons args host s = (none, host, after) ∧ s.SameSetting after ∧
      (s.definition? code = none →
        after.thread.stack = called :: below ∧ after.thread.status = s.thread.status) ∧
      ∀ id, s.definition? code = some id →
        after.thread.stack =
          { block := some id
            frame := {
              executed := false, parameters := none
              warp := entry.frame.warp || signature.warp, op := none, target := none } } ::
            called :: below ∧
        (∃ hat held b, after.block? id = some hat ∧ hat.opcode = "procedures_definition" ∧
          hat.inputs["custom_block"]? = some (.block held) ∧ after.block? held = some b ∧
          b.code? = some code) ∧
        (signature.warp = false ∧ (∃ e ∈ below.take 6, s.Calls code e) →
          after.thread.status = .yielding) ∧
        (¬ (signature.warp = false ∧ ∃ e ∈ below.take 6, s.Calls code e) →
          after.thread.status = s.thread.status) := by
  obtain ⟨parameters, hcall⟩ := call_of_no_addon hstack hfresh hcode hsig hnone host
  obtain ⟨called, hcalled⟩ : ∃ called : Entry, called = { entry with frame := { entry.frame with
    executed := true, parameters := some parameters } } := ⟨_, rfl⟩
  rw [← hcalled] at hcall
  have hmarked := s.sameSetting_of_stack (called :: below) (by simp [hstack, hcalled])
  refine ⟨parameters, called, _, hcalled, hcall, ?_⟩
  cases hdef : s.definition? code with
  | none =>
    rw [Scene.startProcedure_of_none ((hmarked.definition? code).trans hdef)]
    exact ⟨hmarked, fun _ => ⟨rfl, rfl⟩, by simp⟩
  | some id =>
    obtain ⟨hentered, hpushed, hyields, hstays⟩ := Scene.startProcedure_enters
      ((hmarked.definition? code).trans hdef) ((hmarked.signature? code).trans hsig)
    have hsetting := hmarked.trans hentered
    simp only [hmarked.calls_iff] at hyields hstays
    refine ⟨hsetting, by simp, ?_⟩
    rintro _ ⟨⟩
    refine ⟨?_, ?_, hyields, hstays⟩
    · rw [hpushed, hcalled]
      rfl
    · obtain ⟨hat, held, b, hhat, hop, hin, hb, hcode'⟩ := Scene.hat_of_definition? hdef
      exact ⟨hat, held, b, (hsetting.block? _).trans hhat, hop, hin, (hsetting.block? _).trans hb,
        hcode'⟩

/-- A call of a recursive procedure. An earlier call of it waits below a null marker. -/
def recursiveScene : Scene :=
  let callOf : Block := {
    opcode := Opcode.call.name, mutation := some { code := some "loop %s" } }
  soloScene
    (.ofList [("def", hatOf "proto"), ("call", callOf),
      ("proto", prototypeOf "loop %s" "[\"n\"]" "[\"n\"]" false)])
    [{ block := some "call" }, { block := none }, { block := some "call" }]

theorem call_transfers_control_recursiveScene :
    ∃ called after,
      call (∅ : Named (Addon Unit)) { mutation := some { code := some "loop %s" } } ()
        recursiveScene = (none, (), after) ∧
      after.thread.stack =
        { block := some "def" } :: called :: [{ block := none }, { block := some "call" }] ∧
      called.frame.executed = true ∧ after.thread.status = .yielding := by
  obtain ⟨signature, hsig, hwarp⟩ := Option.map_eq_some_iff.mp
    (show (recursiveScene.signature? "loop %s").map Signature.warp = some false by decide +kernel)
  obtain ⟨_, called, after, hcalled, hcall, _, _, hdefined⟩ :=
    call_transfers_control (∅ : Named (Addon Unit)) { mutation := some { code := some "loop %s" } }
      () recursiveScene _ _ "loop %s" signature rfl rfl rfl hsig (by simp)
  obtain ⟨hstack, _, hyields, _⟩ := hdefined "def" (by decide +kernel)
  rw [hwarp] at hstack
  refine ⟨called, after, hcall, hstack, by rw [hcalled], hyields ⟨hwarp, ?_⟩⟩
  have hblock : (recursiveScene.block? "call").map (fun b => (b.opcode, b.code?)) =
      some ("procedures_call", some "loop %s") := by decide +kernel
  obtain ⟨b, hb, hop⟩ := Option.map_eq_some_iff.mp hblock
  exact ⟨{ block := some "call" }, by simp, "call", b, rfl, hb,
    congrArg Prod.fst hop, congrArg Prod.snd hop⟩

end Procedure

end BlockStage
