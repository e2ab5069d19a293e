import BlockStage.Physics.Blocks
import BlockStage.Proofs.StateChanges

/-!
What the physics blocks read and change. Ten of them concern the current target: they look at that
target and its body, and change no more than its state and its body. Two set gravity and the walls.
Blocks that concern different targets, or one a target and the other the world at large, can change
places.
-/

namespace BlockStage.Physics

namespace Opcode

/-- The blocks that concern the current target. -/
def ofSprite : List Opcode :=
  [enable, disable, setPosition, getPosition, setVelocity, getVelocity, setDirection, getDirection,
    setSpin, getSpin]

/-- The blocks that set gravity and walls. -/
def ofWorld : List Opcode := [setGravity, boundaries]

theorem ofName?_name (opcode : Opcode) : ofName? opcode.name = some opcode := by
  cases opcode <;> decide

end Opcode

theorem execute_name (opcode : Opcode) (args : Arguments) (w : World) (s : Scene) :
    Extension.execute opcode.name args w s = run opcode args w s := by
  simp only [Extension.execute, Opcode.ofName?_name]

/-! ## What a sprite block touches -/

/-- Two situations in which a thread runs against the same target with the same body. -/
structure SameSprite (w : World) (s : Scene) (v : World) (t : Scene) : Prop where
  current : t.thread.currentTarget = s.thread.currentTarget
  target : t.target? = s.target?
  body : v.body? s.thread.currentTarget = w.body? s.thread.currentTarget

/-- What a block makes of one target: its answer, the new body, and what changes in the state. -/
structure Effect where
  answer : Except ExtensionError (Option Value)
  body : Option (Body Float)
  state : TargetState → TargetState := fun state => state

/-- The reply of a block that has this effect on the current target, and no other effect. -/
def Effect.reply (effect : Effect) (w : World) (s : Scene) : Reply World :=
  ⟨effect.answer, w.setBody s.thread.currentTarget effect.body, s.modifyTarget effect.state⟩

theorem modifyTarget_id (s : Scene) : s.modifyTarget (fun state => state) = s := by
  rw [Scene.modifyTarget, Project.modifyState_id]

section

variable {w v : World} {s t : Scene}

/-- A block that leaves the state alone. -/
theorem reply_of_body (answer : Except ExtensionError (Option Value)) (body : Option (Body Float))
    (h : SameSprite w s v t) :
    Effect.reply { answer, body } v t = ⟨answer, v.setBody s.thread.currentTarget body, t⟩ := by
  simp only [Effect.reply, modifyTarget_id, h.current]

/-- A block that leaves the body alone. -/
theorem reply_of_state (answer : Except ExtensionError (Option Value))
    (state : TargetState → TargetState) (h : SameSprite w s v t) :
    Effect.reply { answer, body := w.body? s.thread.currentTarget, state } v t =
      ⟨answer, v, t.modifyTarget state⟩ := by
  rw [Effect.reply, ← h.body, h.current, ← World.eq_setBody_self]

/-- A block that only answers. -/
theorem reply_of_answer (answer : Except ExtensionError (Option Value)) (h : SameSprite w s v t) :
    Effect.reply { answer, body := w.body? s.thread.currentTarget } v t = ⟨answer, v, t⟩ := by
  rw [reply_of_state answer _ h, modifyTarget_id]

/-- A block that changes the body if there is one. -/
theorem reply_of_modify (f : Body Float → Body Float) (h : SameSprite w s v t) :
    Effect.reply { answer := .ok none, body := (w.body? s.thread.currentTarget).map f } v t =
      ⟨.ok none, v.modifyBody t.thread.currentTarget f, t⟩ := by
  rw [reply_of_body _ _ h, World.modifyBody_eq_setBody, h.current, h.body]

theorem enable_same (args : Arguments) (w : World) (s : Scene) :
    ∃ effect : Effect, ∀ v t, SameSprite w s v t → enable args v t = effect.reply v t := by
  cases htarget : s.target? with
  | none =>
    refine ⟨_, fun v t h => .trans ?_ (reply_of_answer (.ok none) h).symm⟩
    simp only [enable, h.target, htarget]
  | some target =>
    cases hshape : shapeFor (optionOf args) target.scaledSize with
    | error reason =>
      refine ⟨_, fun v t h => .trans ?_
        (reply_of_answer (.error (.invalidArgument Opcode.enable.name reason)) h).symm⟩
      simp only [enable, h.target, htarget, hshape]
    | ok shape =>
      refine ⟨_, fun v t h => .trans ?_
        (reply_of_body (.ok none) (some (Body.atTarget shape target.state)) h).symm⟩
      simp only [enable, h.target, htarget, hshape, h.current, World.insert_eq_setBody]

/-- **What a sprite block touches.** There is one effect on the current target that the block has
wherever that target and its body are the same. -/
theorem run_same {opcode : Opcode} (hsprite : opcode ∈ Opcode.ofSprite) (args : Arguments)
    (w : World) (s : Scene) :
    ∃ effect : Effect, ∀ v t, SameSprite w s v t → run opcode args v t = effect.reply v t := by
  cases opcode with
  | tick | boundaries | setGravity | getGravity => simp [Opcode.ofSprite] at hsprite
  | enable => exact enable_same args w s
  | disable =>
    refine ⟨_, fun v t h => .trans ?_ (reply_of_body (.ok none) none h).symm⟩
    simp only [run, h.current, World.erase_eq_setBody]
  | setPosition =>
    exact ⟨_, fun v t h => (reply_of_state (.ok none) (·.moveTo (vectorOf args)) h).symm⟩
  | getPosition =>
    refine ⟨_, fun v t h => .trans ?_
      (reply_of_answer (.ok (some (.vector (position w s)))) h).symm⟩
    simp only [run, position, h.current, h.body, h.target]
  | setVelocity =>
    exact ⟨_, fun v t h =>
      (reply_of_modify (fun b => { b with velocity := (vectorOf args).flip }) h).symm⟩
  | getVelocity =>
    refine ⟨_, fun v t h => .trans ?_
      (reply_of_answer (.ok (some (.vector (velocity w s)))) h).symm⟩
    simp only [run, velocity, h.current, h.body]
  | setDirection =>
    exact ⟨_, fun v t h => (reply_of_state (.ok none) (·.turnTo (angleOf args)) h).symm⟩
  | getDirection =>
    refine ⟨_, fun v t h => .trans ?_
      (reply_of_answer (.ok (some (.number (direction w s)))) h).symm⟩
    simp only [run, direction, h.current, h.body, h.target]
  | setSpin =>
    exact ⟨_, fun v t h => (reply_of_modify (fun b => { b with spin := angleOf args }) h).symm⟩
  | getSpin =>
    refine ⟨_, fun v t h => .trans ?_
      (reply_of_answer (.ok (some (.number (spin w s)))) h).symm⟩
    simp only [run, spin, h.current, h.body]

end

/-- A block of the world changes gravity and walls as it would anywhere on a stage of that size. -/
theorem run_ofWorld {opcode : Opcode} (hworld : opcode ∈ Opcode.ofWorld) (args : Arguments) :
    ∃ (gravity : Vec Float → Vec Float) (walls : Config → List (Wall Float) → List (Wall Float)),
      ∀ w s, run opcode args w s =
        ⟨.ok none,
          { w with gravity := gravity w.gravity, walls := walls s.project.config w.walls }, s⟩ := by
  cases opcode with
  | setGravity => exact ⟨fun _ => (vectorOf args).flip, fun _ walls => walls, fun _ _ => rfl⟩
  | boundaries =>
    exact ⟨fun gravity => gravity, fun config _ => (Boundaries.ofText (optionOf args)).walls
      (Float.ofNat config.width.toNat) (Float.ofNat config.height.toNat), fun _ _ => rfl⟩
  | _ => simp [Opcode.ofWorld] at hworld

/-! ## Blocks that change places -/

/-- A block about to run on a thread. -/
structure Call where
  opcode : Opcode
  args : Arguments
  thread : Thread

namespace Call

def run (c : Call) (w : World) (p : Project) : Reply World :=
  Extension.execute c.opcode.name c.args w ⟨p, c.thread⟩

/-- The call in the world and the project that another one leaves. -/
def runAfter (c first : Call) (w : World) (p : Project) : Reply World :=
  c.run (first.run w p).extension (first.run w p).scene.project

/-- Two calls that have nothing to do with each other: both concern sprites, but not the same one,
or one concerns a sprite and the other the world at large. -/
inductive Separate (a b : Call) : Prop
  | sprites (ha : a.opcode ∈ Opcode.ofSprite) (hb : b.opcode ∈ Opcode.ofSprite)
      (hne : a.thread.currentTarget ≠ b.thread.currentTarget)
  | worldFirst (ha : a.opcode ∈ Opcode.ofWorld) (hb : b.opcode ∈ Opcode.ofSprite)
  | worldLast (ha : a.opcode ∈ Opcode.ofSprite) (hb : b.opcode ∈ Opcode.ofWorld)

/-- In either order the calls have the same answers, and leave the same world and project. -/
structure Interchange (a b : Call) (w : World) (p : Project) : Prop where
  first : (a.runAfter b w p).answer = (a.run w p).answer
  second : (b.runAfter a w p).answer = (b.run w p).answer
  world : (a.runAfter b w p).extension = (b.runAfter a w p).extension
  project : (a.runAfter b w p).scene.project = (b.runAfter a w p).scene.project
  threads : (a.run w p).scene.thread = a.thread ∧ (b.run w p).scene.thread = b.thread

variable {a b : Call} {w : World} {p : Project}

theorem Interchange.symm (h : Interchange a b w p) : Interchange b a w p :=
  ⟨h.second, h.first, h.world.symm, h.project.symm, h.threads.symm⟩

/-- A call of a sprite block has one effect wherever its target and the body are the same. -/
theorem exists_effect {c : Call} (hsprite : c.opcode ∈ Opcode.ofSprite) (w : World) (p : Project) :
    ∃ effect : Effect, ∀ v q, SameSprite w ⟨p, c.thread⟩ v ⟨q, c.thread⟩ →
      c.run v q = effect.reply v ⟨q, c.thread⟩ := by
  obtain ⟨effect, heffect⟩ := run_same hsprite c.args w ⟨p, c.thread⟩
  refine ⟨effect, fun v q h => ?_⟩
  rw [run, execute_name]
  exact heffect v ⟨q, c.thread⟩ h

theorem interchange_of_sprites (ha : a.opcode ∈ Opcode.ofSprite) (hb : b.opcode ∈ Opcode.ofSprite)
    (hne : a.thread.currentTarget ≠ b.thread.currentTarget) : Interchange a b w p := by
  obtain ⟨e, he⟩ := exists_effect ha w p
  obtain ⟨f, hf⟩ := exists_effect hb w p
  have hfirst : a.run w p = e.reply w ⟨p, a.thread⟩ := he w p ⟨rfl, rfl, rfl⟩
  have hsecond : b.run w p = f.reply w ⟨p, b.thread⟩ := hf w p ⟨rfl, rfl, rfl⟩
  -- neither call sees what the other has done
  have hlast : a.runAfter b w p = e.reply (b.run w p).extension
      ⟨(b.run w p).scene.project, a.thread⟩ := by
    rw [runAfter, hsecond]
    apply he
    exact ⟨rfl, p.target?_modifyState_of_ne _ hne.symm, w.body?_setBody_of_ne _ hne.symm⟩
  have hother : b.runAfter a w p = f.reply (a.run w p).extension
      ⟨(a.run w p).scene.project, b.thread⟩ := by
    rw [runAfter, hfirst]
    apply hf
    exact ⟨rfl, p.target?_modifyState_of_ne _ hne, w.body?_setBody_of_ne _ hne⟩
  constructor
  · rw [hlast, hfirst]
    rfl
  · rw [hother, hsecond]
    rfl
  · rw [hlast, hother, hfirst, hsecond]
    exact World.setBody_comm hne.symm _ _
  · rw [hlast, hother, hfirst, hsecond]
    exact p.modifyState_comm _ hne _
  · rw [hfirst, hsecond]
    exact ⟨rfl, rfl⟩

theorem interchange_of_world (ha : a.opcode ∈ Opcode.ofWorld) (hb : b.opcode ∈ Opcode.ofSprite) :
    Interchange a b w p := by
  obtain ⟨gravity, walls, ha⟩ := run_ofWorld ha a.args
  obtain ⟨f, hf⟩ := exists_effect hb w p
  have hfirst : b.run w p = f.reply w ⟨p, b.thread⟩ := hf w p ⟨rfl, rfl, rfl⟩
  have hrun (v : World) (q : Project) : a.run v q =
      ⟨.ok none, { v with gravity := gravity v.gravity, walls := walls q.config v.walls },
        ⟨q, a.thread⟩⟩ := by
    rw [run, execute_name, ha]
  have hlast : b.runAfter a w p = f.reply (a.run w p).extension ⟨p, b.thread⟩ := by
    rw [runAfter, hrun]
    apply hf
    exact ⟨rfl, rfl, rfl⟩
  constructor
  · rw [runAfter, hrun, hrun]
  · rw [hlast, hfirst]
    rfl
  · rw [hlast, runAfter, hfirst, hrun, hrun]
    rfl
  · rw [hlast, runAfter, hfirst, hrun]
    rfl
  · rw [hfirst, hrun]
    exact ⟨rfl, rfl⟩

/-- **Blocks that change places.** Two calls that have nothing to do with each other have the same
answers and leave the same in either order. -/
theorem interchange_of_separate (a b : Call) (w : World) (p : Project) (h : Separate a b) :
    Interchange a b w p := by
  cases h with
  | sprites ha hb hne => exact interchange_of_sprites ha hb hne
  | worldFirst ha hb => exact interchange_of_world ha hb
  | worldLast ha hb => exact (interchange_of_world hb ha).symm

/-! ### Two sprites -/

def sprite (id : String) : Target :=
  { id, name := id, isStage := false, blocks := .ofNamed ∅, costumes := [⟨20, 10⟩], state := {} }

def catAndDog : Project := { targets := [sprite "Cat", sprite "Dog"] }

def enableCat : Call where
  opcode := .enable
  args := { values := .ofList [("OPTION", Value.text "box")] }
  thread := .start "Cat" none .interpreted

def moveDog : Call where
  opcode := .setPosition
  args := { values := .ofList [("VECTOR", Value.vector ⟨3, 4⟩)] }
  thread := .start "Dog" none .interpreted

def floor : Call where
  opcode := .boundaries
  args := { values := .ofList [("OPTION", Value.text "floor")] }
  thread := .start "Cat" none .interpreted

theorem interchange_of_separate_catAndDog :
    Interchange enableCat moveDog {} catAndDog ∧ Interchange floor enableCat {} catAndDog :=
  ⟨interchange_of_separate _ _ _ _ (.sprites (by decide) (by decide) (by decide)),
    interchange_of_separate _ _ _ _ (.worldFirst (by decide) (by decide))⟩

end Call

end BlockStage.Physics
