import BlockStage.Proofs.SpriteBlocks
import BlockStage.Proofs.StageHistory

/-!
Reading a position that has just been set. Setting a position moves the target and leaves its body
where it was, and reading it asks the body first. So a target without a body reads back what it has
set, and one with a body reads where the body was, until a tick takes the body to the target. What
other targets do in between does not matter.
-/

namespace BlockStage

open Physics (vectorOf Opcode)

theorem Physics.Opcode.mem_of_ne_tick {opcode : Opcode} (h : opcode ≠ .tick) :
    opcode ∈ ofSprite ∨ opcode ∈ ofWorld ∨ opcode = .getGravity := by
  revert h
  cases opcode <;> decide

namespace Stage

/-! ## What happens elsewhere -/

/-- A block other than a tick, on a thread that runs against another target. -/
inductive Event.Elsewhere (id : String) : Event → Prop where
  | block {opcode : String} {args : Arguments} {thread : Thread} (htick : opcode ≠ "tick")
      (hother : thread.currentTarget ≠ id) : Elsewhere id (.block opcode args thread)

/-- Both stages have the same target under the id, with the same body. -/
structure SameUnder (id : String) (s t : Stage) : Prop where
  body : t.world.body? id = s.world.body? id
  target : t.project.target? id = s.project.target? id

theorem SameUnder.trans {id : String} {s t u : Stage} (h : SameUnder id s t)
    (h' : SameUnder id t u) : SameUnder id s u :=
  ⟨h'.body.trans h.body, h'.target.trans h.target⟩

theorem sameUnder_react {id : String} {e : Event} (h : e.Elsewhere id) (s : Stage) :
    SameUnder id s (s.react e) := by
  cases h with
  | @block opcode args thread htick hother =>
    cases hname : Opcode.ofName? opcode with
    | none =>
      simp only [react, Extension.execute, hname]
      exact ⟨rfl, rfl⟩
    | some known =>
      obtain rfl := Opcode.name_of_ofName? hname
      have hknown : known ≠ .tick := by
        rintro rfl
        exact htick rfl
      simp only [react, Physics.execute_name]
      rcases Opcode.mem_of_ne_tick hknown with hsprite | hworld | rfl
      · obtain ⟨effect, heffect⟩ := Physics.run_same hsprite args s.world ⟨s.project, thread⟩
        rw [heffect s.world ⟨s.project, thread⟩ ⟨rfl, rfl, rfl⟩]
        exact ⟨s.world.body?_setBody_of_ne effect.body hother,
          s.project.target?_modifyState_of_ne effect.state hother⟩
      · obtain ⟨gravity, walls, hrun⟩ := Physics.run_ofWorld hworld args
        rw [hrun]
        exact ⟨rfl, rfl⟩
      · exact ⟨rfl, rfl⟩

theorem sameUnder_after {id : String} {events : List Event} (h : ∀ e ∈ events, e.Elsewhere id)
    (s : Stage) : SameUnder id s (s.after events) := by
  induction events generalizing s with
  | nil => exact ⟨rfl, rfl⟩
  | cons e events ih =>
    have hfirst := sameUnder_react (h e (by simp)) s
    exact hfirst.trans (ih (fun e he => h e (by simp [he])) (s.react e))

/-! ## Setting and reading -/

/-- What a physics block answers on the stage. -/
def answer (s : Stage) (opcode : String) (args : Arguments) (thread : Thread) :
    Except ExtensionError (Option Value) :=
  (Extension.execute opcode args s.world ⟨s.project, thread⟩).answer

theorem answer_getPos (s : Stage) (args : Arguments) (thread : Thread) :
    s.answer "getPos" args thread =
      .ok (some (.vector (Physics.position s.world ⟨s.project, thread⟩))) :=
  congrArg Reply.answer (Physics.execute_name .getPosition args s.world ⟨s.project, thread⟩)

theorem react_setPos (s : Stage) (args : Arguments) (thread : Thread) :
    s.react (.block "setPos" args thread) =
      ⟨s.world, s.project.modifyState thread.currentTarget (·.moveTo (vectorOf args))⟩ := by
  have hrun := Physics.execute_name .setPosition args s.world ⟨s.project, thread⟩
  exact congrArg (fun r : Reply Physics.World => Stage.mk r.extension r.scene.project) hrun

end Stage

theorem TargetState.position_moveTo (s : TargetState) {v : Vec Float} (hx : v.x.isFinite = true)
    (hy : v.y.isFinite = true) : (s.moveTo v).position = v := by
  simp only [moveTo, position, if_pos hx, if_pos hy]

namespace Stage

/-- The stage after a target has set its position and some blocks have run elsewhere. -/
inductive SetTo (s : Stage) (thread : Thread) (v : Vec Float) : Stage → Prop where
  | after (args : Arguments) (events : List Event) (hargs : vectorOf args = v)
      (hevents : ∀ e ∈ events, e.Elsewhere thread.currentTarget) :
      SetTo s thread v ((s.react (.block "setPos" args thread)).after events)

/-- A target that has set its position to `v` reads `u`. -/
def Reads (s : Stage) (thread : Thread) (v u : Vec Float) : Prop :=
  ∀ after, SetTo s thread v after → ∀ args : Arguments,
    after.answer "getPos" args thread = .ok (some (.vector u))

section

variable {s after : Stage} {thread : Thread} {t : Target} {v : Vec Float}

theorem SetTo.body? (h : SetTo s thread v after) :
    after.world.body? thread.currentTarget = s.world.body? thread.currentTarget := by
  cases h with
  | after _ _ _ hevents => rw [(sameUnder_after hevents _).body, react_setPos]

theorem SetTo.target? (h : SetTo s thread v after)
    (htarget : s.project.target? thread.currentTarget = some t) :
    after.project.target? thread.currentTarget = some { t with state := t.state.moveTo v } := by
  cases h with
  | after _ _ hargs hevents =>
    rw [(sameUnder_after hevents _).target, react_setPos, Project.target?_modifyState, htarget,
      hargs]
    rfl

theorem exists_setTo (s : Stage) (thread : Thread) (v : Vec Float) :
    ∃ after, SetTo s thread v after :=
  ⟨_, .after { values := .ofList [("VECTOR", Value.vector v)] } []
    (by simp [vectorOf, Value.vector?]) (by simp)⟩

theorem reads_of_body {b : Physics.Body Float}
    (hbody : s.world.body? thread.currentTarget = some b) : s.Reads thread v b.position.flip := by
  intro after hafter args
  simp only [answer_getPos, Physics.position, hafter.body?, hbody]

theorem reads_of_no_body (htarget : s.project.target? thread.currentTarget = some t)
    (hx : v.x.isFinite = true) (hy : v.y.isFinite = true)
    (hbody : s.world.body? thread.currentTarget = none) : s.Reads thread v v := by
  intro after hafter args
  simp only [answer_getPos, Physics.position, hafter.body?, hbody, Scene.target?,
    hafter.target? htarget, Option.map_some, Option.getD_some, t.state.position_moveTo hx hy]

/-- What is read is determined. -/
theorem Reads.unique {u u' : Vec Float} (h : s.Reads thread v u) (h' : s.Reads thread v u') :
    u = u' := by
  obtain ⟨after, hafter⟩ := exists_setTo s thread v
  have hread := h after hafter {}
  rw [h' after hafter {}] at hread
  cases hread
  rfl

end

/-- **Reading a position back.** A target reads back the position that it has set exactly if it has
no body, or has one that is at that position already. The target itself is moved there in any case;
but it reads where its body is, and that has not moved. -/
theorem reads_iff (s : Stage) (thread : Thread) (t : Target) (v : Vec Float)
    (htarget : s.project.target? thread.currentTarget = some t) (hx : v.x.isFinite = true)
    (hy : v.y.isFinite = true) :
    (s.Reads thread v v ↔
      ∀ b, s.world.body? thread.currentTarget = some b → b.position.flip = v) ∧
    (∀ b, s.world.body? thread.currentTarget = some b → s.Reads thread v b.position.flip) ∧
    ∀ after, SetTo s thread v after →
      (after.project.target? thread.currentTarget).map (·.state.position) = some v := by
  refine ⟨⟨?_, ?_⟩, fun b hbody => reads_of_body hbody, ?_⟩
  · intro hreads b hbody
    exact (reads_of_body hbody).unique hreads
  · intro hthere
    cases hbody : s.world.body? thread.currentTarget with
    | none => exact reads_of_no_body htarget hx hy hbody
    | some b =>
      have hreads := reads_of_body (v := v) hbody
      rwa [hthere b hbody] at hreads
  · intro after hafter
    rw [hafter.target? htarget, Option.map_some, t.state.position_moveTo hx hy]

/-! ### A target without a body and with one -/

def catStage : Stage := ⟨{}, Physics.Call.catAndDog⟩

def catThread : Thread := .start "Cat" none .interpreted

theorem reads_iff_catStage : catStage.Reads catThread ⟨50, 60⟩ ⟨50, 60⟩ := by
  have hnone (b : Physics.Body Float)
      (hbody : catStage.world.body? catThread.currentTarget = some b) :
      b.position.flip = ⟨50, 60⟩ := by
    simp [catStage, Physics.World.body?] at hbody
  exact (reads_iff catStage catThread (Physics.Call.sprite "Cat") ⟨50, 60⟩ (by rfl)
    (by decide +kernel) (by decide +kernel)).1.mpr hnone

def bodyStage : Stage :=
  catStage.react (.block "enablePhysics" Physics.Call.enableCat.args catThread)

/-- The body stays at the origin. -/
theorem bodyStage_not_reads : ¬ bodyStage.Reads catThread ⟨50, 60⟩ ⟨50, 60⟩ := by
  intro hreads
  have hposition : (bodyStage.world.body? catThread.currentTarget).map (·.position.flip) =
      some ⟨0, 0⟩ := by decide +kernel
  obtain ⟨b, hbody, hb⟩ := Option.map_eq_some_iff.mp hposition
  have hread := hreads.unique (reads_of_body hbody)
  rw [hb] at hread
  exact absurd hread (by decide +kernel)

end Stage

end BlockStage
