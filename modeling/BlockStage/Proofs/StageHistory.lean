import BlockStage.Physics.Blocks
import BlockStage.Proofs.Ticks

/-!
What happens on a stage with physics: targets are moved and turned by hand or by blocks, ticks take
them to where their bodies are, and the project starts again. Whatever happens, every target stays
in its place in the list, and its state changes by moves and turns only.
-/

namespace BlockStage

/-! ## Moves and turns -/

/-- The states that moves and turns lead to, in any number and order. -/
inductive TargetState.Steered (s : TargetState) : TargetState → Prop where
  | still : Steered s s
  | move {t : TargetState} (h : Steered s t) (v : Vec Float) : Steered s (t.moveTo v)
  | turn {t : TargetState} (h : Steered s t) (direction : Float) : Steered s (t.turnTo direction)

open TargetState (Steered)

theorem TargetState.Steered.trans {s t u : TargetState} (h : Steered s t) (h' : Steered t u) :
    Steered s u := by
  induction h' with
  | still => exact h
  | move _ v ih => exact ih.move v
  | turn _ direction ih => exact ih.turn direction

theorem Physics.Body.place_steered (b : Body Float) (s : TargetState) : Steered s (b.place s) :=
  (Steered.still.move b.position.flip).turn (directionOfAngle b.angle)

namespace Project

/-- Changes the state of the target at a place in the list. -/
def modifyEntry (p : Project) (i : Nat) (f : TargetState → TargetState) : Project :=
  { p with targets := p.targets.modify i fun t => { t with state := f t.state } }

/-- The second project has the same targets, each moved and turned in some way. -/
structure SteeredTo (p q : Project) : Prop where
  length_eq : q.targets.length = p.targets.length
  entry {i : Nat} {t : Target} : p.targets[i]? = some t →
    ∃ state, q.targets[i]? = some { t with state } ∧ Steered t.state state

theorem SteeredTo.refl (p : Project) : p.SteeredTo p :=
  ⟨rfl, fun h => ⟨_, h, .still⟩⟩

theorem SteeredTo.trans {p q r : Project} (h : p.SteeredTo q) (h' : q.SteeredTo r) :
    p.SteeredTo r := by
  refine ⟨h'.length_eq.trans h.length_eq, fun hentry => ?_⟩
  obtain ⟨state, hq, hsteered⟩ := h.entry hentry
  obtain ⟨state', hr, hsteered'⟩ := h'.entry hq
  exact ⟨state', hr, hsteered.trans hsteered'⟩

variable {f : TargetState → TargetState} (hf : ∀ s, Steered s (f s))
include hf

theorem steeredTo_modifyEntry (p : Project) (i : Nat) : p.SteeredTo (p.modifyEntry i f) := by
  refine ⟨List.length_modify .., fun {k t} hentry => ?_⟩
  rw [modifyEntry, List.getElem?_modify, hentry, Option.map_eq_map, Option.map_some]
  split
  · exact ⟨f t.state, rfl, hf t.state⟩
  · exact ⟨t.state, rfl, .still⟩

theorem steeredTo_modifyState (p : Project) (id : String) : p.SteeredTo (p.modifyState id f) := by
  refine ⟨length_modifyLast .., fun {i t} hentry => ?_⟩
  rw [getElem?_modifyState, hentry, Option.map_some]
  split
  · exact ⟨f t.state, rfl, hf t.state⟩
  · exact ⟨t.state, rfl, .still⟩

end Project

/-! ## Ticks and blocks -/

namespace Physics

theorem World.placing_steered (w : World) (id : String) (s : TargetState) :
    Steered s (w.placing id s) := by
  unfold placing
  split
  · exact .still
  · next b _ => exact b.place_steered s

theorem World.steeredTo_place (w : World) (ids : List String) (p : Project) :
    p.SteeredTo (w.place ids p) := by
  induction ids generalizing p with
  | nil => exact .refl p
  | cons id ids ih =>
    rw [place_cons]
    exact (p.steeredTo_modifyState (w.placing_steered id) id).trans (ih _)

theorem scene_enable (args : Arguments) (w : World) (s : Scene) :
    (enable args w s).scene = s := by
  unfold enable
  split
  · rfl
  · split <;> rfl

/-- A physics block moves and turns targets, and does nothing else to the project. -/
theorem execute_steered (opcode : String) (args : Arguments) (w : World) (s : Scene) :
    s.project.SteeredTo (Extension.execute opcode args w s).scene.project := by
  cases hopcode : Opcode.ofName? opcode with
  | none =>
    simp only [Extension.execute, hopcode]
    exact .refl s.project
  | some known =>
    simp only [Extension.execute, hopcode]
    cases known with
    | tick => exact (w.tick s.project).1.steeredTo_place w.bodies.keys s.project
    | setPosition =>
      exact s.project.steeredTo_modifyState (fun _ => Steered.still.move (vectorOf args)) _
    | setDirection =>
      exact s.project.steeredTo_modifyState (fun _ => Steered.still.turn (angleOf args)) _
    | enable =>
      rw [run, scene_enable]
      exact .refl s.project
    | _ => exact .refl s.project

end Physics

/-! ## Runs -/

/-- A project on stage with the world of its bodies. -/
structure Stage where
  world : Physics.World
  project : Project

namespace Stage

/-- What can happen on a stage. Ticks are blocks. -/
inductive Event where
  | move (entry : Nat) (v : Vec Float)
  | turn (entry : Nat) (direction : Float)
  | block (opcode : String) (args : Arguments) (thread : Thread)
  | start

def react (s : Stage) : Event → Stage
  | .move i v => { s with project := s.project.modifyEntry i (·.moveTo v) }
  | .turn i direction => { s with project := s.project.modifyEntry i (·.turnTo direction) }
  | .block opcode args thread =>
    let reply := Extension.execute opcode args s.world ⟨s.project, thread⟩
    ⟨reply.extension, reply.scene.project⟩
  | .start => { s with world := Extension.restart s.world }

def after (s : Stage) (events : List Event) : Stage := events.foldl react s

theorem react_steered (s : Stage) (event : Event) :
    s.project.SteeredTo (s.react event).project := by
  cases event with
  | move i v => exact s.project.steeredTo_modifyEntry (fun _ => Steered.still.move v) i
  | turn i direction =>
    exact s.project.steeredTo_modifyEntry (fun _ => Steered.still.turn direction) i
  | block opcode args thread => exact Physics.execute_steered opcode args s.world ⟨_, thread⟩
  | start => exact .refl s.project

/-- **Targets are only ever moved and turned**, whatever happens on the stage. -/
theorem after_steered (s : Stage) (events : List Event) :
    s.project.SteeredTo (s.after events).project := by
  induction events generalizing s with
  | nil => exact .refl s.project
  | cons event events ih => exact (s.react_steered event).trans (ih (s.react event))

/-- Where an entry of a stage comes from. -/
theorem exists_entry (s : Stage) (events : List Event) {i : Nat} {t : Target}
    (h : (s.after events).project.targets[i]? = some t) :
    ∃ t₀, s.project.targets[i]? = some t₀ ∧ Steered t₀.state t.state := by
  have hsteered := s.after_steered events
  obtain ⟨hi, _⟩ := List.getElem?_eq_some_iff.mp h
  rw [hsteered.length_eq] at hi
  have hentry := List.getElem?_eq_getElem hi
  obtain ⟨state, hafter, hstate⟩ := hsteered.entry hentry
  rw [h, Option.some.injEq] at hafter
  subst hafter
  exact ⟨_, hentry, hstate⟩

end Stage

end BlockStage
