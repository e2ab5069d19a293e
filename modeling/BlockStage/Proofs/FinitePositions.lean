import BlockStage.Proofs.FiniteNumbers
import BlockStage.Proofs.Loading
import BlockStage.Proofs.StageHistory

/-!
Positions. A project is loaded with finite positions, since its text has no other numbers, and
nothing that happens on a stage takes a coordinate over that is not finite. Bodies may have any
coordinates; a tick takes over those that are finite and leaves the others of the target alone.
-/

namespace BlockStage

open Json (Node Written)

/-! ## Finite parts -/

namespace Json

theorem Node.IsFloat.isFinite {node : Node} {x : Float} (h : node.IsFloat x)
    (hnode : node.HasFiniteNumbers) : x.isFinite := by
  cases h with
  | whole n =>
    obtain ⟨hlow, hhigh⟩ := hnode (.integer n) .self
    cases n with
    | ofNat n =>
      apply Binary64.isFinite_ofNat
      change (n : Int) ≤ 18446744073709551615 at hhigh
      omega
    | negSucc n =>
      refine (Binary64.isFinite_neg _).trans (Binary64.isFinite_ofNat ?_)
      omega
  | float => exact hnode (.float x) .self

theorem Written.isFinite {part? : Option Node} {default x : Float}
    (h : Written Node.IsFloat default part? x) (hdefault : default.isFinite)
    (hpart : ∀ part, part? = some part → part.HasFiniteNumbers) : x.isFinite := by
  cases part? with
  | none => exact (show x = default from h) ▸ hdefault
  | some part => exact Node.IsFloat.isFinite h (hpart part rfl)

variable {names : List String} {name : String} {node part : Node}

theorem Node.part?_within (h : node.part? names name = some part) : part.Within node := by
  cases node with
  | list nodes break? => exact .item (mem_of_lookup_zip h) .self
  | object members break? => exact .member (mem_of_lastMember? h) .self
  | _ => cases h

theorem Node.HasPart.within (h : node.HasPart names name part) : part.Within node := by
  cases node with
  | list nodes break? => exact .item (mem_of_lookup_zip h) .self
  | object members break? => exact .member h .self
  | _ => exact h.elim

end Json

/-! ## Finite positions -/

/-- Both coordinates are finite. -/
structure TargetState.HasFinitePosition (s : TargetState) : Prop where
  x : s.x.isFinite
  y : s.y.isFinite

namespace Project

/-- Targets are loaded with finite positions. -/
theorem load_hasFinitePosition {config : Config} {text : String} {p : Project}
    {warnings : List Warning} (h : load config text = .ok (p, warnings)) :
    ∀ t ∈ p.targets, t.state.HasFinitePosition := by
  intro t ht
  obtain ⟨-, nodes, hnodes, hwritten⟩ := load_eq_ok h
  obtain ⟨node, hnode, hfrom⟩ := Json.exists_rel_of_mem hwritten.flip ht
  have hwithin : node.Within (Json.Source.ofText text).root :=
    (Node.Within.item hnode .self).trans (Node.HasPart.within ((hnodes _).mpr rfl))
  have hpart (name : String) (part : Node) (hsome : Target.part? name node = some part) :
      part.HasFiniteNumbers :=
    ((Node.part?_within hsome).trans hwithin).hasFiniteNumbers (Json.ofText_finite text)
  have hzero : (0 : Float).isFinite := Binary64.isFinite_ofNat (n := 0) (by norm_num)
  exact ⟨hfrom.x.isFinite hzero (hpart "x"), hfrom.y.isFinite hzero (hpart "y")⟩

end Project

namespace TargetState

theorem HasFinitePosition.moveTo {s : TargetState} (h : s.HasFinitePosition) (v : Vec Float) :
    (s.moveTo v).HasFinitePosition := by
  constructor
  · change (if v.x.isFinite then v.x else s.x).isFinite = true
    split
    · assumption
    · exact h.x
  · change (if v.y.isFinite then v.y else s.y).isFinite = true
    split
    · assumption
    · exact h.y

theorem turnTo_x (s : TargetState) (direction : Float) : (s.turnTo direction).x = s.x := by
  unfold turnTo
  split <;> rfl

theorem turnTo_y (s : TargetState) (direction : Float) : (s.turnTo direction).y = s.y := by
  unfold turnTo
  split <;> rfl

/-- Moves and turns keep a position finite. -/
theorem Steered.hasFinitePosition {s t : TargetState} (h : Steered s t)
    (hs : s.HasFinitePosition) : t.HasFinitePosition := by
  induction h with
  | still => exact hs
  | move _ v ih => exact ih.moveTo v
  | @turn t _ direction ih =>
    refine ⟨?_, ?_⟩
    · rw [turnTo_x]
      exact ih.x
    · rw [turnTo_y]
      exact ih.y

end TargetState

/-! ## Positions after a tick -/

/-- A target has the coordinates of a body that are finite, with the vertical axis turned over, and
of the others those that it had before. -/
structure Physics.Body.Placed (b : Physics.Body Float) (before after : TargetState) : Prop where
  x : after.x = if b.position.x.isFinite then b.position.x else before.x
  y : after.y = if b.position.y.isFinite then -b.position.y else before.y

theorem Physics.Body.place_placed (b : Physics.Body Float) (s : TargetState) :
    b.Placed s (b.place s) := by
  constructor
  · rw [place, TargetState.turnTo_x]
    rfl
  · rw [place, TargetState.turnTo_y, ← Binary64.isFinite_neg]
    rfl

namespace Stage

/-- A tick, whichever thread comes to the block. -/
def tick (args : Arguments) (thread : Thread) : Event :=
  .block Physics.Opcode.tick.name args thread

theorem react_tick (s : Stage) (args : Arguments) (thread : Thread) :
    s.react (tick args thread) = ⟨(s.world.tick s.project).1, (s.world.tick s.project).2⟩ := rfl

/-- How a tick from `s` to `after` takes target `t` of entry `i` to `u`. A body stands for the last
target that has its id; the others stay. -/
structure Ticked (s after : Stage) (i : Nat) (t u : Target) : Prop where
  entry : after.project.targets[i]? = some u
  body {b : Physics.Body Float} : after.world.body? t.id = some b →
    t.id ∉ s.project.idsAfter i → b.Placed t.state u.state
  still : after.world.body? t.id = none ∨ t.id ∈ s.project.idsAfter i → u = t

theorem exists_ticked (s : Stage) (args : Arguments) (thread : Thread) {i : Nat} {t : Target}
    (h : s.project.targets[i]? = some t) : ∃ u, s.Ticked (s.react (tick args thread)) i t u := by
  rw [react_tick]
  have hentry := Physics.World.getElem?_place (w := (s.world.tick s.project).1) (p := s.project)
    (Std.ExtTreeMap.nodup_keys (t := s.world.bodies)) i
  rw [← Physics.World.project_tick, h, Option.map_some] at hentry
  refine ⟨_, hentry, ?_, ?_⟩
  · intro b hb hlast
    have hkey : t.id ∈ s.world.bodies.keys := by
      by_contra hkey
      rw [Physics.World.body?_tick_of_not_mem_keys hkey] at hb
      cases hb
    rw [if_pos ⟨hkey, hlast⟩, Physics.World.placed, Physics.World.placing_of_body? hb]
    exact b.place_placed t.state
  · rintro (hnone | hlater)
    · rw [Physics.World.placed, Physics.World.placing_of_none hnone, ite_self]
    · rw [if_neg fun hlast => hlast.2 hlater]

/-- Positions are finite, and a tick changes them to those of the bodies. -/
structure PositionsKept (s : Stage) : Prop where
  finite : ∀ t ∈ s.project.targets, t.state.HasFinitePosition
  ticked (args : Arguments) (thread : Thread) {i : Nat} {t : Target} :
    s.project.targets[i]? = some t → ∃ u, s.Ticked (s.react (tick args thread)) i t u

/-- **Positions that stay finite.** Whatever is done with the targets of a loaded project and the
bodies around it, both coordinates of every target are finite, and a tick takes a target to where
its body is as far as the body has finite coordinates. -/
theorem positions_stay_finite {config : Config} {text : String} {p : Project}
    {warnings : List Warning} (h : Project.load config text = .ok (p, warnings))
    (w : Physics.World) (events : List Event) : ((Stage.mk w p).after events).PositionsKept where
  finite := by
    intro t ht
    obtain ⟨i, hentry⟩ := List.mem_iff_getElem?.mp ht
    obtain ⟨t₀, hentry₀, hsteered⟩ := exists_entry _ events hentry
    have hloaded := Project.load_hasFinitePosition h t₀ (List.mem_of_getElem? hentry₀)
    exact hsteered.hasFinitePosition hloaded
  ticked args thread _ _ hentry := exists_ticked _ args thread hentry

/-- A project of one sprite far from the centre. -/
def farText : String :=
  "\x7b\"targets\":[\x7b\"isStage\":false,\"name\":\"Cat\",\"x\":1e308,\"y\":-1e308\x7d]\x7d"

theorem positions_stay_finite_farText :
    ∃ p warnings, Project.load {} farText = .ok (p, warnings) ∧ p.targets.length = 1 ∧
      ∀ events, ((Stage.mk {} p).after events).PositionsKept := by
  have hload : ((Project.load {} farText).toOption.map Prod.fst).map (fun p => p.targets.length) =
      some 1 := by
    decide +kernel
  obtain ⟨p, warnings, hp, hlength⟩ := Project.exists_loaded hload
  exact ⟨p, warnings, hp, hlength, fun events => positions_stay_finite hp {} events⟩

end Stage

end BlockStage
