import BlockStage.Physics.Collision
import BlockStage.Project

/-!
The world of bodies, one for each target that takes part. The world turns the vertical axis of the
stage over and measures angles in radians from the right. A tick takes the bodies to where their
targets are, moves them one step, and takes the targets to where their bodies are.
-/

namespace BlockStage.Physics

/-- The state of the world. Bodies go by the id of their target. -/
structure World where
  gravity : Vec Float := ⟨0, 1⟩
  bodies : Named (Body Float) := ∅
  walls : List (Wall Float) := []

def gravityScale : Float := 0.001

/-- The part of the speed that the air takes at each step. -/
def airFriction : Float := 0.01

def pi : Float := 3.141592653589793

def angleOfDirection (direction : Float) : Float := (direction - 90) * pi / 180

def directionOfAngle (angle : Float) : Float := angle * 180 / pi + 90

namespace Body

/-- Takes a body to where its target is. -/
def follow (b : Body Float) (s : TargetState) : Body Float :=
  { b with position := s.position.flip, angle := angleOfDirection s.direction }

/-- A body at rest where its target is. -/
def atTarget (shape : Shape Float) (s : TargetState) : Body Float :=
  follow ⟨shape, ⟨0, 0⟩, ⟨0, 0⟩, 0, 0⟩ s

/-- Takes a target to where its body is. -/
def place (b : Body Float) (s : TargetState) : TargetState :=
  (s.moveTo b.position.flip).turnTo (directionOfAngle b.angle)

/-- Speeds a body up, moves and turns it, and lets the walls push it back. -/
def step (acceleration : Vec Float) (walls : List (Wall Float)) (b : Body Float) : Body Float :=
  let velocity := b.velocity.scale (1 - airFriction) + acceleration
  let spin := b.spin * (1 - airFriction)
  let moved :=
    { b with velocity, position := b.position + velocity, spin, angle := b.angle + spin }
  walls.foldl Body.pushOut moved

end Body

/-- The length of a step in milliseconds. Without a frame rate there are 60 in a second. -/
def stepLength (c : Config) : Float :=
  1000 / Float.ofNat (if c.frameRate = 0 then 60 else c.frameRate.toNat)

namespace World

def body? (w : World) (id : String) : Option (Body Float) := w.bodies[id]?

/-- What gravity adds to the velocity in one step. -/
def acceleration (w : World) (delta : Float) : Vec Float :=
  ((w.gravity.scale gravityScale).scale delta).scale delta

/-- Changes the body of a target, if it has one. -/
def modifyBody (w : World) (id : String) (f : Body Float → Body Float) : World :=
  { w with bodies := w.bodies.modify id f }

/-- Takes the body of a target to where the target is. The body goes if the target is gone. -/
def followTarget (p : Project) (w : World) (id : String) : World :=
  match p.target? id with
  | none => { w with bodies := w.bodies.erase id }
  | some t => w.modifyBody id (·.follow t.state)

def step (w : World) (delta : Float) : World :=
  { w with bodies := w.bodies.map fun _ b => b.step (w.acceleration delta) w.walls }

/-- Takes a target to where its body is, if it has one. -/
def placeTarget (w : World) (p : Project) (id : String) : Project :=
  match w.body? id with
  | none => p
  | some b => p.modifyState id b.place

def follow (ids : List String) (w : World) (p : Project) : World := ids.foldl (followTarget p) w

def place (ids : List String) (w : World) (p : Project) : Project := ids.foldl w.placeTarget p

/-- A tick that takes the bodies with the given ids in turn, to their targets and back. -/
def tickInTurn (ids : List String) (w : World) (p : Project) : World × Project :=
  let w := (w.follow ids p).step (stepLength p.config)
  (w, w.place ids p)

/-- A tick takes the bodies in the order of their ids. -/
def tick (w : World) (p : Project) : World × Project := tickInTurn w.bodies.keys w p

end World

end BlockStage.Physics
