import BlockStage.Blocks

/-!
Targets, the stage and its sprites: what a project fixes about them, and the state that scripts
change.
-/

namespace BlockStage

structure TargetState where
  x : Float := 0
  y : Float := 0
  size : Float := 100
  /-- In degrees, clockwise from straight up. -/
  direction : Float := 90
  costume : Nat := 0
  /-- Horizontal and vertical stretch in percent. -/
  stretch : Vec Float := ⟨100, 100⟩

structure Target where
  id : String
  name : String
  isStage : Bool
  blocks : Blocks
  /-- Costume sizes in stage pixels at full scale. -/
  costumes : List (Vec Float)
  state : TargetState

/-- The remainder of a finite float on division by `n`, from 0 to below `n`. -/
def wrap (n : Nat) (x : Float) : Float :=
  match Decimal.Scaled.ofFloat? x with
  | none => x
  | some s =>
    let shift := (-s.exponent).toNat
    let rest := s.significand * Decimal.twoPow s.exponent.toNat % (n * Decimal.twoPow shift)
    let size := Float.ofScientific (rest * Nat.pow 5 shift) true shift
    if rest == 0 then (if s.negative then -0 else 0)
    else if s.negative then -size + Float.ofNat n
    else size

namespace TargetState

def position (s : TargetState) : Vec Float := ⟨s.x, s.y⟩

/-- Moves to a point. A coordinate that is no finite number is not taken over. -/
def moveTo (s : TargetState) (v : Vec Float) : TargetState :=
  { s with
    x := if v.x.isFinite then v.x else s.x
    y := if v.y.isFinite then v.y else s.y }

/-- Turns to a direction, brought into the range from -180 (not included) to 180. -/
def turnTo (s : TargetState) (direction : Float) : TargetState :=
  if direction.isFinite then
    let wrapped := wrap 360 (direction + 180) - 180
    { s with direction := if wrapped == -180 then 180 else wrapped }
  else s

end TargetState

namespace Target

/-- The size of the current costume, scaled and stretched. -/
def scaledSize (t : Target) : Vec Float :=
  let costume := (t.costumes[t.state.costume]?).getD ⟨0, 0⟩
  (costume.scale (t.state.size / 100)).stretch (t.state.stretch.divide 100)

end Target

end BlockStage
