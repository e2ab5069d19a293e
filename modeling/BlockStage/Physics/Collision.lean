import BlockStage.Decimal.Scaled
import BlockStage.Vec

/-!
Bodies and the walls that stop them, in a plane whose vertical axis points down. Collisions are
worked out over any numbers with the operations below: over floats the world runs, over rationals
the same rules are exact.
-/

namespace BlockStage

/-- The operations that collisions need. -/
class Coordinate (α : Type) extends Add α, Sub α, Neg α, LE α, LT α where
  ofNat : Nat → α
  half : α → α
  abs : α → α
  /-- The size of the first number with the sign of the second. -/
  copySign : α → α → α
  decideLe : DecidableLE α
  decideLt : DecidableLT α

instance Coordinate.decidableLE {α : Type} [Coordinate α] : DecidableLE α := Coordinate.decideLe

instance Coordinate.decidableLT {α : Type} [Coordinate α] : DecidableLT α := Coordinate.decideLt

/-- Whether the sign bit of a float is set. -/
def signBit (x : Float) : Bool := Decimal.twoPow 63 ≤ x.toBits.toNat

instance : Coordinate Float where
  ofNat := Float.ofNat
  half x := x / 2
  abs := Float.abs
  copySign x y := if signBit y then -x.abs else x.abs
  decideLe := inferInstance
  decideLt := inferInstance

instance : Coordinate Rat where
  ofNat n := n
  half x := x / 2
  abs x := if x < 0 then -x else x
  copySign x y :=
    let size := if x < 0 then -x else x
    if y < 0 then -size else size
  decideLe := inferInstance
  decideLt := inferInstance

namespace Physics

variable {α : Type}

inductive Shape (α : Type) where
  | box (size : Vec α)
  | circle (radius : α)

structure Body (α : Type) where
  shape : Shape α
  position : Vec α
  /-- Displacement per step. -/
  velocity : Vec α
  angle : α
  /-- Turn per step. -/
  spin : α

/-- A rectangle at rest. -/
structure Wall (α : Type) where
  center : Vec α
  halfSize : Vec α

variable [Coordinate α]

def zero : α := Coordinate.ofNat 0

def Shape.halfExtents : Shape α → Vec α
  | box size => size.map Coordinate.half
  | circle radius => .both radius

def Wall.ofSize (center size : Vec α) : Wall α := ⟨center, size.map Coordinate.half⟩

/-- From the centre of a wall to a body. -/
def Body.offset (b : Body α) (w : Wall α) : Vec α := b.position - w.center

/-- How far a body and a wall overlap along each axis. -/
def Body.overlap (b : Body α) (w : Wall α) : Vec α :=
  b.shape.halfExtents + w.halfSize - (b.offset w).map Coordinate.abs

/-- Moves a body out of a wall along the axis of least overlap, and stops it on that axis. -/
def Body.pushOut (b : Body α) (w : Wall α) : Body α :=
  let offset := b.offset w
  let overlap := b.overlap w
  if overlap.x ≤ zero ∨ overlap.y ≤ zero then b
  else if overlap.x < overlap.y then
    { b with
      position := ⟨b.position.x + Coordinate.copySign overlap.x offset.x, b.position.y⟩
      velocity := ⟨zero, b.velocity.y⟩ }
  else
    { b with
      position := ⟨b.position.x, b.position.y + Coordinate.copySign overlap.y offset.y⟩
      velocity := ⟨b.velocity.x, zero⟩ }

/-- Which walls surround the stage. -/
inductive Boundaries where
  | all
  | floor
  | none
  deriving DecidableEq, Repr

def Boundaries.ofText (s : String) : Boundaries :=
  if s = "all" then all else if s = "floor" then floor else none

/-- Walls are this long, which is as good as without end. -/
def wallLength : α := Coordinate.ofNat 4503599627370495

/-- The walls around a stage of the given size, in the order in which they push. -/
def Boundaries.walls (width height : α) : Boundaries → List (Wall α)
  | all => [
      .ofSize ⟨-width, zero⟩ ⟨width, wallLength⟩,
      .ofSize ⟨width, zero⟩ ⟨width, wallLength⟩,
      .ofSize ⟨zero, -height⟩ ⟨wallLength, height⟩,
      .ofSize ⟨zero, height⟩ ⟨wallLength, height⟩]
  | floor => [.ofSize ⟨zero, height⟩ ⟨wallLength, height⟩]
  | none => []

end Physics

end BlockStage
