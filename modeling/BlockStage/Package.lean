import BlockStage.Arrays.Blocks
import BlockStage.Physics.Blocks

/-!
The extensions that come with the stage.
-/

namespace BlockStage

inductive Package where
  | arrays (state : Arrays)
  | physics (world : Physics.World)

namespace Package

instance : Extension Package where
  info
    | arrays state => Extension.info state
    | physics world => Extension.info world
  execute opcode args
    | arrays state, s => (Extension.execute opcode args state s).map arrays
    | physics world, s => (Extension.execute opcode args world s).map physics
  restart
    | arrays state => arrays (Extension.restart state)
    | physics world => physics (Extension.restart world)

/-- The world of the physics package. -/
def world? : Package → Option Physics.World
  | arrays _ => none
  | physics world => some world

/-- Both packages, arrays first. -/
def standard : Registry Package := (Registry.load {} (arrays .ready)).load (physics {})

end Package

end BlockStage
