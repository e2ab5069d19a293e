import BlockStage.Arrays.Text
import BlockStage.Extension.Registry

/-!
The extension with blocks that report arrays. It has no state.
-/

namespace BlockStage

/-- The state of the array blocks. -/
inductive Arrays where
  | ready
  deriving DecidableEq, Repr

namespace Arrays

def id : String := "jwArray"

def reporter (opcode text : String) : PaletteItem :=
  .block {
    opcode, text
    kind := .reporter
    outline := some .square
    outputType := some "Array"
    monitored := false }

def info : ExtensionInfo where
  id := id
  name := "Arrays"
  color := some "#ff513d"
  palette := [reporter "blank" "blank array", reporter "test" "test array"]

/-- The whole numbers from 1 to 20. -/
def testItems : List Value := (List.range 20).map fun n => .integer (.ofNat (n + 1))

/-- The array that a block reports. -/
def array? (opcode : String) : Option (List Value) :=
  match opcode with
  | "blank" => some []
  | "test" => some testItems
  | _ => none

instance : Extension Arrays where
  info _ := info
  execute opcode _ state s :=
    match array? opcode with
    | some items => ⟨.ok (some (.array items)), state, s⟩
    | none => ⟨.error (.unknownOpcode id opcode), state, s⟩
  restart state := state

end Arrays

end BlockStage
