import BlockStage.Extension.Registry
import BlockStage.Physics.World

/-!
The blocks of the physics extension. Most of them concern the current target of the thread. A target
without a body answers for itself as far as it can.
-/

namespace BlockStage.Physics

def id : String := "jwPsychic"

namespace Palette

/-- An argument that admits vectors only. -/
def vectorArgument : ArgumentInfo := { outline := some .square, check := ["Vector"] }

def menuArgument (menu : String) : ArgumentInfo := { kind := some .string, menu := some menu }

def angleArgument (default : Float) : ArgumentInfo :=
  { kind := some .angle, default := some default }

def argument (name : String) (a : ArgumentInfo) : Named ArgumentInfo := .ofList [(name, a)]

def command (opcode text : String) (arguments : Named ArgumentInfo) : PaletteItem :=
  .block { opcode, text, kind := .command, arguments }

def spriteCommand (opcode text : String) (arguments : Named ArgumentInfo) : PaletteItem :=
  .block { opcode, text, kind := .command, arguments, filter := [.sprite] }

def spriteReporter (opcode text : String) : PaletteItem :=
  .block { opcode, text, kind := .reporter, filter := [.sprite] }

def spriteVector (opcode text : String) : PaletteItem :=
  .block {
    opcode, text
    kind := .reporter
    outline := some .square
    outputType := some "Vector"
    filter := [.sprite] }

def gravity : PaletteItem :=
  .block {
    opcode := "getGravity"
    text := "gravity"
    kind := .reporter
    outline := some .square
    outputType := some "Vector" }

def items : List PaletteItem := [
  command "tick" "tick" ∅,
  .separator,
  command "boundaries" "set boundaries to [OPTION]"
    (argument "OPTION" (menuArgument "boundariesOption")),
  command "setGravity" "set gravity to [VECTOR]" (argument "VECTOR" vectorArgument),
  gravity,
  .separator,
  spriteCommand "enablePhysics" "enable physics as [OPTION]"
    (argument "OPTION" (menuArgument "enablePhysicsOption")),
  spriteCommand "disablePhysics" "disable physics" ∅,
  .separator,
  spriteCommand "setPos" "set position to [VECTOR]" (argument "VECTOR" vectorArgument),
  spriteVector "getPos" "position",
  spriteCommand "setVel" "set velocity to [VECTOR]" (argument "VECTOR" vectorArgument),
  spriteVector "getVel" "velocity",
  spriteCommand "setRot" "set rotation to [ANGLE]" (argument "ANGLE" (angleArgument 90)),
  spriteReporter "getRot" "rotation",
  spriteCommand "setAngVel" "set angular velocity to [ANGLE]"
    (argument "ANGLE" (angleArgument 0)),
  spriteReporter "getAngVel" "angular velocity"]

end Palette

def info : ExtensionInfo where
  id := id
  name := "Psychic"
  color := some "#b16bed"
  palette := Palette.items
  menus := .ofList [
    ("boundariesOption", ["all", "floor", "none"]),
    ("enablePhysicsOption", ["precise", "box", "circle"])]

inductive Opcode where
  | tick
  | boundaries
  | setGravity
  | getGravity
  | enable
  | disable
  | setPosition
  | getPosition
  | setVelocity
  | getVelocity
  | setDirection
  | getDirection
  | setSpin
  | getSpin
  deriving DecidableEq, Repr

namespace Opcode

def all : List Opcode :=
  [tick, boundaries, setGravity, getGravity, enable, disable, setPosition, getPosition, setVelocity,
    getVelocity, setDirection, getDirection, setSpin, getSpin]

def name : Opcode → String
  | tick => "tick"
  | boundaries => "boundaries"
  | setGravity => "setGravity"
  | getGravity => "getGravity"
  | enable => "enablePhysics"
  | disable => "disablePhysics"
  | setPosition => "setPos"
  | getPosition => "getPos"
  | setVelocity => "setVel"
  | getVelocity => "getVel"
  | setDirection => "setRot"
  | getDirection => "getRot"
  | setSpin => "setAngVel"
  | getSpin => "getAngVel"

def ofName? (s : String) : Option Opcode := all.find? (·.name == s)

theorem name_of_ofName? {s : String} {opcode : Opcode} (h : ofName? s = some opcode) :
    opcode.name = s := by
  simpa using List.find?_some h

end Opcode

def vectorOf (args : Arguments) : Vec Float :=
  ((args.values["VECTOR"]?).bind Value.vector?).getD ⟨0, 0⟩

def angleOf (args : Arguments) : Float := ((args.values["ANGLE"]?).map Value.toNumber).getD 0

def optionOf (args : Arguments) : String := ((args.values["OPTION"]?).map Value.display).getD ""

/-- The greater of two floats; one that is no number counts for nothing. -/
def larger (x y : Float) : Float := if x.isNaN then y else if x < y then y else x

/-- The shape of a body for a target of the given size, or why there is none. -/
def shapeFor (option : String) (size : Vec Float) : Except String (Shape Float) :=
  if option = "box" then .ok (.box size)
  else if option = "circle" then .ok (.circle (larger size.x size.y / 2))
  else if option = "precise" then .error "precise bodies are not supported"
  else .error ("unknown body type " ++ Text.quote option)

/-- Gives the current target a body at rest. Nothing happens if the target is gone. -/
def enable (args : Arguments) (w : World) (s : Scene) : Reply World :=
  match s.target? with
  | none => ⟨.ok none, w, s⟩
  | some target =>
    match shapeFor (optionOf args) target.scaledSize with
    | .error reason => ⟨.error (.invalidArgument Opcode.enable.name reason), w, s⟩
    | .ok shape =>
      let body := Body.atTarget shape target.state
      ⟨.ok none, { w with bodies := w.bodies.insert s.thread.currentTarget body }, s⟩

/-- Walls as wide and high as the stage. -/
def setBoundaries (args : Arguments) (w : World) (s : Scene) : World :=
  let config := s.project.config
  let boundaries := Boundaries.ofText (optionOf args)
  { w with
    walls := boundaries.walls (Float.ofNat config.width.toNat) (Float.ofNat config.height.toNat) }

def position (w : World) (s : Scene) : Vec Float :=
  match w.body? s.thread.currentTarget with
  | some body => body.position.flip
  | none => (s.target?.map (·.state.position)).getD ⟨0, 0⟩

def velocity (w : World) (s : Scene) : Vec Float :=
  ((w.body? s.thread.currentTarget).map (·.velocity.flip)).getD ⟨0, 0⟩

def direction (w : World) (s : Scene) : Float :=
  match w.body? s.thread.currentTarget with
  | some body => directionOfAngle body.angle
  | none => (s.target?.map (·.state.direction)).getD 0

def spin (w : World) (s : Scene) : Float :=
  ((w.body? s.thread.currentTarget).map (·.spin)).getD 0

/-- Runs a physics block. -/
def run (opcode : Opcode) (args : Arguments) (w : World) (s : Scene) : Reply World :=
  let current := s.thread.currentTarget
  match opcode with
  | .tick =>
    let (w, project) := w.tick s.project
    ⟨.ok none, w, { s with project }⟩
  | .boundaries => ⟨.ok none, setBoundaries args w s, s⟩
  | .setGravity => ⟨.ok none, { w with gravity := (vectorOf args).flip }, s⟩
  | .getGravity => ⟨.ok (some (.vector w.gravity.flip)), w, s⟩
  | .enable => enable args w s
  | .disable => ⟨.ok none, { w with bodies := w.bodies.erase current }, s⟩
  | .setPosition => ⟨.ok none, w, s.modifyTarget (·.moveTo (vectorOf args))⟩
  | .getPosition => ⟨.ok (some (.vector (position w s))), w, s⟩
  | .setVelocity =>
    ⟨.ok none, w.modifyBody current fun b => { b with velocity := (vectorOf args).flip }, s⟩
  | .getVelocity => ⟨.ok (some (.vector (velocity w s))), w, s⟩
  | .setDirection => ⟨.ok none, w, s.modifyTarget (·.turnTo (angleOf args))⟩
  | .getDirection => ⟨.ok (some (.number (direction w s))), w, s⟩
  | .setSpin => ⟨.ok none, w.modifyBody current fun b => { b with spin := angleOf args }, s⟩
  | .getSpin => ⟨.ok (some (.number (spin w s))), w, s⟩

instance : Extension World where
  info _ := info
  execute opcode args w s :=
    match Opcode.ofName? opcode with
    | some opcode => run opcode args w s
    | none => ⟨.error (.unknownOpcode id opcode), w, s⟩
  restart _ := {}

end BlockStage.Physics
