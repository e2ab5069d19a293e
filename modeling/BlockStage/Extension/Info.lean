import BlockStage.Block

/-!
What an extension tells the editor about itself, and the JSON of it.
-/

namespace BlockStage

inductive BlockKind where
  | command
  | reporter
  | boolean
  deriving DecidableEq, Repr

def BlockKind.name : BlockKind → String
  | command => "command"
  | reporter => "reporter"
  | boolean => "boolean"

inductive Outline where
  | round
  | square
  deriving DecidableEq, Repr

def Outline.name : Outline → String
  | round => "round"
  | square => "square"

inductive ArgumentKind where
  | string
  | number
  | angle
  deriving DecidableEq, Repr

def ArgumentKind.name : ArgumentKind → String
  | string => "string"
  | number => "number"
  | angle => "angle"

inductive TargetKind where
  | sprite
  | stage
  deriving DecidableEq, Repr

def TargetKind.name : TargetKind → String
  | sprite => "sprite"
  | stage => "stage"

structure ArgumentInfo where
  kind : Option ArgumentKind := none
  menu : Option String := none
  default : Option Float := none
  outline : Option Outline := none
  /-- The types that the argument admits; none means all. -/
  check : List String := []

structure BlockInfo where
  opcode : String
  text : String
  kind : BlockKind
  outline : Option Outline := none
  outputType : Option String := none
  monitored : Bool := true
  arguments : Named ArgumentInfo := ∅
  /-- The kinds of target that show the block; none means all. -/
  filter : List TargetKind := []

inductive PaletteItem where
  | block (info : BlockInfo)
  | separator

structure ExtensionInfo where
  id : String
  name : String
  color : Option String := none
  palette : List PaletteItem := []
  menus : Named (List String) := ∅

/-- A member that is left out if there is nothing to write. -/
def optionalMember (key : String) (value : Option Json) : List (String × Json) :=
  value.toList.map fun value => (key, value)

/-- A member that is left out if its list is empty. -/
def listMember (key : String) (items : List Json) : List (String × Json) :=
  if items.isEmpty then [] else [(key, .list items)]

/-- A member that is left out if its object is empty; its own members stand in order. -/
def namedMember (key : String) (toJson : α → Json) (members : Named α) : List (String × Json) :=
  if members.isEmpty then []
  else [(key, .object (members.toList.map fun (name, a) => (name, toJson a)))]

def ArgumentInfo.toJson (a : ArgumentInfo) : Json :=
  .object <|
    optionalMember "type" (a.kind.map (.text ·.name)) ++
    optionalMember "menu" (a.menu.map .text) ++
    optionalMember "defaultValue" (a.default.map .number) ++
    optionalMember "shape" (a.outline.map (.text ·.name)) ++
    listMember "check" (a.check.map .text)

def BlockInfo.toJson (b : BlockInfo) : Json :=
  .object <|
    [("opcode", .text b.opcode), ("text", .text b.text), ("blockType", .text b.kind.name)] ++
    optionalMember "blockShape" (b.outline.map (.text ·.name)) ++
    optionalMember "forceOutputType" (b.outputType.map .text) ++
    (if b.monitored then [] else [("disableMonitor", .bool true)]) ++
    namedMember "arguments" ArgumentInfo.toJson b.arguments ++
    listMember "filter" (b.filter.map (.text ·.name))

def PaletteItem.toJson : PaletteItem → Json
  | block info => info.toJson
  | separator => .text "---"

def ExtensionInfo.toJson (e : ExtensionInfo) : Json :=
  .object <|
    [("id", .text e.id), ("name", .text e.name)] ++
    optionalMember "color1" (e.color.map .text) ++
    [("blocks", .list (e.palette.map PaletteItem.toJson))] ++
    namedMember "menus" (fun entries => .list (entries.map .text)) e.menus

end BlockStage
