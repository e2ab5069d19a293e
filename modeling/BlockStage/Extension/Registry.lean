import BlockStage.Extension.Info
import BlockStage.Scene

/-!
Extensions, packages of blocks beside the built-in ones, and the registry of those that are loaded,
addressed by id. A block replies with its answer, or with the reason why there is none, and with
whatever it has made of extension and scene by then.
-/

namespace BlockStage

inductive ExtensionError where
  | unknownOpcode (extension opcode : String)
  | invalidArgument (opcode reason : String)
  deriving DecidableEq, Repr

def ExtensionError.message : ExtensionError → String
  | unknownOpcode extension opcode => "extension " ++ extension ++ " has no block " ++ opcode
  | invalidArgument opcode reason => "invalid argument for " ++ opcode ++ ": " ++ reason

/-- What a block leaves behind, whether it fails or not. -/
structure Reply (ε : Type) where
  answer : Except ExtensionError (Option Value)
  extension : ε
  scene : Scene

namespace Reply

variable {ε δ : Type}

def map (f : ε → δ) (reply : Reply ε) : Reply δ := { reply with extension := f reply.extension }

/-- The reply for a host that takes a block that fails for one that never ran. -/
def toExcept (reply : Reply ε) : Except ExtensionError (Option Value × ε × Scene) :=
  reply.answer.map fun value => (value, reply.extension, reply.scene)

instance : Coe (Reply ε) (Except ExtensionError (Option Value × ε × Scene)) := ⟨toExcept⟩

end Reply

/-- An extension whose state has type `ε`. -/
class Extension (ε : Type) where
  info : ε → ExtensionInfo
  execute : (opcode : String) → Arguments → ε → Scene → Reply ε
  /-- What becomes of the extension when the project starts. -/
  restart : ε → ε

/-- The loaded extensions in the order of their last loading. -/
structure Registry (ε : Type) where
  loaded : List (String × ε) := []

namespace Registry

variable {ε : Type}

def ids (r : Registry ε) : List String := r.loaded.map (·.1)

/-- The first extension loaded under an id. -/
def find? (r : Registry ε) (id : String) : Option ε := r.loaded.lookup id

/-- Puts a new state in place of the first extension loaded under an id. -/
def replace (r : Registry ε) (id : String) (e : ε) : Registry ε :=
  ⟨r.loaded.modify (r.loaded.findIdx (·.1 == id)) fun (loaded, _) => (loaded, e)⟩

variable [Extension ε]

/-- Loads an extension at the end; one that was loaded under the same id goes. -/
def load (r : Registry ε) (e : ε) : Registry ε :=
  let id := (Extension.info e).id
  ⟨r.loaded.filter (·.1 != id) ++ [(id, e)]⟩

def infos (r : Registry ε) : List ExtensionInfo := r.loaded.map fun (_, e) => Extension.info e

def infosJson (r : Registry ε) : Json := .list (r.infos.map ExtensionInfo.toJson)

def restart (r : Registry ε) : Registry ε :=
  ⟨r.loaded.map fun (id, e) => (id, Extension.restart e)⟩

/-- Runs a block of the extension loaded under an id. -/
def execute (r : Registry ε) (id opcode : String) (args : Arguments) (s : Scene) :
    Reply (Registry ε) :=
  match r.find? id with
  | none => ⟨.error (.unknownOpcode id opcode), r, s⟩
  | some e => (Extension.execute opcode args e s).map (r.replace id)

/-- A project opcode as extension id and block: the id ends at the first underscore. -/
def splitOpcode? (opcode : String) : Option (String × String) :=
  match opcode.toList.span (· != '_') with
  | (id, _ :: block) => some (String.ofList id, String.ofList block)
  | (_, []) => none

/-- Runs a block by its project opcode. -/
def executeBlock (r : Registry ε) (opcode : String) (args : Arguments) (s : Scene) :
    Reply (Registry ε) :=
  match splitOpcode? opcode with
  | some (id, block) => r.execute id block args s
  | none => ⟨.error (.unknownOpcode "" opcode), r, s⟩

end Registry

end BlockStage
