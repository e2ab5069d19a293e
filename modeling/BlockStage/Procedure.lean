import BlockStage.Scene

/-!
Blocks of procedures: definition, call, setting a parameter, and the three reporters of arguments.
A call binds its parameters on its own frame and pushes the body, whose frames own none. So a
look-up from the body finds the bindings of its own call, and of no other.
-/

namespace BlockStage

/-- What a host runs instead of the body of a procedure. It gets the parameters of the call, may
change the scene, and keeps a state of its own. -/
abbrev Addon (σ : Type) := Parameters → σ × Scene → Option Value × σ × Scene

namespace Procedure

inductive Opcode where
  | definition
  | call
  | set
  | reportStringNumber
  | reportBoolean
  | reportCommand
  deriving DecidableEq, Repr

namespace Opcode

def all : List Opcode :=
  [definition, call, set, reportStringNumber, reportBoolean, reportCommand]

def name : Opcode → String
  | definition => definitionOpcode
  | call => "procedures_call"
  | set => "procedures_set"
  | reportStringNumber => "argument_reporter_string_number"
  | reportBoolean => "argument_reporter_boolean"
  | reportCommand => "argument_reporter_command"

def ofName? (s : String) : Option Opcode := all.find? (·.name == s)

end Opcode

/-- A parameter with the argument given under its id, or else its default. -/
def bindOne (args : Arguments) (f : Frame) (name id : String) (default : Value) : Frame :=
  f.bind name ((args.values[id]?).getD default)

/-- The frame of a call with its parameters bound, in their order, over none. -/
def bindAll (args : Arguments) (signature : Signature) (f : Frame) : Frame :=
  (signature.names.zip (signature.ids.zip signature.defaults)).foldl
    (fun f (name, id, default) => bindOne args f name id default) f.clearParameters

/-- The scene in which the parameters of a call are bound, with the code of the procedure. There is
none if no call waits on top of the stack or the current target does not know the procedure. -/
def bind? (args : Arguments) (s : Scene) : Option (String × Scene) := do
  let frame ← s.thread.topFrame?
  if frame.executed then none
  else do
    let code ← args.code?
    let signature ← s.signature? code
    return (code, s.mapThread (·.modifyTop (bindAll args signature)))

def markExecuted (s : Scene) : Scene :=
  s.mapThread (·.modifyTop fun f => { f with executed := true })

/-- Calls a procedure. An addon takes the place of the body; the call counts as dispatched if the
addon leaves the thread waiting. -/
def call {σ : Type} (addons : Named (Addon σ)) (args : Arguments) (host : σ) (s : Scene) :
    Option Value × σ × Scene :=
  match bind? args s with
  | none => (none, host, s)
  | some (code, bound) =>
    match addons[code]? with
    | some addon =>
      let (result, host, s) := addon bound.thread.parameters (host, bound)
      (result, host, if s.thread.status = .waiting then markExecuted s else s)
    | none => (none, host, (markExecuted bound).startProcedure code)

/-- The name of the parameter that the active block sets: the field of the reporter in its slot. -/
def setName? (s : Scene) : Option String := do
  let active ← s.thread.activeBlock?
  let block ← s.block? active
  let reporter ← block.plugged? "PARAM"
  let parameter ← s.block? reporter
  let field ← parameter.fields["VALUE"]?
  return field.value.display

/-- Sets a parameter on the outermost frame of the thread, whichever frame bound it. -/
def set (args : Arguments) (s : Scene) : Scene :=
  match setName? s with
  | none => s
  | some name =>
    s.mapThread (·.modifyOutermost (·.bind name ((args.values["VALUE"]?).getD .zero)))

/-- The parameter that a reporter names, or zero. -/
def report (args : Arguments) (s : Scene) : Value :=
  ((args.values["VALUE"]?).bind fun name => s.thread.parameter? name.display).getD .zero

/-- Where the branch bound to a command parameter starts. A plain value has no branch; a branch
without an entry asks for nothing at all. -/
def commandBranch? (s : Scene) : Value → Option (Option (String × String))
  | .branch b => b.entry.map fun entry => b.caller.bind fun caller => s.branch? caller entry
  | _ => some none

/-- Runs the branch bound to a command parameter. -/
def reportCommand (args : Arguments) (s : Scene) : Scene :=
  match (args.values["VALUE"]?).bind fun name => s.thread.parameter? name.display with
  | none => s
  | some value =>
    match commandBranch? s value with
    | none => s
    | some branch => s.mapThread (·.pushBranch branch)

/-- Runs a block of procedures. -/
def run {σ : Type} (opcode : Opcode) (addons : Named (Addon σ)) (args : Arguments) (host : σ)
    (s : Scene) : Option Value × σ × Scene :=
  match opcode with
  | .definition => (none, host, s)
  | .call => call addons args host s
  | .set => (none, host, set args s)
  | .reportStringNumber => (some (report args s), host, s)
  | .reportBoolean => (some (report args s), host, s)
  | .reportCommand => (none, host, reportCommand args s)

end Procedure

end BlockStage
