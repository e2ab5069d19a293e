import BlockStage.Project
import BlockStage.Thread

/-!
A thread together with the project it runs in, and what blocks ask of the two.
-/

namespace BlockStage

/-- A thread for each script of the target that starts with the green flag. -/
def Target.flagScripts (t : Target) : List Thread :=
  (t.blocks.hats "event_whenflagclicked").map fun hat => .start t.id (some hat) .interpreted

def Project.flagScripts (p : Project) : List Thread := p.targets.flatMap Target.flagScripts

structure Scene where
  project : Project
  thread : Thread

namespace Scene

/-- The target that the thread runs against. -/
def target? (s : Scene) : Option Target := s.project.target? s.thread.currentTarget

def block? (s : Scene) (id : String) : Option Block := s.target?.bind (·.blocks.block? id)

def signature? (s : Scene) (code : String) : Option Signature :=
  s.target?.bind (·.blocks.signature? code)

def definition? (s : Scene) (code : String) : Option String :=
  s.target?.bind (·.blocks.definition? code)

def mapThread (s : Scene) (f : Thread → Thread) : Scene := { s with thread := f s.thread }

/-- Changes the state of the current target, if it is there. -/
def modifyTarget (s : Scene) (f : TargetState → TargetState) : Scene :=
  { s with project := s.project.modifyState s.thread.currentTarget f }

/-- A thread that enters the body of a procedure: in warp mode if the procedure is, and otherwise
yielding if the call is recursive. -/
def enterBody (t : Thread) (definition : String) (warp recursive : Bool) : Thread :=
  let pushed := t.push (some definition)
  if warp then pushed.modifyTop fun f => { f with warp := true }
  else if recursive then { pushed with status := .yielding }
  else pushed

/-- Pushes the body of a procedure of the current target, if it is defined. -/
def startProcedure (s : Scene) (code : String) : Scene :=
  match s.target? with
  | none => s
  | some target =>
    match target.blocks.definition? code with
    | none => s
    | some definition =>
      let warp := (target.blocks.signature? code).any Signature.warp
      let recursive := s.thread.isRecursiveCall code target.blocks
      s.mapThread fun t => enterBody t definition warp recursive

/-- The first block of the branch plugged into an input of `caller`, and the target that owns both.
The current target is asked first, then the others in load order. -/
def branch? (s : Scene) (caller entry : String) : Option (String × String) :=
  let own := s.thread.currentTarget
  let ordered := s.target?.toList ++ s.project.targets.filter (·.id != own)
  ordered.findSome? fun t => (t.blocks.branch? caller entry).map fun block => (block, t.id)

end Scene

/-- Pushes a branch, or the null marker if there is none. -/
def Thread.pushBranch (t : Thread) : Option (String × String) → Thread
  | some (block, target) => t.pushOn block target
  | none => t.push none

end BlockStage
