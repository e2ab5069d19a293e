import BlockStage.Package
import BlockStage.Project.Load

/-!
The report on a project that the command line prints: a line for each procedure of each target, then
what the extensions say about themselves.
-/

namespace BlockStage.CommandLine

/-- The project that is read if none is named. -/
def defaultPath : String := "project.json"

/-- Target, code and parameter names of a procedure. -/
def procedureLine (target : String) (code : String) (s : Signature) : String :=
  target ++ "\t" ++ code ++ "\t[" ++ ", ".intercalate s.names ++ "]" ++
    (if s.warp then " (warp)" else "") ++ "\n"

/-- The procedures of a target in the order of their codes. -/
def targetLines (t : Target) : List String :=
  t.blocks.signatures.toList.map fun (code, s) => procedureLine t.name code s

def report (p : Project) (extensions : Registry Package) : String :=
  String.join (p.targets.flatMap targetLines) ++ extensions.infosJson.indented ++ "\n"

structure Outcome where
  exitCode : UInt32
  output : String
  /-- What goes to the error output. -/
  complaint : String := ""

/-- The outcome for the text of a project, if that can be read at all. A project that cannot be
loaded gives no output. -/
def run (text : Option String) : Outcome :=
  match text with
  | none => ⟨1, "", "could not read project"⟩
  | some text =>
    match Project.load {} text with
    | .ok (project, _) => ⟨0, report project Package.standard.restart, ""⟩
    | .error e => ⟨1, "", Project.loadErrorMessage e⟩

end BlockStage.CommandLine
