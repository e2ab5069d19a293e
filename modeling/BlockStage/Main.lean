import BlockStage.CommandLine

/-!
The command line: reads the project at the given path and prints the report on it.
-/

open BlockStage in
def main (args : List String) : IO UInt32 := do
  let path := args.headD CommandLine.defaultPath
  let text ← (some <$> IO.FS.readFile path) <|> pure none
  let outcome := CommandLine.run text
  IO.print outcome.output
  unless outcome.complaint.isEmpty do IO.eprintln outcome.complaint
  return outcome.exitCode
