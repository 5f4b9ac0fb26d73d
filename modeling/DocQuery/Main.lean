import DocQuery.CommandLine.Run

open DocQuery

def readFile? (name : String) : IO (Option String) :=
  try some <$> IO.FS.readFile name catch _ => return none

def main (args : List String) : IO UInt32 := do
  let names := ((CommandLine.Command.ofArguments? args).map CommandLine.Command.files).getD []
  let files ← names.mapM fun n => return (n, ← readFile? n)
  let environment ← Settings.variableNames.mapM fun n => return (n, ← IO.getEnv n)
  let c := CommandLine.complete
    ⟨fun n => (environment.lookup n).join, fun n => (files.lookup n).join⟩ args
  IO.print c.output
  unless c.message.isEmpty do IO.eprintln c.message
  return c.code.toUInt32
