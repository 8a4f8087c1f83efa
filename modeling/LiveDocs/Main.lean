import LiveDocs.CommandLine

/-!
# The program

Reads the files that a command line names, carries it out, and prints the report.
-/

namespace LiveDocs.CommandLine

/-- A short description of the commands. -/
def usage : String :=
  "run --seed FILE [--config FILE] [--variables FILE] FILE...\n" ++
    "    resolve operations against a store that holds the seed\n" ++
    "check FILE...\n" ++
    "    check the directives of operations\n" ++
    "-v, --verbose    say what is done\n" ++
    "-q, --quiet      print results and errors only\n"

/-- The files that a command reads. -/
def Command.fileNames : Command → List String
  | .run seed config vars files => seed :: (config.toList ++ vars.toList ++ files)
  | .check files => files

/-- Reads files, and keeps the contents or the error of each. -/
def readAll (names : List String) : IO (List (String × Except String String)) :=
  names.mapM fun (name : String) => do
    try
      return (name, .ok (← IO.FS.readFile name))
    catch
      | .noFileOrDirectory .. => return (name, .error "No such file or directory (os error 2)")
      | e => return (name, .error (toString e))

end LiveDocs.CommandLine

open LiveDocs LiveDocs.CommandLine

/-- The program. -/
def main (arguments : List String) : IO UInt32 := do
  match Invocation.ofArguments arguments with
  | .help =>
    IO.print usage
    return 0
  | .version =>
    IO.println "0.1.0"
    return 0
  | .invalid =>
    IO.eprint usage
    return 2
  | .command switches command =>
    let contents ← readAll command.fileNames
    let files : Files := fun name => (Bindings.get? name contents).getD (.error "not read")
    let report := command.report files switches
    IO.print report.stdout
    IO.eprint report.stderr
    return report.exit.toUInt32
