import LiveDocs.Check
import LiveDocs.Link
import LiveDocs.Operation.Decode
import LiveDocs.Json.Reader

/-!
# The command line

`run` resolves operations from files against a seeded store, `check` looks at their directives
only. `Invocation.ofArguments` reads the command line; `Invocation.report` carries it out on files
that are given as a function from names to contents, and answers with what is to be printed.
-/

namespace LiveDocs

namespace CommandLine

/-! ### Arguments -/

/-- The switches that every command takes. -/
structure Switches where
  verbose : Bool := false
  quiet : Bool := false

/-- A command. -/
inductive Command where
  | run (seed : String) (config vars : Option String) (files : List String)
  | check (files : List String)

/-- What a command line asks for. -/
inductive Invocation where
  | command (switches : Switches) (command : Command)
  | help
  | version
  | invalid

/-- The kinds of commands. -/
inductive CommandName where
  | run
  | check
  deriving DecidableEq

namespace CommandName

/-- The command with this name. -/
def ofName? : String → Option CommandName
  | "run" => some run
  | "check" => some check
  | _ => none

/-- The options of a command that take a value. -/
def options : CommandName → List String
  | run => ["seed", "config", "variables"]
  | check => []

end CommandName

/-- An argument by its form. -/
inductive Token where
  | separator
  | long (name : String) (value : Option String)
  | short (letters : List Char)
  | word (text : String)

/-- The form of an argument. A lone dash is a word. -/
def Token.ofText (text : String) : Token :=
  match text.toList with
  | ['-', '-'] => separator
  | '-' :: '-' :: rest =>
    match rest.dropWhile (· != '=') with
    | [] => long (String.ofList rest) none
    | _ :: value => long (String.ofList (rest.takeWhile (· != '='))) (some (String.ofList value))
  | '-' :: c :: rest => short (c :: rest)
  | _ => word text

/-- What has been read of the arguments of one level. -/
structure Parsed where
  switches : Switches := {}
  options : Bindings String := []
  files : List String := []

/-- Why reading stopped before the end. -/
inductive Stop where
  | help
  | version
  | invalid

/-- Sets the switch of a letter or name; setting one twice is an error. -/
def setSwitch (name : String) (s : Switches) : Except Stop Switches :=
  match name with
  | "verbose" => if s.verbose then .error .invalid else .ok { s with verbose := true }
  | "v" => if s.verbose then .error .invalid else .ok { s with verbose := true }
  | "quiet" => if s.quiet then .error .invalid else .ok { s with quiet := true }
  | "q" => if s.quiet then .error .invalid else .ok { s with quiet := true }
  | "help" => .error .help
  | "h" => .error .help
  | _ => .error .invalid

/-- Sets the switches of a cluster of letters. -/
def setLetters : List Char → Switches → Except Stop Switches
  | [], s => .ok s
  | c :: rest, s => do setLetters rest (← setSwitch (String.ofList [c]) s)

/-- A file or the value of an option, which may not be empty. -/
def nonEmpty (text : String) : Except Stop String :=
  if text = "" then .error .invalid else .ok text

/-- Binds an option that takes a value; binding one twice is an error. -/
def setOption (name value : String) (p : Parsed) : Except Stop Parsed := do
  if Bindings.contains name p.options then .error .invalid
  return { p with options := p.options.insert name (← nonEmpty value) }

/-- Reads the arguments of a command. After a separator all of them are files. -/
def parseCommand (name : CommandName) : List String → Parsed → Except Stop Parsed
  | [], p => .ok p
  | text :: rest, p =>
    match Token.ofText text with
    | .separator => do return { p with files := p.files ++ (← rest.mapM nonEmpty) }
    | .word text => do
      parseCommand name rest { p with files := p.files ++ [← nonEmpty text] }
    | .short letters => do
      parseCommand name rest { p with switches := ← setLetters letters p.switches }
    | .long option (some value) =>
      if name.options.contains option then do parseCommand name rest (← setOption option value p)
      else .error .invalid
    | .long option none =>
      if name.options.contains option then
        match rest with
        | [] => .error .invalid
        | value :: rest =>
          match Token.ofText value with
          | .word value => do parseCommand name rest (← setOption option value p)
          | _ => .error .invalid
      else do parseCommand name rest { p with switches := ← setSwitch option p.switches }

/-- The command that parsed arguments make up. -/
def Parsed.command? (p : Parsed) : CommandName → Option Command
  | .run =>
    match Bindings.get? "seed" p.options, p.files with
    | some seed, file :: files =>
      some (.run seed (Bindings.get? "config" p.options) (Bindings.get? "variables" p.options)
        (file :: files))
    | _, _ => none
  | .check =>
    match p.files with
    | [] => none
    | file :: files => some (.check (file :: files))

/-- Help may be asked for one command by name. -/
def helpStop : List String → Stop
  | [] => .help
  | [name] => if name = "help" ∨ (CommandName.ofName? name).isSome then .help else .invalid
  | _ => .invalid

/-- Reads the switches in front of a command, and the command. -/
def parseTop : List String → Switches → Except Stop (Switches × Command)
  | [], _ => .error .invalid
  | text :: rest, s =>
    match Token.ofText text with
    | .separator => .error .invalid
    | .long "version" none => .error .version
    | .long name none => do parseTop rest (← setSwitch name s)
    | .long _ (some _) => .error .invalid
    | .short letters =>
      match setLetters (letters.takeWhile (· != 'V')) s with
      | .error stop => .error stop
      | .ok s => if letters.contains 'V' then .error .version else parseTop rest s
    | .word "help" => .error (helpStop rest)
    | .word word =>
      match CommandName.ofName? word with
      | none => .error .invalid
      | some name => do
        let p ← parseCommand name rest {}
        match p.command? name with
        | some command =>
          return (⟨s.verbose || p.switches.verbose, s.quiet || p.switches.quiet⟩, command)
        | none => .error .invalid

/-- What a command line asks for. -/
def Invocation.ofArguments (arguments : List String) : Invocation :=
  match parseTop arguments {} with
  | .ok (switches, c) => .command switches c
  | .error .help => .help
  | .error .version => .version
  | .error .invalid => .invalid

/-! ### Commands -/

/-- The contents of files, or why a file cannot be read. -/
abbrev Files := String → Except String String

/-- What a command prints and the exit code it ends with. -/
structure Report where
  stdout : String := ""
  stderr : String := ""
  exit : Nat := 0

namespace Report

/-- Adds a line to the output. -/
def print (r : Report) (line : String) : Report := { r with stdout := r.stdout ++ line ++ "\n" }

/-- Adds a line to the error output. -/
def printError (r : Report) (line : String) : Report := { r with stderr := r.stderr ++ line ++ "\n" }

/-- Ends with an error. -/
def fail (r : Report) (message : String) : Report :=
  { r.printError ("Error: " ++ message) with exit := 1 }

/-- Reports the errors of a file, and fails in the end. -/
def fileErrors (r : Report) (file : String) (errors : List String) : Report :=
  let r := errors.foldl (fun r e => r.printError ("  --> " ++ e)) (r.printError ("Error " ++ file))
  { r with exit := 1 }

end Report

/-- Reads and decodes a file. -/
def readJson {α : Type} (files : Files) (decode : Decoder α) (name : String) : Except String α :=
  match files name with
  | .error cause => .error ("failed to read " ++ name ++ ": " ++ cause)
  | .ok text =>
    match (Json.parseRaw? text).bind decode with
    | some a => .ok a
    | none => .error ("failed to parse " ++ name)

/-- Runs the operations of files one after the other. -/
def runFiles (files : Files) (quiet : Bool) (link : Link) (shared : Variables) :
    List String → Session → Report → Report
  | [], _, r => r
  | name :: rest, s, r =>
    match readJson files Operation.decode name with
    | .error message => r.fail message
    | .ok o =>
      let (answer, s) := link.runOnce (o.withSharedVariables shared) s
      let r := match answer with
        | some (.ok data) => (if quiet then r else r.print ("OK " ++ name)).print data.pretty
        | some (.error e) => r.fileErrors name [e.message]
        | none => if quiet then r else r.print ("Done " ++ name ++ " (no result)")
      runFiles files quiet link shared rest s r

/-- Checks the operations of files one after the other. -/
def checkFiles (files : Files) (verbose : Bool) : List String → Report → Report
  | [], r => r
  | name :: rest, r =>
    let r := if verbose then r.print ("Checking " ++ name) else r
    match readJson files Operation.decode name with
    | .error message => r.fail message
    | .ok o =>
      match o.check with
      | [] => checkFiles files verbose rest (if verbose then r.print ("OK " ++ name) else r)
      | e :: errors => checkFiles files verbose rest (r.fileErrors name (e :: errors))

/-- What a run starts from: the store with its seed, the link, and the shared variables. -/
def setUp (files : Files) (seed : String) (config vars : Option String) :
    Except String (Session × Link × Variables) := do
  let seed ← readJson files Decoder.value seed
  let store ← (Store.ofSeed seed).mapError StoreError.message
  let link ← match config with
    | some name => readJson files Link.decode name
    | none => .ok {}
  let shared ← match vars with
    | some name => readJson files Variables.decode name
    | none => .ok []
  return (.ofClient (.ofStore store []), link, shared)

/-- Carries out a command. -/
def Command.report (files : Files) (switches : Switches) : Command → Report
  | .run seed config vars names =>
    match setUp files seed config vars with
    | .error message => ({} : Report).fail message
    | .ok (s, link, shared) => runFiles files switches.quiet link shared names s {}
  | .check names =>
    let r := checkFiles files switches.verbose names {}
    if r.exit = 0 then
      r.print ("Success: " ++ toString names.length ++ " file(s) checked")
    else r

end CommandLine

end LiveDocs
