import ImportAtlas.Analysis.Run
import ImportAtlas.CommandLine.Invocation
import ImportAtlas.Render.Renderer
import ImportAtlas.Repository.Reading
import ImportAtlas.Settings.Template

/-!
# Executing commands

A command reads a repository description, works out one outcome and writes its text, to the output
file or to the standard output. Nothing is written before the whole text is there, so a command
that fails on the way leaves all files as they are. The command that makes a settings file reads
no settings.

## Main definitions

* `Ending`: the files, the printed texts and the result after a command
* `Command.outcome`: the text of a command's outcome, with the exit code
* `Command.runWith`: a command with given settings
* `Invocation.run`: a command with the settings of the surroundings
* `Invocation.finish`: the same, errors being printed
* `Invocation.routes`: the routes that a command looks at
-/

namespace ImportAtlas

/-- How a command ends. -/
structure Ending where
  files : FileTree
  /-- What was printed on the standard output. -/
  output : String := ""
  /-- What was printed beside it. -/
  notices : String := ""
  /-- The exit code, unless the command failed. -/
  result : Except Error Nat

/-- The machine that commands run on. -/
structure Machine where
  processors : Nat := 1
  /-- The time of the run. -/
  now : Instant

/-! ## Outcomes -/

/-- The repository description in a file. -/
def Repository.load (files : FileTree) (path : String) : Except Error Repository := do
  let text ← (files.read path).mapError fun fault => .fileRead path fault.message
  Repository.read path text

/-- The renderer that settings ask for. -/
def Settings.renderer (settings : Settings) : Renderer where
  format := settings.outputFormat
  colours := settings.useColors
  verbose := settings.verbose
  quiet := settings.quiet

/-- The graph of the repository description in a file. -/
def Graph.load (settings : Settings) (files : FileTree) (path : String) : Except Error Graph := do
  Graph.build settings.buildOptions none (← Repository.load files path)

/-- The exit code of a search for cycles: one if there are cycles and this is to fail. -/
def cyclesExitCode (failOnCycles : Bool) (cycles : List (List String)) : Nat :=
  if failOnCycles && !cycles.isEmpty then 1 else 0

/-- The text of a command's outcome, with the exit code. The command that makes a settings file has
none. -/
def Command.outcome (settings : Settings) (files : FileTree) (machine : Machine) :
    Command → Except Error (String × Nat)
  | .graph path => do
    let graph ← Graph.load settings files path
    let text ← settings.renderer.graph graph
    return (text, 0)
  | .cycles path failOnCycles => do
    let graph ← Graph.load settings files path
    let cycles ← graph.cycles
    let text ← settings.renderer.cycles cycles
    return (text, cyclesExitCode failOnCycles cycles)
  | .impact path target maxHops => do
    let graph ← Graph.load settings files path
    let index ← ReverseIndex.create graph
    let impact ← match maxHops with
      | some limit => index.impactWithin target limit
      | none => index.impactOf target
    let text ← settings.renderer.impact impact
    return (text, 0)
  | .report path blastRadius => do
    let repository ← Repository.load files path
    let analysis ← analyze settings none blastRadius machine.processors machine.now repository
    let text ← settings.renderer.report analysis.report
    return (text, 0)
  | .init _ _ => return ("", 0)

/-! ## Writing -/

/-- The text with a line feed at its end, unless it is empty or has one. -/
def endLine (text : String) : String :=
  if text.isEmpty || text.toList.getLast? == some '\n' then text else text ++ "\n"

/-- The ending of a command that wrote a text, to the output file if there is one. -/
def Ending.ofText (files : FileTree) (outputFile : Option String) (text : String) (code : Nat) :
    Ending :=
  match outputFile with
  | none => { files, output := endLine text, result := .ok code }
  | some path =>
    match files.write path (endLine text) with
    | .ok files => { files, result := .ok code }
    | .error fault => { files, result := .error (.outputWrite path fault) }

/-- The ending of the command that makes a settings file. The directories around the file are made
first, and stay even if the file cannot be written. -/
def Ending.ofInit (files : FileTree) (path : String) (force : Bool) : Ending :=
  if files.exists? path && !force then
    { files
      notices := "Configuration file already exists at: " ++ path ++
        "\nUse --force to overwrite it.\n"
      result := .ok 0 }
  else
    let ready : Except FileFault FileTree := match Route.enclosing? path with
      | none => .ok files
      | some dir =>
        if dir.isEmpty || files.exists? dir then .ok files else files.createDirectories dir
    match ready with
    | .error fault => { files, result := .error (.files fault) }
    | .ok files =>
      match files.write path Template.text with
      | .error fault => { files, result := .error (.outputWrite path fault) }
      | .ok files =>
        { files
          notices := "Created default configuration file at: " ++ path ++
            "\nEvery setting is commented out; uncomment the ones you want to change.\n"
          result := .ok 0 }

/-! ## Running -/

/-- A command with given settings. -/
def Command.runWith (settings : Settings) (files : FileTree) (machine : Machine)
    (command : Command) : Ending :=
  match command with
  | .init path force => .ofInit files path force
  | command =>
    match command.outcome settings files machine with
    | .error error => { files, result := .error error }
    | .ok (text, code) => .ofText files settings.outputFile text code

/-- The operands of a command can be what they should be. -/
def Command.check (files : FileTree) (command : Command) : Except Error Unit := do
  match command.repository? with
  | none => pure ()
  | some path =>
    if !files.isFile path then throw (.fileRead path "repository description not found")
  match command with
  | .impact _ target _ =>
    if Text.isBlankText target then throw (.validation "impact target is empty" [])
  | _ => pure ()

/-- A command with the settings of the surroundings. -/
def Invocation.run (invocation : Invocation) (around : Surroundings) (machine : Machine) :
    Ending :=
  match invocation.command with
  | .init path force => .ofInit around.files path force
  | command =>
    let settings := do
      command.check around.files
      Settings.load around invocation.arguments.settingsFile invocation.arguments.toLayer
    match settings with
    | .error error => { files := around.files, result := .error error }
    | .ok settings => command.runWith settings around.files machine

/-- A whole run: the ending with the report on an error printed, and the exit code. -/
def Invocation.finish (invocation : Invocation) (around : Surroundings) (machine : Machine)
    (describe : Codec.ReadError → String) : Ending × Nat :=
  let ending := invocation.run around machine
  match ending.result with
  | .ok code => (ending, code)
  | .error error =>
    ({ ending with notices := ending.notices ++ error.report describe },
      error.severity.exitCode)

/-- The routes that a command looks at: the files it reads and the one it writes. -/
def Invocation.routes (invocation : Invocation) (around : Surroundings) : List String :=
  match invocation.command with
  | .init path _ => [path]
  | command =>
    let settingsFiles := match invocation.arguments.settingsFile with
      | some path => [path]
      | none => around.standardPlaces
    let settings :=
      Settings.load around invocation.arguments.settingsFile invocation.arguments.toLayer
    let outputFile := match settings with
      | .ok settings => settings.outputFile
      | .error (.outputWrite path _) => some path
      | .error _ => none
    command.repository?.toList ++ settingsFiles ++ outputFile.toList

end ImportAtlas
