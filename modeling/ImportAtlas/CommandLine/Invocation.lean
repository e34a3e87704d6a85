import ImportAtlas.CommandLine.Arguments
import ImportAtlas.CommandLine.Reading
import ImportAtlas.Settings.Source

/-!
# Invocations

What a command line asks for: a command with its operands, and options for the settings.

## Main definitions

* `Command`: the commands with their operands
* `Invocation`: a command with options for the settings
* `Invocation.ofArguments`: what a command line asks for
-/

namespace ImportAtlas

/-- What can be done. -/
inductive Command where
  /-- Writes the graph of a repository. -/
  | graph (repository : String)
  /-- Writes the cycles of a repository, and fails if there are any and this is asked for. -/
  | cycles (repository : String) (failOnCycles : Bool)
  /-- Writes which files depend on one, up to a number of steps. -/
  | impact (repository target : String) (maxHops : Option Nat)
  /-- Writes a report on a repository, with a ranking of its files if asked for. -/
  | report (repository : String) (blastRadius : Bool)
  /-- Makes a settings file to start from, in place of one that is there if forced. -/
  | init (path : String) (force : Bool)
  deriving DecidableEq, Repr

/-- The repository description that a command reads. -/
def Command.repository? : Command → Option String
  | graph repository | cycles repository _ | impact repository _ _ | report repository _ =>
    some repository
  | init _ _ => none

/-- A command with options for the settings. -/
structure Invocation where
  command : Command
  arguments : Arguments := {}
  deriving DecidableEq

namespace CommandLine

variable (line : Read)

/-- The value of an option that is given once. -/
def Read.value? (opt : Opt) : Option String := (line.values opt).getLast?

/-- The number that an option gives. -/
def Read.count? (opt : Opt) : Option Nat :=
  (line.value? opt).bind (Text.readNatural? Text.maxCount)

/-- The values of an option, if there are any. -/
def Read.list? (opt : Opt) : Option (List String) :=
  if (line.values opt).isEmpty then none else some (line.values opt)

/-- The largest number of times that is counted. -/
def maxTally : Nat := 255

/-- The options for the settings. -/
def Read.arguments : Arguments where
  convention := (line.value? .convention).bind fun word => Convention.all.find? (·.name == word)
  external := line.list? .external
  exclude := line.list? .exclude
  maxNodes := line.count? .maxNodes
  outputFormat := (line.value? .output).bind fun word => OutputFormat.all.find? (·.name == word)
  outputFile := line.value? .outputFile
  noParallel := line.has .noParallel
  threads := line.count? .threads
  quiet := line.has .quiet
  verbosity := min maxTally (line.values .verbose).length
  noColours := line.has .noColours
  noProgress := line.has .noProgress
  settingsFile := line.value? .settingsFile

/-- The operand of a place. -/
def Read.operand (place : Nat) : String := line.command.operands.getD place ""

/-- The command with its operands. -/
def Read.toCommand : Command :=
  match line.name with
  | .graph => .graph (line.operand 0)
  | .cycles => .cycles (line.operand 0) (line.has .failOnCycles)
  | .impact => .impact (line.operand 0) (line.operand 1) (line.count? .maxHops)
  | .report => .report (line.operand 0) (line.has .blastRadius)
  | .init => .init ((line.value? .path).getD settingsFileName) (line.has .force)

end CommandLine

/-- What a command line asks for, the name of the program left out. -/
def Invocation.ofArguments (args : List String) : Except CommandLine.Stop Invocation := do
  let line ← CommandLine.read args
  return { command := line.toCommand, arguments := line.arguments }

end ImportAtlas
