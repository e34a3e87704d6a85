import ImportAtlas.Settings.Basic
import ImportAtlas.Text.Digits

/-!
# The options of the command line

A command line names a command among options. Some options stand on either side of the name, others
belong to one command and stand after it. An option has a word, and some have a letter as well; it
takes a value or is a flag. Commands take operands too.

## Main definitions

* `CommandName`: the commands
* `ValueKind`: what may be given as a value
* `Opt`, `Opt.usage`: the options, and what each does
* `Level.options`, `Level.operands`: what may stand before and after the name of a command
-/

namespace ImportAtlas.CommandLine

/-- Why a command line runs no command. -/
inductive Stop where
  /-- A value is missing, empty or none of the choices. -/
  | invalidValue
  /-- A value is no number in range. -/
  | badNumber
  | unknownArgument
  /-- An option that may be given once is given twice. -/
  | repeated
  | missingOperand
  | unknownCommand
  /-- A flag is given a value. -/
  | unwantedValue
  /-- There is no command. -/
  | missingCommand
  /-- There is nothing at all. -/
  | nothingGiven
  /-- Help is asked for. -/
  | help
  /-- The version is asked for. -/
  | version
  deriving DecidableEq, Repr

/-- The code with which a program ends instead of running a command. -/
def Stop.exitCode : Stop → Nat
  | .help | .version => 0
  | _ => 2

/-- The names of the commands. -/
inductive CommandName where
  | graph
  | cycles
  | impact
  | report
  | init
  deriving DecidableEq, Repr

namespace CommandName

/-- All names. -/
def all : List CommandName := [graph, cycles, impact, report, init]

/-- The word of a name. -/
def word : CommandName → String
  | graph => "graph"
  | cycles => "cycles"
  | impact => "impact"
  | report => "report"
  | init => "init"

/-- The name of a word. -/
def ofWord? (word : String) : Option CommandName :=
  all.find? (·.word == word)

end CommandName

/-- What may be given as a value. -/
inductive ValueKind where
  /-- A text that is not empty. -/
  | path
  | text
  /-- A whole number of 64 bits. -/
  | count
  /-- One of some words. -/
  | choice (words : List String)
  deriving DecidableEq, Repr

/-- A value is of a kind. -/
def ValueKind.check (kind : ValueKind) (value : String) : Except Stop Unit :=
  match kind with
  | .path => if value.isEmpty then .error .invalidValue else .ok ()
  | .text => .ok ()
  | .count =>
    if (Text.readNatural? Text.maxCount value).isNone then .error .badNumber else .ok ()
  | .choice words => if words.contains value then .ok () else .error .invalidValue

/-- The options. -/
inductive Opt where
  | settingsFile
  | convention
  | external
  | exclude
  | output
  | outputFile
  | noColours
  | quiet
  | verbose
  | noProgress
  | noParallel
  | maxNodes
  | threads
  | failOnCycles
  | maxHops
  | blastRadius
  | path
  | force
  | help
  | version
  deriving DecidableEq, Repr

/-- What an option does. -/
inductive Usage where
  /-- It is given once, without a value. -/
  | flag
  /-- It is given any number of times, without a value. -/
  | tally
  /-- It is given once, with a value. -/
  | one (kind : ValueKind)
  /-- It is given any number of times, with a value each. -/
  | many (kind : ValueKind)
  /-- It ends the reading. -/
  | ends (stop : Stop)
  deriving DecidableEq, Repr

namespace Opt

/-- The word of an option, which stands after two dashes. -/
def word : Opt → String
  | settingsFile => "config"
  | convention => "convention"
  | external => "external"
  | exclude => "exclude"
  | output => "output"
  | outputFile => "output-file"
  | noColours => "no-colors"
  | quiet => "quiet"
  | verbose => "verbose"
  | noProgress => "no-progress"
  | noParallel => "no-parallel"
  | maxNodes => "max-nodes"
  | threads => "threads"
  | failOnCycles => "fail-on-cycles"
  | maxHops => "max-hops"
  | blastRadius => "blast-radius"
  | path => "path"
  | force => "force"
  | help => "help"
  | version => "version"

/-- The letter of an option, which stands after one dash. -/
def letter? : Opt → Option Char
  | settingsFile => some 'c'
  | exclude => some 'e'
  | output => some 'o'
  | quiet => some 'q'
  | verbose => some 'v'
  | help => some 'h'
  | version => some 'V'
  | _ => none

/-- What an option does. -/
def usage : Opt → Usage
  | settingsFile | outputFile | path => .one .path
  | convention => .one (.choice (Convention.all.map Convention.name))
  | output => .one (.choice (OutputFormat.all.map OutputFormat.name))
  | maxNodes | threads | maxHops => .one .count
  | external | exclude => .many .text
  | verbose => .tally
  | noColours | quiet | noProgress | noParallel | failOnCycles | blastRadius | force => .flag
  | help => .ends .help
  | version => .ends .version

/-- Whether an option takes a value. -/
def takesValue (opt : Opt) : Bool :=
  match opt.usage with
  | .one _ | .many _ => true
  | _ => false

/-- The options that stand on either side of the name of a command. -/
def shared : List Opt :=
  [settingsFile, convention, external, exclude, output, outputFile, noColours, quiet, verbose,
    noProgress, noParallel, maxNodes, threads, help]

end Opt

/-- A side of the name of a command: before it, or after the name. -/
inductive Level where
  | top
  | command (name : CommandName)
  deriving DecidableEq, Repr

namespace Level

/-- The options that may stand on a side. -/
def options : Level → List Opt
  | top => Opt.shared ++ [.version]
  | command .graph => Opt.shared
  | command .cycles => Opt.shared ++ [.failOnCycles]
  | command .impact => Opt.shared ++ [.maxHops]
  | command .report => Opt.shared ++ [.blastRadius]
  | command .init => Opt.shared ++ [.path, .force]

/-- The operands that have to stand on a side. -/
def operands : Level → List ValueKind
  | top | command .init => []
  | command .graph | command .cycles | command .report => [.path]
  | command .impact => [.path, .text]

/-- The option of a word. -/
def optionOfWord? (level : Level) (word : String) : Option Opt :=
  level.options.find? (·.word == word)

/-- The option of a letter. -/
def optionOfLetter? (level : Level) (letter : Char) : Option Opt :=
  level.options.find? (·.letter? == some letter)

end Level

end ImportAtlas.CommandLine
