import ImportAtlas.CommandLine.Options
import ImportAtlas.Text.Blank
import ImportAtlas.Text.Split

/-!
# Help on the command line

## Main definitions

* `CommandLine.versionText`: what is printed when the version is asked for
* `CommandLine.helpText`: what is printed when help is asked for
* `Stop.message`: why a command line runs no command, in words
-/

namespace ImportAtlas.CommandLine

/-- What is printed when the version is asked for. -/
def versionText : String := "depscope 0.1.0\n"

/-- The purpose of the program. -/
def purpose : String :=
  "Build file-level dependency graphs, find import cycles and measure change impact"

/-- What stands for a value of a kind. -/
def ValueKind.placeHolder : ValueKind → String
  | .path => "FILE"
  | .text => "TEXT"
  | .count => "COUNT"
  | .choice words => Text.joinWith "|" words

/-- An option as it is written. -/
def Opt.shown (opt : Opt) : String :=
  let letter := match opt.letter? with
    | some c => "-" ++ c.toString ++ ", "
    | none => "    "
  let value := match opt.usage with
    | .one kind | .many kind => " <" ++ kind.placeHolder ++ ">"
    | _ => ""
  letter ++ "--" ++ opt.word ++ value

/-- A command as it is written, with its operands and its own options. -/
def CommandName.shown (name : CommandName) : String :=
  let operands := (Level.command name).operands.map fun kind => " <" ++ kind.placeHolder ++ ">"
  let own := (Level.command name).options.drop Opt.shared.length
  name.word ++ String.join operands ++
    String.join (own.map fun opt => " [" ++ Text.trim opt.shown ++ "]")

/-- What is printed when help is asked for. -/
def helpText : String :=
  purpose ++ "\n\nUsage: depscope [OPTIONS] <COMMAND>\n\nCommands:\n" ++
    String.join (CommandName.all.map fun name => "  " ++ name.shown ++ "\n") ++
    "\nOptions:\n" ++
    String.join (Level.top.options.map fun opt => "  " ++ opt.shown ++ "\n")

/-- Why a command line runs no command, in words. -/
def Stop.message : Stop → String
  | .invalidValue => "a value is missing or is none of the possible values"
  | .badNumber => "a value is no number in range"
  | .unknownArgument => "unexpected argument"
  | .repeated => "an option that may be given once is given twice"
  | .missingOperand => "a required argument is missing"
  | .unknownCommand => "unrecognized command"
  | .unwantedValue => "a flag takes no value"
  | .missingCommand | .nothingGiven => "a command is required"
  | .help => "help is asked for"
  | .version => "the version is asked for"

/-- What is printed instead of running a command: on the standard output, and beside it. -/
def Stop.printed : Stop → String × String
  | .help => (helpText, "")
  | .version => (versionText, "")
  | .nothingGiven => ("", helpText)
  | stop => ("", "error: " ++ stop.message ++ "\n\nFor more information, try '--help'.\n")

end ImportAtlas.CommandLine
