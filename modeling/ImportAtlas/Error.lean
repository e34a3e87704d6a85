import ImportAtlas.Codec.ReadError
import ImportAtlas.Glob.Pattern
import ImportAtlas.Text.Split

/-!
# Errors

Everything that can go wrong, by cause. Three causes come from the analysis itself: an invalid
repository description, a malformed graph, and a question about a file that does not exist. The
others come from what surrounds it: documents, settings, files and patterns. The wording of every
error is in this module only.

## Main definitions

* `FileFault`: why a file cannot be read or written
* `Error`: all errors
* `Error.message`, `Error.advice`, `Error.suggestion?`: an error in words
* `Error.kind`, `Error.severity`, `Error.paths`: the facts that go with the words
-/

namespace ImportAtlas

/-- Why a file cannot be read or written. -/
inductive FileFault where
  | notFound
  | isDirectory
  | notDirectory
  | alreadyExists
  | nameTooLong
  /-- A name has a character that no name has. -/
  | badName
  /-- The bytes are no UTF-8 text. -/
  | notText
  /-- The directory that should hold the file does not exist. -/
  | noDirectory (dir : String)
  /-- Anything else, in words. -/
  | other (words : String)
  deriving DecidableEq, Repr

/-- A file fault in words. -/
def FileFault.message : FileFault → String
  | .notFound => "No such file or directory (os error 2)"
  | .isDirectory => "Is a directory (os error 21)"
  | .notDirectory => "Not a directory (os error 20)"
  | .alreadyExists => "File exists (os error 17)"
  | .nameTooLong => "File name too long (os error 36)"
  | .badName => "file name contained an unexpected NUL byte"
  | .notText => "stream did not contain valid UTF-8"
  | .noDirectory dir => "directory " ++ dir ++ " does not exist"
  | .other words => words

/-- How bad an error is. -/
inductive Severity where
  | warning
  | error
  | critical
  deriving DecidableEq, Repr

/-- The name of a severity. -/
def Severity.name : Severity → String
  | .warning => "WARNING"
  | .error => "ERROR"
  | .critical => "CRITICAL"

/-- The code with which a program ends after an error of this severity. -/
def Severity.exitCode : Severity → Nat
  | .warning => 0
  | .error => 1
  | .critical => 2

/-- Everything that can go wrong. -/
inductive Error where
  /-- The repository description is malformed or ambiguous. -/
  | validation (message : String) (paths : List String)
  /-- A graph breaks the rules of its structure at an edge. -/
  | malformedGraph (source target message : String)
  /-- A question names a file that the graph does not have. -/
  | unknownNode (path : String)
  /-- The repository has more files than the settings allow. -/
  | nodeLimit (count limit : Nat)
  /-- A step on the file system failed. -/
  | files (fault : FileFault)
  /-- A file that is needed cannot be read. -/
  | fileRead (path message : String)
  /-- A repository description is no document of the right kind. -/
  | document (path : String) (error : Codec.ReadError)
  /-- The settings contradict themselves. -/
  | settings (message : String)
  /-- There is no settings file where one was named. -/
  | settingsNotFound (path : String)
  /-- A settings file cannot be read. -/
  | settingsRead (path : String) (fault : FileFault)
  /-- A settings file is no document of the right kind. -/
  | settingsDocument (path : String) (error : Codec.ReadError)
  /-- A text is no glob pattern. -/
  | glob (fault : Glob.Fault)
  /-- Comma-separated values cannot be written. -/
  | csv (fault : FileFault)
  /-- The output file cannot be written. -/
  | outputWrite (path : String) (fault : FileFault)
  /-- The standard output cannot be written. -/
  | stdoutWrite (fault : FileFault)
  /-- Work could not be spread over threads. -/
  | parallel (message : String)
  deriving DecidableEq, Repr

namespace Error

/-- The stable name of the kind of an error. -/
def kind : Error → String
  | validation .. => "ValidationError"
  | malformedGraph .. => "MalformedGraphError"
  | unknownNode .. => "UnknownNodeError"
  | nodeLimit .. => "NodeLimitExceeded"
  | files .. | fileRead .. => "IoError"
  | document .. => "JsonError"
  | settings .. | settingsNotFound .. | settingsRead .. | settingsDocument .. => "ConfigError"
  | glob .. => "GlobPatternError"
  | csv .. => "CsvError"
  | outputWrite .. | stdoutWrite .. => "OutputError"
  | parallel .. => "ParallelExecutionError"

/-- How bad an error is: nothing can go on without settings or without an output. -/
def severity : Error → Severity
  | settings .. | settingsNotFound .. | settingsRead .. | settingsDocument .. | stdoutWrite .. =>
    .critical
  | _ => .error

/-- Whether the program has to end. -/
def isCritical (error : Error) : Bool :=
  error.severity == .critical

/-- The paths that an error is about. -/
def paths : Error → List String
  | validation _ paths => paths
  | malformedGraph source target _ => [source, target]
  | unknownNode path | document path _ | settingsNotFound path | settingsRead path _
  | settingsDocument path _ | outputWrite path _ | fileRead path _ => [path]
  | _ => []

/-- An error in one line, with `describe` giving the words for what is wrong with a document. -/
def messageWith (describe : Codec.ReadError → String) : Error → String
  | validation message _ => "Validation error: " ++ message
  | malformedGraph source target message =>
    "Malformed graph: edge " ++ source ++ " -> " ++ target ++ ": " ++ message
  | unknownNode path => "Unknown node: " ++ path
  | nodeLimit count limit =>
    "Node limit exceeded: " ++ toString count ++ " files, limit is " ++ toString limit
  | files fault => "IO error: " ++ fault.message
  | fileRead path message => "Error reading " ++ path ++ ": " ++ message
  | document path error => "JSON parsing error in " ++ path ++ ": " ++ describe error
  | settings message => "Configuration error: " ++ message
  | settingsNotFound path => "Configuration file not found at " ++ path
  | settingsRead path fault =>
    "Error reading configuration file " ++ path ++ ": " ++ fault.message
  | settingsDocument path error =>
    "Error parsing configuration file " ++ path ++ ": " ++ describe error
  | glob fault => "Glob pattern error: " ++ fault.message
  | csv fault => "CSV error: " ++ fault.message
  | outputWrite path fault => "Error writing to output file " ++ path ++ ": " ++ fault.message
  | stdoutWrite fault => "Error writing to stdout: " ++ fault.message
  | parallel message => "Parallel execution error: " ++ message

/-- An error in one line. -/
def message (error : Error) : String :=
  error.messageWith Codec.ReadError.message

/-- An error as a sentence for the reader, with `describe` giving the words for what is wrong with
a document. -/
def adviceWith (describe : Codec.ReadError → String) : Error → String
  | validation message _ => "The repository description is invalid: " ++ message ++ "."
  | malformedGraph source target message =>
    "The dependency graph is malformed: edge '" ++ source ++ "' -> '" ++ target ++ "' " ++
      message ++ "."
  | unknownNode path => "'" ++ path ++ "' is not a file in this repository."
  | nodeLimit count limit =>
    "The repository has " ++ toString count ++ " files but analysis is limited to " ++
      toString limit ++ "."
  | document path error =>
    "Invalid JSON in '" ++ path ++ "': " ++ describe error ++ ". Please check the file format."
  | files fault =>
    "File system error: " ++ fault.message ++ ". Check disk space and permissions."
  | settingsNotFound path =>
    "Configuration file not found at '" ++ path ++
      "'. Create a config file or use command line options."
  | error => error.messageWith describe

/-- An error as a sentence for the reader. -/
def advice (error : Error) : String :=
  error.adviceWith Codec.ReadError.message

/-- What may help, where something obvious does. -/
def suggestion? : Error → Option String
  | validation .. => some "Ensure every file path is unique and line ranges are well-formed"
  | unknownNode .. => some "Use a path exactly as it appears in the repository's file list"
  | nodeLimit .. => some "Raise the limit with --max-nodes or exclude files with exclude_patterns"
  | settingsNotFound .. =>
    some ("Create a .depscope.toml file with `depscope init` or specify a config file with " ++
      "--config")
  | outputWrite .. => some "Create the output directory first or specify a different path"
  | _ => none

/-- A file fault as an error of the settings, with what was being done. -/
def inContext (context : String) (words : String) : Error :=
  settings (context ++ ": " ++ words)

/-- What is printed about an error before the program ends with its exit code: the sentence, the
paths, what may help, and why the program ends. -/
def report (describe : Codec.ReadError → String) (error : Error) : String :=
  "\nError [" ++ error.kind ++ "]: " ++ error.adviceWith describe ++ "\n" ++
    (if error.paths.isEmpty then "" else "Paths: " ++ Text.joinWith ", " error.paths ++ "\n") ++
    (match error.suggestion? with
      | none => ""
      | some suggestion => "Suggestion: " ++ suggestion ++ "\n") ++
    (if error.severity.exitCode = 0 then ""
      else "\nExiting with code " ++ toString error.severity.exitCode ++ " due to " ++
        error.severity.name ++ "\n")

end Error

end ImportAtlas
