import ImportAtlas.Error
import ImportAtlas.Settings.Basic
import ImportAtlas.Text.Blank
import ImportAtlas.Text.Digits
import ImportAtlas.Text.Split

/-!
# Settings in environment variables

Twelve of the settings can be given by environment variables. The name of each is a stem common to
all of them, an underscore and the key of the setting. Lists are written with commas, and blanks at
the ends of a value or of an item do not count.

## Main definitions

* `Variable`: the variables, with their keys
* `Layer.ofEnvironment`: the layer that variables give
-/

namespace ImportAtlas

/-- The settings that can be given by environment variables. -/
inductive Variable where
  | convention
  | extensions
  | sourceRoots
  | externalModules
  | dynamicPatterns
  | exclude
  | maxNodes
  | outputFormat
  | outputFile
  | parallel
  | threads
  | noColor
  deriving DecidableEq, Repr

namespace Variable

/-- All variables, in the order in which they are read. -/
def all : List Variable :=
  [convention, extensions, sourceRoots, externalModules, dynamicPatterns, exclude, maxNodes,
    outputFormat, outputFile, parallel, threads, noColor]

/-- The key of a variable. -/
def key : Variable → String
  | convention => "CONVENTION"
  | extensions => "EXTENSIONS"
  | sourceRoots => "SOURCE_ROOTS"
  | externalModules => "EXTERNAL_MODULES"
  | dynamicPatterns => "DYNAMIC_PATTERNS"
  | exclude => "EXCLUDE"
  | maxNodes => "MAX_NODES"
  | outputFormat => "OUTPUT_FORMAT"
  | outputFile => "OUTPUT_FILE"
  | parallel => "PARALLEL"
  | threads => "THREADS"
  | noColor => "NO_COLOR"

/-- The name of a variable. -/
def name (stem : String) (setting : Variable) : String := stem ++ "_" ++ setting.key

end Variable

/-! ## Values -/

/-- The items of a list with commas, without the blanks around them. -/
def commaItems (value : String) : List String :=
  (Text.splitAtChar ',' value).map Text.trim

/-- The items of a list with commas that are not empty. -/
def commaList (value : String) : List String :=
  (commaItems value).filter (!·.isEmpty)

/-- The truth value of a word in any letter case. -/
def truthOfWord? (word : String) : Option Bool :=
  let folded := Text.fold word
  if ["1", "true", "yes", "on"].contains folded then some true
  else if ["0", "false", "no", "off"].contains folded then some false
  else none

/-- A value that cannot be read. -/
structure BadValue where
  value : String
  variableName : String
  deriving DecidableEq, Repr

/-- A value that cannot be read, as an error. -/
def BadValue.toError (bad : BadValue) : Error :=
  .settings ("invalid value '" ++ bad.value ++ "' for " ++ bad.variableName)

/-- The value of a variable as `read` takes it without the blanks at its ends; nothing if the
variable is not set. -/
def readVariable {α : Type} (stem : String) (lookup : String → Option String)
    (setting : Variable) (read : String → Option α) : Except BadValue (Option α) :=
  match lookup (setting.name stem) with
  | none => .ok none
  | some value =>
    match read (Text.trim value) with
    | some result => .ok (some result)
    | none => .error ⟨value, setting.name stem⟩

/-- The layer that the variables of a stem give, `lookup` being the value of each name that is
set. The first value that cannot be read is reported. -/
def Layer.ofEnvironment (stem : String) (lookup : String → Option String) :
    Except BadValue Layer := do
  let value (setting : Variable) := lookup (setting.name stem)
  let convention ← readVariable stem lookup .convention Convention.ofWord?
  let maxNodes ← readVariable stem lookup .maxNodes (Text.readNatural? Text.maxCount)
  let outputFormat ← readVariable stem lookup .outputFormat OutputFormat.ofWord?
  let parallel ← readVariable stem lookup .parallel truthOfWord?
  let threads ← readVariable stem lookup .threads (Text.readNatural? Text.maxCount)
  return { convention
           extensions := (value .extensions).map commaList
           sourceRoots := (value .sourceRoots).map commaItems
           externalModules := (value .externalModules).map commaList
           dynamicPatterns := (value .dynamicPatterns).map commaList
           excludePatterns := (value .exclude).map commaList
           maxNodes
           outputFormat
           outputFile := value .outputFile
           parallel
           threads
           useColors := (value .noColor).map fun _ => false }

/-- Whether a variable of a stem is set. -/
def hasVariables (stem : String) (lookup : String → Option String) : Bool :=
  Variable.all.any fun setting => (lookup (setting.name stem)).isSome

end ImportAtlas
