import ImportAtlas.Codec.Settings
import ImportAtlas.Settings.Check
import ImportAtlas.Settings.Environment
import ImportAtlas.Toml.Reading

/-!
# Sources of settings

Layers of settings come from files, from environment variables and from the command line. A source
is available if there is anything to read, and its layer is then put over what came before.

## Main definitions

* `Surroundings`: the files and the variables that sources read
* `Layer.ofToml`, `Layer.ofFile`: the layer of a settings file
* `Origin`, `Source`: the sources
* `Source.isAvailable`, `Source.load`: reading a source
* `Layer.withSource`, `Layer.withSourceIfSound`, `Layer.withFile`, `Layer.withStandardFile`: a layer
  with a source over it
-/

namespace ImportAtlas

/-- What a program finds where it runs. -/
structure Surroundings where
  files : FileTree := {}
  /-- The environment variables that are set. -/
  environment : Dictionary String := .empty
  deriving DecidableEq

/-! ## Files -/

namespace Layer

/-- The layer in the text of a settings file at `path`, checked. -/
def ofToml (path text : String) : Except Error Layer := do
  let layer ← (Toml.read Layer.codec text).mapError (Error.settingsDocument path)
  layer.check.mapError (Defect.toError path)
  return layer

/-- The layer in the settings file at `path`, which is there. -/
def ofFile (files : FileTree) (path : String) : Except Error Layer := do
  if !files.exists? path then throw (.settingsNotFound path)
  let text ← (files.read path).mapError (Error.settingsRead path)
  ofToml path text

end Layer

/-- The name of a settings file. -/
def settingsFileName : String := ".depscope.toml"

/-- The common stem of the environment variables. -/
def variableStem : String := "DEPSCOPE"

/-- The user's own directory. -/
def Surroundings.home? (around : Surroundings) : Option String :=
  (around.environment.get? "HOME").filter (!·.isEmpty)

/-- The directory of the user's settings: a rooted route that is named as such, or else a
directory of the user's own. -/
def Surroundings.settingsHome? (around : Surroundings) : Option String :=
  ((around.environment.get? "XDG_CONFIG_HOME").filter Route.isRooted).or
    (around.home?.map (Route.join · ".config"))

/-- Where a settings file is looked for, in this order: in the working directory, in the user's own
directory and among the user's settings. -/
def Surroundings.standardPlaces (around : Surroundings) : List String :=
  [some settingsFileName,
    around.home?.map (Route.join · settingsFileName),
    around.settingsHome?.map fun dir => Route.join (Route.join dir "depscope") "config.toml"
    ].filterMap id

/-! ## Sources -/

/-- Where a layer of settings comes from. -/
inductive Origin where
  /-- The settings file in the working directory. -/
  | standardFile
  | file (path : String)
  /-- The environment variables of a stem. -/
  | environment (stem : String)
  | commandLine (layer : Layer)
  deriving DecidableEq

namespace Origin

/-- The name of an origin. -/
def name : Origin → String
  | standardFile => "default config file"
  | file path => "config file (" ++ path ++ ")"
  | environment stem => stem ++ " environment variables"
  | commandLine _ => "command-line arguments"

/-- How much an origin usually counts; the larger number is put on top. -/
def priority : Origin → Nat
  | standardFile | file _ => 10
  | environment _ => 20
  | commandLine _ => 30

end Origin

/-- A source of settings. -/
structure Source where
  origin : Origin
  priority : Nat := origin.priority
  deriving DecidableEq

namespace Source

/-- The name of a source. -/
def name (source : Source) : String := source.origin.name

/-- Whether there is anything to read. -/
def isAvailable (around : Surroundings) (source : Source) : Bool :=
  match source.origin with
  | .standardFile => around.files.isFile settingsFileName
  | .file path => around.files.isFile path
  | .environment stem => hasVariables stem around.environment.get?
  | .commandLine _ => true

/-- The layer in the file at `path`, if it is a file. -/
def loadFile (files : FileTree) (path : String) : Except Error Layer :=
  if files.isFile path then Layer.ofFile files path else .error (.settingsNotFound path)

/-- The layer of a source. -/
def load (around : Surroundings) (source : Source) : Except Error Layer :=
  match source.origin with
  | .standardFile => loadFile around.files settingsFileName
  | .file path => loadFile around.files path
  | .environment stem =>
    (Layer.ofEnvironment stem around.environment.get?).mapError BadValue.toError
  | .commandLine layer => .ok layer

end Source

/-! ## Layers over layers -/

namespace Layer

variable (base : Layer) (around : Surroundings)

/-- The layer with that of a source over it; a source that is not available changes nothing. -/
def withSource (source : Source) : Except Error Layer :=
  if source.isAvailable around then (·.orElse base) <$> source.load around else .ok base

/-- The layer with that of a source over it; a source that is not available or cannot be read
changes nothing. -/
def withSourceIfSound (source : Source) : Layer :=
  (base.withSource around source).toOption.getD base

/-- The layer with that of a settings file over it, which has to be there. -/
def withFile (path : String) : Except Error Layer :=
  if around.files.isFile path then base.withSource around { origin := .file path }
  else .error (.settingsNotFound path)

/-- The layer with that of the first settings file in a standard place over it, if there is one. -/
def withStandardFile : Except Error Layer :=
  match around.standardPlaces.find? around.files.isFile with
  | none => .ok base
  | some path => (·.orElse base) <$> ofFile around.files path

/-- The settings that a layer gives, checked. -/
def build (files : FileTree) : Except Error Settings := do
  let settings := base.toSettings
  (settings.check files).mapError Settings.Defect.toError
  return settings

end Layer

/-- The settings of a run: those of the command line over the environment over a settings file, the
one that is named or the first in a standard place, over the defaults. -/
def Settings.load (around : Surroundings) (path : Option String) (commandLine : Layer) :
    Except Error Settings := do
  let layer ← match path with
    | some path => Layer.empty.withFile around path
    | none => Layer.empty.withStandardFile around
  let layer ← layer.withSource around { origin := .environment variableStem }
  let layer ← layer.withSource around { origin := .commandLine commandLine }
  layer.build around.files

end ImportAtlas
