import ImportAtlas.Error
import ImportAtlas.Files.Tree
import ImportAtlas.Settings.Basic

/-!
# Checking settings

A layer from a settings file is checked on its own, so that the file can be named; whatever layers
were put together, the settings that they give are checked once more. Each check stops at the first
defect.

## Main definitions

* `Layer.Defect`, `Layer.check`: what may be wrong with a layer from a file
* `Settings.Defect`, `Settings.check`: what may be wrong with settings
-/

namespace ImportAtlas

/-! ## Layers from files -/

/-- The two lists of globs among the settings. -/
inductive PatternList where
  | excluded
  | dynamic
  deriving DecidableEq, Repr

/-- The key of a list of globs. -/
def PatternList.key : PatternList → String
  | .excluded => "exclude_patterns"
  | .dynamic => "dynamic_patterns"

namespace Layer

/-- What may be wrong with a layer from a file. -/
inductive Defect where
  | emptyPattern (list : PatternList)
  | badPattern (list : PatternList) (pattern : String) (fault : Glob.Fault)
  /-- An extension without its dot. -/
  | extension (word : String)
  | noNodes
  | noThreads
  | emptyOutputFile
  deriving DecidableEq, Repr

/-- A defect of a layer from the file at `path`, in words. -/
def Defect.message (path : String) : Defect → String
  | .emptyPattern list => "Empty pattern in " ++ list.key ++ " in config file: " ++ path
  | .badPattern list pattern fault =>
    "Invalid pattern '" ++ pattern ++ "' in " ++ list.key ++ " in config file: " ++ path ++ ": " ++
      fault.message
  | .extension word =>
    "Extension '" ++ word ++ "' in config file " ++ path ++ " must start with '.'"
  | .noNodes => "Invalid max_nodes 0 in config file: " ++ path ++ ". Must be at least 1."
  | .noThreads => "Invalid threads 0 in config file: " ++ path ++ ". Must be at least 1."
  | .emptyOutputFile => "Invalid empty output_file in config file: " ++ path

/-- A defect of a layer from the file at `path`, as an error. -/
def Defect.toError (path : String) (defect : Defect) : Error :=
  .settings (defect.message path)

/-- Each pattern of a list is one, and none is empty. -/
def checkPatterns (list : PatternList) : List String → Except Defect Unit
  | [] => .ok ()
  | pattern :: patterns =>
    if pattern.isEmpty then .error (.emptyPattern list)
    else
      match Glob.compile pattern with
      | .error fault => .error (.badPattern list pattern fault)
      | .ok _ => checkPatterns list patterns

/-- Whether an extension starts with a dot. -/
def isExtension (word : String) : Bool := word.toList.head? == some '.'

/-- The first defect of a layer, if it has one. -/
def check (layer : Layer) : Except Defect Unit := do
  checkPatterns .excluded (layer.excludePatterns.getD [])
  checkPatterns .dynamic (layer.dynamicPatterns.getD [])
  match (layer.extensions.getD []).find? (!isExtension ·) with
  | some word => throw (.extension word)
  | none => pure ()
  if layer.maxNodes = some 0 then throw .noNodes
  if layer.threads = some 0 then throw .noThreads
  if layer.outputFile = some "" then throw .emptyOutputFile

end Layer

/-! ## Settings -/

namespace Settings

/-- What may be wrong with settings. -/
inductive Defect where
  | badPattern (list : PatternList) (pattern : String) (fault : Glob.Fault)
  | noExtensions
  | noNodes
  | noThreads
  /-- The directory of the output file does not exist. -/
  | noDirectory (path dir : String)
  deriving DecidableEq, Repr

/-- A defect of settings as an error. -/
def Defect.toError : Defect → Error
  | .badPattern .excluded pattern fault =>
    .inContext ("Invalid exclude pattern: " ++ pattern) fault.message
  | .badPattern .dynamic pattern fault =>
    .inContext ("Invalid dynamic import pattern: " ++ pattern) fault.message
  | .noExtensions => .settings "At least one file extension must be configured"
  | .noNodes => .settings "Max nodes must be at least 1"
  | .noThreads => .settings "Threads must be at least 1"
  | .noDirectory path dir => .outputWrite path (.noDirectory dir)

/-- Each pattern of a list is one. -/
def checkPatterns (list : PatternList) : List String → Except Defect Unit
  | [] => .ok ()
  | pattern :: patterns =>
    match Glob.compile pattern with
    | .error fault => .error (.badPattern list pattern fault)
    | .ok _ => checkPatterns list patterns

/-- The directory of a file exists. -/
def checkDirectory (files : FileTree) (path : String) : Except Defect Unit :=
  match Route.enclosing? path with
  | none => .ok ()
  | some dir =>
    if dir.isEmpty || files.isDirectory dir then .ok () else .error (.noDirectory path dir)

/-- The first defect of settings, if they have one, among the given files. -/
def check (files : FileTree) (settings : Settings) : Except Defect Unit := do
  checkPatterns .excluded settings.excludePatterns
  checkPatterns .dynamic settings.rules.dynamicPatterns
  if settings.rules.extensions.isEmpty then throw .noExtensions
  if settings.maxNodes = some 0 then throw .noNodes
  if settings.threads = some 0 then throw .noThreads
  match settings.outputFile with
  | none => pure ()
  | some path => checkDirectory files path

end Settings

end ImportAtlas
