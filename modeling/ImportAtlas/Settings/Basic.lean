import ImportAtlas.Dictionary
import ImportAtlas.Text.Blank

/-!
# Settings

What an analysis may be told: how imports are resolved, which files are left out, how many files
are too many, and how the outcome is written. A `Layer` sets some of the settings and leaves the
others alone; layers are put on top of each other, and the settings are what the topmost layer
says of each, or the default.

## Main definitions

* `Convention`, `OutputFormat`: the two enumerations among the settings, with their names
* `ImportRules`: how imports are resolved and classified
* `Settings`: all settings
* `Layer`: some of the settings
* `Layer.orElse`: one layer on top of another
* `Layer.toSettings`: the settings that a layer gives, defaults filled in
-/

namespace ImportAtlas

/-- How imports are matched to files of the repository. -/
inductive Convention where
  /-- The path as written, then from the importing file. -/
  | relativePath
  /-- The path as written, then under each source root, then from the importing file. -/
  | packageRoot
  /-- The same after expanding an alias, then without. -/
  | customResolver
  deriving DecidableEq, Repr

namespace Convention

/-- All conventions, in their order of listing. -/
def all : List Convention := [.relativePath, .packageRoot, .customResolver]

/-- The name of a convention. -/
def name : Convention → String
  | .relativePath => "relative-path"
  | .packageRoot => "package-root"
  | .customResolver => "custom-resolver"

/-- The convention of a name in any letter case, with `_` for `-`, and the second word optional. -/
def ofWord? (word : String) : Option Convention :=
  let folded := String.ofList ((Text.fold word).toList.map fun c => if c = '_' then '-' else c)
  if folded = "relative-path" ∨ folded = "relative" then some .relativePath
  else if folded = "package-root" ∨ folded = "package" then some .packageRoot
  else if folded = "custom-resolver" ∨ folded = "custom" then some .customResolver
  else none

end Convention

/-- The form in which an outcome is written. -/
inductive OutputFormat where
  | text
  | json
  | csv
  | dot
  deriving DecidableEq, Repr

namespace OutputFormat

/-- All formats, in their order of listing. -/
def all : List OutputFormat := [.text, .json, .csv, .dot]

/-- The name of a format. -/
def name : OutputFormat → String
  | .text => "text"
  | .json => "json"
  | .csv => "csv"
  | .dot => "dot"

/-- The format of a name in any letter case. -/
def ofWord? (word : String) : Option OutputFormat :=
  all.find? fun format => format.name == Text.fold word

end OutputFormat

/-- How imports are resolved to files and how the resolved and the unresolved ones are told
apart. -/
structure ImportRules where
  convention : Convention := .relativePath
  /-- Extensions tried after a path that names no file as it stands. -/
  extensions : List String := [".py", ".rs", ".js", ".jsx", ".ts", ".tsx", ".go"]
  /-- Stems of the files that stand for their directory. -/
  indexFiles : List String := ["__init__", "index", "mod"]
  /-- Directories that package-style imports start from, the empty text being the top. -/
  sourceRoots : List String := ["", "src"]
  /-- Replacements for the beginnings of imports. -/
  aliases : Dictionary String := .empty
  /-- Top-level names of third-party modules. -/
  externalModules : List String := []
  /-- Globs for the imports that happen at run time. -/
  dynamicPatterns : List String := []
  deriving DecidableEq

/-- All settings of an analysis. -/
structure Settings where
  rules : ImportRules := {}
  /-- Globs for the files that are left out. -/
  excludePatterns : List String := []
  /-- The largest number of files that is analysed. -/
  maxNodes : Option Nat := none
  outputFormat : OutputFormat := .text
  /-- The file that receives the outcome instead of the standard output. -/
  outputFile : Option String := none
  parallel : Bool := true
  threads : Option Nat := none
  quiet : Bool := false
  verbose : Bool := false
  useColors : Bool := true
  showProgress : Bool := true
  deriving DecidableEq

/-- Some of the settings; what is absent is left as it is. -/
structure Layer where
  convention : Option Convention := none
  extensions : Option (List String) := none
  indexFiles : Option (List String) := none
  sourceRoots : Option (List String) := none
  aliases : Option (Dictionary String) := none
  externalModules : Option (List String) := none
  dynamicPatterns : Option (List String) := none
  excludePatterns : Option (List String) := none
  maxNodes : Option Nat := none
  outputFormat : Option OutputFormat := none
  outputFile : Option String := none
  parallel : Option Bool := none
  threads : Option Nat := none
  quiet : Option Bool := none
  verbose : Option Bool := none
  useColors : Option Bool := none
  showProgress : Option Bool := none
  deriving DecidableEq

namespace Layer

/-- The layer that leaves everything alone. -/
def empty : Layer := {}

/-- The layer `top` put over `base`: each setting is what `top` says, or else what `base` says. -/
def orElse (top base : Layer) : Layer where
  convention := top.convention.or base.convention
  extensions := top.extensions.or base.extensions
  indexFiles := top.indexFiles.or base.indexFiles
  sourceRoots := top.sourceRoots.or base.sourceRoots
  aliases := top.aliases.or base.aliases
  externalModules := top.externalModules.or base.externalModules
  dynamicPatterns := top.dynamicPatterns.or base.dynamicPatterns
  excludePatterns := top.excludePatterns.or base.excludePatterns
  maxNodes := top.maxNodes.or base.maxNodes
  outputFormat := top.outputFormat.or base.outputFormat
  outputFile := top.outputFile.or base.outputFile
  parallel := top.parallel.or base.parallel
  threads := top.threads.or base.threads
  quiet := top.quiet.or base.quiet
  verbose := top.verbose.or base.verbose
  useColors := top.useColors.or base.useColors
  showProgress := top.showProgress.or base.showProgress

/-- The import rules that a layer gives, defaults filled in. -/
def toRules (layer : Layer) : ImportRules :=
  let standard : ImportRules := {}
  { convention := layer.convention.getD standard.convention
    extensions := layer.extensions.getD standard.extensions
    indexFiles := layer.indexFiles.getD standard.indexFiles
    sourceRoots := layer.sourceRoots.getD standard.sourceRoots
    aliases := layer.aliases.getD standard.aliases
    externalModules := layer.externalModules.getD standard.externalModules
    dynamicPatterns := layer.dynamicPatterns.getD standard.dynamicPatterns }

/-- The settings that a layer gives, defaults filled in. -/
def toSettings (layer : Layer) : Settings :=
  let standard : Settings := {}
  { rules := layer.toRules
    excludePatterns := layer.excludePatterns.getD standard.excludePatterns
    maxNodes := layer.maxNodes.or standard.maxNodes
    outputFormat := layer.outputFormat.getD standard.outputFormat
    outputFile := layer.outputFile.or standard.outputFile
    parallel := layer.parallel.getD standard.parallel
    threads := layer.threads.or standard.threads
    quiet := layer.quiet.getD standard.quiet
    verbose := layer.verbose.getD standard.verbose
    useColors := layer.useColors.getD standard.useColors
    showProgress := layer.showProgress.getD standard.showProgress }

end Layer

end ImportAtlas
