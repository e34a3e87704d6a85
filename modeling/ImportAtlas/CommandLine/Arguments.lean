import ImportAtlas.Settings.Basic

/-!
# Arguments for settings

The options of the command line that are about settings, and the layer that they give. Flags only
turn things on or off: a flag that is not given leaves its setting alone.

## Main definitions

* `Arguments`: the options
* `Arguments.toLayer`: their layer of settings
-/

namespace ImportAtlas

/-- The options of the command line that are about settings. -/
structure Arguments where
  convention : Option Convention := none
  external : Option (List String) := none
  exclude : Option (List String) := none
  maxNodes : Option Nat := none
  outputFormat : Option OutputFormat := none
  outputFile : Option String := none
  noParallel : Bool := false
  threads : Option Nat := none
  quiet : Bool := false
  /-- How often more words were asked for. -/
  verbosity : Nat := 0
  noColours : Bool := false
  noProgress : Bool := false
  settingsFile : Option String := none
  deriving DecidableEq

/-- What a flag that is given sets its setting to. -/
def flagged (given value : Bool) : Option Bool :=
  if given then some value else none

/-- The layer of settings that the options give. -/
def Arguments.toLayer (arguments : Arguments) : Layer where
  convention := arguments.convention
  externalModules := arguments.external
  excludePatterns := arguments.exclude
  maxNodes := arguments.maxNodes
  outputFormat := arguments.outputFormat
  outputFile := arguments.outputFile
  parallel := flagged arguments.noParallel false
  threads := arguments.threads
  quiet := flagged arguments.quiet true
  verbose := flagged (0 < arguments.verbosity) true
  useColors := flagged arguments.noColours false
  showProgress := flagged arguments.noProgress false

end ImportAtlas
