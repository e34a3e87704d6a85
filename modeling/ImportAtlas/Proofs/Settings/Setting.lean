import ImportAtlas.CommandLine.Arguments
import ImportAtlas.Settings.Environment

/-!
# The settings one by one

The seventeen settings, and what a layer, settings and the options of the command line say of each of
them. Two layers that say the same of every setting are the same layer, so what is shown of an
arbitrary setting holds of all of them.

## Main definitions

* `Setting`: the settings, with the types of their values
* `Layer.get?`, `Settings.get`: what a layer says of a setting, and its value
* `Arguments.get?`: what the options of the command line say of a setting
* `Setting.source?`: the environment variable for a setting

## Main results

* `Settings.ext_get`, `Layer.ext_get?`: settings and layers are determined setting by setting
* `get?_orElse`: one layer over another
* `get_toSettings`: the settings that a layer gives
* `get?_toLayer`: the layer of the command line
-/

namespace ImportAtlas

/-- The settings. -/
inductive Setting where
  | convention
  | extensions
  | indexFiles
  | sourceRoots
  | aliases
  | externalModules
  | dynamicPatterns
  | excludePatterns
  | maxNodes
  | outputFormat
  | outputFile
  | parallel
  | threads
  | quiet
  | verbose
  | useColors
  | showProgress
  deriving DecidableEq, Repr

namespace Setting

/-- The type of what a layer may say of a setting. -/
abbrev Said : Setting → Type
  | convention => Convention
  | extensions | indexFiles | sourceRoots | externalModules | dynamicPatterns | excludePatterns =>
    List String
  | aliases => Dictionary String
  | maxNodes | threads => Nat
  | outputFormat => OutputFormat
  | outputFile => String
  | parallel | quiet | verbose | useColors | showProgress => Bool

/-- The type of the values of a setting. A limit, a number of threads and an output file need not be
there. -/
abbrev Value : Setting → Type
  | maxNodes | threads => Option Nat
  | outputFile => Option String
  | setting => setting.Said

/-- The value of a setting of which something is said. -/
def hold : (setting : Setting) → setting.Said → setting.Value
  | convention, said => said
  | extensions, said | indexFiles, said | sourceRoots, said | externalModules, said
  | dynamicPatterns, said | excludePatterns, said => said
  | aliases, said => said
  | maxNodes, said | threads, said => some said
  | outputFormat, said => said
  | outputFile, said => some said
  | parallel, said | quiet, said | verbose, said | useColors, said | showProgress, said => said

/-- The environment variable for a setting, if there is one. -/
def source? : Setting → Option Variable
  | convention => some .convention
  | extensions => some .extensions
  | sourceRoots => some .sourceRoots
  | externalModules => some .externalModules
  | dynamicPatterns => some .dynamicPatterns
  | excludePatterns => some .exclude
  | maxNodes => some .maxNodes
  | outputFormat => some .outputFormat
  | outputFile => some .outputFile
  | parallel => some .parallel
  | threads => some .threads
  | useColors => some .noColor
  | indexFiles | aliases | quiet | verbose | showProgress => none

end Setting

/-- What a layer says of a setting. -/
def Layer.get? (layer : Layer) : (setting : Setting) → Option setting.Said
  | .convention => layer.convention
  | .extensions => layer.extensions
  | .indexFiles => layer.indexFiles
  | .sourceRoots => layer.sourceRoots
  | .aliases => layer.aliases
  | .externalModules => layer.externalModules
  | .dynamicPatterns => layer.dynamicPatterns
  | .excludePatterns => layer.excludePatterns
  | .maxNodes => layer.maxNodes
  | .outputFormat => layer.outputFormat
  | .outputFile => layer.outputFile
  | .parallel => layer.parallel
  | .threads => layer.threads
  | .quiet => layer.quiet
  | .verbose => layer.verbose
  | .useColors => layer.useColors
  | .showProgress => layer.showProgress

/-- The value of a setting. -/
def Settings.get (settings : Settings) : (setting : Setting) → setting.Value
  | .convention => settings.rules.convention
  | .extensions => settings.rules.extensions
  | .indexFiles => settings.rules.indexFiles
  | .sourceRoots => settings.rules.sourceRoots
  | .aliases => settings.rules.aliases
  | .externalModules => settings.rules.externalModules
  | .dynamicPatterns => settings.rules.dynamicPatterns
  | .excludePatterns => settings.excludePatterns
  | .maxNodes => settings.maxNodes
  | .outputFormat => settings.outputFormat
  | .outputFile => settings.outputFile
  | .parallel => settings.parallel
  | .threads => settings.threads
  | .quiet => settings.quiet
  | .verbose => settings.verbose
  | .useColors => settings.useColors
  | .showProgress => settings.showProgress

/-- The value of a setting without any layer. -/
def Setting.standard (setting : Setting) : setting.Value :=
  ({} : Settings).get setting

/-- The value of a setting of which perhaps something is said. -/
def Setting.resolve (setting : Setting) (said : Option setting.Said) : setting.Value :=
  said.elim setting.standard setting.hold

/-- What the options of the command line say of a setting. A flag says something only if it is given,
and so does the one for more words however often it is given. -/
def Arguments.get? (arguments : Arguments) : (setting : Setting) → Option setting.Said
  | .convention => arguments.convention
  | .externalModules => arguments.external
  | .excludePatterns => arguments.exclude
  | .maxNodes => arguments.maxNodes
  | .outputFormat => arguments.outputFormat
  | .outputFile => arguments.outputFile
  | .threads => arguments.threads
  | .parallel => if arguments.noParallel then some false else none
  | .quiet => if arguments.quiet then some true else none
  | .verbose => if arguments.verbosity = 0 then none else some true
  | .useColors => if arguments.noColours then some false else none
  | .showProgress => if arguments.noProgress then some false else none
  | .extensions | .indexFiles | .sourceRoots | .aliases | .dynamicPatterns => none

/-! ## Layers, setting by setting -/

/-- Settings are determined by their values. -/
theorem Settings.ext_get {first second : Settings}
    (h : ∀ setting, first.get setting = second.get setting) : first = second := by
  obtain ⟨⟨_, _, _, _, _, _, _⟩, _, _, _, _, _, _, _, _, _, _⟩ := first
  obtain ⟨⟨_, _, _, _, _, _, _⟩, _, _, _, _, _, _, _, _, _, _⟩ := second
  rw [Settings.mk.injEq, ImportRules.mk.injEq]
  exact ⟨⟨h .convention, h .extensions, h .indexFiles, h .sourceRoots, h .aliases,
    h .externalModules, h .dynamicPatterns⟩, h .excludePatterns, h .maxNodes, h .outputFormat,
    h .outputFile, h .parallel, h .threads, h .quiet, h .verbose, h .useColors, h .showProgress⟩

namespace Layer

/-- Layers are determined by what they say of each setting. -/
theorem ext_get? {first second : Layer} (h : ∀ setting, first.get? setting = second.get? setting) :
    first = second := by
  cases first
  cases second
  rw [Layer.mk.injEq]
  exact ⟨h .convention, h .extensions, h .indexFiles, h .sourceRoots, h .aliases,
    h .externalModules, h .dynamicPatterns, h .excludePatterns, h .maxNodes, h .outputFormat,
    h .outputFile, h .parallel, h .threads, h .quiet, h .verbose, h .useColors, h .showProgress⟩

@[simp] theorem get?_empty (setting : Setting) : empty.get? setting = none := by
  cases setting <;> rfl

/-- What the upper layer says counts. -/
@[simp] theorem get?_orElse (top base : Layer) (setting : Setting) :
    (top.orElse base).get? setting = (top.get? setting).or (base.get? setting) := by
  cases setting <;> rfl

theorem orElse_assoc (first second third : Layer) :
    (first.orElse second).orElse third = first.orElse (second.orElse third) := by
  refine ext_get? fun setting => ?_
  simp only [get?_orElse, Option.or_assoc]

theorem empty_orElse (layer : Layer) : empty.orElse layer = layer := by
  refine ext_get? fun setting => ?_
  rw [get?_orElse, get?_empty, Option.none_or]

theorem orElse_empty (layer : Layer) : layer.orElse empty = layer := by
  refine ext_get? fun setting => ?_
  rw [get?_orElse, get?_empty, Option.or_none]

/-- The settings that a layer gives. -/
theorem get_toSettings (layer : Layer) (setting : Setting) :
    layer.toSettings.get setting = setting.resolve (layer.get? setting) := by
  have hgetD : ∀ {α : Type} (said : Option α) (standard : α),
      said.getD standard = said.elim standard fun value => value := by
    intro α said standard
    cases said <;> rfl
  have hor : ∀ {α : Type} (said : Option α), said.or none = said.elim none some := by
    intro α said
    cases said <;> rfl
  cases setting
  case maxNodes => exact hor layer.maxNodes
  case threads => exact hor layer.threads
  case outputFile => exact hor layer.outputFile
  all_goals exact hgetD _ _

end Layer

/-- The layer of the command line. -/
theorem Arguments.get?_toLayer (arguments : Arguments) (setting : Setting) :
    arguments.toLayer.get? setting = arguments.get? setting := by
  cases setting
  case verbose =>
    change flagged (0 < arguments.verbosity) true =
      if arguments.verbosity = 0 then none else some true
    cases arguments.verbosity <;> rfl
  all_goals rfl

end ImportAtlas
