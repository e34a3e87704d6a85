import ImportAtlas.Proofs.Settings.Environment

/-!
# The last layer counts

However many layers are put over each other, each setting has the value that the last layer says
something of it gives it, or its standard value if no layer does. So the command line counts before the
environment, the environment before a settings file, and a settings file before the standard values,
for every setting on its own.

## Main definitions

* `Layer.stack`: layers put over each other
* `Setting.last?`: what the last layer says that says something of a setting

## Main results

* `get?_stack`: what layers over each other say of a setting
* `build_eq`: settings are built from a layer if they pass their check
* `layering_lastWins`: the values of all settings, for any number of layers and for the three sources
-/

namespace ImportAtlas

/-- What the last layer says that says something of a setting. -/
def Setting.last? (setting : Setting) (layers : List Layer) : Option setting.Said :=
  layers.reverse.findSome? (·.get? setting)

namespace Layer

/-- Layers put over each other, the first one at the bottom. -/
def stack (layers : List Layer) : Layer :=
  layers.foldl (fun base top => top.orElse base) empty

theorem get?_foldl_orElse (layers : List Layer) (base : Layer) (setting : Setting) :
    (layers.foldl (fun base top => top.orElse base) base).get? setting =
      (setting.last? layers).or (base.get? setting) := by
  unfold Setting.last?
  induction layers generalizing base with
  | nil => rfl
  | cons layer layers ih =>
    rw [List.foldl_cons, ih, get?_orElse, List.reverse_cons, List.findSome?_append,
      List.findSome?_singleton, Option.or_assoc]

/-- What layers over each other say of a setting. -/
theorem get?_stack (layers : List Layer) (setting : Setting) :
    (stack layers).get? setting = setting.last? layers := by
  unfold stack
  rw [get?_foldl_orElse, get?_empty, Option.or_none]

/-- Settings are built from a layer if they pass their check. -/
theorem build_eq (layer : Layer) (files : FileTree) :
    layer.build files = ((layer.toSettings.check files).mapError Settings.Defect.toError).map
      fun _ => layer.toSettings := by
  unfold build
  dsimp only
  cases layer.toSettings.check files <;> rfl

/-- The environment and the command line over a layer. -/
theorem withSource_withSource_build {environment : Layer} {stem : String} {around : Surroundings}
    (h : ofEnvironment stem around.environment.get? = .ok environment) (file commandLine : Layer) :
    (do
      let layer ← file.withSource around { origin := .environment stem }
      let layer ← layer.withSource around { origin := .commandLine commandLine }
      layer.build around.files) = (stack [file, environment, commandLine]).build around.files := by
  rw [withSource_environment file around h]
  have hstack : stack [file, environment, commandLine] =
      commandLine.orElse (environment.orElse file) := by
    unfold stack
    rw [List.foldl_cons, orElse_empty]
    rfl
  rw [hstack]
  rfl

/-- The upper of three layers counts first. -/
theorem last?_three (file environment commandLine : Layer) (setting : Setting) :
    setting.last? [file, environment, commandLine] =
      (commandLine.get? setting).or ((environment.get? setting).or (file.get? setting)) := by
  unfold Setting.last?
  change List.findSome? _ [commandLine, environment, file] = _
  simp only [List.findSome?_cons, List.findSome?_nil]
  cases commandLine.get? setting <;> cases environment.get? setting <;>
    cases file.get? setting <;> rfl

/-- **The last layer that says something of a setting counts**: for any number of layers, and in
particular for the environment over a settings file and the command line over both. Putting layers over
each other is associative, and the empty layer makes no difference. -/
theorem layering_lastWins :
    (∀ (layers : List Layer) (files : FileTree), ∃ settings : Settings,
      (∀ setting : Setting, settings.get setting = setting.resolve (setting.last? layers)) ∧
        (stack layers).build files =
          ((settings.check files).mapError Settings.Defect.toError).map fun _ => settings) ∧
    (∀ first second third : Layer,
      (first.orElse second).orElse third = first.orElse (second.orElse third)) ∧
    (∀ layer : Layer, empty.orElse layer = layer ∧ layer.orElse empty = layer) ∧
    ∀ (file environment : Layer) (stem : String) (around : Surroundings) (arguments : Arguments),
      ofEnvironment stem around.environment.get? = .ok environment →
        (∀ setting : Setting, (environment.get? setting).isSome =
          (setting.source?.bind fun source =>
            around.environment.get? (source.name stem)).isSome) ∧
        ∃ settings : Settings,
          (∀ setting : Setting, settings.get setting = setting.resolve
            ((arguments.get? setting).or
              ((environment.get? setting).or (file.get? setting)))) ∧
          (do
            let layer ← file.withSource around { origin := .environment stem }
            let layer ← layer.withSource around { origin := .commandLine arguments.toLayer }
            layer.build around.files) =
              ((settings.check around.files).mapError Settings.Defect.toError).map
                fun _ => settings := by
  have hstack : ∀ (layers : List Layer) (setting : Setting),
      (stack layers).toSettings.get setting = setting.resolve (setting.last? layers) := by
    intro layers setting
    rw [get_toSettings, get?_stack]
  refine ⟨?_, orElse_assoc, fun layer => ⟨empty_orElse layer, orElse_empty layer⟩, ?_⟩
  · intro layers files
    exact ⟨_, hstack layers, build_eq _ files⟩
  · intro file environment stem around arguments henvironment
    refine ⟨isSome_get?_ofEnvironment henvironment, _, fun setting => ?_,
      (withSource_withSource_build henvironment file arguments.toLayer).trans (build_eq _ _)⟩
    rw [hstack, last?_three, arguments.get?_toLayer]

/-- A limit from the file that the environment changes, colours that only the environment speaks of,
and a flag that is not given beside others that are. -/
theorem layering_lastWins_three_sources :
    let file : Layer := { maxNodes := some 5, quiet := some true, indexFiles := some ["main"] }
    let around : Surroundings :=
      { environment := .ofEntries [("DEPSCOPE_MAX_NODES", " 7 "), ("DEPSCOPE_NO_COLOR", ""),
          ("DEPSCOPE_THREADS", "2")] }
    let environment : Layer :=
      { maxNodes := some 7, threads := some 2, useColors := some false }
    let arguments : Arguments := { threads := some 4, verbosity := 2, noParallel := true }
    let settings : Settings :=
      { rules := { indexFiles := ["main"] }, maxNodes := some 7, threads := some 4, quiet := true,
        verbose := true, useColors := false, parallel := false }
    ofEnvironment variableStem around.environment.get? = .ok environment ∧
      (do
        let layer ← file.withSource around { origin := .environment variableStem }
        let layer ← layer.withSource around { origin := .commandLine arguments.toLayer }
        layer.build around.files) = .ok settings := by
  intro file around environment arguments settings
  have henvironment : ofEnvironment variableStem around.environment.get? = .ok environment  :=
    rfl
  obtain ⟨-, built, hvalues, hbuilt⟩ :=
    layering_lastWins.2.2.2 file environment variableStem around arguments henvironment
  obtain rfl : built = settings := by
    refine Settings.ext_get fun setting => ?_
    rw [hvalues]
    cases setting <;> rfl
  exact ⟨henvironment, hbuilt⟩

end Layer

end ImportAtlas
