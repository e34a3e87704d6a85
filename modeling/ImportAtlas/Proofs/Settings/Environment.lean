import ImportAtlas.Proofs.Outcome
import ImportAtlas.Proofs.Settings.Setting
import ImportAtlas.Settings.Source

/-!
# What the environment says

The layer of the environment says something of a setting exactly if the variable of the setting is
set. Nothing but the variables of a stem is looked up, so without any of them the layer is empty, and it
makes no difference that it is not read then.

## Main results

* `isSome_get?_ofEnvironment`: the settings of which the environment says something
* `ofEnvironment_congr`: environments with the same variables of a stem
* `withSource_environment_eq`, `withSource_environment`: the environment put over a layer
* `environment_availability_sound`: no variable is overlooked, and no other one counts
-/

namespace ImportAtlas

variable {stem : String} {lookup other : String → Option String}

theorem Variable.mem_all (setting : Variable) : setting ∈ all := by
  cases setting <;> decide

/-- A variable that can be read says something if it is set. -/
theorem isSome_of_readVariable {α : Type} {setting : Variable} {read : String → Option α}
    {said : Option α} (h : readVariable stem lookup setting read = .ok said) :
    said.isSome = (lookup (setting.name stem)).isSome := by
  unfold readVariable at h
  cases hvalue : lookup (setting.name stem) with
  | none =>
    rw [hvalue] at h
    obtain rfl := Except.ok.inj h
    rfl
  | some value =>
    rw [hvalue] at h
    dsimp only at h
    cases hread : read (Text.trim value) with
    | none =>
      rw [hread] at h
      cases h
    | some result =>
      rw [hread] at h
      obtain rfl := Except.ok.inj h
      rfl

namespace Layer

/-- **The settings of which the environment says something** are those whose variable is set. -/
theorem isSome_get?_ofEnvironment {layer : Layer} (h : ofEnvironment stem lookup = .ok layer)
    (setting : Setting) :
    (layer.get? setting).isSome =
      (setting.source?.bind fun source => lookup (source.name stem)).isSome := by
  unfold ofEnvironment at h
  simp only [Outcome.bind_eq_ok_iff] at h
  obtain ⟨convention, hconvention, maxNodes, hmaxNodes, outputFormat, houtputFormat, parallel,
    hparallel, threads, hthreads, hlayer⟩ := h
  obtain rfl := Except.ok.inj hlayer
  -- Five of the variables are read and may be faulty; the others are taken as they are.
  cases setting
  case convention => exact isSome_of_readVariable hconvention
  case maxNodes => exact isSome_of_readVariable hmaxNodes
  case outputFormat => exact isSome_of_readVariable houtputFormat
  case parallel => exact isSome_of_readVariable hparallel
  case threads => exact isSome_of_readVariable hthreads
  case outputFile => rfl
  case indexFiles | aliases | quiet | verbose | showProgress => rfl
  all_goals exact Option.isSome_map

/-! ## Whether the environment is read -/

/-- Only the variables of the stem count. -/
theorem ofEnvironment_congr
    (h : ∀ setting : Variable, lookup (setting.name stem) = other (setting.name stem)) :
    ofEnvironment stem lookup = ofEnvironment stem other := by
  unfold ofEnvironment readVariable
  simp only [h]

/-- Without variables there is nothing that could be wrong. -/
theorem ofEnvironment_of_hasVariables (h : hasVariables stem lookup = false) :
    ofEnvironment stem lookup = .ok empty := by
  have hnone : ∀ setting : Variable, lookup (setting.name stem) = none := by
    intro setting
    unfold hasVariables at h
    rw [List.any_eq_false] at h
    rw [← Option.not_isSome_iff_eq_none]
    exact h setting (Variable.mem_all setting)
  calc ofEnvironment stem lookup
      = ofEnvironment stem fun _ => none := ofEnvironment_congr hnone
    _ = .ok empty := rfl

/-- The environment over a layer, whether or not a variable is set. -/
theorem withSource_environment_eq (base : Layer) (around : Surroundings) (stem : String)
    (priority : Nat) :
    base.withSource around { origin := .environment stem, priority } =
      (·.orElse base) <$>
        (ofEnvironment stem around.environment.get?).mapError BadValue.toError := by
  unfold withSource Source.isAvailable Source.load
  dsimp only
  split
  · rfl
  · next hnone =>
    rw [ofEnvironment_of_hasVariables (Bool.eq_false_iff.mpr hnone)]
    exact congrArg Except.ok (empty_orElse base).symm

/-- The environment over a layer, if every value can be read. -/
theorem withSource_environment {layer : Layer} (base : Layer) (around : Surroundings)
    (h : ofEnvironment stem around.environment.get? = .ok layer) :
    base.withSource around { origin := .environment stem } = .ok (layer.orElse base) := by
  rw [withSource_environment_eq, h]
  rfl

/-- **No variable is overlooked, and no other one counts**: over any layer, an environment that is looked
at only if one of the listed variables is set gives what it would give in any case, error or layer, and
environments with the same values of the listed variables give the same. -/
theorem environment_availability_sound :
    (∀ (base : Layer) (around : Surroundings) (stem : String) (priority : Nat),
      base.withSource around { origin := .environment stem, priority } =
        (·.orElse base) <$>
          (ofEnvironment stem around.environment.get?).mapError BadValue.toError) ∧
    ∀ (base : Layer) (around other : Surroundings) (stem : String) (priority : Nat),
      (∀ setting ∈ Variable.all, around.environment.get? (setting.name stem) =
        other.environment.get? (setting.name stem)) →
        ofEnvironment stem around.environment.get? = ofEnvironment stem other.environment.get? ∧
          base.withSource around { origin := .environment stem, priority } =
            base.withSource other { origin := .environment stem, priority } := by
  refine ⟨withSource_environment_eq, fun base around other stem priority h => ?_⟩
  have hsame : ofEnvironment stem around.environment.get? =
      ofEnvironment stem other.environment.get? :=
    ofEnvironment_congr fun setting => h setting (Variable.mem_all setting)
  refine ⟨hsame, ?_⟩
  rw [withSource_environment_eq, withSource_environment_eq, hsame]

/-- A faulty variable of another stem, and one whose name only begins like those that count. -/
theorem environment_availability_sound_other_stem :
    let base : Layer := { threads := some 3, quiet := some true }
    let around : Surroundings := { environment := .ofEntries [("DEPSCOPE_THREADS", " 2")] }
    let other : Surroundings :=
      { environment := .ofEntries [("DEPSCOPE_THREADS", " 2"), ("DEPSCOPE_THREADS_MAX", "x"),
          ("OTHER_THREADS", "x")] }
    let source : Source := { origin := .environment variableStem, priority := 7 }
    base.withSource around source = .ok { threads := some 2, quiet := some true } ∧
      base.withSource around source = base.withSource other source ∧
      base.withSource other { origin := .environment "OTHER" } =
        .error (BadValue.toError ⟨"x", "OTHER_THREADS"⟩) := by
  intro base around other source
  have hsame := (environment_availability_sound.2 base around other variableStem 7 (by decide)).2
  exact ⟨rfl, hsame, rfl⟩

end Layer

end ImportAtlas
