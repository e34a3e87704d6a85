import ImportAtlas.Proofs.Analysis.Failure
import ImportAtlas.Proofs.Settings.Layering

/-!
# Checked settings leave only the repository to fail

The check of settings and the stages of an analysis look at the same patterns and limits, at different
times and by different code. Settings that pass the check have no pattern that could fail later, so a
build or an analysis with them fails for what is wrong with the repository, or for its size, and for
nothing else. The check of a layer from a file looks at less than the check of the settings that it
gives: it lets pass an empty list of extensions, and it does not look for the directory of the output
file.

## Main definitions

* `Settings.IsValid`, `Layer.IsValid`: what passes the two checks
* `FileTree.Encloses`: the files whose directory is there
* `Settings.Refuses`: the errors that are the repository's own
* `Settings.Suffice`: settings with which there are no other errors

## Main results

* `Settings.check_eq_ok_iff`, `Layer.check_eq_ok_iff`: the two checks
* `Settings.IsValid.suffice`: valid settings suffice
* `Layer.IsValid.isValid_toSettings_iff`: when the settings of a valid layer are valid
* `Layer.built_settings_suffice`: settings that have been built suffice
-/

namespace ImportAtlas

/-- Whether the directory of a file is there. The working directory always is. -/
def FileTree.Encloses (files : FileTree) (path : String) : Prop :=
  ∀ dir, Route.enclosing? path = some dir → dir = "" ∨ files.isDirectory dir = true

/-- What settings are like that pass their check. -/
structure Settings.IsValid (files : FileTree) (settings : Settings) : Prop where
  excludePatterns : ∀ pattern ∈ settings.excludePatterns, Glob.fault? pattern = none
  dynamicPatterns : ∀ pattern ∈ settings.rules.dynamicPatterns, Glob.fault? pattern = none
  extensions : settings.rules.extensions ≠ []
  maxNodes : settings.maxNodes ≠ some 0
  threads : settings.threads ≠ some 0
  outputFile : ∀ path, settings.outputFile = some path → files.Encloses path

/-- What a layer is like that passes the check of layers from files. -/
structure Layer.IsValid (layer : Layer) : Prop where
  excludePatterns : ∀ pattern ∈ layer.excludePatterns.getD [],
    pattern ≠ "" ∧ Glob.fault? pattern = none
  dynamicPatterns : ∀ pattern ∈ layer.dynamicPatterns.getD [],
    pattern ≠ "" ∧ Glob.fault? pattern = none
  extensions : ∀ word ∈ layer.extensions.getD [], Layer.isExtension word = true
  maxNodes : layer.maxNodes ≠ some 0
  threads : layer.threads ≠ some 0
  outputFile : layer.outputFile ≠ some ""

/-! ## The two checks -/

namespace Settings

theorem checkPatterns_eq_ok_iff (list : PatternList) (patterns : List String) :
    checkPatterns list patterns = .ok () ↔
      ∀ pattern ∈ patterns, Glob.fault? pattern = none := by
  induction patterns with
  | nil => simp [checkPatterns]
  | cons pattern patterns ih =>
    rw [checkPatterns, List.forall_mem_cons, ← ih]
    unfold Glob.fault?
    cases Glob.compile pattern <;> simp [Outcome.fault?]

theorem checkDirectory_eq_ok_iff (files : FileTree) (path : String) :
    checkDirectory files path = .ok () ↔ files.Encloses path := by
  unfold checkDirectory FileTree.Encloses
  cases Route.enclosing? path with
  | none => simp
  | some dir => simp [or_iff_not_imp_left]

/-- **The settings that pass the check.** -/
theorem check_eq_ok_iff (files : FileTree) (settings : Settings) :
    settings.check files = .ok () ↔ settings.IsValid files := by
  unfold check
  simp only [Outcome.check_bind_eq_ok_iff, Outcome.refuse_bind_eq_ok_iff, checkPatterns_eq_ok_iff,
    List.isEmpty_iff]
  constructor
  · rintro ⟨hexclude, hdynamic, hextensions, hnodes, hthreads, houtput⟩
    refine ⟨hexclude, hdynamic, hextensions, hnodes, hthreads, fun path hpath => ?_⟩
    rw [hpath] at houtput
    exact (checkDirectory_eq_ok_iff files path).mp houtput
  · rintro ⟨hexclude, hdynamic, hextensions, hnodes, hthreads, houtput⟩
    refine ⟨hexclude, hdynamic, hextensions, hnodes, hthreads, ?_⟩
    cases hpath : settings.outputFile with
    | none => rfl
    | some path => exact (checkDirectory_eq_ok_iff files path).mpr (houtput path hpath)

end Settings

namespace Layer

theorem checkPatterns_eq_ok_iff (list : PatternList) (patterns : List String) :
    checkPatterns list patterns = .ok () ↔
      ∀ pattern ∈ patterns, pattern ≠ "" ∧ Glob.fault? pattern = none := by
  induction patterns with
  | nil => simp [checkPatterns]
  | cons pattern patterns ih =>
    rw [checkPatterns, List.forall_mem_cons, ← ih]
    unfold Glob.fault?
    by_cases hempty : pattern = ""
    · simp [hempty]
    · cases Glob.compile pattern <;> simp [Outcome.fault?, hempty]

/-- **The layers that pass the check.** -/
theorem check_eq_ok_iff (layer : Layer) : layer.check = .ok () ↔ layer.IsValid := by
  unfold check
  simp only [Outcome.check_bind_eq_ok_iff, checkPatterns_eq_ok_iff]
  cases hfind : (layer.extensions.getD []).find? (!isExtension ·) with
  | some word =>
    refine iff_of_false (fun h => nomatch h.2.2) fun h => ?_
    have hword := h.extensions word (List.mem_of_find?_eq_some hfind)
    simpa [hword] using List.find?_some hfind
  | none =>
    simp only [Outcome.refuse_bind_eq_ok_iff, Outcome.refuse_eq_ok_iff]
    have hextensions : ∀ word ∈ layer.extensions.getD [], isExtension word = true := by
      simpa using hfind
    exact ⟨fun ⟨hexclude, hdynamic, hnodes, hthreads, houtput, _⟩ =>
        ⟨hexclude, hdynamic, hextensions, hnodes, hthreads, houtput⟩,
      fun ⟨hexclude, hdynamic, _, hnodes, hthreads, houtput⟩ =>
        ⟨hexclude, hdynamic, hnodes, hthreads, houtput, rfl⟩⟩

end Layer

/-! ## What is left to go wrong -/

/-- The errors of a build or an analysis that are the repository's own: a violation of the rules for
descriptions, and more files than the limit allows. -/
inductive Settings.Refuses (settings : Settings) (repository : Repository) : Error → Prop where
  | violation {violation : Violation} (hcheck : repository.check = .error violation) :
    Refuses settings repository violation.toError
  | tooMany {limit : Nat} (hcheck : repository.check = .ok ()) (hlimit : settings.maxNodes = some limit)
    (hlt : limit < (settings.buildOptions.kept repository).files.length) :
    Refuses settings repository
      (.nodeLimit (settings.buildOptions.kept repository).files.length limit)

/-- Settings with which a build and an analysis fail exactly with the errors that are the repository's
own, whatever resolves the imports and however the work is spread. -/
structure Settings.Suffice (settings : Settings) : Prop where
  build_eq_error_iff : ∀ (custom : Option Resolver) (repository : Repository) (e : Error),
    Graph.build settings.buildOptions custom repository = .error e ↔ settings.Refuses repository e
  analyzeBy_eq_error_iff : ∀ (scheduler : Scheduler) (custom : Option Resolver) (ranked : Bool)
    (processors : Nat) (now : Instant) (repository : Repository) (e : Error),
    analyzeBy scheduler settings custom ranked processors now repository = .error e ↔
      settings.Refuses repository e

namespace Settings

variable {files : FileTree} {settings : Settings} {repository : Repository} {e : Error}

theorem Refuses.kind_eq (h : settings.Refuses repository e) :
    e.kind = "ValidationError" ∨ e.kind = "NodeLimitExceeded" := by
  cases h with
  | @violation violation =>
    left
    cases violation <;> rfl
  | tooMany => exact .inr rfl

/-- No pattern of valid settings speaks against a build. -/
theorem IsValid.head?_objections_eq_some_iff (h : settings.IsValid files) (repository : Repository)
    (e : Error) :
    (settings.buildOptions.objections repository).head? = some e ↔ settings.Refuses repository e := by
  have hexclude : settings.buildOptions.excludePatterns.findSome? Glob.fault? = none :=
    List.findSome?_eq_none_iff.mpr h.excludePatterns
  have hdynamic : settings.buildOptions.rules.dynamicPatterns.findSome? Glob.fault? = none :=
    List.findSome?_eq_none_iff.mpr h.dynamicPatterns
  rw [Graph.head?_objections, hexclude, hdynamic, Option.map_none, Option.none_or, Option.or_none]
  cases hcheck : repository.check with
  | error violation =>
    constructor
    · intro he
      obtain rfl := Option.some.inj he
      exact .violation hcheck
    · intro hrefuses
      cases hrefuses with
      | violation hviolation =>
        obtain rfl := Except.error.inj (hcheck.symm.trans hviolation)
        rfl
      | tooMany hok => cases hcheck.symm.trans hok
  | ok =>
    change Option.map _ _ = some e ↔ _
    simp only [Option.map_eq_some_iff, Option.filter_eq_some_iff, decide_eq_true_eq]
    constructor
    · rintro ⟨limit, ⟨hlimit, hlt⟩, rfl⟩
      exact .tooMany hcheck hlimit hlt
    · intro hrefuses
      cases hrefuses with
      | violation hviolation => cases hcheck.symm.trans hviolation
      | tooMany _ hlimit hlt => exact ⟨_, ⟨hlimit, hlt⟩, rfl⟩

/-- **Valid settings suffice.** -/
theorem IsValid.suffice (h : settings.IsValid files) : settings.Suffice where
  build_eq_error_iff custom repository e := by
    rw [Outcome.eq_error_iff, Graph.fault?_build, h.head?_objections_eq_some_iff]
  analyzeBy_eq_error_iff scheduler custom ranked processors now repository e := by
    rw [Outcome.eq_error_iff, fault?_analyzeBy, Graph.fault?_build, h.head?_objections_eq_some_iff]

end Settings

/-! ## Settings that have been built -/

namespace Layer

variable {files : FileTree} {settings : Settings} {layer : Layer}

theorem build_eq_ok_iff : layer.build files = .ok settings ↔
    layer.toSettings.IsValid files ∧ layer.toSettings = settings := by
  unfold build
  rw [Outcome.check_bind_eq_ok_iff, Outcome.mapError_eq_ok_iff, Settings.check_eq_ok_iff]
  exact and_congr_right fun _ => ⟨Except.ok.inj, congrArg Except.ok⟩

/-- **What a valid layer lacks for valid settings** is extensions, if it sets them to none, or the
directory of its output file. -/
theorem IsValid.isValid_toSettings_iff (h : layer.IsValid) (files : FileTree) :
    layer.toSettings.IsValid files ↔ layer.extensions ≠ some [] ∧
      ∀ path, layer.outputFile = some path → files.Encloses path := by
  have hextensions : layer.toSettings.rules.extensions ≠ [] ↔ layer.extensions ≠ some [] := by
    change layer.extensions.getD _ ≠ [] ↔ _
    cases layer.extensions <;> simp
  have hnodes : layer.toSettings.maxNodes = layer.maxNodes := Option.or_none
  have hthreads : layer.toSettings.threads = layer.threads := Option.or_none
  have houtput : layer.toSettings.outputFile = layer.outputFile := Option.or_none
  constructor
  · intro hvalid
    exact ⟨hextensions.mp hvalid.extensions, houtput ▸ hvalid.outputFile⟩
  · rintro ⟨hsome, hencloses⟩
    exact {
      excludePatterns := fun pattern hp => (h.excludePatterns pattern hp).2
      dynamicPatterns := fun pattern hp => (h.dynamicPatterns pattern hp).2
      extensions := hextensions.mpr hsome
      maxNodes := hnodes ▸ h.maxNodes
      threads := hthreads ▸ h.threads
      outputFile := houtput ▸ hencloses }

theorem suffice_of_build (h : layer.build files = .ok settings) : settings.Suffice := by
  obtain ⟨hvalid, rfl⟩ := build_eq_ok_iff.mp h
  exact hvalid.suffice

theorem suffice_of_load {around : Surroundings} {path : Option String} {commandLine : Layer}
    (h : Settings.load around path commandLine = .ok settings) : settings.Suffice := by
  -- Wherever the layers come from, the last step is a build.
  obtain ⟨layer, hbuild⟩ : ∃ layer : Layer, layer.build around.files = .ok settings := by
    unfold Settings.load at h
    cases path <;>
    · simp only [Outcome.bind_eq_ok_iff] at h
      obtain ⟨_, _, _, _, layer, _, hbuild⟩ := h
      exact ⟨layer, hbuild⟩
  exact suffice_of_build hbuild

/-- **Settings that have been built suffice**, from whatever layers: with them a build or an analysis
fails with a violation of the repository or for its size, and with no other error. The settings of a
layer that has passed the check for files are built, unless it leaves no extension or the directory of
its output file is not there. -/
theorem built_settings_suffice :
    (∀ (layers : List Layer) (files : FileTree) (settings : Settings),
      (stack layers).build files = .ok settings → settings.Suffice) ∧
    (∀ (around : Surroundings) (path : Option String) (commandLine : Layer) (settings : Settings),
      Settings.load around path commandLine = .ok settings → settings.Suffice) ∧
    (∀ (settings : Settings) (repository : Repository) (e : Error),
      settings.Refuses repository e → e.kind = "ValidationError" ∨ e.kind = "NodeLimitExceeded") ∧
    ∀ (layer : Layer) (files : FileTree), layer.check = .ok () →
      ((∃ settings, layer.build files = .ok settings) ↔ layer.extensions ≠ some [] ∧
        ∀ path, layer.outputFile = some path → files.Encloses path) := by
  refine ⟨fun _ _ _ => suffice_of_build, fun _ _ _ _ => suffice_of_load,
    fun _ _ _ => Settings.Refuses.kind_eq, ?_⟩
  intro layer files hcheck
  rw [← ((check_eq_ok_iff layer).mp hcheck).isValid_toSettings_iff]
  simp only [build_eq_ok_iff, exists_and_left, exists_eq', and_true]

/-- A limit from a variable that the command line raises, too many files even so after one has been
left out, and a layer that lacks the directory of its output file only. -/
theorem built_settings_suffice_too_many :
    let around : Surroundings :=
      { environment := .ofEntries [("DEPSCOPE_EXCLUDE", "tests/**"), ("DEPSCOPE_MAX_NODES", "1")] }
    let environment : Layer := { excludePatterns := some ["tests/**"], maxNodes := some 1 }
    let commandLine : Layer := { dynamicPatterns := some ["plugins*"], maxNodes := some 2 }
    let settings : Settings :=
      { rules := { dynamicPatterns := ["plugins*"] }, excludePatterns := ["tests/**"],
        maxNodes := some 2 }
    let repository : Repository :=
      { rootPath := "/", files := ["a.py", "tests/b.py", "c.py", "d.py"].map fun path =>
          { path, content := "" } }
    let unplaced : Layer := { outputFile := some "out/graph.dot" }
    (stack [environment, commandLine]).build around.files = .ok settings ∧
      Settings.load around none commandLine = .ok settings ∧
      Graph.build settings.buildOptions none repository = .error (.nodeLimit 3 2) ∧
      analyze settings none true 4 ⟨⟨2024, 1, 1⟩, 0, 0, 0⟩ repository = .error (.nodeLimit 3 2) ∧
      (Error.nodeLimit 3 2).kind = "NodeLimitExceeded" ∧
      unplaced.check = .ok () ∧ ¬∃ settings, unplaced.build around.files = .ok settings := by
  intro around environment commandLine settings repository unplaced
  have hbuild : (stack [environment, commandLine]).build around.files = .ok settings := by
    decide +kernel
  have hload : Settings.load around none commandLine = .ok settings := by decide +kernel
  have hcheck : repository.check = .ok () :=
    repository.check_eq_ok_iff.mpr ⟨by decide +kernel, by decide +kernel⟩
  have hcount : (settings.buildOptions.kept repository).files.length = 3 := by decide +kernel
  have hrefuses : settings.Refuses repository (.nodeLimit 3 2) :=
    hcount ▸ .tooMany hcheck rfl (hcount ▸ Nat.lt_succ_self 2)
  have hunplaced : unplaced.check = .ok () := by decide +kernel
  obtain ⟨hsuffice, hloaded, hkind, hbuilds⟩ := built_settings_suffice
  refine ⟨hbuild, hload, ?_, ?_, ?_, hunplaced, ?_⟩
  · exact ((hsuffice _ _ _ hbuild).build_eq_error_iff _ _ _).mpr hrefuses
  · exact ((hloaded _ _ _ _ hload).analyzeBy_eq_error_iff _ _ _ _ _ _ _).mpr hrefuses
  · exact (hkind _ _ _ hrefuses).resolve_left (by decide)
  · intro hbuilt
    have hencloses := ((hbuilds unplaced around.files hunplaced).mp hbuilt).2 "out/graph.dot" rfl
    exact absurd (hencloses "out" (by decide +kernel)) (by decide +kernel)

end Layer

end ImportAtlas
