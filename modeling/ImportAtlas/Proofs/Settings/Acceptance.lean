import ImportAtlas.Proofs.Settings.Lists
import ImportAtlas.Proofs.Settings.Validated

/-!
# What the environment gets accepted

A layer from a file is checked on its own, one from the environment is not. What may be wrong with it is
caught elsewhere: empty patterns are dropped when a list is read, and faulty patterns and zeros are found
when the settings are built. Two rules for files are not kept up: an extension without its dot and an
empty name of an output file are accepted from the environment, and they are all that is.

## Main results

* `environment_built_checks`: the environments that are accepted, against the check for files
-/

namespace ImportAtlas.Layer

variable {stem : String} {lookup : String → Option String} {files : FileTree} {layer : Layer}
  {settings : Settings}

/-- **What is accepted from the environment** and would be refused in a file is an extension without its
dot or an empty name of an output file. The other rules for files hold of every layer that is read from an
environment and built: no pattern is empty or faulty, and neither limit is zero. -/
theorem environment_built_checks (h : ofEnvironment stem lookup = .ok layer)
    (hbuild : (layer.orElse empty).build files = .ok settings) :
    (∀ pattern ∈ layer.excludePatterns.getD [], pattern ≠ "" ∧ Glob.fault? pattern = none) ∧
    (∀ pattern ∈ layer.dynamicPatterns.getD [], pattern ≠ "" ∧ Glob.fault? pattern = none) ∧
    layer.maxNodes ≠ some 0 ∧ layer.threads ≠ some 0 ∧
    (layer.check = .ok () ↔
      (∀ word ∈ layer.extensions.getD [], isExtension word = true) ∧
        layer.outputFile ≠ some "") := by
  rw [orElse_empty] at hbuild
  have hvalid := (build_eq_ok_iff.mp hbuild).1
  have hexclude : ∀ pattern ∈ layer.excludePatterns.getD [],
      pattern ≠ "" ∧ Glob.fault? pattern = none := by
    intro pattern hp
    have hempty := empty_not_mem_of_ofEnvironment h .excludePatterns (by decide)
    exact ⟨ne_of_mem_of_not_mem hp hempty, hvalid.excludePatterns pattern hp⟩
  have hdynamic : ∀ pattern ∈ layer.dynamicPatterns.getD [],
      pattern ≠ "" ∧ Glob.fault? pattern = none := by
    intro pattern hp
    have hempty := empty_not_mem_of_ofEnvironment h .dynamicPatterns (by decide)
    exact ⟨ne_of_mem_of_not_mem hp hempty, hvalid.dynamicPatterns pattern hp⟩
  have hnodes : layer.maxNodes ≠ some 0 := by simpa [toSettings] using hvalid.maxNodes
  have hthreads : layer.threads ≠ some 0 := by simpa [toSettings] using hvalid.threads
  refine ⟨hexclude, hdynamic, hnodes, hthreads, ?_⟩
  -- Four of the six rules for files hold in any case, which leaves these two.
  rw [check_eq_ok_iff]
  exact ⟨fun hfile => ⟨hfile.extensions, hfile.outputFile⟩,
    fun ⟨hextensions, houtput⟩ => ⟨hexclude, hdynamic, hextensions, hnodes, hthreads, houtput⟩⟩

/-- An extension without its dot, beside patterns of which the empty ones are dropped, and an output file
without a name. -/
theorem environment_built_checks_dotless :
    let dotless : Layer :=
      { extensions := some [".py", "js"], excludePatterns := some ["tests/**"], threads := some 2 }
    let nameless : Layer := { extensions := some [".py"], outputFile := some "" }
    let given : Dictionary String :=
      .ofEntries [("DEPSCOPE_EXCLUDE", ",tests/** , "), ("DEPSCOPE_EXTENSIONS", ".py, js"),
        ("DEPSCOPE_THREADS", "2")]
    let others : Dictionary String :=
      .ofEntries [("DEPSCOPE_EXTENSIONS", ".py"), ("DEPSCOPE_OUTPUT_FILE", "")]
    ofEnvironment variableStem given.get? = .ok dotless ∧
      (dotless.orElse empty).build {} = .ok dotless.toSettings ∧ dotless.check ≠ .ok () ∧
      ofEnvironment variableStem others.get? = .ok nameless ∧
      (nameless.orElse empty).build {} = .ok nameless.toSettings ∧ nameless.check ≠ .ok () := by
  intro dotless nameless given others
  have hdotless : ofEnvironment variableStem given.get? = .ok dotless := rfl
  have hnameless : ofEnvironment variableStem others.get? = .ok nameless := rfl
  have hbuilt : (dotless.orElse empty).build {} = .ok dotless.toSettings := by decide +kernel
  have hbuilt' : (nameless.orElse empty).build {} = .ok nameless.toSettings := by decide +kernel
  refine ⟨hdotless, hbuilt, fun hcheck => ?_, hnameless, hbuilt', fun hcheck => ?_⟩
  · have hdots := ((environment_built_checks hdotless hbuilt).2.2.2.2.mp hcheck).1 "js" (by decide)
    exact absurd hdots (by decide)
  · exact ((environment_built_checks hnameless hbuilt').2.2.2.2.mp hcheck).2 rfl

end ImportAtlas.Layer
