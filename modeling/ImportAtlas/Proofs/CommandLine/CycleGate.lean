import ImportAtlas.Proofs.Analysis.Agreement
import ImportAtlas.Proofs.CommandLine.Effects
import ImportAtlas.Proofs.Graph.DirectImports
import ImportAtlas.Proofs.Table.Content

/-!
# Failing on cycles

The command that lists cycles can be asked to fail if there are any. Its exit code is then one exactly if
some file reaches itself through direct edges. How the cycles are shown and where they are written makes
no difference, since no format refuses them; nor do the imports that are no direct imports of other
files.

## Main results

* `Renderer.exists_cycles_eq_ok`: cycles can be shown in every format
* `cyclesExitCode_eq_one_iff`: the exit code in terms of the graph
* `Command.cycles_exitCode`: the exit code of the command, and what it does not depend on
-/

namespace ImportAtlas

/-- **Cycles can be shown in every format.** -/
theorem Renderer.exists_cycles_eq_ok (renderer : Renderer) (value : List (List String)) :
    ∃ text, renderer.cycles value = .ok text := by
  unfold Renderer.cycles
  cases renderer.format with
  | text =>
    simp only
    split
    · exact ⟨_, rfl⟩
    · exact ⟨_, rfl⟩
  | json => exact ⟨_, rfl⟩
  | csv =>
    obtain ⟨text, htext, -⟩ :=
      Csv.exists_table_eq_ok (by decide) fun _ => Csv.length_of_mem_cyclesTable value
    exact ⟨text, htext⟩
  | dot => exact ⟨_, rfl⟩

theorem Repository.check_of_load {files : FileTree} {path : String} {repository : Repository}
    (h : load files path = .ok repository) : repository.check = .ok () := by
  obtain ⟨text, -, hread⟩ := Outcome.bind_eq_ok_iff.mp h
  obtain ⟨found, -, hfound⟩ := Outcome.bind_eq_ok_iff.mp hread
  obtain ⟨hcheck, hok⟩ := Outcome.check_bind_eq_ok_iff.mp hfound
  obtain rfl := Except.ok.inj hok
  exact Outcome.mapError_eq_ok_iff.mp hcheck

/-- **The exit code in terms of the graph**: one if this is asked for and some file reaches itself
through direct edges. -/
theorem cyclesExitCode_eq_one_iff {graph : Graph} (hw : graph.WellFormed) (failOnCycles : Bool) :
    cyclesExitCode failOnCycles graph.cyclesUnchecked = 1 ↔ failOnCycles = true ∧
      ∃ file ∈ graph.nodes, Relation.TransGen (graph.Imports (· == .direct)) file file := by
  rw [← hw.cyclesUnchecked_ne_nil_iff]
  unfold cyclesExitCode
  cases failOnCycles <;> cases graph.cyclesUnchecked <;> simp

theorem cyclesExitCode_le_one (failOnCycles : Bool) (cycles : List (List String)) :
    cyclesExitCode failOnCycles cycles ≤ 1 := by
  unfold cyclesExitCode
  split <;> decide

/-- The exit code is the same for graphs of the same files with the same direct edges. -/
theorem cyclesExitCode_congr {left right : Graph} (hl : left.WellFormed) (hr : right.WellFormed)
    (hnodes : left.nodes = right.nodes)
    (himports : left.Imports (· == .direct) = right.Imports (· == .direct)) (failOnCycles : Bool) :
    cyclesExitCode failOnCycles left.cyclesUnchecked =
      cyclesExitCode failOnCycles right.cyclesUnchecked := by
  have hleft := cyclesExitCode_eq_one_iff hl failOnCycles
  have hright := cyclesExitCode_eq_one_iff hr failOnCycles
  rw [hnodes, himports, ← hright] at hleft
  -- Both codes are zero or one.
  have hle := cyclesExitCode_le_one failOnCycles left.cyclesUnchecked
  have hle' := cyclesExitCode_le_one failOnCycles right.cyclesUnchecked
  omega

namespace Command

variable {settings : Settings} {files : FileTree} {machine : Machine} {path : String}
  {failOnCycles : Bool}

/-- The outcome of the command for a description that is loaded and a graph that is built. -/
theorem exists_cycles_outcome (failOnCycles : Bool) (machine : Machine) {repository : Repository}
    {graph : Graph} (hload : Repository.load files path = .ok repository)
    (hbuild : Graph.build settings.buildOptions none repository = .ok graph) :
    ∃ text, (cycles path failOnCycles).outcome settings files machine =
      .ok (text, cyclesExitCode failOnCycles graph.cyclesUnchecked) := by
  have hw : graph.WellFormed := (Graph.builtFrom_of_build hbuild).wellFormed
  have hgraph : Graph.load settings files path = .ok graph :=
    Outcome.bind_eq_ok_iff.mpr ⟨repository, hload, hbuild⟩
  obtain ⟨text, htext⟩ := settings.renderer.exists_cycles_eq_ok graph.cyclesUnchecked
  exact ⟨text, (outcome_eq_ok_iff (by simp)).mpr (.cycles hgraph hw.cycles_eq_ok htext)⟩

/-- **The exit code is exact.** If the command succeeds, its exit code is one if it is to fail on cycles
and some file of the graph reaches itself through direct edges, and zero otherwise. It is the same for
all settings under which the graph is built alike, whatever the format, the colours, the threads or the
output file are, on any machine and from any files that hold the description, or another one that agrees
with it on the direct imports of other files; only the output file may turn out not to be writable. -/
theorem cycles_exitCode {code : Nat}
    (h : ((cycles path failOnCycles).runWith settings files machine).result = .ok code) :
    ∃ repository graph, Repository.load files path = .ok repository ∧
      Graph.build settings.buildOptions none repository = .ok graph ∧
      (code = 1 ↔ failOnCycles = true ∧
        ∃ file ∈ graph.nodes, Relation.TransGen (graph.Imports (· == .direct)) file file) ∧
      (code ≠ 1 → code = 0) ∧
      ∀ (settings' : Settings) (files' : FileTree) (machine' : Machine) (path' : String)
        (repository' : Repository), settings'.buildOptions = settings.buildOptions →
        Repository.load files' path' = .ok repository' →
        settings.buildOptions.SameDirectImports repository repository' →
        let ending := (cycles path' failOnCycles).runWith settings' files' machine'
        ending.result = .ok code ∨ ∃ output fault, settings'.outputFile = some output ∧
          ending.result = .error (.outputWrite output fault) := by
  have hcommand : ∀ origin, ∀ place force, cycles origin failOnCycles ≠ .init place force := by
    simp
  obtain ⟨text, houtcome⟩ := exists_outcome_of_result (hcommand path) h
  -- What the command has presented are the cycles of the graph that it has built.
  have hpresents := (outcome_eq_ok_iff (hcommand path)).mp houtcome
  cases hpresents with
  | cycles hgraph hcycles htext =>
    rename_i graph cycles
    obtain ⟨repository, hload, hbuild⟩ := Outcome.bind_eq_ok_iff.mp hgraph
    have hw : graph.WellFormed := (Graph.builtFrom_of_build hbuild).wellFormed
    obtain rfl := Except.ok.inj (hw.cycles_eq_ok.symm.trans hcycles)
    refine ⟨repository, graph, hload, hbuild, cyclesExitCode_eq_one_iff hw failOnCycles, ?_, ?_⟩
    · intro hne
      have hle := cyclesExitCode_le_one failOnCycles graph.cyclesUnchecked
      omega
    · -- The other graph has the same direct edges, and only these decide about the code.
      intro settings' files' machine' path' repository' hoptions hload' hsame ending
      have hcheck := Repository.check_of_load hload'
      obtain ⟨graph', hbuild', hnodes, himports⟩ :=
        Graph.exists_build_of_sameDirectImports hbuild hcheck hsame
      have hw' : graph'.WellFormed := (Graph.builtFrom_of_build hbuild').wellFormed
      rw [← hoptions] at hbuild'
      obtain ⟨text', houtcome'⟩ := exists_cycles_outcome failOnCycles machine' hload' hbuild'
      rw [← cyclesExitCode_congr hw' hw hnodes himports failOnCycles]
      exact result_of_outcome (hcommand path') houtcome'

/-- Two files that import each other. Without the import of a module and that of a file by itself the
exit code stays the same, in another format and from another file. -/
theorem cycles_exitCode_pair :
    let repository : Repository :=
      { rootPath := "/", files :=
          [{ path := "a.py", content := "", imports := ["b", "os"] },
            { path := "b.py", content := "", imports := ["a.py", "b.py"] }] }
    let bare : Repository :=
      { rootPath := "/", files :=
          [{ path := "a.py", content := "", imports := ["b"] },
            { path := "b.py", content := "", imports := ["a.py"] }] }
    let settings : Settings :=
      { rules := { extensions := [".py"], indexFiles := [], externalModules := ["os"] } }
    let files : FileTree :=
      { nodes := .ofEntries [("repo.json", .text (Repository.codec.encode repository).pretty),
          ("bare.json", .text (Repository.codec.encode bare).pretty)] }
    let machine : Machine := { now := ⟨⟨2024, 1, 1⟩, 0, 0, 0⟩ }
    ((cycles "repo.json" true).runWith settings files machine).result = .ok 1 ∧
      ((cycles "bare.json" true).runWith { settings with outputFormat := .csv } files
        machine).result = .ok 1 := by
  intro repository bare settings files machine
  have hlookup : ∀ name, files.nodes.get? name =
      [("bare.json", FileNode.text (Repository.codec.encode bare).pretty),
        ("repo.json", .text (Repository.codec.encode repository).pretty)].lookup name :=
    Dictionary.get?_ofEntries _
  have hload : Repository.load files "repo.json" = .ok repository := by
    refine Repository.load_name (by decide) ?_ (by decide) rfl ?_
    · exact repository.check_eq_ok_iff.mpr ⟨by decide, by decide⟩
    · rw [hlookup]
      rfl
  have hload' : Repository.load files "bare.json" = .ok bare := by
    refine Repository.load_name (by decide) ?_ (by decide) rfl ?_
    · exact bare.check_eq_ok_iff.mpr ⟨by decide, by decide⟩
    · rw [hlookup]
      rfl
  let graph : Graph := ⟨["a.py", "b.py"], [⟨"a.py", "b.py", .direct⟩, ⟨"a.py", "os", .external⟩,
    ⟨"b.py", "a.py", .direct⟩]⟩
  have hbuild : Graph.build settings.buildOptions none repository = .ok graph := by
    have hcheck : repository.check = .ok () :=
      repository.check_eq_ok_iff.mpr ⟨by decide, by decide⟩
    have hrules : Classifier.ofRules settings.rules = .ok ⟨["os"], []⟩ := rfl
    refine (Graph.build_eq_ok_of_classifier none hcheck rfl rfl hrules).trans ?_
    simp only [Option.getD_none, Graph.importEdge?_resolver]
    decide +kernel
  have hcycles : graph.cyclesUnchecked = [["a.py", "b.py"]] := by cbv
  have hresult : ((cycles "repo.json" true).runWith settings files machine).result = .ok 1 := by
    obtain ⟨text, houtcome⟩ := exists_cycles_outcome true machine hload hbuild
    rw [hcycles] at houtcome
    rcases result_of_outcome (by simp) houtcome with hok | ⟨output, fault, hsome, -⟩
    · exact hok
    · cases hsome
  refine ⟨hresult, ?_⟩
  obtain ⟨found, -, hfound, -, -, -, hothers⟩ := cycles_exitCode hresult
  obtain rfl := Except.ok.inj (hload.symm.trans hfound)
  -- The two imports that are left out resolve to nothing and to the file itself.
  have hmodule : (repository.resolver settings.rules).find? "os" "a.py" = none :=
    (repository.find?_resolver settings.rules "os" "a.py").trans (by decide +kernel)
  have hself : (repository.resolver settings.rules).find? "b.py" "b.py" = some "b.py" :=
    (repository.find?_resolver settings.rules "b.py" "b.py").trans (by decide +kernel)
  have hsame : settings.buildOptions.SameDirectImports repository bare := by
    refine ⟨rfl, ?_⟩
    rintro source rawImport target ⟨hne, hresolves⟩
    have hanswer : (repository.resolver settings.rules).find? rawImport source = some target := by
      cases hresolves with
      | direct hanswer => exact hanswer
    constructor
    · intro himport
      have himports : (source, rawImport) ∈
          [("a.py", "b"), ("a.py", "os"), ("b.py", "a.py"), ("b.py", "b.py")] := himport
      simp only [List.mem_cons, Prod.mk.injEq, List.not_mem_nil, or_false] at himports
      rcases himports with ⟨rfl, rfl⟩ | ⟨rfl, rfl⟩ | ⟨rfl, rfl⟩ | ⟨rfl, rfl⟩
      · decide
      · cases hmodule.symm.trans hanswer
      · decide
      · exact absurd (Option.some.inj (hself.symm.trans hanswer)) hne.symm
    · intro himport
      have hsubset : bare.imports ⊆ repository.imports := by decide
      exact hsubset himport
  rcases hothers { settings with outputFormat := .csv } files machine "bare.json" bare rfl hload' hsame
    with hok | ⟨output, fault, hsome, -⟩
  · exact hok
  · cases hsome

end Command

end ImportAtlas
