import ImportAtlas.CommandLine.Execution
import ImportAtlas.Proofs.Files.Write
import ImportAtlas.Proofs.Repository.Reading

/-!
# What commands change

A command works out the whole text of its outcome before anything is written. If this fails, files and
output are as they were. Otherwise the text goes to the output file, or to the standard output if there
is none, with a line feed at its end, and nothing else changes. The command that makes a settings file
leaves one alone that is there, unless it is forced.

## Main definitions

* `Command.Presents`: the text and the exit code that a command comes to
* `Command.Ends`: how a command ends that works out a text

## Main results

* `Repository.load_of_holds`: loading a file is checking the description that it holds
* `Command.outcome_eq_ok_iff`: what each command does before it writes
* `Command.ends_runWith`: a command ends in one of four ways
* `Command.runWith_effects`: commands leave no partial results
-/

namespace ImportAtlas

/-- Loading a file is checking the description that it holds. -/
theorem Repository.load_of_holds {files : FileTree} {path text : String} {r : Repository}
    (hr : r.InRange) (hread : files.read path = .ok text)
    (htext : Json.Holds text (codec.encode r).document) :
    load files path = (r.check.mapError Violation.toError).map fun _ => r := by
  rw [← read_of_holds hr htext path]
  unfold load
  rw [hread]
  rfl

/-- A valid description that has been written to a file is loaded from there. -/
theorem Repository.load_name {files : FileTree} {name : String} {r : Repository} (hr : r.InRange)
    (hcheck : r.check = .ok ()) (hname : FileTree.IsName name) (htop : files.workingDirectory = [])
    (hget : files.nodes.get? name = some (.text (codec.encode r).pretty)) :
    load files name = .ok r := by
  have hread : files.read name = .ok (codec.encode r).pretty := FileTree.read_name hname htop hget
  rw [load_of_holds hr hread (Json.holds_pretty _), hcheck]
  rfl

section Presents

variable (settings : Settings) (files : FileTree) (machine : Machine)

/-- The text that a command presents, with the exit code. -/
inductive Command.Presents : Command → String → Nat → Prop where
  | graph {path text : String} {graph : Graph} (hgraph : Graph.load settings files path = .ok graph)
      (htext : settings.renderer.graph graph = .ok text) : Presents (.graph path) text 0
  | cycles {path text : String} {failOnCycles : Bool} {graph : Graph} {cycles : List (List String)}
      (hgraph : Graph.load settings files path = .ok graph) (hcycles : graph.cycles = .ok cycles)
      (htext : settings.renderer.cycles cycles = .ok text) :
      Presents (.cycles path failOnCycles) text (cyclesExitCode failOnCycles cycles)
  | impact {path target text : String} {maxHops : Option Nat} {graph : Graph}
      {index : ReverseIndex} {impact : Impact} (hgraph : Graph.load settings files path = .ok graph)
      (hindex : ReverseIndex.create graph = .ok index)
      (himpact : maxHops.elim (index.impactOf target) (index.impactWithin target) = .ok impact)
      (htext : settings.renderer.impact impact = .ok text) :
      Presents (.impact path target maxHops) text 0
  | report {path text : String} {blastRadius : Bool} {repository : Repository} {analysis : Analysis}
      (hrepository : Repository.load files path = .ok repository)
      (hanalysis : analyze settings none blastRadius machine.processors machine.now repository =
        .ok analysis)
      (htext : settings.renderer.report analysis.report = .ok text) :
      Presents (.report path blastRadius) text 0

/-- How a command ends that works out a text. -/
inductive Command.Ends (command : Command) : Ending → Prop where
  | failed {error : Error} (houtcome : command.outcome settings files machine = .error error) :
      Ends command { files, result := .error error }
  | printed {text : String} {code : Nat}
      (houtcome : command.outcome settings files machine = .ok (text, code))
      (hnone : settings.outputFile = none) :
      Ends command { files, output := endLine text, result := .ok code }
  | written {text path : String} {code : Nat} {after : FileTree}
      (houtcome : command.outcome settings files machine = .ok (text, code))
      (hpath : settings.outputFile = some path)
      (hwrite : files.write path (endLine text) = .ok after) :
      Ends command { files := after, result := .ok code }
  | unwritable {text path : String} {code : Nat} {fault : FileFault}
      (houtcome : command.outcome settings files machine = .ok (text, code))
      (hpath : settings.outputFile = some path)
      (hwrite : files.write path (endLine text) = .error fault) :
      Ends command { files, result := .error (.outputWrite path fault) }

variable {settings files machine}

/-- What is left of a command once its outcome is there: the text is made, and the exit code. -/
theorem render_eq_ok_iff {rendered : Except Error String} {text : String} {done code : Nat} :
    (do let text ← rendered; return (text, done)) = Except.ok (text, code) ↔
      rendered = .ok text ∧ done = code := by
  cases rendered with
  | error e => simp [bind, Except.bind]
  | ok found => simp [bind, Except.bind, pure, Except.pure]

/-- **What each command does before it writes.** -/
theorem Command.outcome_eq_ok_iff {command : Command}
    (hcommand : ∀ path force, command ≠ .init path force) {text : String} {code : Nat} :
    command.outcome settings files machine = .ok (text, code) ↔
      command.Presents settings files machine text code := by
  cases command with
  | graph path =>
    constructor
    · intro h
      obtain ⟨graph, hgraph, h⟩ := Outcome.bind_eq_ok_iff.mp h
      obtain ⟨htext, rfl⟩ := render_eq_ok_iff.mp h
      exact .graph hgraph htext
    · intro h
      cases h with
      | graph hgraph htext =>
        exact Outcome.bind_eq_ok_iff.mpr ⟨_, hgraph, render_eq_ok_iff.mpr ⟨htext, rfl⟩⟩
  | cycles path failOnCycles =>
    constructor
    · intro h
      obtain ⟨graph, hgraph, h⟩ := Outcome.bind_eq_ok_iff.mp h
      obtain ⟨cycles, hcycles, h⟩ := Outcome.bind_eq_ok_iff.mp h
      obtain ⟨htext, rfl⟩ := render_eq_ok_iff.mp h
      exact .cycles hgraph hcycles htext
    · intro h
      cases h with
      | cycles hgraph hcycles htext =>
        refine Outcome.bind_eq_ok_iff.mpr ⟨_, hgraph, ?_⟩
        exact Outcome.bind_eq_ok_iff.mpr ⟨_, hcycles, render_eq_ok_iff.mpr ⟨htext, rfl⟩⟩
  | impact path target maxHops =>
    constructor
    · intro h
      obtain ⟨graph, hgraph, h⟩ := Outcome.bind_eq_ok_iff.mp h
      obtain ⟨index, hindex, h⟩ := Outcome.bind_eq_ok_iff.mp h
      -- With and without a bound the command goes on in the same way.
      cases maxHops <;>
        obtain ⟨impact, himpact, h⟩ := Outcome.bind_eq_ok_iff.mp h <;>
        obtain ⟨htext, rfl⟩ := render_eq_ok_iff.mp h <;>
        exact .impact hgraph hindex himpact htext
    · intro h
      cases h with
      | impact hgraph hindex himpact htext =>
        refine Outcome.bind_eq_ok_iff.mpr ⟨_, hgraph, ?_⟩
        refine Outcome.bind_eq_ok_iff.mpr ⟨_, hindex, ?_⟩
        cases maxHops <;>
          exact Outcome.bind_eq_ok_iff.mpr ⟨_, himpact, render_eq_ok_iff.mpr ⟨htext, rfl⟩⟩
  | report path blastRadius =>
    constructor
    · intro h
      obtain ⟨repository, hrepository, h⟩ := Outcome.bind_eq_ok_iff.mp h
      obtain ⟨analysis, hanalysis, h⟩ := Outcome.bind_eq_ok_iff.mp h
      obtain ⟨htext, rfl⟩ := render_eq_ok_iff.mp h
      exact .report hrepository hanalysis htext
    · intro h
      cases h with
      | report hrepository hanalysis htext =>
        refine Outcome.bind_eq_ok_iff.mpr ⟨_, hrepository, ?_⟩
        exact Outcome.bind_eq_ok_iff.mpr ⟨_, hanalysis, render_eq_ok_iff.mpr ⟨htext, rfl⟩⟩
  | init path force => exact absurd rfl (hcommand path force)

/-! ## Writing -/

theorem endLine_eq (text : String) :
    endLine text =
      if text ≠ "" ∧ text.toList.getLast? ≠ some '\n' then text ++ "\n" else text := by
  unfold endLine
  by_cases hempty : text = ""
  · simp [hempty]
  · by_cases hline : text.toList.getLast? = some '\n'
    · simp [hline]
    · simp [hempty, hline]

variable (settings files machine) in
/-- A command writes its outcome if there is one. -/
theorem Command.runWith_eq {command : Command}
    (hcommand : ∀ path force, command ≠ .init path force) :
    command.runWith settings files machine =
      match command.outcome settings files machine with
      | .error error => { files, result := .error error }
      | .ok (text, code) => .ofText files settings.outputFile text code := by
  cases command with
  | init path force => exact absurd rfl (hcommand path force)
  | graph path => rfl
  | cycles path failOnCycles => rfl
  | impact path target maxHops => rfl
  | report path blastRadius => rfl

variable (settings files machine) in
/-- **A command ends in one of four ways**: there is no outcome, or its text is printed, or it is written
to the output file, or the output file cannot be written. -/
theorem Command.ends_runWith {command : Command}
    (hcommand : ∀ path force, command ≠ .init path force) :
    command.Ends settings files machine (command.runWith settings files machine) := by
  rw [runWith_eq settings files machine hcommand]
  rcases houtcome : command.outcome settings files machine with error | ⟨text, code⟩
  · exact .failed houtcome
  · unfold Ending.ofText
    cases hpath : settings.outputFile with
    | none => exact .printed houtcome hpath
    | some path =>
      simp only
      cases hwrite : files.write path (endLine text) with
      | ok after => exact .written houtcome hpath hwrite
      | error fault => exact .unwritable houtcome hpath hwrite

/-- A command that succeeds has an outcome with its exit code. -/
theorem Command.exists_outcome_of_result {command : Command}
    (hcommand : ∀ path force, command ≠ .init path force) {code : Nat}
    (h : (command.runWith settings files machine).result = .ok code) :
    ∃ text, command.outcome settings files machine = .ok (text, code) := by
  have hends := ends_runWith settings files machine hcommand
  generalize command.runWith settings files machine = ending at h hends
  cases hends with
  | failed => cases h
  | printed houtcome => exact ⟨_, houtcome.trans (by rw [Except.ok.inj h])⟩
  | written houtcome => exact ⟨_, houtcome.trans (by rw [Except.ok.inj h])⟩
  | unwritable => cases h

/-- A command with an outcome succeeds unless the output file cannot be written. -/
theorem Command.result_of_outcome {command : Command}
    (hcommand : ∀ path force, command ≠ .init path force) {text : String} {code : Nat}
    (h : command.outcome settings files machine = .ok (text, code)) :
    (command.runWith settings files machine).result = .ok code ∨
      ∃ path fault, settings.outputFile = some path ∧
        (command.runWith settings files machine).result = .error (.outputWrite path fault) := by
  have hends := ends_runWith settings files machine hcommand
  generalize command.runWith settings files machine = ending at hends ⊢
  cases hends with
  | failed houtcome => cases h.symm.trans houtcome
  | printed houtcome =>
    cases h.symm.trans houtcome
    exact .inl rfl
  | written houtcome =>
    cases h.symm.trans houtcome
    exact .inl rfl
  | unwritable _ hpath => exact .inr ⟨_, _, hpath, rfl⟩

/-- The command that makes a settings file leaves one alone that is there, unless it is forced. -/
theorem Ending.ofInit_of_exists {path : String} (h : files.exists? path = true) :
    ∃ notices, ofInit files path false = { files, notices, result := .ok 0 } := by
  unfold ofInit
  rw [h]
  exact ⟨_, rfl⟩

end Presents

/-- **Commands leave no partial results.** A command that fails leaves files and output as they were:
either it has no outcome, or the output file cannot be written. A command that succeeds has a text to
present; the output file receives it, or the output if there is none, with a line feed behind it if it
is not empty and has none at its end, and nothing else changes. The command that makes a settings file
changes nothing if the file is there and it is not forced. -/
theorem Command.runWith_effects (settings : Settings) (files : FileTree) (machine : Machine) :
    (∀ command : Command, (∀ path force, command ≠ .init path force) →
      let ending := command.runWith settings files machine
      (∀ e, ending.result = .error e → ending.files = files ∧ ending.output = "" ∧
        (command.outcome settings files machine = .error e ∨
          ∃ path fault text code, settings.outputFile = some path ∧ e = .outputWrite path fault ∧
            command.Presents settings files machine text code ∧
            files.write path (endLine text) = .error fault)) ∧
      ∀ code, ending.result = .ok code → ∃ text received,
        command.Presents settings files machine text code ∧
        received = (if text ≠ "" ∧ text.toList.getLast? ≠ some '\n' then text ++ "\n" else text) ∧
        (settings.outputFile = none ∧ ending.output = received ∧ ending.files = files ∨
          ∃ path, settings.outputFile = some path ∧ ending.output = "" ∧
            files.Receives path received ending.files)) ∧
    ∀ path, files.exists? path = true →
      let ending := (Command.init path false).runWith settings files machine
      ending.files = files ∧ ending.output = "" ∧ ending.result = .ok 0 := by
  constructor
  · intro command hcommand ending
    have hends := Command.ends_runWith settings files machine hcommand
    change command.Ends settings files machine ending at hends
    generalize ending = ended at hends ⊢
    cases hends with
    | failed houtcome =>
      constructor
      · intro e he
        obtain rfl := Except.error.inj he
        exact ⟨rfl, rfl, .inl houtcome⟩
      · intro code h
        cases h
    | printed houtcome hnone =>
      have hpresents := (Command.outcome_eq_ok_iff hcommand).mp houtcome
      constructor
      · intro e he
        cases he
      · intro code h
        obtain rfl := Except.ok.inj h
        exact ⟨_, _, hpresents, endLine_eq _, .inl ⟨hnone, rfl, rfl⟩⟩
    | written houtcome hpath hwrite =>
      have hpresents := (Command.outcome_eq_ok_iff hcommand).mp houtcome
      constructor
      · intro e he
        cases he
      · intro code h
        obtain rfl := Except.ok.inj h
        exact ⟨_, _, hpresents, endLine_eq _, .inr ⟨_, hpath, rfl, .of_write hwrite⟩⟩
    | unwritable houtcome hpath hwrite =>
      have hpresents := (Command.outcome_eq_ok_iff hcommand).mp houtcome
      constructor
      · intro e he
        obtain rfl := Except.error.inj he
        exact ⟨rfl, rfl, .inr ⟨_, _, _, _, hpath, rfl, hpresents, hwrite⟩⟩
      · intro code h
        cases h
  · intro path hexists ending
    obtain ⟨notices, hended⟩ := Ending.ofInit_of_exists hexists
    have hending : ending = { files, notices, result := .ok 0 } := hended
    rw [hending]
    exact ⟨rfl, rfl, rfl⟩

/-- A description that is missing, and one without files whose graph is written over another one. -/
theorem Command.runWith_effects_table :
    let text := (Repository.codec.encode { rootPath := "/" }).pretty
    let settings : Settings := { outputFormat := .csv, outputFile := some "graph.csv" }
    let files : FileTree :=
      { nodes := .ofEntries [("graph.csv", .text "old"), ("repo.json", .text text)] }
    let machine : Machine := { now := ⟨⟨2024, 1, 1⟩, 0, 0, 0⟩ }
    let failed := (Command.graph "other.json").runWith settings files machine
    let written := (Command.graph "repo.json").runWith settings files machine
    let kept := (Command.init "repo.json" false).runWith settings files machine
    (failed.files = files ∧ failed.output = "") ∧
      (written.files.read "graph.csv" = .ok "source,target,type\n" ∧ written.output = "") ∧
      kept.files = files := by
  intro text settings files machine failed written kept
  obtain ⟨hcommands, hinit⟩ := Command.runWith_effects settings files machine
  have hlookup : ∀ name, files.nodes.get? name =
      [("repo.json", FileNode.text text), ("graph.csv", .text "old")].lookup name :=
    Dictionary.get?_ofEntries _
  have hget : files.nodes.get? "repo.json" = some (.text text) := by
    rw [hlookup]
    rfl
  refine ⟨?_, ?_, ?_⟩
  · -- The description is missing, so the graph is not even built.
    have hmissing : files.find "other.json" = .error .notFound := by
      rw [FileTree.find_name (by decide) rfl, hlookup]
      rfl
    have hresult : failed.result = .error (.fileRead "other.json" FileFault.notFound.message) := by
      simp [failed, Command.runWith, Command.outcome, Graph.load, Repository.load, FileTree.read,
        hmissing, bind, Except.bind, Except.mapError]
    obtain ⟨hfiles, houtput, -⟩ := (hcommands (.graph "other.json") (by simp)).1 _ hresult
    exact ⟨hfiles, houtput⟩
  · have hgraph : Graph.load settings files "repo.json" = .ok .empty := by
      unfold Graph.load
      rw [Repository.load_name (by decide) rfl (by decide) rfl hget]
      cbv
    have htext : settings.renderer.graph .empty = .ok "source,target,type\n" := by cbv
    have hlocate : files.locate "graph.csv" = .ok ⟨["graph.csv"], some (.text "old")⟩ := by
      rw [FileTree.locate_name (by decide) rfl, hlookup]
      rfl
    have hwrite : ∃ after, files.write "graph.csv" (endLine "source,target,type\n") = .ok after :=
      ⟨_, FileTree.write_eq_ok_iff.mpr ⟨by decide, _, hlocate, by simp, rfl⟩⟩
    have hresult : written.result = .ok 0 := by
      obtain ⟨after, hafter⟩ := hwrite
      have hpresents : Command.Presents settings files machine (.graph "repo.json") _ 0 :=
        .graph hgraph htext
      have houtcome := (Command.outcome_eq_ok_iff (by simp)).mpr hpresents
      simp [written, Command.runWith, houtcome, Ending.ofText, hafter, settings]
    obtain ⟨shown, received, hpresents, hreceived, hreceives⟩ :=
      (hcommands (.graph "repo.json") (by simp)).2 0 hresult
    -- The text is that of the graph, which ends with a line feed.
    obtain rfl : shown = "source,target,type\n" := by
      cases hpresents with
      | graph hloaded hshown =>
        obtain rfl := Except.ok.inj (hgraph.symm.trans hloaded)
        exact Except.ok.inj (hshown.symm.trans htext)
    obtain rfl : received = "source,target,type\n" := by
      rw [hreceived]
      decide
    rcases hreceives with ⟨hnone, -⟩ | ⟨path, hpath, houtput, hfile⟩
    · cases hnone
    · obtain rfl := Option.some.inj hpath
      exact ⟨hfile.read_eq, houtput⟩
  · have hexists : files.exists? "repo.json" = true := by
      unfold FileTree.exists?
      rw [FileTree.find_name (by decide) rfl, hget]
      rfl
    exact (hinit "repo.json" hexists).1

end ImportAtlas
