import ImportAtlas.Proofs.Analysis.Agreement
import ImportAtlas.Proofs.Analysis.Ranking
import ImportAtlas.Proofs.Graph.Locality
import ImportAtlas.Proofs.Table.Content
import ImportAtlas.Proofs.Table.Tallies

/-!
# The views of a report agree

A report shows a graph in several ways: by statistics, by cycles, by a ranking of the files and by a
table with a row for each file. The numbers in them are computed apart: the statistics look for the
largest lists of neighbours, the ranking counts what traversals find, and the table enters the edges in
tallies. They agree because the nodes of a graph that has been built are distinct, no file imports
itself, and every edge starts at a node: so each file has one row and one entry, its importers are its
dependents at distance one, and every edge is counted in the row of its source.

## Main definitions

* `FileRow`: what the table of a report says of a file
* `Report.ViewsAgree`: when the rows of the table, the statistics, the cycles and the ranking agree

## Main results

* `reportTable_eq`: the table of a report in terms of its rows
* `viewsAgree_of_impacts`: the views of a report on a well-formed graph agree
* `viewsAgree_of_analyzeBy`: the views of the report of an analysis agree
-/

namespace ImportAtlas

/-- What the table of a report says of a file. -/
structure FileRow where
  path : String
  imports : Nat
  importedBy : Nat
  external : Nat
  unresolved : Nat
  inCycle : Bool
  dependents : Nat
  deriving DecidableEq, Repr

namespace FileRow

/-- The fields of a row, in the order of the columns. -/
def fields (row : FileRow) : List String :=
  [row.path, toString row.imports, toString row.importedBy, toString row.external,
    toString row.unresolved, if row.inCycle then "true" else "false", toString row.dependents]

/-- The largest measure of rows, zero without rows, and the path of the first row that has it, none if
it is zero. -/
def largest (measure : FileRow → Nat) (rows : List FileRow) : Nat × Option String :=
  let most := (rows.map measure).max?.getD 0
  (most, if most = 0 then none else (rows.find? (measure · == most)).map (·.path))

/-- Looking for the largest measure among the rows of paths is looking for it among the paths. -/
theorem largest_map (measure : FileRow → Nat) {row : String → FileRow}
    (hpath : ∀ path, (row path).path = path) (paths : List String) :
    largest measure (paths.map row) = Graph.largest (fun path => measure (row path)) paths := by
  have hid : (·.path) ∘ row = id := funext hpath
  rw [Graph.largest_eq]
  simp only [largest, List.map_map, List.find?_map, Option.map_map, hid, Option.map_id]
  rfl

end FileRow

namespace Report

/-- When the rows of the table of a report, its statistics, its cycles and its ranking agree. -/
structure ViewsAgree (report : Report) (rows : List FileRow) (ranking : List BlastRadius) :
    Prop where
  /-- No file is listed twice. -/
  nodes_nodup : report.graph.nodes.Nodup
  /-- There is one row for each file, in the order of the files. -/
  paths_eq : rows.map (·.path) = report.graph.nodes
  /-- There is one entry for each file. -/
  ranked_perm : (ranking.map (·.path)).Perm report.graph.nodes
  imports_eq : ∀ row ∈ rows, row.imports =
    {target | report.graph.Imports EdgeKind.isInternal row.path target}.ncard
  importedBy_eq : ∀ row ∈ rows, row.importedBy =
    {source | report.graph.Imports EdgeKind.isInternal source row.path}.ncard
  ranked_eq : ∀ row ∈ rows, ∃ entry ∈ ranking, entry.path = row.path ∧
    entry.directDependents = row.importedBy ∧ entry.dependents = row.dependents
  maxFanIn_eq : (report.statistics.maxFanIn, report.statistics.maxFanInFile) =
    FileRow.largest (·.importedBy) rows
  maxFanOut_eq : (report.statistics.maxFanOut, report.statistics.maxFanOutFile) =
    FileRow.largest (·.imports) rows
  isolatedFiles_eq : report.statistics.isolatedFiles =
    rows.countP fun row => row.imports == 0 && row.importedBy == 0
  externalEdges_eq : (rows.map (·.external)).sum = report.statistics.externalEdges
  unresolvedEdges_eq : (rows.map (·.unresolved)).sum = report.statistics.unresolvedEdges
  inCycle_iff : ∀ row ∈ rows, row.inCycle = true ↔ ∃ cycle ∈ report.cycles, row.path ∈ cycle

/-! ## Rows -/

/-- The number of edges of a kind that start at a file. -/
def edgesFrom (graph : Graph) (kind : EdgeKind) (path : String) : Nat :=
  graph.edges.countP fun edge => edge.source == path && edge.kind == kind

/-- The row of a file. -/
def fileRow (report : Report) (path : String) : FileRow where
  path := path
  imports := ((Render.Tallies.ofEdges report.graph.edges).of path).imports.size
  importedBy := ((Render.Tallies.ofEdges report.graph.edges).of path).importedBy.size
  external := ((Render.Tallies.ofEdges report.graph.edges).of path).external
  unresolved := ((Render.Tallies.ofEdges report.graph.edges).of path).unresolved
  inCycle := report.cycles.flatten.contains path
  dependents := ((Render.rankedDependents report.blastRadius).get? path).getD 0

section Row

variable (report : Report) (path : String)

theorem imports_fileRow : (report.fileRow path).imports = report.graph.fanTable.fanOut path :=
  Render.size_imports_eq_fanOut report.graph path

theorem importedBy_fileRow :
    (report.fileRow path).importedBy = report.graph.fanTable.fanIn path :=
  Render.size_importedBy_eq_fanIn report.graph path

theorem external_fileRow :
    (report.fileRow path).external = edgesFrom report.graph .external path :=
  (Render.tallied_ofEdges report.graph.edges).external_eq path

theorem unresolved_fileRow :
    (report.fileRow path).unresolved = edgesFrom report.graph .unresolved path :=
  (Render.tallied_ofEdges report.graph.edges).unresolved_eq path

end Row

/-- **The table of a report in terms of its rows**, if all files are ranked. -/
theorem reportTable_eq {report : Report}
    (hranked : ∀ path ∈ report.graph.nodes,
      ∃ count, (Render.rankedDependents report.blastRadius).get? path = some count) :
    Render.reportTable report =
      ["path", "imports", "imported_by", "external", "unresolved", "in_cycle", "dependents"] ::
        (report.graph.nodes.map report.fileRow).map FileRow.fields := by
  unfold Render.reportTable
  rw [List.map_map]
  refine congrArg _ (List.map_congr_left ?_)
  intro path hp
  obtain ⟨count, hcount⟩ := hranked path hp
  simp only [FileRow.fields, fileRow, hcount, Option.getD_some, Std.HashSet.contains_ofList,
    Function.comp_apply]

/-! ## Rankings -/

theorem target_of_impactOf {index : ReverseIndex} {path : String} {impact : Impact}
    (h : index.impactOf path = .ok impact) : impact.target = path := by
  unfold ReverseIndex.impactOf ReverseIndex.traverse at h
  split at h
  · cases h
  · obtain rfl := Except.ok.inj h
    rfl

theorem map_target_impacts {index : ReverseIndex} {paths : List String} {impacts : List Impact}
    (h : paths.map index.impactOf = impacts.map .ok) : impacts.map (·.target) = paths := by
  induction paths generalizing impacts with
  | nil =>
    obtain rfl := List.map_eq_nil_iff.mp h.symm
    rfl
  | cons path paths ih =>
    obtain ⟨impact, impacts, rfl, himpact, himpacts⟩ := List.map_eq_cons_iff.mp h.symm
    rw [List.map_cons, target_of_impactOf himpact.symm, ih himpacts.symm]

section Ranking

variable {graph : Graph} {impacts : List Impact}
  (himpacts : graph.nodes.map (ReverseIndex.ofGraph graph).impactOf = impacts.map .ok)

include himpacts

/-- **Each file has one entry in the ranking.** -/
theorem map_path_rank_perm : ((rank impacts).map (·.path)).Perm graph.nodes := by
  refine ((rank_perm impacts).map _).trans ?_
  rw [← map_target_impacts himpacts, List.map_map]
  exact List.Perm.refl _

variable (hw : graph.WellFormed)

include hw

/-- The dependents of a file are looked up in its entry. -/
theorem get?_rankedDependents {entry : BlastRadius} (he : entry ∈ rank impacts) :
    (Render.rankedDependents (some (rank impacts))).get? entry.path = some entry.dependents := by
  have hnodup : ((rank impacts).map (·.path)).Nodup :=
    (map_path_rank_perm himpacts).nodup_iff.mpr hw.nodes_nodup
  unfold Render.rankedDependents
  rw [Dictionary.get?_eq_some_iff, Dictionary.mem_entries_ofEntries_iff]
  · exact List.mem_map_of_mem he
  · rw [List.map_map]
    exact hnodup

/-- **The entry of a file that does not import itself** has its fan-in as the number of dependents at
distance one. -/
theorem exists_mem_rank {path : String} (hp : path ∈ graph.nodes)
    (hself : ¬graph.Imports EdgeKind.isInternal path path) :
    ∃ entry ∈ rank impacts, entry.path = path ∧
      entry.directDependents = graph.fanTable.fanIn path := by
  obtain ⟨impact, himpact, htarget, hiff⟩ := hw.impactOf_of_mem hp
  have hmem : Except.ok impact ∈ impacts.map (Except.ok : Impact → Except Error Impact) := by
    rw [← himpacts, ← himpact]
    exact List.mem_map_of_mem hp
  obtain ⟨listed, hlisted, heq⟩ := List.mem_map.mp hmem
  obtain rfl := Except.ok.inj heq
  refine ⟨listed.blastRadius, ?_, htarget, hw.length_directDependents hself hiff⟩
  exact (rank_perm impacts).mem_iff.mpr (List.mem_map_of_mem hlisted)

end Ranking

/-! ## Reports -/

/-- **The views of a report on a well-formed graph agree** if no file imports itself. -/
theorem viewsAgree_of_impacts {graph : Graph} {impacts : List Impact} (hw : graph.WellFormed)
    (hself : ∀ path, ¬graph.Imports EdgeKind.isInternal path path)
    (himpacts : graph.nodes.map (ReverseIndex.ofGraph graph).impactOf = impacts.map .ok)
    (name root : String) (now : Instant) :
    let report := (create name root now graph graph.cyclesUnchecked).withBlastRadius impacts
    report.ViewsAgree (graph.nodes.map report.fileRow) (rank impacts) := by
  intro report
  have hrow : ∀ path, (report.fileRow path).path = path := fun _ => rfl
  constructor
  case nodes_nodup => exact hw.nodes_nodup
  case paths_eq =>
    rw [List.map_map]
    exact (List.map_congr_left fun path _ => hrow path).trans (List.map_id _)
  case ranked_perm => exact map_path_rank_perm himpacts
  case imports_eq => exact List.forall_mem_map.mpr fun path _ => Render.size_imports graph path
  case importedBy_eq =>
    exact List.forall_mem_map.mpr fun path _ => Render.size_importedBy graph path
  case ranked_eq =>
    refine List.forall_mem_map.mpr ?_
    intro path hp
    obtain ⟨entry, he, rfl, hdirect⟩ := exists_mem_rank himpacts hw hp (hself path)
    have hdependents : (report.fileRow entry.path).dependents = entry.dependents :=
      congrArg (Option.getD · 0) (get?_rankedDependents himpacts hw he)
    rw [importedBy_fileRow]
    exact ⟨entry, he, rfl, hdirect, hdependents.symm⟩
  -- The statistics look for the largest fans, the rows have them from the tallies.
  case maxFanIn_eq =>
    rw [FileRow.largest_map _ hrow]
    simp only [importedBy_fileRow]
    rfl
  case maxFanOut_eq =>
    rw [FileRow.largest_map _ hrow]
    simp only [imports_fileRow]
    rfl
  case isolatedFiles_eq =>
    rw [List.countP_map]
    refine List.countP_congr ?_
    intro path _
    rw [Function.comp_apply, imports_fileRow, importedBy_fileRow]
    exact Bool.eq_iff_iff.mp (Bool.and_comm _ _)
  case externalEdges_eq =>
    simp only [List.map_map, Function.comp_def, external_fileRow]
    exact Graph.sum_map_count_eq_countP hw.nodes_nodup .external hw.source_mem
  case unresolvedEdges_eq =>
    simp only [List.map_map, Function.comp_def, unresolved_fileRow]
    exact Graph.sum_map_count_eq_countP hw.nodes_nodup .unresolved hw.source_mem
  case inCycle_iff =>
    refine List.forall_mem_map.mpr ?_
    intro path _
    rw [← List.mem_flatten]
    exact List.contains_iff_mem

end Report

/-- **The views of the report of an analysis agree**, if the files are ranked. The graph of the report is
the one that is built, and its cycles are those of the graph; the report has a ranking; and reading its
table gives one row for each file, which agree with the statistics, the cycles and the ranking. -/
theorem viewsAgree_of_analyzeBy {scheduler : Scheduler} {settings : Settings}
    {custom : Option Resolver} {processors : Nat} {now : Instant} {repository : Repository}
    {analysis : Analysis}
    (h : analyzeBy scheduler settings custom true processors now repository = .ok analysis) :
    Graph.build settings.buildOptions custom repository = .ok analysis.report.graph ∧
    analysis.report.graph.cycles = .ok analysis.report.cycles ∧
    ∃ text rows ranking, analysis.report.blastRadius = some ranking ∧
      (∀ renderer : Renderer,
        { renderer with format := .csv }.report analysis.report = .ok text) ∧
      Csv.read text = some (["path", "imports", "imported_by", "external", "unresolved", "in_cycle",
        "dependents"] :: rows.map FileRow.fields) ∧
      analysis.report.ViewsAgree rows ranking := by
  cases hbuild : Graph.build settings.buildOptions custom repository with
  | error e =>
    rw [analyzeBy_of_build_error scheduler settings custom processors now hbuild] at h
    cases h
  | ok graph =>
    have hbuilt := Graph.builtFrom_of_build hbuild
    have hw := hbuilt.wellFormed
    obtain ⟨impacts, himpacts⟩ := hw.exists_impacts
    rw [analyzeBy_of_build_ok scheduler settings custom processors now hbuild himpacts] at h
    obtain rfl := Except.ok.inj h
    have hself : ∀ path, ¬graph.Imports EdgeKind.isInternal path path := by
      rintro path ⟨edge, he, hk, hs, ht⟩
      exact (hbuilt.target_mem edge he hk).2 (ht.trans hs.symm)
    let report : Report := (Report.create repository.name repository.rootPath now graph
      graph.cyclesUnchecked).withBlastRadius impacts
    -- Every file has an entry, so no field of the table is left empty.
    have hranked : ∀ path ∈ graph.nodes,
        ∃ count, (Render.rankedDependents report.blastRadius).get? path = some count := by
      intro path hp
      obtain ⟨entry, he, rfl, -⟩ := Report.exists_mem_rank himpacts hw hp (hself path)
      exact ⟨entry.dependents, Report.get?_rankedDependents himpacts hw he⟩
    obtain ⟨text, htext, hread⟩ :=
      Csv.exists_table_eq_ok (by decide) fun _ => Csv.length_of_mem_reportTable report
    rw [Report.reportTable_eq hranked] at hread
    exact ⟨rfl, hw.cycles_eq_ok, text, _, Report.rank impacts, rfl, fun _ => htext, hread,
      Report.viewsAgree_of_impacts hw hself himpacts repository.name repository.rootPath now⟩

/-- Two files on a cycle, one of which imports the other one twice and a module besides, and a file
without imports. -/
theorem viewsAgree_of_analyzeBy_pair :
    let now : Instant := ⟨⟨2024, 1, 1⟩, 0, 0, 0⟩
    let settings : Settings :=
      { rules := { extensions := [".py"], indexFiles := [], externalModules := ["os"] } }
    let repository : Repository :=
      { rootPath := "/", files :=
          [{ path := "a.py", content := "", imports := ["b", "os", "b.py"] },
            { path := "b.py", content := "", imports := ["a", "b", "d"] },
            { path := "c.py", content := "" }] }
    ∃ analysis rows ranking,
      analyzeBy .turns settings none true 1 now repository = .ok analysis ∧
      analysis.report.graph.edges = [⟨"a.py", "b.py", .direct⟩, ⟨"a.py", "os", .external⟩,
        ⟨"b.py", "a.py", .direct⟩, ⟨"b.py", "d", .unresolved⟩] ∧
      rows.map FileRow.path = ["a.py", "b.py", "c.py"] ∧
      analysis.report.ViewsAgree rows ranking := by
  intro now settings repository
  let graph : Graph := ⟨["a.py", "b.py", "c.py"], [⟨"a.py", "b.py", .direct⟩,
    ⟨"a.py", "os", .external⟩, ⟨"b.py", "a.py", .direct⟩, ⟨"b.py", "d", .unresolved⟩]⟩
  have hbuild : Graph.build settings.buildOptions none repository = .ok graph := by
    have hcheck : repository.check = .ok () :=
      repository.check_eq_ok_iff.mpr ⟨by decide, by decide⟩
    have hrules : Classifier.ofRules settings.rules = .ok ⟨["os"], []⟩ := rfl
    refine (Graph.build_eq_ok_of_classifier none hcheck rfl rfl hrules).trans ?_
    simp only [Option.getD_none, Graph.importEdge?_resolver]
    decide +kernel
  have hw : graph.WellFormed := (Graph.builtFrom_of_build hbuild).wellFormed
  obtain ⟨impacts, himpacts⟩ := hw.exists_impacts
  have hanalysis := analyzeBy_of_build_ok .turns settings none 1 now hbuild himpacts
  obtain ⟨-, -, -, rows, ranking, -, -, -, hviews⟩ := viewsAgree_of_analyzeBy hanalysis
  exact ⟨_, rows, ranking, hanalysis, rfl, hviews.paths_eq, hviews⟩

end ImportAtlas
