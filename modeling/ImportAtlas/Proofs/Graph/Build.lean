import ImportAtlas.Proofs.Graph.Assembly
import ImportAtlas.Proofs.Graph.Cycles
import ImportAtlas.Proofs.Graph.Impact
import ImportAtlas.Proofs.Import.SymbolTable
import ImportAtlas.Proofs.Repository.Violations

/-!
# Built graphs

Every graph that is built from a repository passes its check, whatever the options and the resolver
are. A resolver may answer with any path; what keeps the edges among the nodes is that the symbol
table only knows the files that are left after the exclusions.

## Main definitions

* `Graph.BuiltFrom`: what a graph is like that is built from a repository
* `Graph.importEdge?`: the edge of an import that a resolver is asked for

## Main results

* `build_eq_ok_iff`: the stages of a build that succeeds
* `build_eq_ok_of_classifier`: the graph of a build that gets past its checks
* `builtFrom_of_build`: a graph that has been built is well formed, and no file imports itself
-/

namespace ImportAtlas.Graph

/-- What a graph is like that is built from a repository. -/
structure BuiltFrom (options : BuildOptions) (repository : Repository) (graph : Graph) : Prop where
  nodes_eq : ∃ patterns, compilePatterns options.excludePatterns = .ok patterns ∧
    graph.nodes = repository.paths.filter fun path => !anyAccepts patterns path
  nodes_nodup : graph.nodes.Nodup
  edges_nodup : graph.edges.Nodup
  source_mem : ∀ edge ∈ graph.edges, edge.source ∈ graph.nodes
  target_mem : ∀ edge ∈ graph.edges, edge.kind.isInternal = true →
    edge.target ∈ graph.nodes ∧ edge.target ≠ edge.source
  target_eq_trim : ∀ edge ∈ graph.edges, edge.kind.isInternal = false →
    ∃ file ∈ repository.files, file.path = edge.source ∧
      ∃ rawImport ∈ file.imports, edge.target = Text.trim rawImport

theorem BuiltFrom.wellFormed {options : BuildOptions} {repository : Repository} {graph : Graph}
    (h : graph.BuiltFrom options repository) : graph.WellFormed where
  nodes_nodup := h.nodes_nodup
  source_mem := h.source_mem
  target_mem := fun edge he hk => (h.target_mem edge he hk).1

/-! ## The stages of a build -/

theorem exclude_eq_ok_iff (patterns : List String) (repository kept : Repository) :
    exclude patterns repository = .ok kept ↔ ∃ compiled, compilePatterns patterns = .ok compiled ∧
      kept = { repository with
        files := repository.files.filter (!anyAccepts compiled ·.path) } := by
  unfold exclude
  rw [Outcome.bind_eq_ok_iff]
  refine exists_congr fun compiled => and_congr_right fun _ => ?_
  constructor
  · intro hok
    exact (Except.ok.inj hok).symm
  · rintro rfl
    rfl

/-- **A build succeeds if each of its stages does.** -/
theorem build_eq_ok_iff (options : BuildOptions) (custom : Option Resolver)
    (repository : Repository) (graph : Graph) :
    build options custom repository = .ok graph ↔
      repository.check = .ok () ∧
      ∃ kept, exclude options.excludePatterns repository = .ok kept ∧
        checkLimit options.maxNodes kept.files.length = .ok () ∧
        ∃ table, SymbolTable.build kept options.rules
            (custom.getD (kept.resolver options.rules)) = .ok table ∧
          assemble kept table = .ok graph := by
  unfold build
  rw [Outcome.check_bind_eq_ok_iff, Outcome.bind_eq_ok_iff]
  simp only [Outcome.check_bind_eq_ok_iff]
  simp only [Outcome.bind_eq_ok_iff, Outcome.mapError_eq_ok_iff]

/-! ## The edges of imports -/

/-- The edge of an import that a resolver is asked for, among the files of some paths. -/
def importEdge? (classifier : Classifier) (resolver : Resolver) (paths : List String)
    (pair : String × String) : Option Edge :=
  edgeOf? pair.1 pair.2
    (classifier.classify pair.2 ((resolver.find? pair.2 pair.1).filter (paths.contains ·)))

/-- The table of a repository knows the edges of its imports. -/
theorem exists_edges_eq_of_symbolTable {kept : Repository} {rules : ImportRules}
    {resolver : Resolver} {table : SymbolTable}
    (h : SymbolTable.build kept rules resolver = .ok table) :
    ∃ classifier, Classifier.ofRules rules = .ok classifier ∧
      table.edges kept.imports =
        kept.imports.filterMap (importEdge? classifier resolver kept.paths) := by
  obtain ⟨classifier, hrules, hget⟩ := SymbolTable.get?_of_build h
  refine ⟨classifier, hrules, ?_⟩
  unfold SymbolTable.edges
  refine List.filterMap_congr ?_
  rintro ⟨source, rawImport⟩ hpair
  rw [hget, if_pos hpair, Option.bind_some, importEdge?, edgeOf?_eq]

/-- **The table of a repository is assembled** if its files have distinct paths: every import is in
the table. -/
theorem exists_assemble_eq {kept : Repository} {rules : ImportRules} {resolver : Resolver}
    {table : SymbolTable} (hnodup : kept.paths.Nodup)
    (h : SymbolTable.build kept rules resolver = .ok table) :
    ∃ classifier, Classifier.ofRules rules = .ok classifier ∧
      assemble kept table = .ok ⟨kept.paths,
        (kept.imports.filterMap (importEdge? classifier resolver kept.paths)).eraseDups⟩ := by
  obtain ⟨classifier, hrules, hedges⟩ := exists_edges_eq_of_symbolTable h
  obtain ⟨_, -, hget⟩ := SymbolTable.get?_of_build h
  have hknown : (kept.imports.find? fun pair => (table.get? pair.1 pair.2).isNone) = none := by
    rw [List.find?_eq_none]
    intro pair hpair
    rw [hget, if_pos hpair]
    exact Bool.false_ne_true
  refine ⟨classifier, hrules, ?_⟩
  rw [assemble_eq, (firstRepeated?_eq_none_iff _).mpr hnodup, hknown, hedges]

/-- **A build that gets past its checks** gives the edges of the imports of the files that are left,
each where it occurs first. -/
theorem build_eq_ok_of_classifier {options : BuildOptions} {repository kept : Repository}
    {classifier : Classifier} (custom : Option Resolver) (hcheck : repository.check = .ok ())
    (hkept : exclude options.excludePatterns repository = .ok kept)
    (hlimit : checkLimit options.maxNodes kept.files.length = .ok ())
    (hrules : Classifier.ofRules options.rules = .ok classifier) :
    build options custom repository = .ok ⟨kept.paths,
      (kept.imports.filterMap (importEdge? classifier
        (custom.getD (kept.resolver options.rules)) kept.paths)).eraseDups⟩ := by
  have hnodup : kept.paths.Nodup := by
    obtain ⟨compiled, -, rfl⟩ := (exclude_eq_ok_iff _ _ _).mp hkept
    exact (repository.check_eq_ok_iff.mp hcheck).1.sublist (List.filter_sublist.map _)
  obtain ⟨table, htable, -⟩ :=
    SymbolTable.exists_build kept (custom.getD (kept.resolver options.rules)) hrules
  obtain ⟨classifier', hrules', hgraph⟩ := exists_assemble_eq hnodup htable
  obtain rfl := Except.ok.inj (hrules.symm.trans hrules')
  exact (build_eq_ok_iff _ _ _ _).mpr ⟨hcheck, kept, hkept, hlimit, table, htable, hgraph⟩

/-- An edge of an import leads to a file found in the repository, other than the importing one, or
keeps the text of the import. -/
theorem edgeOf?_classify_eq_some {classifier : Classifier} {source rawImport : String}
    {found : Option String} {edge : Edge}
    (h : edgeOf? source rawImport (classifier.classify rawImport found) = some edge) :
    edge.source = source ∧
      (edge.kind.isInternal = true → found = some edge.target ∧ edge.target ≠ source) ∧
      (edge.kind.isInternal = false → edge.target = Text.trim rawImport) := by
  have hkind := classifier.isInternal_kind_classify rawImport found
  have hpath := classifier.path_classify rawImport found
  unfold edgeOf? at h
  rw [hpath] at h
  cases found with
  | some path =>
    split at h
    · next hp =>
      obtain rfl := Option.some.inj hp
      split at h
      · cases h
      · next hne =>
        obtain rfl := Option.some.inj h
        exact ⟨rfl, fun _ => ⟨rfl, hne⟩, fun hn => absurd (hkind.symm.trans hn) (by simp)⟩
    · next hp => cases hp
  | none =>
    obtain rfl := Option.some.inj h
    exact ⟨rfl, fun hi => absurd (hkind.symm.trans hi) (by simp), fun _ => rfl⟩

/-- Every edge of an assembled graph comes from an import, resolved among the files. -/
theorem exists_import_of_mem_edges {kept : Repository} {rules : ImportRules} {resolver : Resolver}
    {table : SymbolTable} {graph : Graph}
    (htable : SymbolTable.build kept rules resolver = .ok table)
    (hgraph : assemble kept table = .ok graph) {edge : Edge} (he : edge ∈ graph.edges) :
    (∃ file ∈ kept.files, file.path = edge.source ∧
      (edge.kind.isInternal = false →
        ∃ rawImport ∈ file.imports, edge.target = Text.trim rawImport)) ∧
    (edge.kind.isInternal = true → edge.target ∈ kept.paths ∧ edge.target ≠ edge.source) := by
  obtain ⟨classifier, -, hget⟩ := SymbolTable.get?_of_build htable
  obtain ⟨-, -, hedges⟩ := (assemble_eq_ok_iff kept table graph).mp hgraph
  obtain ⟨-, ⟨source, rawImport⟩, hpair, resolution, hres, hedge⟩ :=
    ((collectEdges_spec hedges).2 edge).mp he
  -- The symbol table keeps what is found only if it is a path of one of the files.
  rw [hget, if_pos hpair] at hres
  obtain rfl := Option.some.inj hres
  obtain ⟨hs, hinternal, hexternal⟩ := edgeOf?_classify_eq_some hedge
  obtain ⟨file, hf, hpath, hraw⟩ := (kept.mem_imports_iff source rawImport).mp hpair
  constructor
  · exact ⟨file, hf, hpath.trans hs.symm, fun hk => ⟨rawImport, hraw, hexternal hk⟩⟩
  · intro hk
    obtain ⟨hfound, hne⟩ := hinternal hk
    rw [Option.filter_eq_some_iff] at hfound
    exact ⟨List.contains_iff_mem.mp hfound.2, hs ▸ hne⟩

/-! ## Graphs that have been built -/

section Built

variable {options : BuildOptions} {custom : Option Resolver} {repository : Repository}
  {graph : Graph}

theorem builtFrom_of_build (h : build options custom repository = .ok graph) :
    graph.BuiltFrom options repository := by
  obtain ⟨-, kept, hkept, -, table, htable, hgraph⟩ :=
    (build_eq_ok_iff options custom repository graph).mp h
  obtain ⟨patterns, hcompile, rfl⟩ := (exclude_eq_ok_iff _ repository kept).mp hkept
  obtain ⟨hnodup, hnodes, hedges⟩ := (assemble_eq_ok_iff _ table graph).mp hgraph
  have himport := fun (edge : Edge) (he : edge ∈ graph.edges) =>
    exists_import_of_mem_edges htable hgraph he
  refine ⟨⟨patterns, hcompile, ?_⟩, hnodes ▸ hnodup, (collectEdges_spec hedges).1,
    fun edge he => ?_, fun edge he hk => ?_, fun edge he hk => ?_⟩
  · rw [hnodes]
    unfold Repository.paths
    rw [List.filter_map]
    rfl
  · obtain ⟨⟨file, hf, hpath, -⟩, -⟩ := himport edge he
    rw [hnodes, ← hpath]
    exact List.mem_map_of_mem hf
  · rw [hnodes]
    exact (himport edge he).2 hk
  · obtain ⟨⟨file, hf, hpath, htext⟩, -⟩ := himport edge he
    exact ⟨file, (List.mem_filter.mp hf).1, hpath, htext hk⟩

/-- A cycle of a graph without files that import themselves has several files. -/
theorem one_lt_length_of_mem_cycles {cycles : List (List String)}
    (hself : ∀ edge ∈ graph.edges, edge.kind.isInternal = true → edge.target ≠ edge.source)
    (hlist : graph.ListsCycles cycles) {cycle : List String} (hc : cycle ∈ cycles) :
    1 < cycle.length := by
  obtain ⟨file, -, -, hnontrivial | ⟨-, edge, he, hk, hs, ht⟩⟩ := hlist.isImportCycle cycle hc
  -- A list of one file holds no two different ones.
  · obtain ⟨a, ha, b, hb, hne⟩ := hnontrivial
    match cycle, ha, hb with
    | [only], ha, hb =>
      exact absurd ((List.mem_singleton.mp ha).trans (List.mem_singleton.mp hb).symm) hne
    | _ :: _ :: _, _, _ => simp
  · have hinternal : edge.kind.isInternal = true := by
      rw [beq_iff_eq.mp hk]
      rfl
    exact absurd (ht.trans hs.symm) (hself edge he hinternal)

/-- **Every graph that is built satisfies the rules for graphs.** So the search for its cycles and
the index of its importers do not fail, and none of its cycles has a single file. -/
theorem build_invariant (h : build options custom repository = .ok graph) :
    graph.BuiltFrom options repository ∧ graph.check = .ok () ∧
      (∃ cycles, graph.cycles = .ok cycles ∧ ∀ cycle ∈ cycles, 1 < cycle.length) ∧
      ∃ index, ReverseIndex.create graph = .ok index := by
  have hbuilt := builtFrom_of_build h
  have hok := (check_eq_ok_iff graph).mpr hbuilt.wellFormed
  refine ⟨hbuilt, hok, ⟨graph.cyclesUnchecked, ?_, fun cycle hc => ?_⟩, ReverseIndex.ofGraph graph, ?_⟩
  · rw [cycles_eq, hok]
    rfl
  · have hlist := listsCycles_cyclesUnchecked hbuilt.wellFormed
    exact one_lt_length_of_mem_cycles (fun edge he hk => (hbuilt.target_mem edge he hk).2) hlist hc
  · rw [create_eq, hok]
    rfl

end Built

/-- A resolver that answers with the text of each import as a path: to a file, to one that is left
out, to no file, and to the importing file itself. -/
theorem build_invariant_echo :
    let options : BuildOptions := { excludePatterns := ["c*"] }
    let repository : Repository :=
      { rootPath := "/", files :=
          [{ path := "a.py", content := "", imports := ["b.py", "c.py", " os", "b.py"] },
            { path := "b.py", content := "", imports := ["b.py"] },
            { path := "c.py", content := "" }] }
    ∃ graph, build options (some ⟨fun rawImport _ => some rawImport⟩) repository = .ok graph ∧
      graph.edges = [⟨"a.py", "b.py", .direct⟩, ⟨"a.py", "c.py", .unresolved⟩,
        ⟨"a.py", "os", .unresolved⟩] ∧
      graph.BuiltFrom options repository ∧ graph.check = .ok () := by
  intro options repository
  let graph : Graph := ⟨["a.py", "b.py"], [⟨"a.py", "b.py", .direct⟩,
    ⟨"a.py", "c.py", .unresolved⟩, ⟨"a.py", "os", .unresolved⟩]⟩
  have hcheck : repository.check = .ok () :=
    repository.check_eq_ok_iff.mpr ⟨by decide, by decide⟩
  have hkept : exclude options.excludePatterns repository = .ok { repository with
      files := [{ path := "a.py", content := "", imports := ["b.py", "c.py", " os", "b.py"] },
        { path := "b.py", content := "", imports := ["b.py"] }] } := by cbv
  have hrules : Classifier.ofRules options.rules = .ok ⟨[], []⟩ := rfl
  have hbuild : build options (some ⟨fun rawImport _ => some rawImport⟩) repository = .ok graph := by
    rw [build_eq_ok_of_classifier _ hcheck hkept rfl hrules]
    decide +kernel
  obtain ⟨hbuilt, hok, -, -⟩ := build_invariant hbuild
  exact ⟨graph, hbuild, rfl, hbuilt, hok⟩

end ImportAtlas.Graph
