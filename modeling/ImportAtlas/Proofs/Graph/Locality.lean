import ImportAtlas.Proofs.Graph.Objections
import ImportAtlas.Proofs.Import.Candidates

/-!
# The edges of a file are its own

Everything that a build keeps while it goes through the files is made from all of them: the index of
their normal forms, the symbol table, and the edges seen so far. Still the edges of a file depend only
on its own imports and on the set of all paths. The index answers alike for any order of the paths if
no two of them have the same normal form, and the table and the edges seen so far keep the files apart.

## Main results

* `resolve?_eq_of_mem_iff`: the order of the paths does not matter to a search
* `importEdge?_resolver`: the edge of an import by the convention, in terms of the paths
* `get?_eq_of_mem_iff`: two tables agree on the imports that they have in common
* `filter_edges_eq`: the edges of a file, made from its own imports
* `filter_edges_eq_of_imports_eq`: builds from two repositories agree on the edges of a file
-/

namespace ImportAtlas

/-! ## Resolution and the set of paths -/

section Paths

variable {left right : List String}

/-- Of keys that are distinct, the one looked for is found. -/
theorem find?_key_eq_some_iff {key : String → String} {paths : List String}
    (hinj : ∀ a ∈ paths, ∀ b ∈ paths, key a = key b → a = b) (wanted path : String) :
    (paths.find? fun other => key other == wanted) = some path ↔
      path ∈ paths ∧ key path = wanted := by
  constructor
  · intro h
    have hkey := List.find?_some h
    exact ⟨List.mem_of_find?_eq_some h, beq_iff_eq.mp hkey⟩
  · rintro ⟨hm, rfl⟩
    cases hf : paths.find? fun other => key other == key path with
    | none => exact absurd BEq.rfl (List.find?_eq_none.mp hf path hm)
    | some other =>
      have hkey := List.find?_some hf
      rw [hinj other (List.mem_of_find?_eq_some hf) path hm (beq_iff_eq.mp hkey)]

/-- **The order of the paths does not matter to a search** if their normal forms are distinct. -/
theorem FileIndex.resolve?_eq_of_mem_iff (hmem : ∀ path, path ∈ left ↔ path ∈ right)
    (hinj : ∀ a ∈ left, ∀ b ∈ left, Path.normalize a = Path.normalize b → a = b)
    (rules : ImportRules) (specifier importer : String) :
    (ofPaths rules left).resolve? specifier importer =
      (ofPaths rules right).resolve? specifier importer := by
  have hinj' : ∀ a ∈ right, ∀ b ∈ right, Path.normalize a = Path.normalize b → a = b := by
    intro a ha b hb
    exact hinj a ((hmem a).mpr ha) b ((hmem b).mpr hb)
  rw [resolve?_eq_findSome?, resolve?_eq_findSome?]
  refine Import.findSome?_congr_of_mem ?_
  intro normal _
  ext path
  rw [find?_ofPaths, find?_ofPaths, find?_key_eq_some_iff hinj,
    find?_key_eq_some_iff hinj', hmem]

end Paths

/-! ## Tables of repositories with the same paths -/

section Tables

variable {left right : Repository} {rules : ImportRules} {table table' : SymbolTable}

theorem Repository.resolver_eq_of_mem_iff (hmem : ∀ path, path ∈ left.paths ↔ path ∈ right.paths)
    (hinj : ∀ a ∈ left.paths, ∀ b ∈ left.paths, Path.normalize a = Path.normalize b → a = b)
    (rules : ImportRules) : left.resolver rules = right.resolver rules := by
  refine congrArg Resolver.mk (funext fun specifier => funext fun importer => ?_)
  exact FileIndex.resolve?_eq_of_mem_iff hmem hinj rules specifier importer

/-- The answers of the resolver of a repository, in terms of its paths. -/
theorem Repository.find?_resolver (repository : Repository) (rules : ImportRules)
    (rawImport source : String) :
    (repository.resolver rules).find? rawImport source =
      (Import.candidates rules rawImport source).findSome? fun normal =>
        repository.paths.find? fun path => Path.normalize path == normal := by
  simp only [Repository.resolver, FileIndex.resolver, FileIndex.resolve?_eq_findSome?,
    FileIndex.find?_ofPaths_eq]
  rfl

/-- The edge of an import that is resolved by the convention, in terms of the paths. -/
theorem Graph.importEdge?_resolver (classifier : Classifier) (repository : Repository)
    (rules : ImportRules) (pair : String × String) :
    importEdge? classifier (repository.resolver rules) repository.paths pair =
      edgeOf? pair.1 pair.2 (classifier.classify pair.2
        (((Import.candidates rules pair.2 pair.1).findSome? fun normal =>
          repository.paths.find? fun path => Path.normalize path == normal).filter
            (repository.paths.contains ·))) := by
  unfold importEdge?
  rw [repository.find?_resolver]

/-- **Two tables agree on the imports that they have in common** if they have been made by the same
resolver for the same set of paths. -/
theorem SymbolTable.get?_eq_of_mem_iff {resolver : Resolver}
    (hmem : ∀ path, path ∈ left.paths ↔ path ∈ right.paths)
    (h : build left rules resolver = .ok table) (h' : build right rules resolver = .ok table')
    {source rawImport : String} (hleft : (source, rawImport) ∈ left.imports)
    (hright : (source, rawImport) ∈ right.imports) :
    table.get? source rawImport = table'.get? source rawImport := by
  obtain ⟨classifier, hrules, hget⟩ := get?_of_build h
  obtain ⟨classifier', hrules', hget'⟩ := get?_of_build h'
  obtain rfl := Except.ok.inj (hrules.symm.trans hrules')
  have hcontains : (left.paths.contains ·) = (right.paths.contains ·) := by
    funext path
    rw [Bool.eq_iff_iff, List.contains_iff_mem, List.contains_iff_mem, hmem]
  rw [hget, hget', if_pos hleft, if_pos hright, hcontains]

end Tables

/-! ## The imports of one file -/

section Imports

variable {repository : Repository} {file : SourceFile}

theorem Repository.filter_imports_eq_flatMap (repository : Repository) (path : String) :
    repository.imports.filter (·.1 == path) =
      (repository.files.filter (·.path == path)).flatMap fun file =>
        file.imports.map fun rawImport => (file.path, rawImport) := by
  unfold Repository.imports
  induction repository.files with
  | nil => rfl
  | cons file files ih =>
    rw [List.flatMap_cons, List.filter_append, ih, List.filter_map, List.filter_cons]
    by_cases h : file.path == path <;> simp [h, Function.comp_def]

/-- Files of distinct paths are determined by their paths. -/
theorem filter_files_eq_singleton {files : List SourceFile}
    (hnodup : (files.map (·.path)).Nodup) (hfile : file ∈ files) :
    files.filter (·.path == file.path) = [file] := by
  induction files with
  | nil => cases hfile
  | cons first files ih =>
    obtain ⟨hfirst, hnodup⟩ := List.nodup_cons.mp hnodup
    rcases List.mem_cons.mp hfile with rfl | hfile
    · -- No later file has the path of the first one.
      rw [List.filter_cons_of_pos (by simp), List.filter_eq_nil_iff.mpr]
      intro other ho he
      exact hfirst (List.mem_map.mpr ⟨other, ho, beq_iff_eq.mp he⟩)
    · rw [List.filter_cons_of_neg, ih hnodup hfile]
      intro he
      exact hfirst (List.mem_map.mpr ⟨file, hfile, (beq_iff_eq.mp he).symm⟩)

/-- The imports of a file among those of the files that are left. -/
theorem BuildOptions.filter_imports_kept (options : BuildOptions) (hnodup : repository.paths.Nodup)
    (hfile : file ∈ repository.files) :
    (options.kept repository).imports.filter (·.1 == file.path) =
      if options.excludes file.path then []
      else file.imports.map fun rawImport => (file.path, rawImport) := by
  have hkept : (options.kept repository).files.filter (·.path == file.path) =
      [file].filter fun other => !options.excludes other.path := by
    rw [← filter_files_eq_singleton hnodup hfile]
    unfold BuildOptions.kept
    rw [List.filter_filter, List.filter_filter]
    simp only [Bool.and_comm]
  rw [Repository.filter_imports_eq_flatMap, hkept]
  by_cases h : options.excludes file.path = true <;> simp [h]

end Imports

/-! ## The edges of one file -/

namespace SymbolTable

theorem filter_edges_source (table : SymbolTable) (imports : List (String × String))
    (path : String) :
    (table.edges imports).filter (·.source == path) = table.edges (imports.filter (·.1 == path)) := by
  unfold edges
  rw [List.filter_filterMap, List.filterMap_filter]
  refine List.filterMap_congr ?_
  intro pair _
  cases table.get? pair.1 pair.2 with
  | none => simp
  | some resolution =>
    by_cases hself : resolution.path = some pair.1
    · simp [hself]
    · by_cases h : pair.1 = path
      · subst h
        simp [hself]
      · simp [hself, h, Option.filter_some]

theorem edges_congr {table table' : SymbolTable} {imports : List (String × String)}
    (h : ∀ pair ∈ imports, table.get? pair.1 pair.2 = table'.get? pair.1 pair.2) :
    table.edges imports = table'.edges imports := by
  unfold edges
  refine List.filterMap_congr ?_
  intro pair hp
  rw [h pair hp]

end SymbolTable

namespace Graph

/-- **The edges of a file, made from its own imports** and from what the table says of them. -/
theorem filter_edges_eq {options : BuildOptions} {custom : Option Resolver} {repository : Repository}
    {graph : Graph} (h : build options custom repository = .ok graph) (path : String) :
    ∃ table, SymbolTable.build (options.kept repository) options.rules
        (custom.getD ((options.kept repository).resolver options.rules)) = .ok table ∧
      graph.edges.filter (·.source == path) =
        (table.edges ((options.kept repository).imports.filter (·.1 == path))).eraseDups := by
  obtain ⟨table, htable, rfl⟩ := exists_table_of_build h
  refine ⟨table, htable, ?_⟩
  rw [← eraseDups_filter, table.filter_edges_source]

/-- **Builds from two repositories agree on the edges of a file** that has the same imports in both, if
both have the same paths, in any order, and the normal forms of those that are left are distinct. -/
theorem filter_edges_eq_of_imports_eq {options : BuildOptions} {left right : Repository}
    {graph graph' : Graph} (hleft : build options none left = .ok graph)
    (hright : build options none right = .ok graph')
    (hpaths : ∀ path, path ∈ left.paths ↔ path ∈ right.paths)
    (hnormal : ((options.kept left).paths.map Path.normalize).Nodup)
    {file file' : SourceFile} (hfile : file ∈ left.files) (hfile' : file' ∈ right.files)
    (hpath : file.path = file'.path) (himports : file.imports = file'.imports) :
    graph.edges.filter (·.source == file.path) = graph'.edges.filter (·.source == file.path) := by
  obtain ⟨table, htable, hedges⟩ := filter_edges_eq hleft file.path
  obtain ⟨table', htable', hedges'⟩ := filter_edges_eq hright file.path
  have hnodup := (left.check_eq_ok_iff.mp ((build_eq_ok_iff _ _ _ _).mp hleft).1).1
  have hnodup' := (right.check_eq_ok_iff.mp ((build_eq_ok_iff _ _ _ _).mp hright).1).1
  have hmem : ∀ path, path ∈ (options.kept left).paths ↔ path ∈ (options.kept right).paths := by
    intro path
    rw [options.paths_kept, options.paths_kept, List.mem_filter, List.mem_filter, hpaths]
  have hinj : ∀ a ∈ (options.kept left).paths, ∀ b ∈ (options.kept left).paths,
      Path.normalize a = Path.normalize b → a = b := by
    intro a ha b hb
    exact List.inj_on_of_nodup_map hnormal ha hb
  have hown : (options.kept left).imports.filter (·.1 == file.path) =
      (options.kept right).imports.filter (·.1 == file.path) := by
    rw [options.filter_imports_kept hnodup hfile, hpath,
      options.filter_imports_kept hnodup' hfile', himports]
  -- Both tables are made by one resolver now, and they are asked for the same imports.
  rw [← Repository.resolver_eq_of_mem_iff hmem hinj] at htable'
  rw [hedges, hedges', ← hown]
  refine congrArg List.eraseDups (SymbolTable.edges_congr ?_)
  intro pair hp
  exact SymbolTable.get?_eq_of_mem_iff hmem htable htable' (List.mem_of_mem_filter hp)
    (List.mem_of_mem_filter (hown ▸ hp))

/-- The file `a.py` comes first and then last, its content changes, and `b.py` comes to import it. -/
theorem filter_edges_eq_of_imports_eq_reordered :
    let options : BuildOptions :=
      { rules := { extensions := [".py"], indexFiles := [], externalModules := ["os"] } }
    let file : SourceFile := { path := "a.py", content := "", imports := ["b", "os", "b.py", "c"] }
    let file' : SourceFile := { file with content := "text" }
    let left : Repository := { rootPath := "/", files := [file, { path := "b.py", content := "" }] }
    let right : Repository := { rootPath := "/", files :=
      [{ path := "b.py", content := "", imports := ["os", "a"] }, file'] }
    let own : List Edge :=
      [⟨"a.py", "b.py", .direct⟩, ⟨"a.py", "os", .external⟩, ⟨"a.py", "c", .unresolved⟩]
    let graph : Graph := ⟨["a.py", "b.py"], own⟩
    let graph' : Graph :=
      ⟨["b.py", "a.py"], ⟨"b.py", "os", .external⟩ :: ⟨"b.py", "a.py", .direct⟩ :: own⟩
    build options none left = .ok graph ∧ build options none right = .ok graph' ∧
      (∀ path, path ∈ left.paths ↔ path ∈ right.paths) ∧
      ((options.kept left).paths.map Path.normalize).Nodup ∧
      file ∈ left.files ∧ file' ∈ right.files ∧
      graph.edges.filter (·.source == file.path) = graph'.edges.filter (·.source == file.path) := by
  intro options file file' left right own graph graph'
  have hrules : Classifier.ofRules options.rules = .ok ⟨["os"], []⟩ := rfl
  have hleft : build options none left = .ok graph := by
    have hcheck : left.check = .ok () := left.check_eq_ok_iff.mpr ⟨by decide, by decide⟩
    refine (build_eq_ok_of_classifier none hcheck rfl rfl hrules).trans ?_
    simp only [Option.getD_none, importEdge?_resolver]
    decide +kernel
  have hright : build options none right = .ok graph' := by
    have hcheck : right.check = .ok () := right.check_eq_ok_iff.mpr ⟨by decide, by decide⟩
    refine (build_eq_ok_of_classifier none hcheck rfl rfl hrules).trans ?_
    simp only [Option.getD_none, importEdge?_resolver]
    decide +kernel
  have hpaths : ∀ path, path ∈ left.paths ↔ path ∈ right.paths := by
    intro path
    have hperm : left.paths.Perm right.paths := List.Perm.swap _ _ _
    exact hperm.mem_iff
  have hnormal : ((options.kept left).paths.map Path.normalize).Nodup := by decide +kernel
  have hfile : file ∈ left.files := List.mem_cons_self
  have hfile' : file' ∈ right.files := List.mem_cons_of_mem _ List.mem_cons_self
  exact ⟨hleft, hright, hpaths, hnormal, hfile, hfile',
    filter_edges_eq_of_imports_eq hleft hright hpaths hnormal hfile hfile' rfl rfl⟩

end Graph

end ImportAtlas
