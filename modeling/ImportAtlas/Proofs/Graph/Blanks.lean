import ImportAtlas.Proofs.Graph.Locality

/-!
# Blanks around imports

A repository description writes its imports with any blanks around them, and the symbol table keeps
them, so two imports may be one import with other blanks. The search for a file, the patterns for dynamic
imports, the modules and the target of an edge each look at the text without its blanks. So an import has
the edge of its trimmed text, an edge is listed once however often its import is written, and the graph of
a description is that of the description with its imports trimmed.

## Main definitions

* `SourceFile.trimmed`, `Repository.trimmed`: a description with its imports trimmed

## Main results

* `classify_trim`, `importEdge?_trim`: the blanks around an import do not count
* `exists_edges_eq_of_build`: the edges of a graph that is built, in terms of the imports
* `build_trimmed`: the graph of a description with its imports trimmed
* `build_eq_of_trimmed_eq`: descriptions that are one without blanks are built alike
-/

namespace ImportAtlas

open Text

/-! ## Descriptions with their imports trimmed -/

/-- The file with the blanks around its imports taken away. -/
def SourceFile.trimmed (file : SourceFile) : SourceFile :=
  { file with imports := file.imports.map trim }

/-- The description with the blanks around all imports taken away. -/
def Repository.trimmed (repository : Repository) : Repository :=
  { repository with files := repository.files.map SourceFile.trimmed }

namespace Repository

variable (repository : Repository)

@[simp] theorem paths_trimmed : repository.trimmed.paths = repository.paths :=
  List.map_map

/-- The resolver knows the files by their paths. -/
theorem resolver_trimmed (rules : ImportRules) :
    repository.trimmed.resolver rules = repository.resolver rules := by
  unfold resolver
  rw [paths_trimmed]

theorem imports_trimmed :
    repository.trimmed.imports = repository.imports.map (Prod.map id trim) := by
  unfold imports trimmed
  rw [List.flatMap_map, List.map_flatMap]
  refine congrArg (List.flatMap · repository.files) (funext fun file => ?_)
  change (file.imports.map trim).map _ = _
  rw [List.map_map, List.map_map]
  rfl

theorem checkFiles_trimmed (seen : Std.HashSet String) (files : List SourceFile) :
    checkFiles seen (files.map SourceFile.trimmed) = checkFiles seen files := by
  induction files generalizing seen with
  | nil => rfl
  | cons file files ih =>
    -- The check of a file does not look at its imports.
    have hcheck : file.trimmed.check = file.check := rfl
    rw [List.map_cons, checkFiles, checkFiles, hcheck]
    simp only [ih]
    rfl

theorem check_trimmed : repository.trimmed.check = repository.check :=
  checkFiles_trimmed ∅ repository.files

end Repository

theorem BuildOptions.kept_trimmed (options : BuildOptions) (repository : Repository) :
    options.kept repository.trimmed = (options.kept repository).trimmed := by
  unfold kept Repository.trimmed
  dsimp only
  rw [List.filter_map]
  rfl

theorem BuildOptions.objections_trimmed (options : BuildOptions) (repository : Repository) :
    options.objections repository.trimmed = options.objections repository := by
  have hcount : (options.kept repository).trimmed.files.length =
      (options.kept repository).files.length := List.length_map _
  unfold objections
  rw [repository.check_trimmed, kept_trimmed, hcount]

/-! ## Imports without their blanks -/

theorem Import.topLevelName?_trim (specifier : String) :
    topLevelName? (trim specifier) = topLevelName? specifier := by
  have htrim : trimChars (trim specifier).toList = trimChars specifier.toList := by
    unfold trim
    rw [String.toList_ofList, trimChars_trimChars]
  unfold topLevelName?
  rw [htrim]

/-- The kind of an import does not depend on its blanks. -/
theorem Classifier.classify_trim (classifier : Classifier) (rawImport : String)
    (found : Option String) :
    classifier.classify (trim rawImport) found = classifier.classify rawImport found := by
  have hdynamic : classifier.isDynamic (trim rawImport) = classifier.isDynamic rawImport := by
    unfold isDynamic
    rw [trim_trim]
  have hexternal : classifier.isExternal (trim rawImport) = classifier.isExternal rawImport := by
    unfold isExternal
    rw [Import.topLevelName?_trim]
  unfold classify
  rw [hdynamic, hexternal]

namespace Graph

/-- **An import has the edge of its trimmed text.** -/
theorem importEdge?_trim (classifier : Classifier) (rules : ImportRules) (repository : Repository)
    (pair : String × String) :
    importEdge? classifier (repository.resolver rules) repository.paths (Prod.map id trim pair) =
      importEdge? classifier (repository.resolver rules) repository.paths pair := by
  have hfind : (repository.resolver rules).find? (trim pair.2) pair.1 =
      (repository.resolver rules).find? pair.2 pair.1 := by
    unfold Repository.resolver FileIndex.resolver
    dsimp only
    rw [FileIndex.resolve?_trim]
  unfold importEdge?
  rw [Prod.map_fst, Prod.map_snd, id, hfind, classifier.classify_trim, edgeOf?_eq, edgeOf?_eq,
    trim_trim]

/-- **The edges of a graph that is built** are those of the imports of the files that are left, each
where it occurs first. -/
theorem exists_edges_eq_of_build {options : BuildOptions} {repository : Repository} {graph : Graph}
    (h : build options none repository = .ok graph) :
    ∃ classifier, Classifier.ofRules options.rules = .ok classifier ∧
      graph = ⟨(options.kept repository).paths,
        ((options.kept repository).imports.filterMap
          (importEdge? classifier ((options.kept repository).resolver options.rules)
            (options.kept repository).paths)).eraseDups⟩ := by
  obtain ⟨table, htable, rfl⟩ := exists_table_of_build h
  obtain ⟨classifier, hrules, hedges⟩ := exists_edges_eq_of_symbolTable htable
  exact ⟨classifier, hrules, by rw [hedges, Option.getD_none]⟩

/-- **The graph of a description is that of the description with its imports trimmed**, and building
them fails with the same error. -/
theorem build_trimmed (options : BuildOptions) (repository : Repository) :
    build options none repository.trimmed = build options none repository := by
  have hfault : Outcome.fault? (build options none repository.trimmed) =
      Outcome.fault? (build options none repository) := by
    rw [fault?_build, fault?_build, options.objections_trimmed]
  -- Both builds fail alike, so two graphs are left to compare.
  cases hbuild : build options none repository with
  | error e => rw [Outcome.eq_error_iff, hfault, hbuild, Outcome.fault?]
  | ok graph =>
    cases htrimmed : build options none repository.trimmed with
    | error e =>
      rw [htrimmed, hbuild] at hfault
      cases hfault
    | ok graph' =>
      obtain ⟨classifier, hrules, rfl⟩ := exists_edges_eq_of_build hbuild
      obtain ⟨classifier', hrules', rfl⟩ := exists_edges_eq_of_build htrimmed
      obtain rfl := Except.ok.inj (hrules.symm.trans hrules')
      -- Repetitions are dropped among the edges, which have no blanks on either side.
      have hedge : importEdge? classifier ((options.kept repository).resolver options.rules)
          (options.kept repository).paths ∘ Prod.map id trim =
            importEdge? classifier ((options.kept repository).resolver options.rules)
              (options.kept repository).paths := by
        funext pair
        rw [Function.comp_apply, importEdge?_trim]
      rw [options.kept_trimmed, Repository.paths_trimmed, Repository.imports_trimmed,
        Repository.resolver_trimmed, List.filterMap_map, hedge]

/-- **Descriptions that are one without the blanks around their imports are built alike**: to one graph,
or with one error. -/
theorem build_eq_of_trimmed_eq {left right : Repository} (h : left.trimmed = right.trimmed)
    (options : BuildOptions) : build options none left = build options none right := by
  rw [← build_trimmed, h, build_trimmed]

/-- An import of `b.py` that is written twice, a module and a dynamic import, with other blanks around
them. -/
theorem build_eq_of_trimmed_eq_spaced :
    let options : BuildOptions :=
      { rules := { extensions := [".py"], indexFiles := [], externalModules := ["os"],
                   dynamicPatterns := ["c*"] } }
    let left : Repository := { rootPath := "/", files :=
      [{ path := "a.py", content := "", imports := [" b", "b", "\tos ", "c "] },
        { path := "b.py", content := "" }, { path := "c.py", content := "" }] }
    let right : Repository := { rootPath := "/", files :=
      [{ path := "a.py", content := "", imports := ["b", "b\n", "os", "  c"] },
        { path := "b.py", content := "" }, { path := "c.py", content := "" }] }
    let graph : Graph := ⟨["a.py", "b.py", "c.py"],
      [⟨"a.py", "b.py", .direct⟩, ⟨"a.py", "os", .external⟩, ⟨"a.py", "c.py", .dynamic⟩]⟩
    left ≠ right ∧ left.trimmed = right.trimmed ∧ build options none left = .ok graph ∧
      build options none right = .ok graph := by
  intro options left right graph
  have htrimmed : left.trimmed = right.trimmed := by decide
  have hleft : build options none left = .ok graph := by
    have hrules : Classifier.ofRules options.rules = .ok ⟨["os"], [⟨[.literal 'c', .run]⟩]⟩ := by cbv
    have hcheck : left.check = .ok () := left.check_eq_ok_iff.mpr ⟨by decide, by decide⟩
    refine (build_eq_ok_of_classifier none hcheck rfl rfl hrules).trans ?_
    simp only [Option.getD_none, importEdge?_resolver]
    decide +kernel
  exact ⟨by decide, htrimmed, hleft, build_eq_of_trimmed_eq htrimmed options ▸ hleft⟩

end Graph

end ImportAtlas
