import ImportAtlas.Proofs.Import.Candidates
import ImportAtlas.Proofs.Import.SymbolTable

/-!
# Imports stay resolved

An import that resolves to a file still resolves to one when files, extensions, index files or source
roots are added, wherever they are added, since its candidates only become more. Another file may be
chosen, which lies in the repository as well, so the import keeps its kind.

## Main definitions

* `ImportRules.Widens`: rules with the extensions, index files and source roots of others and perhaps
  more

## Main results

* `candidates_subset`: wider rules have all candidates
* `isSome_resolve?_iff`: the imports that are found
* `exists_get?_of_widens`: an internal import stays internal, of the same kind
-/

namespace ImportAtlas

open ImportAtlas.Path

/-- Rules with all extensions, index files and source roots of `rules` among their own, in any order,
and otherwise the same. -/
structure ImportRules.Widens (wider rules : ImportRules) : Prop where
  convention_eq : wider.convention = rules.convention
  aliases_eq : wider.aliases = rules.aliases
  externalModules_eq : wider.externalModules = rules.externalModules
  dynamicPatterns_eq : wider.dynamicPatterns = rules.dynamicPatterns
  extensions_subset : rules.extensions ⊆ wider.extensions
  indexFiles_subset : rules.indexFiles ⊆ wider.indexFiles
  sourceRoots_subset : rules.sourceRoots ⊆ wider.sourceRoots

/-! ## The candidates become more -/

namespace Import

variable {rules wider : ImportRules} {dirs dirs' : List String}

theorem flatMap_subset_flatMap {α β : Type} {values more : List α} {f g : α → List β}
    (hvalues : values ⊆ more) (hf : ∀ value ∈ values, f value ⊆ g value) :
    values.flatMap f ⊆ more.flatMap g := by
  intro result hr
  obtain ⟨value, hv, hr⟩ := List.mem_flatMap.mp hr
  exact List.mem_flatMap.mpr ⟨value, hvalues hv, hf value hv hr⟩

theorem candidatesAt_subset (h : wider.Widens rules) (base : String) :
    candidatesAt rules base ⊆ candidatesAt wider base := by
  have hadded : ∀ stem : String,
      rules.extensions.map (stem ++ ·) ⊆ wider.extensions.map (stem ++ ·) :=
    fun stem => List.map_subset _ h.extensions_subset
  unfold candidatesAt
  refine List.append_subset.mpr ⟨List.subset_append_of_subset_left _ ?_,
    List.subset_append_of_subset_right _ ?_⟩
  · split
    · exact List.Subset.refl _
    · exact List.cons_subset_cons base (hadded base)
  · split
    · exact List.Subset.refl _
    · exact flatMap_subset_flatMap h.indexFiles_subset fun stem _ => hadded (under base stem)

theorem basesIn_subset (h : dirs ⊆ dirs') (dir text : String) :
    basesIn dirs dir text ⊆ basesIn dirs' dir text := by
  unfold basesIn
  split
  · exact List.Subset.refl _
  · exact flatMap_subset_flatMap h fun _ _ => List.Subset.refl _

theorem packageBases_subset (h : wider.Widens rules) (dir text : String) :
    packageBases rules dir text ⊆ packageBases wider dir text := by
  refine basesIn_subset (List.cons_subset_cons "" ?_) dir text
  exact List.append_subset.mpr ⟨List.subset_append_of_subset_left _ h.sourceRoots_subset,
    List.subset_append_of_subset_right _ (List.Subset.refl _)⟩

theorem bases_subset (h : wider.Widens rules) (dir text : String) :
    bases rules dir text ⊆ bases wider dir text := by
  unfold bases
  rw [h.convention_eq, h.aliases_eq]
  cases rules.convention with
  | relativePath => exact List.Subset.refl _
  | packageRoot => exact packageBases_subset h dir text
  | customResolver =>
    have hexpanded := flatMap_subset_flatMap (List.Subset.refl (aliased? rules.aliases text).toList)
      fun expanded _ => packageBases_subset h dir expanded
    exact List.append_subset.mpr ⟨List.subset_append_of_subset_left _ hexpanded,
      List.subset_append_of_subset_right _ (packageBases_subset h dir text)⟩

/-- **Wider rules have all candidates** of an import. -/
theorem candidates_subset (h : wider.Widens rules) (specifier importer : String) :
    candidates rules specifier importer ⊆ candidates wider specifier importer := by
  unfold candidates
  split
  · exact List.Subset.refl _
  · exact flatMap_subset_flatMap (bases_subset h _ _) fun base _ => candidatesAt_subset h base

end Import

/-! ## The imports that are found -/

namespace FileIndex

variable {paths : List String}

/-- **An import is found** if one of its candidates is the normal form of a path. -/
theorem isSome_resolve?_iff (rules : ImportRules) (paths : List String)
    (specifier importer : String) :
    ((ofPaths rules paths).resolve? specifier importer).isSome = true ↔
      ∃ candidate ∈ Import.candidates rules specifier importer,
        ∃ path ∈ paths, normalize path = candidate := by
  rw [resolve?_eq_findSome?, find?_ofPaths_eq, List.isSome_findSome?, List.any_eq_true]
  simp only [List.find?_isSome, beq_iff_eq]
  rfl

/-- What is found is a path. -/
theorem mem_of_resolve? {rules : ImportRules} {specifier importer path : String}
    (h : (ofPaths rules paths).resolve? specifier importer = some path) : path ∈ paths := by
  rw [resolve?_eq_findSome?, find?_ofPaths_eq] at h
  obtain ⟨candidate, -, hfind⟩ := List.exists_of_findSome?_eq_some h
  exact List.mem_of_find?_eq_some hfind

theorem filter_resolve? (rules : ImportRules) (paths : List String) (specifier importer : String) :
    ((ofPaths rules paths).resolve? specifier importer).filter (paths.contains ·) =
      (ofPaths rules paths).resolve? specifier importer := by
  cases h : (ofPaths rules paths).resolve? specifier importer with
  | none => rfl
  | some path => rw [Option.filter_some, if_pos (List.contains_iff_mem.mpr (mem_of_resolve? h))]

/-- An import that is found stays found. -/
theorem isSome_resolve?_of_widens {left right : List String} {rules wider : ImportRules}
    (hpaths : left ⊆ right) (hrules : wider.Widens rules) {specifier importer : String}
    (h : ((ofPaths rules left).resolve? specifier importer).isSome = true) :
    ((ofPaths wider right).resolve? specifier importer).isSome = true := by
  obtain ⟨candidate, hcandidate, path, hpath, hnormal⟩ := (isSome_resolve?_iff _ _ _ _).mp h
  exact (isSome_resolve?_iff _ _ _ _).mpr
    ⟨candidate, Import.candidates_subset hrules _ _ hcandidate, path, hpaths hpath, hnormal⟩

end FileIndex

/-! ## Tables -/

namespace Classifier

theorem ofRules_of_widens {rules wider : ImportRules} (h : wider.Widens rules) :
    ofRules wider = ofRules rules := by
  unfold ofRules
  rw [h.externalModules_eq, h.dynamicPatterns_eq]

/-- The file that is found does not matter to the kind of an import. -/
theorem kind_classify_eq (classifier : Classifier) (rawImport : String) {found found' : Option String}
    (h : found.isSome = found'.isSome) :
    (classifier.classify rawImport found).kind = (classifier.classify rawImport found').kind := by
  cases found <;> cases found' <;> first | rfl | cases h

end Classifier

namespace SymbolTable

/-- What the table by the convention says of an import. -/
theorem get?_of_build_resolver {repository : Repository} {rules : ImportRules} {table : SymbolTable}
    (h : build repository rules (repository.resolver rules) = .ok table) :
    ∃ classifier, Classifier.ofRules rules = .ok classifier ∧
      ∀ source rawImport, table.get? source rawImport =
        if (source, rawImport) ∈ repository.imports then
          some (classifier.classify rawImport
            ((FileIndex.ofPaths rules repository.paths).resolve? rawImport source))
        else none := by
  obtain ⟨classifier, hrules, hget⟩ := get?_of_build h
  refine ⟨classifier, hrules, fun source rawImport => ?_⟩
  rw [hget, Repository.resolver, FileIndex.resolver, FileIndex.filter_resolve?]

/-- **An import that resolves to a file stays resolved**, with the same kind, in a repository of all
these files and by wider rules. The file that it resolves to may be another one. -/
theorem exists_get?_of_widens {left right : Repository} {rules wider : ImportRules}
    (hpaths : left.paths ⊆ right.paths) (hrules : wider.Widens rules) {table : SymbolTable}
    (htable : build left rules (left.resolver rules) = .ok table) :
    ∃ table', build right wider (right.resolver wider) = .ok table' ∧
      ∀ source rawImport resolution, (source, rawImport) ∈ left.imports →
        (source, rawImport) ∈ right.imports → table.get? source rawImport = some resolution →
        resolution.kind.isInternal = true →
        ∃ path ∈ right.paths, table'.get? source rawImport = some ⟨some path, resolution.kind⟩ := by
  obtain ⟨classifier, hclassifier, hget⟩ := get?_of_build_resolver htable
  obtain ⟨table', hbuild, -⟩ := exists_build right (right.resolver wider)
    ((Classifier.ofRules_of_widens hrules).trans hclassifier)
  obtain ⟨classifier', hclassifier', hget'⟩ := get?_of_build_resolver hbuild
  obtain rfl : classifier = classifier' := by
    rw [Classifier.ofRules_of_widens hrules, hclassifier] at hclassifier'
    exact Except.ok.inj hclassifier'
  refine ⟨table', hbuild, ?_⟩
  intro source rawImport resolution hleft hright hresolution hinternal
  rw [hget, if_pos hleft] at hresolution
  obtain rfl := Option.some.inj hresolution
  rw [Classifier.isInternal_kind_classify] at hinternal
  have hfound := FileIndex.isSome_resolve?_of_widens hpaths hrules hinternal
  obtain ⟨path, hpath⟩ := Option.isSome_iff_exists.mp hfound
  refine ⟨path, FileIndex.mem_of_resolve? hpath, ?_⟩
  rw [hget', if_pos hright, classifier.kind_classify_eq rawImport (hinternal.trans hfound.symm), hpath]
  rfl

/-- A module found under a source root comes to be hidden by a file at the top, whose extension is
added in front. -/
theorem exists_get?_of_widens_hidden :
    let rules : ImportRules :=
      { convention := .packageRoot, extensions := [".py"], indexFiles := [], sourceRoots := ["lib"],
        dynamicPatterns := ["u*"] }
    let wider : ImportRules :=
      { rules with extensions := [".js", ".py"], indexFiles := ["index"],
                   sourceRoots := ["src", "lib"] }
    let main : SourceFile := { path := "main.py", content := "", imports := [" util "] }
    let left : Repository :=
      { rootPath := "/", files := [main, { path := "lib/util.py", content := "" }] }
    let right : Repository :=
      { rootPath := "/", files := [{ path := "lib/util.py", content := "" },
        { path := "util.js", content := "" }, main] }
    left.paths ⊆ right.paths ∧ wider.Widens rules ∧
      ("main.py", " util ") ∈ left.imports ∧ ("main.py", " util ") ∈ right.imports ∧
      ∃ table table', build left rules (left.resolver rules) = .ok table ∧
        build right wider (right.resolver wider) = .ok table' ∧
        table.get? "main.py" " util " = some ⟨some "lib/util.py", .dynamic⟩ ∧
        (∃ path ∈ right.paths, table'.get? "main.py" " util " = some ⟨some path, .dynamic⟩) ∧
        table'.get? "main.py" " util " = some ⟨some "util.js", .dynamic⟩ := by
  intro rules wider main left right
  have hpaths : left.paths ⊆ right.paths := by decide
  have hrules : wider.Widens rules :=
    ⟨rfl, rfl, rfl, rfl, by decide, by decide, by decide⟩
  have hleft : ("main.py", " util ") ∈ left.imports := by decide
  have hright : ("main.py", " util ") ∈ right.imports := by decide
  have hcompile : Classifier.ofRules rules = .ok ⟨[], [⟨[.literal 'u', .run]⟩]⟩ := by cbv
  obtain ⟨table, htable, -⟩ := exists_build left (left.resolver rules) hcompile
  obtain ⟨table', htable', hstays⟩ := exists_get?_of_widens hpaths hrules htable
  obtain ⟨classifier, hclassifier, hget⟩ := get?_of_build_resolver htable
  obtain ⟨classifier', hclassifier', hget'⟩ := get?_of_build_resolver htable'
  obtain rfl := Except.ok.inj (hcompile.symm.trans hclassifier)
  rw [Classifier.ofRules_of_widens hrules, hcompile] at hclassifier'
  obtain rfl := Except.ok.inj hclassifier'
  have hfound : table.get? "main.py" " util " = some ⟨some "lib/util.py", .dynamic⟩ := by
    rw [hget, if_pos hleft, FileIndex.resolve?_eq_findSome?, FileIndex.find?_ofPaths_eq]
    decide +kernel
  have hstill := hstays "main.py" " util " ⟨some "lib/util.py", .dynamic⟩ hleft hright hfound rfl
  refine ⟨hpaths, hrules, hleft, hright, table, table', htable, htable', hfound, hstill, ?_⟩
  rw [hget', if_pos hright, FileIndex.resolve?_eq_findSome?, FileIndex.find?_ofPaths_eq]
  decide +kernel

end SymbolTable

end ImportAtlas
