import ImportAtlas.Proofs.Glob.Compiled
import ImportAtlas.Proofs.Import.SymbolTable
import ImportAtlas.Proofs.Import.TopLevel

/-!
# What imports resolve to

A symbol table lists every import of a repository once, in the order of first occurrence, with its
resolution by the rules: an import is internal if the resolver answers with a path of the repository,
whatever else it answers, and otherwise the top-level name of its text decides. The repository need
not be valid, so that a path may belong to several files.

## Main definitions

* `ImportRules.IsDynamic`, `ImportRules.IsExternal`: the imports that happen at run time, and those of
  known modules
* `ImportRules.ResolvesTo`: the resolution of an import by the rules
* `SymbolTable.Lists`: what the table of a repository is like

## Main results

* `resolvesTo_classify`: imports are classified by the rules
* `exists_build_lists`: the table of a repository lists its imports
-/

namespace ImportAtlas

namespace ImportRules

variable (rules : ImportRules)

/-- An import happens at run time if a dynamic pattern describes its text, the blanks around it not
being counted. -/
def IsDynamic (rawImport : String) : Prop :=
  ∃ pattern ∈ rules.dynamicPatterns, Glob.describes pattern (Text.trim rawImport) = true

/-- The imports of known modules. -/
def IsExternal (rawImport : String) : Prop :=
  Text.trim rawImport ≠ "" ∧ (Text.trim rawImport).toList.head? ≠ some '.' ∧
    ∃ name ∈ rules.externalModules, Import.IsTopLevelName (Text.trim rawImport) name

/-- The resolution of an import by the rules, `answer` being the path that a resolver gives for it and
`paths` those of the repository. -/
inductive ResolvesTo (paths : List String) (answer : Option String) (rawImport : String) :
    Resolution → Prop where
  | dynamic {path : String} (hanswer : answer = some path) (hmem : path ∈ paths)
      (hdynamic : rules.IsDynamic rawImport) : ResolvesTo paths answer rawImport ⟨some path, .dynamic⟩
  | direct {path : String} (hanswer : answer = some path) (hmem : path ∈ paths)
      (hdynamic : ¬rules.IsDynamic rawImport) : ResolvesTo paths answer rawImport ⟨some path, .direct⟩
  | external (hanswer : ∀ path ∈ paths, answer ≠ some path)
      (hexternal : rules.IsExternal rawImport) : ResolvesTo paths answer rawImport ⟨none, .external⟩
  | unresolved (hanswer : ∀ path ∈ paths, answer ≠ some path)
      (hexternal : ¬rules.IsExternal rawImport) :
      ResolvesTo paths answer rawImport ⟨none, .unresolved⟩

end ImportRules

/-! ## Classification -/

namespace Classifier

theorem ofRules_eq_ok_iff (rules : ImportRules) (classifier : Classifier) :
    ofRules rules = .ok classifier ↔ ∃ patterns, compilePatterns rules.dynamicPatterns = .ok patterns ∧
      classifier = ⟨rules.externalModules, patterns⟩ := by
  unfold ofRules
  rw [Outcome.bind_eq_ok_iff]
  refine exists_congr fun patterns => and_congr_right fun _ => ?_
  constructor
  · intro h
    exact (Except.ok.inj h).symm
  · rintro rfl
    rfl

variable {rules : ImportRules} {classifier : Classifier}

theorem isDynamic_iff (h : ofRules rules = .ok classifier) (rawImport : String) :
    classifier.isDynamic rawImport = true ↔ rules.IsDynamic rawImport := by
  obtain ⟨patterns, hcompile, rfl⟩ := (ofRules_eq_ok_iff rules classifier).mp h
  unfold isDynamic
  rw [anyAccepts_eq_any_describes hcompile, List.any_eq_true]
  rfl

theorem isExternal_iff (h : ofRules rules = .ok classifier) (rawImport : String) :
    classifier.isExternal rawImport = true ↔ rules.IsExternal rawImport := by
  obtain ⟨patterns, -, rfl⟩ := (ofRules_eq_ok_iff rules classifier).mp h
  unfold isExternal ImportRules.IsExternal
  rw [Option.any_eq_true]
  simp only [Import.topLevelName?_eq_some_iff, List.contains_iff_mem]
  constructor
  · rintro ⟨name, ⟨hne, hdot, hname⟩, hmem⟩
    exact ⟨hne, hdot, name, hmem, hname⟩
  · rintro ⟨hne, hdot, name, hmem, hname⟩
    exact ⟨name, ⟨hne, hdot, hname⟩, hmem⟩

/-- **Imports are classified by the rules**, an answer outside the repository being no answer. -/
theorem resolvesTo_classify (h : ofRules rules = .ok classifier) (paths : List String)
    (answer : Option String) (rawImport : String) :
    rules.ResolvesTo paths answer rawImport
      (classifier.classify rawImport (answer.filter (paths.contains ·))) := by
  cases hfound : answer.filter (paths.contains ·) with
  | some path =>
    obtain ⟨hanswer, hmem⟩ := Option.filter_eq_some_iff.mp hfound
    unfold classify
    by_cases hd : classifier.isDynamic rawImport = true
    · rw [if_pos hd]
      exact .dynamic hanswer (List.contains_iff_mem.mp hmem) ((isDynamic_iff h rawImport).mp hd)
    · rw [if_neg hd]
      exact .direct hanswer (List.contains_iff_mem.mp hmem) (mt (isDynamic_iff h rawImport).mpr hd)
  | none =>
    have houtside : ∀ path ∈ paths, answer ≠ some path := by
      intro path hmem hanswer
      rw [hanswer, Option.filter_some, if_pos (List.contains_iff_mem.mpr hmem)] at hfound
      cases hfound
    unfold classify
    by_cases he : classifier.isExternal rawImport = true
    · rw [if_pos he]
      exact .external houtside ((isExternal_iff h rawImport).mp he)
    · rw [if_neg he]
      exact .unresolved houtside (mt (isExternal_iff h rawImport).mpr he)

end Classifier

/-! ## Tables -/

namespace SymbolTable

/-- What the table of a repository is like. -/
structure Lists (table : SymbolTable) (repository : Repository) (rules : ImportRules)
    (resolver : Resolver) : Prop where
  /-- The imports are listed in the order of first occurrence. -/
  keys_eq : table.entries.map (fun entry => (entry.source, entry.rawImport)) =
    repository.imports.eraseDups
  keys_nodup : (table.entries.map fun entry => (entry.source, entry.rawImport)).Nodup
  isSome_get?_iff : ∀ source rawImport,
    (table.get? source rawImport).isSome = true ↔ (source, rawImport) ∈ repository.imports
  get?_eq : ∀ entry ∈ table.entries,
    table.get? entry.source entry.rawImport = some entry.resolution
  /-- The index is in step with the entries: it has the place of every entry, and no other place. -/
  index_eq_some_iff : ∀ source rawImport place,
    table.index[(source, rawImport)]? = some place ↔ ∃ entry : SymbolEntry,
      table.entries[place]? = some entry ∧ entry.source = source ∧ entry.rawImport = rawImport
  resolvesTo : ∀ entry ∈ table.entries, rules.ResolvesTo repository.paths
    (resolver.find? entry.rawImport entry.source) entry.rawImport entry.resolution

theorem lists_of_build {repository : Repository} {rules : ImportRules} {resolver : Resolver}
    {table : SymbolTable} (h : build repository rules resolver = .ok table) :
    table.Lists repository rules resolver := by
  obtain ⟨classifier, hrules, hentries⟩ := exists_classifier_of_build h
  obtain ⟨_, -, hget⟩ := get?_of_build h
  have hkeys : table.entries.map (fun entry => (entry.source, entry.rawImport)) =
      repository.imports.eraseDups := by
    rw [hentries, List.map_map]
    exact List.map_id _
  constructor
  case keys_eq => exact hkeys
  case keys_nodup => exact table.nodup_pairs
  case isSome_get?_iff =>
    intro source rawImport
    rw [hget]
    by_cases h : (source, rawImport) ∈ repository.imports <;> simp [h]
  case get?_eq =>
    intro entry he
    exact (table.get?_eq_some_iff _ _ _).mpr he
  case index_eq_some_iff =>
    intro source rawImport place
    rw [table.index_eq_some_iff]
    simp only [SymbolEntry.pair, Prod.mk.injEq]
  case resolvesTo =>
    intro entry he
    rw [hentries] at he
    obtain ⟨pair, -, rfl⟩ := List.mem_map.mp he
    exact Classifier.resolvesTo_classify hrules repository.paths _ pair.2

/-- **The table of a repository lists its imports**, each once and with its resolution by the rules,
provided that the dynamic patterns compile. -/
theorem exists_build_lists {rules : ImportRules}
    (h : ∀ pattern ∈ rules.dynamicPatterns, ∃ compiled, Glob.compile pattern = .ok compiled)
    (repository : Repository) (resolver : Resolver) :
    ∃ table, build repository rules resolver = .ok table ∧ table.Lists repository rules resolver := by
  have hrules : ∃ classifier, Classifier.ofRules rules = .ok classifier := by
    obtain ⟨compiled, hcompiled⟩ := Outcome.exists_map_eq_map_ok_iff.mpr h
    rw [← compilePatterns_eq_ok_iff] at hcompiled
    exact ⟨_, (Classifier.ofRules_eq_ok_iff rules _).mpr ⟨compiled, hcompiled, rfl⟩⟩
  obtain ⟨classifier, hclassifier⟩ := hrules
  obtain ⟨table, hbuild, -⟩ := exists_build repository resolver hclassifier
  exact ⟨table, hbuild, lists_of_build hbuild⟩

/-- Two files of one path with imports in common, and a resolver that also answers with a path that is
no file. -/
theorem exists_build_lists_repeated :
    let rules : ImportRules := { externalModules := ["@ui/kit"], dynamicPatterns := ["plugins*"] }
    let repository : Repository :=
      { rootPath := "/", files :=
          [{ path := "a.py", content := "", imports := [" plugins.b", "b.py", "@ui/kit/button"] },
            { path := "b.py", content := "", imports := ["b.py", ".c"] },
            { path := "a.py", content := "", imports := ["b.py", "os", "os"] }] }
    let resolver : Resolver :=
      ⟨fun rawImport _ => some (if rawImport = " plugins.b" then "b.py" else rawImport)⟩
    (∀ pattern ∈ rules.dynamicPatterns, ∃ compiled, Glob.compile pattern = .ok compiled) ∧
      ∃ table, build repository rules resolver = .ok table ∧
        table.Lists repository rules resolver ∧
        table.entries = [⟨"a.py", " plugins.b", ⟨some "b.py", .dynamic⟩⟩,
          ⟨"a.py", "b.py", ⟨some "b.py", .direct⟩⟩, ⟨"a.py", "@ui/kit/button", ⟨none, .external⟩⟩,
          ⟨"b.py", "b.py", ⟨some "b.py", .direct⟩⟩, ⟨"b.py", ".c", ⟨none, .unresolved⟩⟩,
          ⟨"a.py", "os", ⟨none, .unresolved⟩⟩] := by
  intro rules repository resolver
  have hcompile : ∀ pattern ∈ rules.dynamicPatterns,
      ∃ compiled, Glob.compile pattern = .ok compiled := by
    intro pattern hp
    obtain rfl := List.mem_singleton.mp hp
    exact ⟨⟨"plugins".toList.map .literal ++ [.run]⟩, by cbv⟩
  obtain ⟨table, hbuild, hlists⟩ := exists_build_lists hcompile repository resolver
  refine ⟨hcompile, table, hbuild, hlists, ?_⟩
  have hrules : Classifier.ofRules rules =
      .ok ⟨["@ui/kit"], [⟨"plugins".toList.map .literal ++ [.run]⟩]⟩ := by cbv
  obtain ⟨classifier, hclassifier, hentries⟩ := exists_classifier_of_build hbuild
  obtain rfl := Except.ok.inj (hrules.symm.trans hclassifier)
  rw [hentries]
  decide +kernel

end SymbolTable

end ImportAtlas
