import ImportAtlas.Import.SymbolTable
import ImportAtlas.Proofs.Outcome
import ImportAtlas.Proofs.Unseen
import Mathlib.Data.List.Induction

/-!
# What symbol tables say

The index of a table and its entries are in step, so a look-up in the index finds exactly the entries,
and no two of them are for one import. Going through the imports of a repository, those that have an
entry already are skipped, so the table gets one for each import, where it occurs first, and a look-up
answers with the resolution of the import itself. A resolution has a path exactly if its kind is
internal, and the path is a file of the repository, whatever the resolver answers.

## Main results

* `isInternal_kind_classify`: the internal kinds are those of the imports that resolve to a file
* `get?_eq_some_iff`: what is looked up are the entries
* `entries_enter`, `entries_foldl_enter`: the entries after one more import, and after a list of them
* `get?_of_build`: what the table of a repository says of an import
-/

namespace ImportAtlas

namespace Classifier

variable (classifier : Classifier) (rawImport : String)

theorem path_classify (found : Option String) : (classifier.classify rawImport found).path = found := by
  cases found <;> rfl

theorem isInternal_kind_classify (found : Option String) :
    (classifier.classify rawImport found).kind.isInternal = found.isSome := by
  unfold classify
  cases found with
  | none => cases h : classifier.isExternal rawImport <;> rfl
  | some path => cases h : classifier.isDynamic rawImport <;> rfl

end Classifier

theorem Repository.mem_imports_iff (repository : Repository) (source rawImport : String) :
    (source, rawImport) ∈ repository.imports ↔
      ∃ file ∈ repository.files, file.path = source ∧ rawImport ∈ file.imports := by
  unfold Repository.imports
  rw [List.mem_flatMap]
  refine exists_congr fun file => and_congr_right fun _ => ?_
  rw [List.mem_map]
  constructor
  · rintro ⟨text, hm, he⟩
    obtain ⟨rfl, rfl⟩ := Prod.mk.inj he
    exact ⟨rfl, hm⟩
  · rintro ⟨rfl, hm⟩
    exact ⟨rawImport, hm, rfl⟩

namespace SymbolTable

/-! ## Looking up entries -/

section Lookup

variable (table : SymbolTable)

theorem index_eq_some_iff (pair : String × String) (place : Nat) :
    table.index[pair]? = some place ↔
      ∃ entry, table.entries[place]? = some entry ∧ entry.pair = pair := by
  rw [table.index_iff, Option.map_eq_some_iff]

/-- **What is looked up are the entries.** -/
theorem get?_eq_some_iff (source rawImport : String) (resolution : Resolution) :
    table.get? source rawImport = some resolution ↔
      ⟨source, rawImport, resolution⟩ ∈ table.entries := by
  unfold get?
  simp only [Option.bind_eq_some_iff, Option.map_eq_some_iff, index_eq_some_iff]
  constructor
  · rintro ⟨place, ⟨entry, hentry, hpair⟩, found, hfound, rfl⟩
    obtain rfl := Option.some.inj (hentry.symm.trans hfound)
    obtain ⟨rfl, rfl⟩ := Prod.mk.inj hpair
    exact List.mem_of_getElem? hentry
  · intro hm
    obtain ⟨place, hplace⟩ := List.mem_iff_getElem?.mp hm
    exact ⟨place, ⟨_, hplace, rfl⟩, _, hplace, rfl⟩

/-- No two entries are for one import: its place in the index is one of them. -/
theorem nodup_pairs : (table.entries.map SymbolEntry.pair).Nodup := by
  rw [List.nodup_iff_pairwise_ne, List.pairwise_map, List.pairwise_iff_getElem]
  intro i j hi hj hij he
  have hfirst := (table.index_eq_some_iff _ i).mpr ⟨_, List.getElem?_eq_getElem hi, he⟩
  have hlast := (table.index_eq_some_iff _ j).mpr ⟨_, List.getElem?_eq_getElem hj, rfl⟩
  have hplace := Option.some.inj (hfirst.symm.trans hlast)
  omega

/-- A pair has no place in the index exactly if it has no entry. -/
theorem index_eq_none_iff (pair : String × String) :
    table.index[pair]? = none ↔ pair ∉ table.entries.map SymbolEntry.pair := by
  rw [Option.eq_none_iff_forall_not_mem, List.mem_map]
  simp only [Option.mem_def, index_eq_some_iff, List.mem_iff_getElem?]
  constructor
  · rintro h ⟨entry, ⟨place, hplace⟩, hpair⟩
    exact h place ⟨entry, hplace, hpair⟩
  · rintro h place ⟨entry, hplace, hpair⟩
    exact h ⟨entry, ⟨place, hplace⟩, hpair⟩

end Lookup

/-! ## Entering imports -/

section Enter

variable (classifier : Classifier) (resolver : Resolver) (paths : Std.HashSet String)

/-- **One more import** gets an entry behind the others, unless it has one. -/
theorem entries_enter (table : SymbolTable) (pair : String × String) :
    (table.enter classifier resolver paths pair).entries =
      if pair ∈ table.entries.map SymbolEntry.pair then table.entries
      else table.entries ++ [entryOf classifier resolver paths pair] := by
  unfold enter
  split
  · next place hplace =>
    rw [if_pos]
    by_contra hnot
    rw [(table.index_eq_none_iff pair).mpr hnot] at hplace
    cases hplace
  · next hnone =>
    rw [if_neg ((table.index_eq_none_iff pair).mp hnone)]
    rfl

/-- **The imports of a list get one entry each**, in the order of first occurrence. -/
theorem entries_foldl_enter (pairs : List (String × String)) :
    (pairs.foldl (enter classifier resolver paths) empty).entries =
      pairs.eraseDups.map (entryOf classifier resolver paths) := by
  induction pairs using List.reverseRecOn with
  | nil => rfl
  | append_singleton pairs pair ih =>
    -- The entries so far are those of the imports before this one.
    have hpairs : (pairs.foldl (enter classifier resolver paths) empty).entries.map
        SymbolEntry.pair = pairs.eraseDups := by
      rw [ih, List.map_map]
      exact List.map_id _
    rw [List.foldl_append, List.foldl_cons, List.foldl_nil, entries_enter, hpairs, ih,
      eraseDups_concat]
    by_cases h : pair ∈ pairs <;> simp [h, List.mem_eraseDups]

end Enter

/-! ## The table of a repository -/

/-- Going through the files and their imports is going through all imports. -/
theorem build_eq (repository : Repository) (rules : ImportRules) (resolver : Resolver) :
    build repository rules resolver = ((Classifier.ofRules rules).mapError Error.glob).map
      fun classifier => repository.imports.foldl
        (enter classifier resolver (.ofList repository.paths)) empty := by
  unfold build Repository.imports
  simp only [List.foldl_flatMap, List.foldl_map]
  cases Classifier.ofRules rules <;> rfl

/-- **The entries of the table of a repository**, its files being a list instead of a set. -/
theorem exists_build (repository : Repository) {rules : ImportRules} (resolver : Resolver)
    {classifier : Classifier} (hrules : Classifier.ofRules rules = .ok classifier) :
    ∃ table, build repository rules resolver = .ok table ∧
      table.entries = repository.imports.eraseDups.map fun pair => ⟨pair.1, pair.2,
        classifier.classify pair.2
          ((resolver.find? pair.2 pair.1).filter (repository.paths.contains ·))⟩ := by
  rw [build_eq, hrules]
  refine ⟨_, rfl, ?_⟩
  have hcontains : (Std.HashSet.ofList repository.paths).contains =
      (repository.paths.contains ·) := by
    funext path
    exact Std.HashSet.contains_ofList
  rw [entries_foldl_enter]
  refine List.map_congr_left fun pair _ => ?_
  unfold entryOf
  rw [hcontains]

/-- A table of a repository is made by a classifier of its rules. -/
theorem exists_classifier_of_build {repository : Repository} {rules : ImportRules}
    {resolver : Resolver} {table : SymbolTable} (h : build repository rules resolver = .ok table) :
    ∃ classifier, Classifier.ofRules rules = .ok classifier ∧
      table.entries = repository.imports.eraseDups.map fun pair => ⟨pair.1, pair.2,
        classifier.classify pair.2
          ((resolver.find? pair.2 pair.1).filter (repository.paths.contains ·))⟩ := by
  cases hrules : Classifier.ofRules rules with
  | error fault =>
    rw [build_eq, hrules] at h
    cases h
  | ok classifier =>
    obtain ⟨built, hbuilt, hentries⟩ := exists_build repository resolver hrules
    obtain rfl := Except.ok.inj (hbuilt.symm.trans h)
    exact ⟨classifier, rfl, hentries⟩

/-- **What the table of a repository says of an import** is its resolution, any file found outside
the repository being left out. -/
theorem get?_of_build {repository : Repository} {rules : ImportRules} {resolver : Resolver}
    {table : SymbolTable} (h : build repository rules resolver = .ok table) :
    ∃ classifier, Classifier.ofRules rules = .ok classifier ∧
      ∀ source rawImport, table.get? source rawImport =
        if (source, rawImport) ∈ repository.imports then
          some (classifier.classify rawImport
            ((resolver.find? rawImport source).filter (repository.paths.contains ·)))
        else none := by
  obtain ⟨classifier, hrules, hentries⟩ := exists_classifier_of_build h
  refine ⟨classifier, hrules, fun source rawImport => ?_⟩
  split
  · next hmem =>
    rw [get?_eq_some_iff, hentries, List.mem_map]
    exact ⟨_, List.mem_eraseDups.mpr hmem, rfl⟩
  · next hmem =>
    rw [Option.eq_none_iff_forall_not_mem]
    intro resolution hfound
    rw [Option.mem_def, get?_eq_some_iff, hentries, List.mem_map] at hfound
    obtain ⟨pair, hpair, hentry⟩ := hfound
    -- An entry is for its own pair.
    obtain ⟨rfl, rfl, -⟩ := SymbolEntry.mk.inj hentry
    exact hmem (List.mem_eraseDups.mp hpair)

end SymbolTable

end ImportAtlas
