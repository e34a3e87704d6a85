import ImportAtlas.Error
import ImportAtlas.Import.Classify
import ImportAtlas.Import.Resolver
import ImportAtlas.Repository.Basic
import Std.Data.HashMap
import Std.Data.HashSet

/-!
# Symbol tables

A symbol table holds what every import of every file resolves to, one entry for each pair of a
file and an import text, in the order of first occurrence, and an index that tells where the entry
of a pair is. A path found by a resolver counts only if it is a file of the repository.

## Main definitions

* `SymbolEntry`, `SymbolTable`: entries and tables
* `SymbolTable.get?`: the resolution of an import of a file
* `SymbolTable.add`: one more entry, which joins the entries and the index
* `Repository.imports`: the imports of a repository
* `SymbolTable.build`: the table of a repository
-/

namespace ImportAtlas

/-- What an import of a file resolves to. -/
structure SymbolEntry where
  source : String
  rawImport : String
  resolution : Resolution
  deriving DecidableEq, Repr

/-- The file and the import that an entry is for. -/
def SymbolEntry.pair (entry : SymbolEntry) : String × String :=
  (entry.source, entry.rawImport)

/-- What the imports of a repository resolve to. -/
structure SymbolTable where
  /-- One entry for each pair of a file and an import, in the order of first occurrence. -/
  entries : List SymbolEntry
  /-- Where the entry of each pair is. -/
  index : Std.HashMap (String × String) Nat
  /-- A pair has a place in the index exactly if the entry at that place is for the pair. -/
  index_iff : ∀ pair place,
    index[pair]? = some place ↔ entries[place]?.map SymbolEntry.pair = some pair

/-- The imports of a repository, each with its file, in file order and then import order. -/
def Repository.imports (repository : Repository) : List (String × String) :=
  repository.files.flatMap fun file => file.imports.map fun rawImport => (file.path, rawImport)

namespace SymbolTable

/-- The table without entries. -/
def empty : SymbolTable where
  entries := []
  index := ∅
  index_iff := by simp

/-- The resolution of an import of a file, found at its place in the index. -/
def get? (table : SymbolTable) (source rawImport : String) : Option Resolution :=
  table.index[(source, rawImport)]?.bind fun place => table.entries[place]?.map (·.resolution)

/-- The entries of one kind. -/
def entriesOfKind (table : SymbolTable) (kind : EdgeKind) : List SymbolEntry :=
  table.entries.filter (·.resolution.kind == kind)

/-- The number of entries. -/
def size (table : SymbolTable) : Nat := table.entries.length

/-- **The index stays in step with the entries** if a pair that it does not have gets an entry behind
the others, whose place is their number. -/
theorem index_iff_concat (table : SymbolTable) (entry : SymbolEntry)
    (hnew : table.index[entry.pair]? = none) (pair : String × String) (place : Nat) :
    (table.index.insert entry.pair table.entries.length)[pair]? = some place ↔
      (table.entries ++ [entry])[place]?.map SymbolEntry.pair = some pair := by
  rw [Std.HashMap.getElem?_insert]
  rcases Nat.lt_trichotomy place table.entries.length with hlt | rfl | hgt
  · -- An old place is still that of its entry, which is not for the new pair.
    rw [List.getElem?_append_left hlt, ← table.index_iff]
    by_cases hpair : entry.pair = pair
    · subst hpair
      simp [hnew, Nat.ne_of_gt hlt]
    · simp [hpair]
  · -- The new place is that of the new entry, and was that of none.
    have hold : table.index[pair]? ≠ some table.entries.length := by
      rw [ne_eq, table.index_iff, List.getElem?_eq_none (Nat.le_refl _)]
      simp
    by_cases hpair : entry.pair = pair <;> simp [hpair, hold]
  · have hold : table.index[pair]? ≠ some place := by
      rw [ne_eq, table.index_iff, List.getElem?_eq_none (Nat.le_of_lt hgt)]
      simp
    have hbeyond : (table.entries ++ [entry])[place]? = none := by
      apply List.getElem?_eq_none
      rw [List.length_append, List.length_singleton]
      exact hgt
    by_cases hpair : entry.pair = pair <;> simp [hpair, hold, hbeyond, Nat.ne_of_lt hgt]

/-- The table with one more entry, for a pair that has none. -/
def add (table : SymbolTable) (entry : SymbolEntry) (hnew : table.index[entry.pair]? = none) :
    SymbolTable where
  entries := table.entries ++ [entry]
  index := table.index.insert entry.pair table.entries.length
  index_iff := table.index_iff_concat entry hnew

/-- The entry for an import of a file. -/
def entryOf (classifier : Classifier) (resolver : Resolver) (paths : Std.HashSet String)
    (pair : String × String) : SymbolEntry where
  source := pair.1
  rawImport := pair.2
  resolution := classifier.classify pair.2 ((resolver.find? pair.2 pair.1).filter paths.contains)

/-- Enters an import of a file, unless it has been entered before. -/
def enter (classifier : Classifier) (resolver : Resolver) (paths : Std.HashSet String)
    (table : SymbolTable) (pair : String × String) : SymbolTable :=
  match h : table.index[pair]? with
  | some _ => table
  | none => table.add (entryOf classifier resolver paths pair) h

/-- The table of a repository, its files being entered one after the other and each with its imports
in order. There is none if a dynamic pattern is faulty. -/
def build (repository : Repository) (rules : ImportRules) (resolver : Resolver) :
    Except Error SymbolTable := do
  let classifier ← (Classifier.ofRules rules).mapError Error.glob
  let paths := Std.HashSet.ofList repository.paths
  return repository.files.foldl (fun table file =>
    file.imports.foldl (fun table rawImport =>
      table.enter classifier resolver paths (file.path, rawImport)) table) empty

end SymbolTable

/-- The resolver for a repository that follows the convention of the rules. -/
def Repository.resolver (repository : Repository) (rules : ImportRules) : Resolver :=
  (FileIndex.ofPaths rules repository.paths).resolver

end ImportAtlas
