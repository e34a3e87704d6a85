import ImportAtlas.Graph.Build
import ImportAtlas.Proofs.Import.SymbolTable
import ImportAtlas.Proofs.Outcome
import ImportAtlas.Proofs.Unseen

/-!
# Assembled graphs

What is assembled from a repository and a symbol table is said without going through the files one
by one, for any table, also one that belongs to another repository. A path that occurs again comes
first among the faults, then an import that the table does not know. If there is neither, the edges
are those of all imports, each listed where it occurs first.

## Main definitions

* `firstRepeated?`: the first path that has occurred before
* `SymbolTable.edges`: the edges of imports, as often as they occur

## Main results

* `checkDistinct_eq`, `collectEdges_eq`: the two passes over a repository
* `collectEdges_spec`: the edges collected are distinct and come from the imports
* `assemble_eq`: what is assembled from a repository and a table
* `assemble_eq_validation`: the same with the faults as errors
-/

namespace ImportAtlas

/-- The first path that is among the paths before it. -/
def firstRepeated? (paths : List String) : Option String :=
  (paths.zipIdx.find? fun entry => (paths.take entry.2).contains entry.1).map Prod.fst

/-- The edges of the imports that a table knows, those of files that import themselves left out. The
target of an import that resolves to no file is its text without the blanks around it. -/
def SymbolTable.edges (table : SymbolTable) (imports : List (String × String)) : List Edge :=
  imports.filterMap fun pair =>
    (table.get? pair.1 pair.2).bind fun resolution =>
      if resolution.path = some pair.1 then none
      else some ⟨pair.1, resolution.path.getD (Text.trim pair.2), resolution.kind⟩

namespace Graph

/-! ## The nodes -/

/-- Looking for a repetition in `after`, the paths of `before` having been seen. -/
theorem checkDistinct_of_seen {before : List String} {seen : Std.HashSet String}
    (hseen : ∀ path, path ∈ seen ↔ path ∈ before) (after : List String) :
    checkDistinct seen after =
      match (after.zipIdx before.length).find? fun entry =>
        ((before ++ after).take entry.2).contains entry.1 with
      | some entry => .error (.duplicatePath entry.1)
      | none => .ok () := by
  -- Each path that is no repetition moves from `after` to the end of `before`.
  induction after generalizing before seen with
  | nil => rfl
  | cons path after ih =>
    rw [checkDistinct, List.zipIdx_cons, List.find?_cons, List.take_left]
    by_cases h : path ∈ before
    · have hs : seen.contains path = true := (hseen path).mpr h
      rw [if_pos hs, List.contains_iff_mem.mpr h]
    · have hs : ¬seen.contains path = true := fun hc => h ((hseen path).mp hc)
      have hstep : ∀ other, other ∈ seen.insert path ↔ other ∈ before ++ [path] := by
        intro other
        rw [Std.HashSet.mem_insert, hseen, List.mem_append, List.mem_singleton, beq_iff_eq,
          or_comm, eq_comm]
      rw [if_neg hs, ih hstep, List.length_append, List.length_singleton, List.append_assoc,
        List.singleton_append]
      simp [h]

theorem checkDistinct_eq (paths : List String) :
    checkDistinct ∅ paths = match firstRepeated? paths with
      | some path => .error (.duplicatePath path)
      | none => .ok () := by
  have hseen : ∀ path, path ∈ (∅ : Std.HashSet String) ↔ path ∈ ([] : List String) := by simp
  have h := checkDistinct_of_seen hseen paths
  rw [List.nil_append, List.length_nil] at h
  rw [h]
  unfold firstRepeated?
  cases List.find? _ paths.zipIdx <;> rfl

theorem firstRepeated?_eq_none_iff (paths : List String) :
    firstRepeated? paths = none ↔ paths.Nodup := by
  unfold firstRepeated?
  rw [Option.map_eq_none_iff, List.find?_eq_none, List.nodup_iff_pairwise_ne,
    List.pairwise_iff_getElem]
  -- On both sides a repetition is a path at two places `i < j`.
  constructor
  · intro h i j hi hj hij he
    refine h (paths[j], j) (List.mem_zipIdx_iff_getElem?.mpr (List.getElem?_eq_getElem hj)) ?_
    rw [List.contains_iff_mem, List.mem_take_iff_getElem]
    exact ⟨i, by omega, he⟩
  · rintro h ⟨path, j⟩ hm hc
    have hplace : paths[j]? = some path := List.mem_zipIdx_iff_getElem?.mp hm
    obtain ⟨hj, rfl⟩ := List.getElem?_eq_some_iff.mp hplace
    rw [List.contains_iff_mem, List.mem_take_iff_getElem] at hc
    obtain ⟨i, hi, he⟩ := hc
    exact h i j (by omega) hj (by omega) he

theorem checkDistinct_eq_ok_iff (paths : List String) :
    checkDistinct ∅ paths = .ok () ↔ paths.Nodup := by
  rw [checkDistinct_eq, ← firstRepeated?_eq_none_iff]
  cases firstRepeated? paths <;> simp

example : firstRepeated? ["a.py", "b.py", "b.py", "a.py"] = some "b.py" := by decide

/-! ## The edges -/

/-- The edge of an import, in the terms of the edges that a table knows. -/
theorem edgeOf?_eq (source rawImport : String) (resolution : Resolution) :
    edgeOf? source rawImport resolution =
      if resolution.path = some source then none
      else some ⟨source, resolution.path.getD (Text.trim rawImport), resolution.kind⟩ := by
  unfold edgeOf?
  cases h : resolution.path with
  | none => simp
  | some path => simp

/-- The edge of an import that has a resolution. -/
def edgeFor? (table : SymbolTable) (pair : String × String) : Option Edge :=
  (table.get? pair.1 pair.2).bind (edgeOf? pair.1 pair.2)

/-- **The edges collected**, if every import has a resolution, are those not seen before, each where
it occurs first. -/
theorem collectEdges_eq (table : SymbolTable) (seen : Std.HashSet Edge)
    (pairs : List (String × String)) :
    collectEdges table seen pairs =
      match pairs.find? fun pair => (table.get? pair.1 pair.2).isNone with
      | some pair => .error (.missingEntry pair.1 pair.2)
      | none => .ok (unseen seen (pairs.filterMap (edgeFor? table))) := by
  -- An edge that is taken counts as seen for the rest of the imports.
  induction pairs generalizing seen with
  | nil => rfl
  | cons pair pairs ih =>
    rw [collectEdges, List.find?_cons]
    cases hr : table.get? pair.1 pair.2 with
    | none => rfl
    | some resolution =>
      have hfor : edgeFor? table pair = edgeOf? pair.1 pair.2 resolution := by
        rw [edgeFor?, hr, Option.bind_some]
      simp only [Option.isNone_some, ih]
      cases he : edgeOf? pair.1 pair.2 resolution with
      | none => rw [List.filterMap_cons_none (hfor.trans he)]
      | some edge =>
        rw [List.filterMap_cons_some (hfor.trans he)]
        by_cases hs : edge ∈ seen
        · rw [unseen_cons_of_mem hs]
          simp [hs]
        · rw [unseen_cons_of_not_mem hs]
          simp only [Std.HashSet.contains_iff_mem, hs, if_false]
          cases pairs.find? _ <;> rfl

/-- **The edges collected** are distinct, and they are the edges of the imports that have not been
seen before. -/
theorem collectEdges_spec {table : SymbolTable} {seen : Std.HashSet Edge}
    {pairs : List (String × String)} {edges : List Edge}
    (h : collectEdges table seen pairs = .ok edges) :
    edges.Nodup ∧ ∀ edge, edge ∈ edges ↔ edge ∉ seen ∧ ∃ pair ∈ pairs, ∃ resolution,
      table.get? pair.1 pair.2 = some resolution ∧ edgeOf? pair.1 pair.2 resolution = some edge := by
  rw [collectEdges_eq] at h
  split at h
  · cases h
  · obtain rfl := Except.ok.inj h
    refine ⟨nodup_unseen _ _, fun edge => ?_⟩
    rw [mem_unseen_iff, List.mem_filterMap, and_comm]
    simp only [edgeFor?, Option.bind_eq_some_iff]

/-! ## The graph -/

theorem assemble_eq_ok_iff (repository : Repository) (table : SymbolTable) (graph : Graph) :
    assemble repository table = .ok graph ↔
      repository.paths.Nodup ∧ graph.nodes = repository.paths ∧
        collectEdges table ∅ repository.imports = .ok graph.edges := by
  unfold assemble
  rw [Outcome.check_bind_eq_ok_iff, checkDistinct_eq_ok_iff, Outcome.bind_eq_ok_iff]
  constructor
  · rintro ⟨hd, edges, hedges, hok⟩
    obtain rfl := Except.ok.inj hok
    exact ⟨hd, rfl, hedges⟩
  · rintro ⟨hd, hnodes, hedges⟩
    refine ⟨hd, graph.edges, hedges, ?_⟩
    rw [← hnodes]
    rfl

/-- **What is assembled from a repository and a table.** -/
theorem assemble_eq (repository : Repository) (table : SymbolTable) :
    assemble repository table =
      match firstRepeated? repository.paths with
      | some path => .error (.duplicatePath path)
      | none =>
        match repository.imports.find? fun pair => (table.get? pair.1 pair.2).isNone with
        | some pair => .error (.missingEntry pair.1 pair.2)
        | none => .ok ⟨repository.paths, (table.edges repository.imports).eraseDups⟩ := by
  have hedges : table.edges repository.imports =
      repository.imports.filterMap (edgeFor? table) := by
    unfold SymbolTable.edges
    refine List.filterMap_congr ?_
    intro pair _
    exact congrArg (Option.bind _) (funext fun resolution => (edgeOf?_eq _ _ resolution).symm)
  unfold assemble
  rw [checkDistinct_eq, collectEdges_eq, unseen_empty, ← hedges]
  cases firstRepeated? repository.paths with
  | some path => rfl
  | none =>
    -- The check of the nodes is passed, so what is left is the pass over the imports.
    change Except.bind (match repository.imports.find? _ with | some _ => _ | none => _) _ = _
    cases repository.imports.find? _ <;> rfl

/-- **Assembling fails with the first repeated path, or else with the first import that the table does
not know.** Otherwise the graph has the paths of the files as its nodes and the edges of all imports,
each where it occurs first. -/
theorem assemble_eq_validation (repository : Repository) (table : SymbolTable) :
    (assemble repository table).mapError AssemblyFault.toError =
      match firstRepeated? repository.paths with
      | some path => .error (.validation ("duplicate file path '" ++ path ++ "'") [path])
      | none =>
        match repository.imports.find? fun pair => (table.get? pair.1 pair.2).isNone with
        | some (source, rawImport) =>
          .error (.validation ("import '" ++ rawImport ++ "' of '" ++ source ++
            "' is missing from the symbol table") [source])
        | none => .ok ⟨repository.paths, (table.edges repository.imports).eraseDups⟩ := by
  rw [assemble_eq]
  cases firstRepeated? repository.paths with
  | some path => rfl
  | none => cases repository.imports.find? _ <;> rfl

end Graph

end ImportAtlas
