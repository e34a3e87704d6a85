import ImportAtlas.Proofs.Graph.Fans
import ImportAtlas.Render.Csv

/-!
# Tallies of edges

The table of a report counts the edges of a graph on its own: it goes through them once and keeps a
tally of each file. An edge changes the tally of its source, and if it is internal also that of its
target. After all edges the tally of a file holds the files that it imports and those that import
it, and the numbers of its edges of the other kinds. So its sets are as large as the fans of the
file, which the statistics of the graph find in lists of neighbours.

## Main definitions

* `Tallied`: when the tallies of files are those of some edges

## Main results

* `Tallied.enter`: one more edge
* `tallied_ofEdges`: the tallies of a list of edges
* `size_imports_eq_fanOut`, `size_importedBy_eq_fanIn`: the sets of a tally are as large as the fans
  of its file
-/

namespace ImportAtlas.Render

/-! ## One edge -/

namespace Tallies

variable (tallies : Tallies) (path : String)

theorem of_modify (other : String) (change : Tally → Tally) :
    (tallies.modify path change).of other =
      if path = other then change (tallies.of other) else tallies.of other := by
  unfold modify
  rw [of, Std.HashMap.getD_insert]
  by_cases h : path = other
  · rw [if_pos h, if_pos (beq_iff_eq.mpr h), h]
  · rw [if_neg h, if_neg (mt beq_iff_eq.mp h)]
    rfl

/-- What an edge changes in the tally of a file: nothing, unless it starts or ends there. -/
theorem of_enter (edge : Edge) :
    (tallies.enter edge).of path =
      { imports :=
          if edge.kind.isInternal && edge.source == path then
            (tallies.of path).imports.insert edge.target
          else (tallies.of path).imports
        importedBy :=
          if edge.kind.isInternal && edge.target == path then
            (tallies.of path).importedBy.insert edge.source
          else (tallies.of path).importedBy
        external := (tallies.of path).external +
          if edge.source == path && edge.kind == .external then 1 else 0
        unresolved := (tallies.of path).unresolved +
          if edge.source == path && edge.kind == .unresolved then 1 else 0 } := by
  obtain ⟨source, target, kind⟩ := edge
  by_cases hs : source = path <;> by_cases ht : target = path <;>
    cases kind <;> simp [enter, of_modify, EdgeKind.isInternal, hs, ht]

end Tallies

/-! ## All edges -/

/-- When the tallies of files are those of some edges. -/
structure Tallied (edges : List Edge) (tallies : Tallies) : Prop where
  mem_imports_iff : ∀ path target, target ∈ (tallies.of path).imports ↔
    ∃ edge ∈ edges, edge.kind.isInternal = true ∧ edge.source = path ∧ edge.target = target
  mem_importedBy_iff : ∀ path source, source ∈ (tallies.of path).importedBy ↔
    ∃ edge ∈ edges, edge.kind.isInternal = true ∧ edge.source = source ∧ edge.target = path
  external_eq : ∀ path, (tallies.of path).external =
    edges.countP fun edge => edge.source == path && edge.kind == .external
  unresolved_eq : ∀ path, (tallies.of path).unresolved =
    edges.countP fun edge => edge.source == path && edge.kind == .unresolved

theorem mem_insert_if_iff {wanted : Bool} {paths : Std.HashSet String} {entered path : String} :
    path ∈ (if wanted then paths.insert entered else paths) ↔
      path ∈ paths ∨ wanted = true ∧ entered = path := by
  cases wanted with
  | false => simp
  | true => simp [or_comm]

theorem tallied_nil : Tallied [] ⟨∅⟩ := by
  have hempty : ∀ path, Tallies.of ⟨∅⟩ path = {} := fun path => Std.HashMap.getD_empty
  constructor <;> simp [hempty]

/-- **One more edge.** -/
theorem Tallied.enter {edges : List Edge} {tallies : Tallies} (h : Tallied edges tallies)
    (edge : Edge) : Tallied (edges ++ [edge]) (tallies.enter edge) := by
  constructor
  case mem_imports_iff =>
    intro path target
    rw [Tallies.of_enter, mem_insert_if_iff, h.mem_imports_iff, Bool.and_eq_true, beq_iff_eq,
      and_assoc]
    simp only [List.mem_append, List.mem_singleton, or_and_right, exists_or, exists_eq_left]
  case mem_importedBy_iff =>
    intro path source
    rw [Tallies.of_enter, mem_insert_if_iff, h.mem_importedBy_iff, Bool.and_eq_true, beq_iff_eq,
      and_right_comm, and_assoc]
    simp only [List.mem_append, List.mem_singleton, or_and_right, exists_or, exists_eq_left]
  case external_eq =>
    intro path
    rw [Tallies.of_enter, List.countP_append, List.countP_singleton, h.external_eq]
  case unresolved_eq =>
    intro path
    rw [Tallies.of_enter, List.countP_append, List.countP_singleton, h.unresolved_eq]

/-- **The tallies of a list of edges.** -/
theorem tallied_ofEdges (edges : List Edge) : Tallied edges (.ofEdges edges) := by
  induction edges using List.reverseRecOn with
  | nil => exact tallied_nil
  | append_singleton edges edge ih =>
    unfold Tallies.ofEdges
    rw [List.foldl_append]
    exact ih.enter edge

/-! ## Fans -/

theorem size_eq_ncard (paths : Std.HashSet String) : paths.size = {path | path ∈ paths}.ncard := by
  have hnodup : paths.toList.Nodup :=
    Std.HashSet.distinct_toList.imp fun {a b} hne => beq_eq_false_iff_ne.mp hne
  rw [← Std.HashSet.length_toList, ← ncard_setOf_mem_of_nodup hnodup]
  simp only [Std.HashSet.mem_toList]

section Fans

variable (graph : Graph) (path : String)

/-- A file imports as many files as its tally holds. -/
theorem size_imports :
    ((Tallies.ofEdges graph.edges).of path).imports.size =
      {target | graph.Imports EdgeKind.isInternal path target}.ncard := by
  rw [size_eq_ncard]
  simp only [(tallied_ofEdges graph.edges).mem_imports_iff]
  rfl

theorem size_importedBy :
    ((Tallies.ofEdges graph.edges).of path).importedBy.size =
      {source | graph.Imports EdgeKind.isInternal source path}.ncard := by
  rw [size_eq_ncard]
  simp only [(tallied_ofEdges graph.edges).mem_importedBy_iff]
  rfl

/-- **The table counts the imports of a file as the statistics do.** -/
theorem size_imports_eq_fanOut :
    ((Tallies.ofEdges graph.edges).of path).imports.size = graph.fanTable.fanOut path :=
  (size_imports graph path).trans (graph.fanOut_eq_ncard path).symm

/-- **The table counts the importers of a file as the statistics do.** -/
theorem size_importedBy_eq_fanIn :
    ((Tallies.ofEdges graph.edges).of path).importedBy.size = graph.fanTable.fanIn path :=
  (size_importedBy graph path).trans (graph.fanIn_eq_ncard path).symm

end Fans

end ImportAtlas.Render
