import ImportAtlas.Graph.Check
import ImportAtlas.Proofs.Outcome

/-!
# Well-formed graphs

The check of a graph succeeds exactly on the graphs whose nodes are distinct and whose edges start
at nodes, those of the internal kinds ending at nodes as well.

## Main definitions

* `Graph.WellFormed`: the rules that a graph is checked against

## Main results

* `check_eq_ok_iff`: the check accepts exactly the well-formed graphs
* `WellFormed.directSubgraph`: the direct edges of a well-formed graph
-/

namespace ImportAtlas.Graph

/-- The rules for the structure of a graph. -/
structure WellFormed (graph : Graph) : Prop where
  nodes_nodup : graph.nodes.Nodup
  source_mem : ∀ edge ∈ graph.edges, edge.source ∈ graph.nodes
  target_mem : ∀ edge ∈ graph.edges, edge.kind.isInternal = true → edge.target ∈ graph.nodes

instance (graph : Graph) : Decidable graph.WellFormed :=
  decidable_of_iff
    (graph.nodes.Nodup ∧ (∀ edge ∈ graph.edges, edge.source ∈ graph.nodes) ∧
      ∀ edge ∈ graph.edges, edge.kind.isInternal = true → edge.target ∈ graph.nodes)
    ⟨fun ⟨h₁, h₂, h₃⟩ => ⟨h₁, h₂, h₃⟩, fun h => ⟨h.1, h.2, h.3⟩⟩

/-- Nodes are collected if none of them is repeated, and then are added to those seen. -/
theorem collectNodes_eq_ok_iff (seen collected : Std.HashSet String) (paths : List String) :
    collectNodes seen paths = .ok collected ↔
      paths.Nodup ∧ (∀ path ∈ paths, path ∉ seen) ∧
        collected = paths.foldl (fun seen path => seen.insert path) seen := by
  induction paths generalizing seen with
  | nil => simp [collectNodes, eq_comm]
  | cons path paths ih =>
    rw [collectNodes]
    split
    case isTrue h => simpa using fun _ _ (hn : path ∉ seen) => absurd h hn
    case isFalse h =>
      have hn : path ∉ seen := h
      rw [ih]
      simp only [List.nodup_cons, List.forall_mem_cons, List.foldl_cons, Std.HashSet.mem_insert,
        beq_iff_eq, not_or]
      constructor
      · rintro ⟨hd, hs, rfl⟩
        exact ⟨⟨fun hm => (hs path hm).1 rfl, hd⟩, ⟨hn, fun p hp => (hs p hp).2⟩, rfl⟩
      · rintro ⟨⟨hm, hd⟩, ⟨-, hs⟩, rfl⟩
        exact ⟨hd, fun p hp => ⟨fun he => hm (he ▸ hp), hs p hp⟩, rfl⟩

theorem mem_foldl_insert (paths : List String) (seen : Std.HashSet String) (path : String) :
    path ∈ paths.foldl (fun seen path => seen.insert path) seen ↔ path ∈ seen ∨ path ∈ paths := by
  induction paths generalizing seen with
  | nil => simp
  | cons p paths ih =>
    rw [List.foldl_cons, ih, Std.HashSet.mem_insert, List.mem_cons, beq_iff_eq, @eq_comm _ p,
      or_assoc, or_left_comm]

theorem checkEdge_eq_ok_iff (nodes : Std.HashSet String) (edge : Edge) :
    checkEdge nodes edge = .ok () ↔
      edge.source ∈ nodes ∧ (edge.kind.isInternal = true → edge.target ∈ nodes) := by
  unfold checkEdge
  by_cases hs : edge.source ∈ nodes
  · by_cases ht : edge.target ∈ nodes <;> by_cases hi : edge.kind.isInternal = true <;>
      simp [hs, ht, hi]
  · simp [hs]

/-- **The check accepts exactly the well-formed graphs.** -/
theorem check_eq_ok_iff (graph : Graph) : graph.check = .ok () ↔ graph.WellFormed := by
  have hmem : ∀ path, path ∈ graph.nodes.foldl
      (fun (seen : Std.HashSet String) path => seen.insert path) ∅ ↔ path ∈ graph.nodes := by
    intro path
    simp [mem_foldl_insert]
  unfold check
  rw [Outcome.bind_eq_ok_iff]
  simp only [collectNodes_eq_ok_iff, Outcome.forM_eq_ok_iff, checkEdge_eq_ok_iff]
  constructor
  · rintro ⟨nodes, ⟨hd, -, rfl⟩, he⟩
    simp only [hmem] at he
    exact ⟨hd, fun e h => (he e h).1, fun e h => (he e h).2⟩
  · intro hw
    refine ⟨_, ⟨hw.nodes_nodup, by simp, rfl⟩, fun e h => ?_⟩
    rw [hmem, hmem]
    exact ⟨hw.source_mem e h, hw.target_mem e h⟩

/-- The direct edges of a well-formed graph make a well-formed graph. -/
theorem WellFormed.directSubgraph {graph : Graph} (hw : graph.WellFormed) :
    graph.directSubgraph.WellFormed where
  nodes_nodup := hw.nodes_nodup
  source_mem := fun edge he => hw.source_mem edge (List.mem_filter.mp he).1
  target_mem := fun edge he => hw.target_mem edge (List.mem_filter.mp he).1

end ImportAtlas.Graph
