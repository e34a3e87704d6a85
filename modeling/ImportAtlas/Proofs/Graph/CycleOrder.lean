import ImportAtlas.Proofs.Graph.Cycles
import ImportAtlas.Proofs.Search.Order
import Mathlib.Data.Fin.Tuple.Take
import Mathlib.Data.List.Permutation

/-!
# The order of import cycles

The recursive depth-first search over the files of a graph starts from the files in the order of the
nodes, passes over those that it has met, and follows direct imports in the order of the edges. The
cycles of the graph, and the files of each, stand in the order in which this search discovers them.

## Main definitions

* `Graph.directImports`: the files that a file imports directly
* `Graph.discovery`: the files in the order of the recursive search

## Main results

* `WellFormed.discovery_eq`: the search over files is the search over their places
* `cycles_inOrderOf_discovery`: cycles are listed in the order of discovery
-/

namespace ImportAtlas.Graph

/-- The files that a file imports directly, in the order of the edges. -/
def directImports (graph : Graph) (file : String) : List String :=
  (graph.edges.filter fun edge => edge.kind == .direct && edge.source == file).map (·.target)

/-- The files in the order in which the recursive search over direct imports discovers them. -/
def discovery (graph : Graph) : List String :=
  depthFirst graph.directImports graph.nodes graph.nodes

variable {graph : Graph}

section Discovery

variable (hw : graph.WellFormed)

include hw

/-- The direct imports of a file are the files of the successors of its place. -/
theorem WellFormed.directImports_get (place : Fin graph.nodes.length) :
    graph.directImports (graph.nodes.get place) =
      (graph.directDigraph.successors place).map graph.nodes.get := by
  unfold directImports directDigraph
  rw [Digraph.successors_ofArrows, arrows, List.filter_filterMap, List.map_filterMap,
    List.map_filterMap, ← List.filterMap_eq_map', List.filterMap_filter]
  refine List.filterMap_congr fun edge hmem => ?_
  by_cases hk : edge.kind = .direct
  · -- Both ends of a direct edge have a place.
    obtain ⟨source, hs⟩ := List.mem_iff_get.mp (hw.source_mem edge hmem)
    obtain ⟨target, ht⟩ := List.mem_iff_get.mp (hw.target_mem edge hmem (by rw [hk]; rfl))
    have heq : edge.source = graph.nodes.get place ↔ source = place := by
      rw [← hs, hw.nodes_nodup.get_inj_iff]
    rw [(placeOf_eq_some_iff hw.nodes_nodup).mpr hs, (placeOf_eq_some_iff hw.nodes_nodup).mpr ht]
    by_cases hp : source = place
    · simp [hk, Option.filter, heq.mpr hp, hp, ← ht]
    · simp only [hk, Option.filter, mt heq.mp hp, hp, beq_iff_eq, Bool.and_eq_true, and_false,
        if_false, if_true, Option.map_none]
  · simp [hk]

/-- **The search over files is the search over their places.** -/
theorem WellFormed.discovery_eq :
    graph.discovery = graph.directDigraph.discovery.map graph.nodes.get := by
  have hinj := List.nodup_iff_injective_get.mp hw.nodes_nodup
  have hmap := depthFirst_map hinj hw.directImports_get (List.finRange _) (List.finRange _)
  rw [List.map_get_finRange] at hmap
  exact hmap

end Discovery

/-- **The cycles of a graph that passes its check, and the files of each, are listed in the order of
the recursive depth-first search**, which discovers every file once. -/
theorem cycles_inOrderOf_discovery (hok : graph.check = .ok ()) :
    ∃ cycles, graph.cycles = .ok cycles ∧ graph.discovery.Perm graph.nodes ∧
      InOrderOf graph.discovery cycles := by
  have hw := (check_eq_ok_iff graph).mp hok
  refine ⟨graph.cyclesUnchecked, by rw [cycles_eq, hok]; rfl, depthFirst_perm hw.nodes_nodup, ?_⟩
  rw [hw.discovery_eq]
  exact graph.directDigraph.components_inOrderOf.map
    (List.nodup_iff_injective_get.mp hw.nodes_nodup)

/-- A cycle that holds files discovered before and after another one: the search completes the inner
cycle first, and yet it is listed last. -/
theorem cycles_inOrderOf_discovery_nested :
    ∃ graph : Graph, graph.nodes = ["a.py", "b.py", "c.py", "d.py"] ∧
      graph.discovery = ["a.py", "c.py", "d.py", "b.py"] ∧
      graph.cycles = .ok [["a.py", "b.py"], ["c.py", "d.py"]] ∧
      InOrderOf graph.discovery [["a.py", "b.py"], ["c.py", "d.py"]] := by
  let graph : Graph := ⟨["a.py", "b.py", "c.py", "d.py"],
    [⟨"a.py", "c.py", .direct⟩, ⟨"a.py", "b.py", .direct⟩, ⟨"b.py", "a.py", .direct⟩,
      ⟨"c.py", "d.py", .direct⟩, ⟨"d.py", "c.py", .direct⟩, ⟨"d.py", "os", .external⟩]⟩
  have hok : graph.check = .ok () := by cbv
  have hvalue : graph.cycles = .ok [["a.py", "b.py"], ["c.py", "d.py"]] := by cbv
  obtain ⟨cycles, hcycles, -, horder⟩ := cycles_inOrderOf_discovery hok
  obtain rfl := Except.ok.inj (hvalue.symm.trans hcycles)
  exact ⟨graph, rfl, by cbv, hvalue, horder⟩

end ImportAtlas.Graph
