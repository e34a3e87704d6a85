import ImportAtlas.Proofs.Graph.WellFormed
import ImportAtlas.Proofs.Unseen
import Mathlib.Data.List.Induction

/-!
# Growing a graph

Nodes and edges are added to a graph in any order, an edge also before the nodes at its ends. What the
graph is afterwards depends on the order of the nodes among themselves and on that of the edges among
themselves only, and whether it is well formed does not depend on any order.

## Main definitions

* `Addition.path?`, `Addition.edge?`: the node or the edge that is added
* `Graph.addAll`: the graph after several additions, and what is answered to them

## Main results

* `Graph.nodes_addAll`, `Graph.edges_addAll`: the nodes and the edges, where they are added first
* `Graph.answers_addAll`: what is answered to additions
* `Graph.wellFormed_addAll_iff`: when additions make a well-formed graph
* `Graph.addAll_empty`: what additions make of the empty graph
-/

namespace ImportAtlas

namespace Addition

/-- The path of the node that is added. -/
def path? : Addition → Option String
  | .node path => some path
  | .edge _ => none

/-- The edge that is added. -/
def edge? : Addition → Option Edge
  | .node _ => none
  | .edge added => some added

/-- Whether a node or a direct edge is added. -/
def isDirect : Addition → Bool
  | .node _ => true
  | .edge added => added.kind == .direct

theorem mem_filterMap_path? (additions : List Addition) (path : String) :
    path ∈ additions.filterMap path? ↔ .node path ∈ additions := by
  rw [List.mem_filterMap]
  constructor
  · rintro ⟨other | added, hmem, h⟩
    · obtain rfl := Option.some.inj h
      exact hmem
    · cases h
  · exact fun hmem => ⟨_, hmem, rfl⟩

theorem mem_filterMap_edge? (additions : List Addition) (added : Edge) :
    added ∈ additions.filterMap edge? ↔ .edge added ∈ additions := by
  rw [List.mem_filterMap]
  constructor
  · rintro ⟨path | other, hmem, h⟩
    · cases h
    · obtain rfl := Option.some.inj h
      exact hmem
  · exact fun hmem => ⟨_, hmem, rfl⟩

/-- Leaving out the other edges leaves out no node. -/
theorem filterMap_path?_filter (additions : List Addition) :
    (additions.filter isDirect).filterMap path? = additions.filterMap path? := by
  rw [List.filterMap_filter]
  apply List.filterMap_congr
  rintro (path | added) _
  · rfl
  · show (if (added.kind == .direct) = true then none else none) = none
    split <;> rfl

theorem filterMap_edge?_filter (additions : List Addition) :
    (additions.filter isDirect).filterMap edge? =
      (additions.filterMap edge?).filter (·.kind == .direct) := by
  induction additions with
  | nil => rfl
  | cons addition additions ih =>
    rcases addition with path | added
    · exact ih
    · by_cases h : added.kind = .direct <;> simp [isDirect, edge?, h, ih]

end Addition

namespace Graph

/-- The graph after several additions, and what is answered to each of them. -/
def addAll (graph : Graph) (additions : List Addition) : Graph × List Bool :=
  additions.foldl
    (fun (graph, answers) addition =>
      let (next, isNew) := graph.add addition
      (next, answers ++ [isNew]))
    (graph, [])

@[simp] theorem addAll_nil (graph : Graph) : graph.addAll [] = (graph, []) := rfl

theorem addAll_concat (graph : Graph) (additions : List Addition) (addition : Addition) :
    graph.addAll (additions ++ [addition]) =
      (((graph.addAll additions).1.add addition).1,
        (graph.addAll additions).2 ++ [((graph.addAll additions).1.add addition).2]) := by
  simp only [addAll, List.foldl_append, List.foldl_cons, List.foldl_nil]

/-! ## What is added -/

/-- **The nodes are the added paths**, each where it is added first. -/
theorem nodes_addAll (additions : List Addition) :
    (empty.addAll additions).1.nodes = (additions.filterMap Addition.path?).eraseDups := by
  induction additions using List.reverseRecOn with
  | nil => rfl
  | append_singleton additions addition ih =>
    rw [addAll_concat, List.filterMap_append]
    rcases addition with path | edge
    · -- The path is a node already if it has been added before.
      have hone : [Addition.node path].filterMap Addition.path? = [path] := rfl
      rw [hone, eraseDups_concat, ← contains_eraseDups, ← ih]
      show ((empty.addAll additions).1.addNode path).nodes = _
      rw [addNode, hasNode]
      split <;> rfl
    · have hnone : [Addition.edge edge].filterMap Addition.path? = [] := rfl
      rw [hnone, List.append_nil, ← ih]
      show ((empty.addAll additions).1.addEdge edge).nodes = _
      rw [addEdge]
      split <;> rfl

/-- **The edges are the added edges**, each where it is added first. -/
theorem edges_addAll (additions : List Addition) :
    (empty.addAll additions).1.edges = (additions.filterMap Addition.edge?).eraseDups := by
  induction additions using List.reverseRecOn with
  | nil => rfl
  | append_singleton additions addition ih =>
    rw [addAll_concat, List.filterMap_append]
    rcases addition with path | edge
    · have hnone : [Addition.node path].filterMap Addition.edge? = [] := rfl
      rw [hnone, List.append_nil, ← ih]
      show ((empty.addAll additions).1.addNode path).edges = _
      rw [addNode]
      split <;> rfl
    · have hone : [Addition.edge edge].filterMap Addition.edge? = [edge] := rfl
      rw [hone, eraseDups_concat, ← contains_eraseDups, ← ih]
      show ((empty.addAll additions).1.addEdge edge).edges = _
      rw [addEdge, hasEdge]
      split <;> rfl

theorem mem_nodes_addAll_iff (additions : List Addition) (path : String) :
    path ∈ (empty.addAll additions).1.nodes ↔ .node path ∈ additions := by
  rw [nodes_addAll, List.mem_eraseDups, Addition.mem_filterMap_path?]

theorem mem_edges_addAll_iff (additions : List Addition) (edge : Edge) :
    edge ∈ (empty.addAll additions).1.edges ↔ .edge edge ∈ additions := by
  rw [edges_addAll, List.mem_eraseDups, Addition.mem_filterMap_edge?]

/-- Additions that agree on the nodes and on the edges make the same graph, however the nodes and the
edges are mixed. -/
theorem addAll_congr {additions others : List Addition}
    (hpaths : others.filterMap Addition.path? = additions.filterMap Addition.path?)
    (hedges : others.filterMap Addition.edge? = additions.filterMap Addition.edge?) :
    (empty.addAll others).1 = (empty.addAll additions).1 := by
  apply Graph.ext
  · rw [nodes_addAll, nodes_addAll, hpaths]
  · rw [edges_addAll, edges_addAll, hedges]

/-! ## What is answered -/

/-- An addition is answered by whether it has not been made before. -/
theorem answer_add (additions : List Addition) (addition : Addition) :
    ((empty.addAll additions).1.add addition).2 = decide (addition ∉ additions) := by
  rcases addition with path | edge
  · show (!(empty.addAll additions).1.hasNode path) = _
    simp [hasNode, mem_nodes_addAll_iff]
  · show (!(empty.addAll additions).1.hasEdge edge) = _
    simp [hasEdge, mem_edges_addAll_iff]

/-- **What is answered to additions**: whether each of them is not among those before it. -/
theorem answers_addAll (additions : List Addition) :
    (empty.addAll additions).2 = additions.zipIdx.map fun (addition, place) =>
      decide (addition ∉ additions.take place) := by
  induction additions using List.reverseRecOn with
  | nil => rfl
  | append_singleton additions addition ih =>
    -- The additions before a place are the same once there is one more behind it.
    have hbefore : ∀ entry ∈ additions.zipIdx,
        decide (entry.1 ∉ (additions ++ [addition]).take entry.2) =
          decide (entry.1 ∉ additions.take entry.2) := by
      intro entry hentry
      have hplace : entry.2 < additions.length := (List.mem_zipIdx' hentry).1
      rw [List.take_append_of_le_length (Nat.le_of_lt hplace)]
    rw [addAll_concat, List.zipIdx_append, List.map_append, List.map_congr_left hbefore, ← ih,
      answer_add]
    simp

/-! ## Well-formed graphs -/

/-- **Additions make a well-formed graph** if the ends of each added edge are added, the target of an
external or an unresolved one excepted. -/
theorem wellFormed_addAll_iff (additions : List Addition) :
    (empty.addAll additions).1.WellFormed ↔ ∀ edge, .edge edge ∈ additions →
      .node edge.source ∈ additions ∧
        (edge.kind.isInternal = true → .node edge.target ∈ additions) := by
  simp only [← mem_edges_addAll_iff, ← mem_nodes_addAll_iff]
  constructor
  · intro hw edge hedge
    exact ⟨hw.source_mem edge hedge, hw.target_mem edge hedge⟩
  · intro h
    constructor
    case nodes_nodup =>
      rw [nodes_addAll]
      exact nodup_eraseDups _
    case source_mem => exact fun edge hedge => (h edge hedge).1
    case target_mem => exact fun edge hedge => (h edge hedge).2

/-- The direct edges of a graph are those that are added as such. -/
theorem directSubgraph_addAll (additions : List Addition) :
    (empty.addAll additions).1.directSubgraph =
      (empty.addAll (additions.filter Addition.isDirect)).1 := by
  apply Graph.ext
  · show (empty.addAll additions).1.nodes = _
    rw [nodes_addAll, nodes_addAll, Addition.filterMap_path?_filter]
  · show (empty.addAll additions).1.edges.filter (·.kind == .direct) = _
    rw [edges_addAll, edges_addAll, Addition.filterMap_edge?_filter, eraseDups_filter]

/-- **What additions make of the empty graph.** The nodes and the edges are those that are added, each
where it is added first, and an addition is answered by whether it is new. Additions of the same nodes
and of the same edges, mixed in another way, make the same graph. The graph passes its check if the ends
of each edge are added at any time, the targets of external and unresolved edges excepted. The graph of
the direct edges is the one that is made without adding the others, and passes its check if the whole
graph does. -/
theorem addAll_empty (additions : List Addition) :
    let grown := (empty.addAll additions).1
    grown.nodes = (additions.filterMap Addition.path?).eraseDups ∧
      grown.edges = (additions.filterMap Addition.edge?).eraseDups ∧
      (empty.addAll additions).2 = additions.zipIdx.map (fun (addition, place) =>
        decide (addition ∉ additions.take place)) ∧
      (∀ others : List Addition,
        others.filterMap Addition.path? = additions.filterMap Addition.path? →
        others.filterMap Addition.edge? = additions.filterMap Addition.edge? →
        (empty.addAll others).1 = grown) ∧
      (grown.check = .ok () ↔ ∀ edge, .edge edge ∈ additions → .node edge.source ∈ additions ∧
        (edge.kind.isInternal = true → .node edge.target ∈ additions)) ∧
      grown.directSubgraph = (empty.addAll (additions.filter Addition.isDirect)).1 ∧
      (grown.check = .ok () → grown.directSubgraph.check = .ok ()) := by
  intro grown
  refine ⟨nodes_addAll additions, edges_addAll additions, answers_addAll additions,
    fun _ => addAll_congr, ?_, directSubgraph_addAll additions, ?_⟩
  · rw [check_eq_ok_iff]
    exact wellFormed_addAll_iff additions
  · rw [check_eq_ok_iff, check_eq_ok_iff]
    exact WellFormed.directSubgraph

/-- An edge that is added before its ends, and two additions that are made again. -/
theorem addAll_empty_mixed :
    let direct : Edge := ⟨"a.py", "b.py", .direct⟩
    let module : Edge := ⟨"b.py", "os", .external⟩
    let additions : List Addition :=
      [.edge direct, .node "a.py", .edge module, .node "b.py", .edge direct, .node "a.py"]
    let others : List Addition :=
      [.node "a.py", .node "b.py", .node "a.py", .edge direct, .edge module, .edge direct]
    additions.filterMap Addition.path? = others.filterMap Addition.path? ∧
      additions.filterMap Addition.edge? = others.filterMap Addition.edge? ∧
      (empty.addAll others).1 = (empty.addAll additions).1 ∧
      (empty.addAll additions).1.nodes = ["a.py", "b.py"] ∧
      (empty.addAll additions).1.edges = [direct, module] ∧
      (empty.addAll additions).2 = [true, true, true, true, false, false] ∧
      (empty.addAll additions).1.check = .ok () ∧
      (empty.addAll additions).1.directSubgraph.check = .ok () := by
  intro direct module additions others
  have hpaths : additions.filterMap Addition.path? = others.filterMap Addition.path? := rfl
  have hedges : additions.filterMap Addition.edge? = others.filterMap Addition.edge? := rfl
  obtain ⟨hnodes, hlisted, hanswers, hothers, hcheck, -, hdirect⟩ := addAll_empty additions
  have hends : ∀ edge, .edge edge ∈ additions → .node edge.source ∈ additions ∧
      (edge.kind.isInternal = true → .node edge.target ∈ additions) := by
    simp [additions, direct, module, EdgeKind.isInternal]
  have hok := hcheck.mpr hends
  exact ⟨hpaths, hedges, hothers others hpaths.symm hedges.symm, hnodes.trans (by decide),
    hlisted.trans (by decide), hanswers.trans (by decide), hok, hdirect hok⟩

end Graph

end ImportAtlas
