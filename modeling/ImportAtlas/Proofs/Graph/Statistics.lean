import ImportAtlas.Proofs.Graph.Fans
import Mathlib.Data.List.FinRange

/-!
# Statistics describe their graph

The statistics of a graph are counted from tables that are filled edge by edge, and from running
maxima over the nodes. What they say can be told without either: how many edges there are of each
kind, how many places are without neighbours, how many neighbours a file has at most, and which file
is the first one that has as many. That determines them, and nothing in it depends on the order of
the edges. The graph need not be well formed: nodes may be repeated, and edges may start and end
anywhere.

## Main definitions

* `IsFirstLargest`: the largest measure of paths with the first path that has it
* `Statistics.Describes`: what the statistics of a graph say

## Main results

* `isFirstLargest_largest`: what is found by going through the paths
* `Statistics.Describes.unique`, `Statistics.Describes.perm`: statistics are determined by what they
  say, which does not depend on the order of the edges
* `Graph.statistics_describes`: the statistics of a graph describe it
-/

namespace ImportAtlas

/-! ## The largest measure -/

section Largest

variable {measure : String → Nat} {paths : List String} {most most' : Nat}
  {file file' : Option String}

/-- The largest measure of paths, with the first path that has it, or none if all paths measure
zero. -/
structure IsFirstLargest (measure : String → Nat) (paths : List String) (most : Nat)
    (file : Option String) : Prop where
  le_most : ∀ path ∈ paths, measure path ≤ most
  eq_none_iff : file = none ↔ most = 0
  exists_first : ∀ path, file = some path → ∃ before after, paths = before ++ path :: after ∧
    measure path = most ∧ ∀ other ∈ before, measure other < most

theorem isFirstLargest_largest (measure : String → Nat) (paths : List String) :
    IsFirstLargest measure paths (Graph.largest measure paths).1
      (Graph.largest measure paths).2 := by
  rcases Graph.largest_cases measure paths with
    ⟨hlargest, hzero⟩ | ⟨path, hlargest, hpos, hle, hfind⟩
  · rw [hlargest]
    refine ⟨fun path hp => (hzero path hp).le, by simp, ?_⟩
    intro path hnone
    cases hnone
  · rw [hlargest]
    refine ⟨hle, ?_, ?_⟩
    · exact iff_of_false (Option.some_ne_none path) hpos.ne'
    · intro first hfirst
      obtain rfl := Option.some.inj hfirst
      obtain ⟨-, before, after, rfl, hbefore⟩ := List.find?_eq_some_iff_append.mp hfind
      refine ⟨before, after, rfl, rfl, ?_⟩
      intro other hother
      -- What comes before measures no more, and not the same.
      have hne : measure other ≠ measure path := by simpa using hbefore other hother
      exact (hle other (List.mem_append_left _ hother)).lt_of_ne hne

namespace IsFirstLargest

theorem le (h : IsFirstLargest measure paths most file)
    (h' : IsFirstLargest measure paths most' file') : most ≤ most' := by
  cases hfile : file with
  | none =>
    rw [h.eq_none_iff.mp hfile]
    exact Nat.zero_le _
  | some path =>
    obtain ⟨before, after, hpaths, rfl, -⟩ := h.exists_first path hfile
    apply h'.le_most
    rw [hpaths]
    exact List.mem_append_right _ List.mem_cons_self

theorem find?_eq (h : IsFirstLargest measure paths most file) (hpos : most ≠ 0) :
    paths.find? (measure · == most) = file := by
  cases hfile : file with
  | none => exact absurd (h.eq_none_iff.mp hfile) hpos
  | some path =>
    obtain ⟨before, after, hpaths, hmeasure, hbefore⟩ := h.exists_first path hfile
    refine List.find?_eq_some_iff_append.mpr ⟨beq_iff_eq.mpr hmeasure, before, after, hpaths, ?_⟩
    intro other hother
    simpa using (hbefore other hother).ne

/-- There is one largest measure, and one first path that has it. -/
theorem unique (h : IsFirstLargest measure paths most file)
    (h' : IsFirstLargest measure paths most' file') : most = most' ∧ file = file' := by
  obtain rfl := Nat.le_antisymm (h.le h') (h'.le h)
  refine ⟨rfl, ?_⟩
  by_cases hzero : most = 0
  · rw [h.eq_none_iff.mpr hzero, h'.eq_none_iff.mpr hzero]
  · rw [← h.find?_eq hzero, h'.find?_eq hzero]

end IsFirstLargest

end Largest

/-! ## What statistics say -/

namespace Statistics

/-- The number of edges of a kind. -/
def ofKind (statistics : Statistics) : EdgeKind → Nat
  | .direct => statistics.directEdges
  | .dynamic => statistics.dynamicEdges
  | .external => statistics.externalEdges
  | .unresolved => statistics.unresolvedEdges

/-- What the statistics of a graph say. -/
structure Describes (statistics : Statistics) (graph : Graph) : Prop where
  totalNodes_eq : statistics.totalNodes = graph.nodes.length
  totalEdges_eq : statistics.totalEdges = graph.edges.length
  ofKind_eq : ∀ kind, statistics.ofKind kind = (graph.edgesOfKind kind).length
  /-- Every edge is of one kind. -/
  sum_eq : statistics.directEdges + statistics.dynamicEdges + statistics.externalEdges +
    statistics.unresolvedEdges = statistics.totalEdges
  /-- The places of the nodes that have internal edges neither to them nor from them. -/
  isolatedFiles_eq : statistics.isolatedFiles = {place : Fin graph.nodes.length |
    (∀ source, ¬graph.Imports EdgeKind.isInternal source (graph.nodes.get place)) ∧
      ∀ target, ¬graph.Imports EdgeKind.isInternal (graph.nodes.get place) target}.ncard
  /-- The distinct files with internal edges to a node. -/
  maxFanIn_isFirstLargest :
    IsFirstLargest (fun path => {source | graph.Imports EdgeKind.isInternal source path}.ncard)
      graph.nodes statistics.maxFanIn statistics.maxFanInFile
  /-- The distinct files that a node has internal edges to. -/
  maxFanOut_isFirstLargest :
    IsFirstLargest (fun path => {target | graph.Imports EdgeKind.isInternal path target}.ncard)
      graph.nodes statistics.maxFanOut statistics.maxFanOutFile

namespace Describes

variable {statistics other : Statistics} {graph : Graph}

/-- **What statistics say determines them.** -/
theorem unique (h : statistics.Describes graph) (h' : other.Describes graph) :
    statistics = other := by
  obtain ⟨hin, hinFile⟩ := h.maxFanIn_isFirstLargest.unique h'.maxFanIn_isFirstLargest
  obtain ⟨hout, houtFile⟩ := h.maxFanOut_isFirstLargest.unique h'.maxFanOut_isFirstLargest
  have hkind : ∀ kind, statistics.ofKind kind = other.ofKind kind := by
    intro kind
    rw [h.ofKind_eq, h'.ofKind_eq]
  have hnodes := h.totalNodes_eq.trans h'.totalNodes_eq.symm
  have hedges := h.totalEdges_eq.trans h'.totalEdges_eq.symm
  have hisolated := h.isolatedFiles_eq.trans h'.isolatedFiles_eq.symm
  cases statistics
  cases other
  simp only [Statistics.mk.injEq]
  exact ⟨hnodes, hedges, hkind .direct, hkind .dynamic, hkind .external, hkind .unresolved,
    hisolated, hin, hinFile, hout, houtFile⟩

/-- **The order of the edges makes no difference** to what statistics say. -/
theorem perm (h : statistics.Describes graph) {edges : List Edge} (hperm : edges.Perm graph.edges) :
    statistics.Describes { graph with edges := edges } := by
  have himports : Graph.Imports { graph with edges := edges } = graph.Imports := by
    funext wanted source target
    exact propext (exists_congr fun edge => and_congr_left fun _ => hperm.mem_iff)
  constructor
  case totalNodes_eq => exact h.totalNodes_eq
  case totalEdges_eq => exact h.totalEdges_eq.trans hperm.length_eq.symm
  case ofKind_eq =>
    intro kind
    exact (h.ofKind_eq kind).trans (hperm.filter _).length_eq.symm
  case sum_eq => exact h.sum_eq
  case isolatedFiles_eq =>
    rw [himports]
    exact h.isolatedFiles_eq
  case maxFanIn_isFirstLargest =>
    rw [himports]
    exact h.maxFanIn_isFirstLargest
  case maxFanOut_isFirstLargest =>
    rw [himports]
    exact h.maxFanOut_isFirstLargest

end Describes

end Statistics

/-! ## The statistics of a graph -/

/-- Counting values is counting their places. -/
theorem countP_eq_ncard {α : Type} (accepts : α → Bool) (values : List α) :
    values.countP accepts =
      {place : Fin values.length | accepts (values.get place) = true}.ncard := by
  have hnodup : ((List.finRange values.length).filter (accepts ∘ values.get)).Nodup :=
    (List.nodup_finRange _).filter _
  calc values.countP accepts
      = ((List.finRange values.length).map values.get).countP accepts := by
        rw [List.map_get_finRange]
    _ = (List.finRange values.length).countP (accepts ∘ values.get) := List.countP_map
    _ = ((List.finRange values.length).filter (accepts ∘ values.get)).length :=
        List.countP_eq_length_filter
    _ = {place | place ∈ (List.finRange values.length).filter (accepts ∘ values.get)}.ncard :=
        (ncard_setOf_mem_of_nodup hnodup).symm
    _ = {place : Fin values.length | accepts (values.get place) = true}.ncard := by simp

namespace Graph

/-- Every edge is of one of the four kinds. -/
theorem sum_countP_kind (edges : List Edge) :
    edges.countP (·.kind == .direct) + edges.countP (·.kind == .dynamic) +
      edges.countP (·.kind == .external) + edges.countP (·.kind == .unresolved) =
        edges.length := by
  induction edges with
  | nil => rfl
  | cons edge edges ih =>
    simp only [List.countP_cons, List.length_cons]
    cases hkind : edge.kind <;> simp <;> omega

variable (graph : Graph)

theorem countOfKind_eq (kind : EdgeKind) :
    graph.countOfKind kind = (graph.edgesOfKind kind).length :=
  List.countP_eq_length_filter

theorem fanIn_eq_zero_iff (path : String) :
    graph.fanTable.fanIn path = 0 ↔ ∀ source, ¬graph.Imports EdgeKind.isInternal source path := by
  unfold FanTable.fanIn
  rw [List.length_eq_zero_iff, List.eq_nil_iff_forall_not_mem]
  simp only [List.mem_eraseDups, mem_importers_iff]

theorem fanOut_eq_zero_iff (path : String) :
    graph.fanTable.fanOut path = 0 ↔ ∀ target, ¬graph.Imports EdgeKind.isInternal path target := by
  unfold FanTable.fanOut
  rw [List.length_eq_zero_iff, List.eq_nil_iff_forall_not_mem]
  simp only [List.mem_eraseDups, mem_imported_iff]

theorem describes_statistics : graph.statistics.Describes graph := by
  constructor
  case totalNodes_eq => rfl
  case totalEdges_eq => rfl
  case ofKind_eq =>
    intro kind
    cases kind <;> exact graph.countOfKind_eq _
  case sum_eq => exact sum_countP_kind graph.edges
  case isolatedFiles_eq =>
    refine (countP_eq_ncard _ graph.nodes).trans ?_
    simp only [Bool.and_eq_true, beq_iff_eq, fanIn_eq_zero_iff, fanOut_eq_zero_iff]
  case maxFanIn_isFirstLargest =>
    simp only [← fanIn_eq_ncard]
    exact isFirstLargest_largest _ graph.nodes
  case maxFanOut_isFirstLargest =>
    simp only [← fanOut_eq_ncard]
    exact isFirstLargest_largest _ graph.nodes

/-- **The statistics of a graph describe it**, whether it is well formed or not, and do not depend
on the order of its edges. -/
theorem statistics_describes (graph : Graph) :
    graph.statistics.Describes graph ∧
      ∀ edges, edges.Perm graph.edges →
        statistics { graph with edges := edges } = graph.statistics := by
  refine ⟨graph.describes_statistics, ?_⟩
  intro edges hperm
  exact (describes_statistics _).unique (graph.describes_statistics.perm hperm)

/-- A node that is listed twice, a file that is imported by itself, by another file in two ways and
by a path that is no node, and an import of no node; the edges in two orders. -/
theorem statistics_describes_repeated :
    let edges : List Edge := [⟨"a.py", "b.py", .direct⟩, ⟨"a.py", "b.py", .dynamic⟩,
      ⟨"b.py", "b.py", .direct⟩, ⟨"a.py", "ghost.py", .direct⟩, ⟨"x.py", "b.py", .dynamic⟩,
      ⟨"a.py", "os", .external⟩]
    let graph : Graph := ⟨["d.py", "a.py", "b.py", "a.py", "d.py"], edges⟩
    graph.statistics.Describes graph ∧
      edges.reverse.Perm graph.edges ∧
      statistics { graph with edges := edges.reverse } = {
        totalNodes := 5, totalEdges := 6
        directEdges := 3, dynamicEdges := 2, externalEdges := 1, unresolvedEdges := 0
        isolatedFiles := 2
        maxFanIn := 3, maxFanInFile := some "b.py"
        maxFanOut := 2, maxFanOutFile := some "a.py" } := by
  intro edges graph
  have hperm : edges.reverse.Perm graph.edges := edges.reverse_perm
  obtain ⟨hdescribes, horder⟩ := statistics_describes graph
  refine ⟨hdescribes, hperm, ?_⟩
  -- The tables are hashed, so what they hold is read off the list of edges instead.
  have hin : graph.fanTable.fanIn = fun path =>
      (((graph.internalEdges.map fun edge => (edge.target, edge.source)).filter
        (·.1 == path)).map (·.2)).eraseDups.length := by
    funext path
    rw [FanTable.fanIn, fanTable, Grouping.values_ofPairs]
  have hout : graph.fanTable.fanOut = fun path =>
      (((graph.internalEdges.map fun edge => (edge.source, edge.target)).filter
        (·.1 == path)).map (·.2)).eraseDups.length := by
    funext path
    rw [FanTable.fanOut, fanTable, Grouping.values_ofPairs]
  rw [horder _ hperm, statistics, hin, hout]
  decide

end Graph

end ImportAtlas
