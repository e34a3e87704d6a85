import ImportAtlas.Proofs.Graph.Cycles
import ImportAtlas.Proofs.Search.Trace
import Mathlib.Algebra.BigOperators.Group.List.Basic

/-!
# The search for import cycles, state by state

The search for the cycles of a graph runs on the places of its files. What holds in each of its
states is said here of the files: the places being explored are a chain of direct imports, the open
ones stand on the stack in the order of their numbers, and low links lead from open files to open
files that they import, directly or not. In the end each file has been entered once and each direct
edge looked at once.

All rows of the search have one entry for each file, and places are numbers of files, so no look-up
is out of range.

## Main definitions

* `Graph.SearchInvariant`: what holds in each state of the search
* `Graph.examinedImports`: the imports looked at in a search

## Main results

* `WellFormed.searchInvariant_of_mem`: the invariant holds in each state
* `WellFormed.examinedImports_perm`: the imports looked at are the direct edges
* `searchInvariant_of_check`: the search of a graph that passes its check
-/

namespace ImportAtlas

/-- The arrows of all places are those that the digraph is made of. -/
theorem Digraph.flatMap_successors_perm {n : Nat} (arrows : List (Fin n × Fin n)) :
    ((List.finRange n).flatMap fun place =>
      ((ofArrows arrows).successors place).map (place, ·)).Perm arrows := by
  have hown : ∀ place, ((ofArrows arrows).successors place).map (place, ·) =
      arrows.filter (·.1 == place) := by
    intro place
    rw [successors_ofArrows, List.map_map]
    refine (List.map_congr_left fun arrow ha => ?_).trans (List.map_id _)
    have htail := beq_iff_eq.mp (List.mem_filter.mp ha).2
    exact Prod.ext htail.symm rfl
  simp only [hown]
  refine List.perm_iff_count.mpr fun arrow => ?_
  -- An arrow is counted at its tail only.
  rw [List.count_flatMap, List.sum_map_eq_nsmul_single arrow.1 _ fun place hne _ => ?_]
  · rw [(List.count_eq_one_of_mem (List.nodup_finRange n) (List.mem_finRange _)), one_nsmul,
      Function.comp_apply, List.count_filter (by simp)]
  · exact List.count_eq_zero.mpr fun hm => hne (beq_iff_eq.mp (List.mem_filter.mp hm).2).symm

namespace Graph

open Search (states statesThrough history)

/-- What holds in each state of the search for cycles. -/
structure SearchInvariant (graph : Graph) (search : Search graph.nodes.length) : Prop where
  /-- The stack holds the open places, each with its number, in the order of their numbers. -/
  onStack_iff : ∀ place, search.onStack.get place = true ↔ place ∈ search.stack
  stack_seen : ∀ place ∈ search.stack, search.Seen place
  stack_sorted : search.stack.Pairwise fun later earlier => search.rank earlier < search.rank later
  /-- The numbers given so far are those below the next one, each given once. -/
  exists_number_iff : ∀ k, (∃ place, search.number.get place = some k) ↔ k < search.next
  number_unique : ∀ a b k, search.number.get a = some k → search.number.get b = some k → a = b
  /-- The frames are a path of direct imports through open places, with increasing numbers. -/
  frames_open : ∀ frame ∈ search.frames, frame.place ∈ search.stack
  frames_joined : search.exploring.IsChain fun inner outer =>
    graph.Imports (· == .direct) (graph.nodes.get outer) (graph.nodes.get inner)
  frames_sorted : search.exploring.Pairwise fun inner outer => search.rank outer < search.rank inner
  /-- What waits in a frame is what is left of the successors of its place. -/
  frames_rest : ∀ frame ∈ search.frames,
    frame.rest <:+ graph.directDigraph.successors frame.place
  /-- A low link is at most the own number, and the number of an open place that is reached. -/
  low_le : ∀ place ∈ search.stack, search.lowLink.get place ≤ search.rank place
  low_reached : ∀ place ∈ search.stack, ∃ reached ∈ search.stack,
    search.number.get reached = some (search.lowLink.get place) ∧
      graph.Leads (graph.nodes.get place) (graph.nodes.get reached)
  /-- Without a frame there is no open place. -/
  stack_eq_nil : search.frames = [] → search.stack = []

/-- The imports that a search looks at, in turn. -/
def examinedImports (graph : Graph) : List (String × String) :=
  ((history graph.directDigraph).filterMap Event.arrow?).map fun arrow =>
    (graph.nodes.get arrow.1, graph.nodes.get arrow.2)

variable {graph : Graph}

section

variable (hw : graph.WellFormed)

include hw

theorem WellFormed.searchInvariant {search : Search graph.nodes.length}
    {order : List (Fin graph.nodes.length)} (h : Search.Invariant graph.directDigraph search)
    (hfollows : search.Follows order) : graph.SearchInvariant search where
  onStack_iff := h.stacked.onStack_iff
  stack_seen := fun _ => h.stacked.seen
  stack_sorted := h.stacked.sorted
  exists_number_iff := by
    intro k
    simp only [hfollows.number_iff, hfollows.next_eq]
    rw [← Option.isSome_iff_exists]
    simp
  number_unique := by
    intro a b k ha hb
    rw [hfollows.number_iff] at ha hb
    exact Option.some.inj (ha.symm.trans hb)
  frames_open := fun _ hm => h.explores.mem_stack (List.mem_map_of_mem hm)
  frames_joined := h.explores.chain.imp fun inner outer => (hw.hasArrow_direct_iff outer inner).mp
  frames_sorted := h.explores.sorted
  frames_rest := h.explores.rest_suffix
  low_le := fun _ => h.linked.le_rank
  low_reached := by
    intro place hp
    obtain ⟨reached, hs, hrank, hreach⟩ := h.linked.exists_reached hp
    refine ⟨reached, hs, ?_, (hw.leads_iff place reached).mpr hreach⟩
    exact Search.number_eq_some_iff.mpr ⟨h.stacked.seen hs, hrank⟩
  stack_eq_nil := fun hf => h.stack_eq_nil (by simp [Search.exploring, hf])

/-- In each state the numbers follow some order, beside the invariant of the search. -/
theorem WellFormed.searchInvariant_of_mem :
    ∀ state ∈ statesThrough graph.directDigraph, graph.SearchInvariant state := by
  have hall := Search.forall_mem_statesThrough graph.directDigraph
    (P := fun search => Search.Invariant graph.directDigraph search ∧
      ∃ order, search.Follows order)
    ⟨.start, [], .start⟩
    (fun search root ⟨h, order, hfollows⟩ hf hn => by
      have hnil : search.exploring = [] := by simp [Search.exploring, hf]
      exact ⟨h.discover hn fun active ha => by simp [hnil] at ha, _, hfollows.discover hn⟩)
    (fun search after ⟨h, order, hfollows⟩ hs => by
      obtain ⟨found, hafter, -⟩ := hfollows.step hs
      exact ⟨h.step hs, _, hafter⟩)
  intro state hm
  obtain ⟨h, order, hfollows⟩ := hall state hm
  exact hw.searchInvariant h hfollows

/-- The arrows between places are the direct edges, in their order. -/
theorem WellFormed.map_arrows :
    ((graph.arrows (· == .direct)).map fun arrow =>
      (graph.nodes.get arrow.1, graph.nodes.get arrow.2)) =
      (graph.edgesOfKind .direct).map fun edge => (edge.source, edge.target) := by
  have hedges : (graph.edgesOfKind .direct).map (fun edge => (edge.source, edge.target)) =
      graph.edges.filterMap fun edge =>
        if edge.kind == .direct then some (edge.source, edge.target) else none := by
    rw [edgesOfKind, ← List.filterMap_eq_map, List.filterMap_filter]
    rfl
  rw [hedges, arrows, List.map_filterMap]
  refine List.filterMap_congr fun edge he => ?_
  by_cases hk : edge.kind == .direct
  · obtain ⟨source, hsource⟩ := List.mem_iff_get.mp (hw.source_mem edge he)
    obtain ⟨target, htarget⟩ := List.mem_iff_get.mp (hw.target_mem edge he (by
      rw [beq_iff_eq.mp hk]
      rfl))
    rw [if_pos hk, if_pos hk, (placeOf_eq_some_iff hw.nodes_nodup).mpr hsource,
      (placeOf_eq_some_iff hw.nodes_nodup).mpr htarget]
    exact congrArg some (Prod.ext hsource htarget)
  · rw [if_neg hk, if_neg hk]
    rfl

/-- The imports that the arrows of a search stand for are the direct edges, each once. -/
theorem WellFormed.examinedImports_perm : graph.examinedImports.Perm
    ((graph.edgesOfKind .direct).map fun edge => (edge.source, edge.target)) := by
  rw [← hw.map_arrows]
  refine List.Perm.map _ ?_
  exact (Search.filterMap_arrow?_history _).trans (Digraph.flatMap_successors_perm _)

/-- There are as many steps as files and direct edges. -/
theorem WellFormed.countP_statesThrough :
    ((statesThrough graph.directDigraph).countP fun state => !state.frames.isEmpty) =
      graph.nodes.length + graph.countOfKind .direct := by
  have hlength := (Digraph.flatMap_successors_perm (graph.arrows (· == .direct))).length_eq
  have harrows := congrArg List.length hw.map_arrows
  rw [List.length_map, List.length_map] at harrows
  simp only [List.length_flatMap, List.length_map, harrows] at hlength
  rw [Search.countP_statesThrough, countOfKind, List.countP_eq_length_filter]
  exact congrArg _ hlength

end

/-- **The search for the cycles of a graph that passes its check.** In each state the stack, the
numbers, the frames and the low links are as they should be. The last state is the one that the
cycles are taken from, and each step is counted: every file is entered once, every direct edge is
looked at once, and there is one step for each of the edges and one for leaving each of the files.
-/
theorem searchInvariant_of_check (graph : Graph) (h : graph.check = .ok ()) :
    (∀ state ∈ statesThrough graph.directDigraph, graph.SearchInvariant state) ∧
    (statesThrough graph.directDigraph).getLast?.getD .start =
      Search.through graph.directDigraph ∧
    (Search.through graph.directDigraph).frames = [] ∧
    ((history graph.directDigraph).filterMap Event.entered?).Perm
      (List.finRange graph.nodes.length) ∧
    graph.examinedImports.Perm
      ((graph.edgesOfKind .direct).map fun edge => (edge.source, edge.target)) ∧
    ((statesThrough graph.directDigraph).countP fun state => !state.frames.isEmpty) =
      graph.nodes.length + graph.countOfKind .direct := by
  have hw := (check_eq_ok_iff graph).mp h
  exact ⟨hw.searchInvariant_of_mem, Search.getLast?_statesThrough _,
    (Search.resting_through _).frames_eq, Search.filterMap_entered?_history _,
    hw.examinedImports_perm, hw.countP_statesThrough⟩

/-- Two files that import each other, one of them twice, and one that imports itself. -/
theorem searchInvariant_of_check_pair_and_loop :
    ∃ graph : Graph, graph.nodes = ["a.py", "b.py", "c.py"] ∧ graph.countOfKind .direct = 5 ∧
      graph.check = .ok () ∧
      (∀ state ∈ statesThrough graph.directDigraph, graph.SearchInvariant state) ∧
      ("a.py", "b.py") ∈ graph.examinedImports ∧
      ((statesThrough graph.directDigraph).countP fun state => !state.frames.isEmpty) = 8 := by
  let graph : Graph := ⟨["a.py", "b.py", "c.py"],
    [⟨"a.py", "b.py", .direct⟩, ⟨"b.py", "a.py", .direct⟩, ⟨"a.py", "b.py", .direct⟩,
      ⟨"c.py", "c.py", .direct⟩, ⟨"c.py", "a.py", .direct⟩, ⟨"a.py", "c.py", .dynamic⟩,
      ⟨"c.py", "os", .external⟩]⟩
  have hok : graph.check = .ok () := by cbv
  obtain ⟨hall, -, -, -, hexamined, hcount⟩ := searchInvariant_of_check graph hok
  exact ⟨graph, rfl, rfl, hok, hall, hexamined.mem_iff.mpr (by decide), hcount⟩

end Graph

end ImportAtlas
