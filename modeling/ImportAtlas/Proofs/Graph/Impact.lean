import ImportAtlas.Proofs.Digraph.Traversal
import ImportAtlas.Proofs.Graph.Places

/-!
# Impacts are shortest distances

The dependents of a file are the files from which internal edges lead to it, each with the length of
a shortest such walk. A traversal finds those distances between places, against the direction of the
edges; the dictionary of dependents loses nothing, since each file has one place.

## Main results

* `WellFormed.isDistance_iff`: distances between files are those between places
* `WellFormed.traverse_of_mem`: the dependents of a file up to a bound, or all of them
* `WellFormed.traverse_eq_layers`: they are the layers around the file
* `impactOf_isDistance`: the impact of a file consists of its dependents with their distances
-/

namespace ImportAtlas.Graph

variable {graph : Graph}

/-! ## Distances between places and between files -/

section Distance

variable (hw : graph.WellFormed)

include hw

theorem WellFormed.hasArrow_importers_iff (tail head : Fin graph.nodes.length) :
    (ReverseIndex.ofGraph graph).importers.HasArrow tail head ↔
      graph.Imports EdgeKind.isInternal (graph.nodes.get head) (graph.nodes.get tail) := by
  refine Iff.trans ?_ (mem_arrows_iff hw.nodes_nodup _ head tail)
  refine (Digraph.hasArrow_sorted _ tail head).trans ?_
  rw [Digraph.hasArrow_ofArrows, List.mem_map]
  constructor
  · rintro ⟨⟨a, b⟩, hm, he⟩
    obtain ⟨rfl, rfl⟩ := Prod.mk.inj he
    exact hm
  · intro hm
    exact ⟨(head, tail), hm, rfl⟩

/-- A walk between files is one between their places, taken backwards. -/
theorem WellFormed.walk_iff (place target : Fin graph.nodes.length) (length : Nat) :
    Walk (graph.Imports EdgeKind.isInternal) (graph.nodes.get place) length
        (graph.nodes.get target) ↔
      Walk (ReverseIndex.ofGraph graph).importers.HasArrow target length place := by
  -- Backwards an edge leads to its source, which is a node.
  have hclosed : ∀ middle path,
      flip (graph.Imports EdgeKind.isInternal) (graph.nodes.get middle) path →
        path ∈ graph.nodes := by
    rintro middle path ⟨edge, he, -, rfl, -⟩
    exact hw.source_mem edge he
  have hback := walk_get_iff hw.hasArrow_importers_iff hclosed hw.nodes_nodup target place length
  exact ⟨fun h => hback.mp h.reverse, fun h => (hback.mpr h).reverse⟩

/-- Distances between files are those between their places, backwards. -/
theorem WellFormed.isDistance_iff (place target : Fin graph.nodes.length) (hops : Nat) :
    IsDistance (graph.Imports EdgeKind.isInternal) (graph.nodes.get place)
        (graph.nodes.get target) hops ↔
      IsDistance (ReverseIndex.ofGraph graph).importers.HasArrow target place hops := by
  unfold IsDistance
  simp only [hw.walk_iff]

end Distance

/-! ## Queries -/

section Query

variable (hw : graph.WellFormed) {target : String}

include hw

theorem WellFormed.traverse_of_not_mem (ht : target ∉ graph.nodes) (limit : Option Nat) :
    (ReverseIndex.ofGraph graph).traverse target limit = .error (.unknownNode target) := by
  have hnone : (ReverseIndex.ofGraph graph).places[target]? = none :=
    (placeOf_eq_none_iff hw.nodes_nodup).mpr ht
  unfold ReverseIndex.traverse
  rw [hnone]

theorem WellFormed.traverse_get (goal : Fin graph.nodes.length) (limit : Option Nat) :
    (ReverseIndex.ofGraph graph).traverse (graph.nodes.get goal) limit =
      .ok ⟨graph.nodes.get goal, (Traversal.run (ReverseIndex.ofGraph graph).importers
        graph.nodes.get limit (.start goal)).dependents⟩ := by
  have hplace : (ReverseIndex.ofGraph graph).places[graph.nodes.get goal]? = some goal :=
    (placeOf_eq_some_iff hw.nodes_nodup).mpr rfl
  unfold ReverseIndex.traverse
  rw [hplace]
  rfl

/-- A query gives the layers around its target, against the direction of the edges. -/
theorem WellFormed.traverse_eq_layers (goal : Fin graph.nodes.length) (limit : Option Nat) :
    (ReverseIndex.ofGraph graph).traverse (graph.nodes.get goal) limit =
      .ok ⟨graph.nodes.get goal, .ofEntries (Traversal.namedLayers
        (ReverseIndex.ofGraph graph).importers graph.nodes.get (limit.getD graph.nodes.length)
        goal)⟩ := by
  have hname : Function.Injective graph.nodes.get := List.nodup_iff_injective_get.mp hw.nodes_nodup
  refine (hw.traverse_get goal limit).trans ?_
  exact congrArg (fun dependents => Except.ok (Impact.mk (graph.nodes.get goal) dependents))
    (Traversal.dependents_run_eq _ hname limit goal)

/-- **The dependents of a file** are the other files at a distance, up to the bound if there is one.
-/
theorem WellFormed.traverse_of_mem (ht : target ∈ graph.nodes) (limit : Option Nat) :
    ∃ impact, (ReverseIndex.ofGraph graph).traverse target limit = .ok impact ∧
      impact.target = target ∧
      ∀ path hops, impact.dependents.get? path = some hops ↔
        (∀ bound ∈ limit, hops ≤ bound) ∧ path ∈ graph.nodes ∧ path ≠ target ∧
          IsDistance (graph.Imports EdgeKind.isInternal) path target hops := by
  obtain ⟨goal, rfl⟩ := List.mem_iff_get.mp ht
  have hname : Function.Injective graph.nodes.get := List.nodup_iff_injective_get.mp hw.nodes_nodup
  refine ⟨_, hw.traverse_get goal limit, rfl, fun path hops => ?_⟩
  refine (Traversal.get?_dependents_run_iff _ hname limit goal path hops).trans ?_
  constructor
  · rintro ⟨place, rfl, hne, hbound, hdist⟩
    exact ⟨hbound, List.get_mem _ _, fun he => hne (hname he),
      (hw.isDistance_iff place goal hops).mpr hdist⟩
  · rintro ⟨hbound, hp, hne, hdist⟩
    obtain ⟨place, rfl⟩ := List.mem_iff_get.mp hp
    refine ⟨place, rfl, ?_, hbound, (hw.isDistance_iff place goal hops).mp hdist⟩
    rintro rfl
    exact hne rfl

/-- The whole impact of a file. -/
theorem WellFormed.impactOf_of_mem (ht : target ∈ graph.nodes) :
    ∃ impact, (ReverseIndex.ofGraph graph).impactOf target = .ok impact ∧
      impact.target = target ∧
      ∀ path hops, impact.dependents.get? path = some hops ↔
        path ∈ graph.nodes ∧ path ≠ target ∧
          IsDistance (graph.Imports EdgeKind.isInternal) path target hops := by
  obtain ⟨impact, hok, htarget, hiff⟩ := hw.traverse_of_mem ht none
  refine ⟨impact, hok, htarget, fun path hops => (hiff path hops).trans (and_iff_right ?_)⟩
  intro bound hbound
  cases hbound

end Query

theorem create_eq (graph : Graph) :
    ReverseIndex.create graph =
      (graph.check.mapError Defect.toError).map fun _ => ReverseIndex.ofGraph graph := by
  unfold ReverseIndex.create
  cases graph.check <;> rfl

theorem WellFormed.create_eq_ok {graph : Graph} (hw : graph.WellFormed) :
    ReverseIndex.create graph = .ok (.ofGraph graph) := by
  rw [create_eq, (check_eq_ok_iff graph).mpr hw]
  rfl

theorem dependentsOf_eq (graph : Graph) (target : String) :
    graph.dependentsOf target =
      (ReverseIndex.create graph).bind fun index =>
        (index.impactOf target).map Impact.dependents := by
  unfold dependentsOf
  cases ReverseIndex.create graph with
  | error e => rfl
  | ok index =>
    change (index.impactOf target >>= fun impact => pure impact.dependents) =
      (index.impactOf target).map Impact.dependents
    cases index.impactOf target <;> rfl

/-- **The impact of a file of a graph that passes its check consists of the other files that lead to
it through internal edges, each with the length of a shortest walk.** A file that is no node is
unknown, and a defect of the graph is reported whatever the file. -/
theorem impactOf_isDistance (graph : Graph) (target : String) :
    (graph.check = .ok () → ∃ index, ReverseIndex.create graph = .ok index ∧
      (target ∉ graph.nodes → index.impactOf target = .error (.unknownNode target) ∧
        graph.dependentsOf target = .error (.unknownNode target)) ∧
      (target ∈ graph.nodes → ∃ impact, index.impactOf target = .ok impact ∧
        graph.dependentsOf target = .ok impact.dependents ∧ impact.target = target ∧
        ∀ path hops, impact.dependents.get? path = some hops ↔
          path ∈ graph.nodes ∧ path ≠ target ∧
            IsDistance (graph.Imports EdgeKind.isInternal) path target hops)) ∧
    ∀ defect, graph.check = .error defect →
      ReverseIndex.create graph = .error defect.toError ∧
        graph.dependentsOf target = .error defect.toError := by
  rw [dependentsOf_eq, create_eq]
  constructor
  · intro hok
    have hw := (check_eq_ok_iff graph).mp hok
    rw [hok]
    refine ⟨_, rfl, fun ht => ?_, fun ht => ?_⟩
    · have herror := hw.traverse_of_not_mem ht none
      exact ⟨herror, congrArg (Except.map Impact.dependents) herror⟩
    · obtain ⟨impact, himpact, htarget, hiff⟩ := hw.impactOf_of_mem ht
      exact ⟨impact, himpact, congrArg (Except.map Impact.dependents) himpact, htarget, hiff⟩
  · intro defect he
    rw [he]
    exact ⟨rfl, rfl⟩

/-- Three files on a cycle, one of them importing at run time, and one that imports a module only;
and a graph with a node too many. -/
theorem impactOf_isDistance_on_cycle :
    (∃ (graph : Graph) (dependents : Dictionary Nat),
      graph.nodes = ["a.py", "b.py", "c.py", "d.py"] ∧
      graph.dependentsOf "c.py" = .ok dependents ∧ dependents.get? "a.py" = some 2 ∧
      graph.dependentsOf "e.py" = .error (.unknownNode "e.py")) ∧
    Graph.dependentsOf ⟨["a.py", "a.py"], []⟩ "a.py" =
      .error (.malformedGraph "a.py" "a.py" "duplicates an existing node") := by
  constructor
  · let graph : Graph := ⟨["a.py", "b.py", "c.py", "d.py"],
      [⟨"a.py", "b.py", .direct⟩, ⟨"b.py", "c.py", .dynamic⟩, ⟨"c.py", "a.py", .direct⟩,
        ⟨"c.py", "c.py", .direct⟩, ⟨"d.py", "os", .external⟩]⟩
    have hok : graph.check = .ok () := by cbv
    have hfirst : graph.Imports EdgeKind.isInternal "a.py" "b.py" := by decide
    have hlast : graph.Imports EdgeKind.isInternal "b.py" "c.py" := by decide
    have hnear : ¬graph.Imports EdgeKind.isInternal "a.py" "c.py" := by decide
    have hdist : IsDistance (graph.Imports EdgeKind.isInternal) "a.py" "c.py" 2 := by
      refine ⟨.snoc (.snoc .nil hfirst) hlast, fun length hwalk => ?_⟩
      rcases length with _ | _ | length
      · exact absurd (walk_zero_iff.mp hwalk) (by decide)
      · obtain ⟨_, hnil, harrow⟩ := walk_succ_iff.mp hwalk
        exact absurd (walk_zero_iff.mp hnil ▸ harrow) hnear
      · exact Nat.le_add_left 2 length
    obtain ⟨_, -, -, hmem⟩ := (impactOf_isDistance graph "c.py").1 hok
    obtain ⟨_, -, hunknown, -⟩ := (impactOf_isDistance graph "e.py").1 hok
    obtain ⟨impact, -, hdependents, -, hiff⟩ := hmem (by decide)
    exact ⟨graph, impact.dependents, rfl, hdependents,
      (hiff "a.py" 2).mpr ⟨by decide, by decide, hdist⟩, (hunknown (by decide)).2⟩
  · have hdefect : Graph.check ⟨["a.py", "a.py"], []⟩ = .error (.duplicateNode "a.py") := by cbv
    exact ((impactOf_isDistance _ "a.py").2 _ hdefect).2

end ImportAtlas.Graph
