import ImportAtlas.Graph.Components
import ImportAtlas.Proofs.Graph.Places
import ImportAtlas.Proofs.Search.Run
import Mathlib.Data.Set.Subsingleton
import Mathlib.Order.Fin.Basic

/-!
# Import cycles are components

Files that reach each other through direct edges form a strongly connected component. The cycles of
a graph are the components with more than one file, and those of a single file that imports itself.
The search for cycles runs on places; here its result is read as sets of paths.

## Main definitions

* `Graph.component`: the strongly connected component of a file
* `Graph.IsImportCycle`: the sets of files that are cycles
* `Graph.ListsCycles`: the lists of all cycles, each listed once

## Main results

* `listsCycles_cyclesUnchecked`: the search finds the cycles of a well-formed graph
* `cycles_listsCycles`: the cycles of a graph are listed if the graph passes its check, and the
  defect is reported otherwise
-/

namespace ImportAtlas.Graph

/-- Whether a file is reached from another one through direct imports. -/
abbrev Leads (graph : Graph) : String → String → Prop :=
  Relation.ReflTransGen (graph.Imports (· == .direct))

/-- The strongly connected component of a file. -/
def component (graph : Graph) (file : String) : Set String :=
  {other | other ∈ graph.nodes ∧ graph.Leads file other ∧ graph.Leads other file}

/-- The components that are cycles: those of several files, and those of one file that imports
itself. -/
def IsImportCycle (graph : Graph) (files : Set String) : Prop :=
  ∃ file ∈ graph.nodes, files = graph.component file ∧
    (files.Nontrivial ∨ files = {file} ∧ graph.Imports (· == .direct) file file)

/-- The lists of cycles in which every cycle occurs once, with each of its files once. -/
structure ListsCycles (graph : Graph) (cycles : List (List String)) : Prop where
  isImportCycle : ∀ cycle ∈ cycles, graph.IsImportCycle {file | file ∈ cycle}
  existsUnique : ∀ files, graph.IsImportCycle files →
    ∃! index : Fin cycles.length, {file | file ∈ cycles.get index} = files
  nodup : ∀ cycle ∈ cycles, cycle.Nodup
  disjoint : cycles.Pairwise List.Disjoint

variable {graph : Graph}

/-! ## Components of places and of files -/

section Component

variable (hw : graph.WellFormed)

include hw

theorem WellFormed.hasArrow_direct_iff (tail head : Fin graph.nodes.length) :
    graph.directDigraph.HasArrow tail head ↔
      graph.Imports (· == .direct) (graph.nodes.get tail) (graph.nodes.get head) := by
  unfold directDigraph
  rw [Digraph.hasArrow_ofArrows]
  exact mem_arrows_iff hw.nodes_nodup _ tail head

theorem WellFormed.leads_iff (a b : Fin graph.nodes.length) :
    graph.Leads (graph.nodes.get a) (graph.nodes.get b) ↔ graph.directDigraph.Reaches a b := by
  refine reaches_get_iff hw.hasArrow_direct_iff ?_ hw.nodes_nodup a b
  -- Direct edges are internal, so they end at nodes.
  rintro place path ⟨edge, he, hk, -, rfl⟩
  refine hw.target_mem edge he ?_
  rw [beq_iff_eq.mp hk]
  rfl

theorem WellFormed.get_mem_component_iff (a b : Fin graph.nodes.length) :
    graph.nodes.get b ∈ graph.component (graph.nodes.get a) ↔
      graph.directDigraph.Connected a b := by
  rw [Digraph.Connected, ← hw.leads_iff, ← hw.leads_iff]
  exact and_iff_right (List.get_mem _ _)

/-- The component of a file holds the files of the places that are connected to its place. -/
theorem WellFormed.mem_component_iff (a : Fin graph.nodes.length) (file : String) :
    file ∈ graph.component (graph.nodes.get a) ↔
      ∃ b, graph.nodes.get b = file ∧ graph.directDigraph.Connected a b := by
  constructor
  · intro hf
    obtain ⟨b, rfl⟩ := List.mem_iff_get.mp hf.1
    exact ⟨b, rfl, (hw.get_mem_component_iff a b).mp hf⟩
  · rintro ⟨b, rfl, hc⟩
    exact (hw.get_mem_component_iff a b).mpr hc

/-- A place lies on a cycle if the component of its file is one. -/
theorem WellFormed.onCycle_iff (a : Fin graph.nodes.length) :
    graph.directDigraph.OnCycle a ↔
      (graph.component (graph.nodes.get a)).Nontrivial ∨
        graph.component (graph.nodes.get a) = {graph.nodes.get a} ∧
          graph.Imports (· == .direct) (graph.nodes.get a) (graph.nodes.get a) := by
  have hself : graph.nodes.get a ∈ graph.component (graph.nodes.get a) :=
    (hw.get_mem_component_iff a a).mpr (.refl a)
  constructor
  · rintro (⟨b, hne, hc⟩ | harrow)
    · have hb := (hw.get_mem_component_iff a b).mpr hc
      exact .inl ⟨_, hb, _, hself, fun he => hne (hw.nodes_nodup.get_inj_iff.mp he)⟩
    · -- With a loop the component is a cycle whatever its size.
      rcases Set.eq_singleton_or_nontrivial hself with he | hn
      · exact .inr ⟨he, (hw.hasArrow_direct_iff a a).mp harrow⟩
      · exact .inl hn
  · rintro (hn | ⟨-, hloop⟩)
    · obtain ⟨file, hf, hne⟩ := hn.exists_ne (graph.nodes.get a)
      obtain ⟨b, rfl, hc⟩ := (hw.mem_component_iff a file).mp hf
      exact .inl ⟨b, fun he => hne (he ▸ rfl), hc⟩
    · exact .inr ((hw.hasArrow_direct_iff a a).mpr hloop)

theorem WellFormed.isImportCycle_iff (files : Set String) :
    graph.IsImportCycle files ↔
      ∃ a, graph.directDigraph.OnCycle a ∧ files = graph.component (graph.nodes.get a) := by
  constructor
  · rintro ⟨file, hf, he, hcyc⟩
    obtain ⟨a, rfl⟩ := List.mem_iff_get.mp hf
    exact ⟨a, (hw.onCycle_iff a).mpr (he ▸ hcyc), he⟩
  · rintro ⟨a, ho, rfl⟩
    exact ⟨_, List.get_mem _ a, rfl, (hw.onCycle_iff a).mp ho⟩

/-- The files of the places of a component are the component of the file of any of them. -/
theorem WellFormed.setOf_mem_map_get {members : List (Fin graph.nodes.length)}
    (hm : graph.directDigraph.IsCycle members) {a : Fin graph.nodes.length} (ha : a ∈ members) :
    {file | file ∈ members.map graph.nodes.get} = graph.component (graph.nodes.get a) := by
  obtain ⟨-, place, -, hmem⟩ := hm
  have hconn : ∀ b, b ∈ members ↔ graph.directDigraph.Connected a b := by
    intro b
    have hpa := (hmem a).mp ha
    rw [hmem]
    exact ⟨fun h => hpa.symm.trans h, fun h => hpa.trans h⟩
  ext file
  rw [hw.mem_component_iff]
  simp only [Set.mem_ofPred_eq, List.mem_map, hconn]
  exact exists_congr fun b => and_comm

/-! ## The cycles listed -/

theorem WellFormed.pairwise_disjoint_cycles :
    graph.cyclesUnchecked.Pairwise List.Disjoint := by
  refine List.pairwise_map.mpr (graph.directDigraph.disjoint_components.imp ?_)
  intro members others hd file hf hf'
  obtain ⟨a, ha, rfl⟩ := List.mem_map.mp hf
  obtain ⟨b, hb, he⟩ := List.mem_map.mp hf'
  obtain rfl := hw.nodes_nodup.get_inj_iff.mp he
  exact hd ha hb

/-- **The search lists the cycles of a well-formed graph.** -/
theorem listsCycles_cyclesUnchecked : graph.ListsCycles graph.cyclesUnchecked where
  isImportCycle := by
    intro cycle hc
    obtain ⟨members, hm, rfl⟩ := List.mem_map.mp hc
    have hcycle := graph.directDigraph.isCycle_of_mem_components hm
    obtain ⟨-, place, ho, hmem⟩ := id hcycle
    have hp : place ∈ members := (hmem place).mpr (.refl place)
    exact (hw.isImportCycle_iff _).mpr ⟨place, ho, hw.setOf_mem_map_get hcycle hp⟩
  existsUnique := by
    intro files hf
    obtain ⟨a, ho, rfl⟩ := (hw.isImportCycle_iff files).mp hf
    obtain ⟨members, hm, ha⟩ := graph.directDigraph.exists_mem_components ho
    obtain ⟨index, hi⟩ := List.mem_iff_get.mp
      (List.mem_map_of_mem (f := fun members => members.map graph.nodes.get) hm)
    have hfiles := hw.setOf_mem_map_get (graph.directDigraph.isCycle_of_mem_components hm) ha
    refine ⟨index, by rw [← hfiles, ← hi]; rfl, fun other he => ?_⟩
    -- Both cycles contain the file of the place, and no two cycles share a file.
    have hself : graph.nodes.get a ∈ graph.component (graph.nodes.get a) :=
      (hw.get_mem_component_iff a a).mpr (.refl a)
    have hother : graph.nodes.get a ∈ graph.cyclesUnchecked.get other := he.ge hself
    have hindex : graph.nodes.get a ∈ graph.cyclesUnchecked.get index := by
      rw [show graph.cyclesUnchecked.get index = _ from hi]
      exact List.mem_map_of_mem ha
    have hd := List.pairwise_iff_get.mp hw.pairwise_disjoint_cycles
    rcases lt_trichotomy other index with hlt | heq | hlt
    · exact absurd hindex (hd other index hlt hother)
    · exact heq
    · exact absurd hother (hd index other hlt hindex)
  nodup := by
    intro cycle hc
    obtain ⟨members, hm, rfl⟩ := List.mem_map.mp hc
    exact (graph.directDigraph.isCycle_of_mem_components hm).nodup.map
      (List.nodup_iff_injective_get.mp hw.nodes_nodup)
  disjoint := hw.pairwise_disjoint_cycles

end Component

theorem cycles_eq (graph : Graph) :
    graph.cycles = (graph.check.mapError Defect.toError).map fun _ => graph.cyclesUnchecked := by
  unfold cycles
  cases graph.check <;> rfl

/-- **The cycles of a graph that passes its check are its strongly connected components of several
files or of one that imports itself, each listed once.** A defect of the graph is reported
instead. -/
theorem cycles_listsCycles (graph : Graph) :
    (graph.check = .ok () →
      ∃ cycles, graph.cycles = .ok cycles ∧ graph.ListsCycles cycles) ∧
    ∀ defect, graph.check = .error defect → graph.cycles = .error defect.toError := by
  rw [cycles_eq]
  constructor
  · intro hok
    rw [hok]
    exact ⟨_, rfl, listsCycles_cyclesUnchecked ((check_eq_ok_iff graph).mp hok)⟩
  · intro defect he
    rw [he]
    rfl

/-- Two files that import each other, one that imports itself and one that only imports; and a graph
with a node too many. -/
theorem cycles_listsCycles_pair_and_loop :
    (∃ (graph : Graph) (cycles : List (List String)),
      graph.nodes = ["a.py", "b.py", "c.py", "d.py"] ∧ graph.cycles = .ok cycles ∧
      graph.ListsCycles cycles ∧ ∃ cycle ∈ cycles, "a.py" ∈ cycle ∧ "b.py" ∈ cycle) ∧
    Graph.cycles ⟨["a.py", "a.py"], []⟩ =
      .error (.malformedGraph "a.py" "a.py" "duplicates an existing node") := by
  constructor
  · let graph : Graph := ⟨["a.py", "b.py", "c.py", "d.py"],
      [⟨"a.py", "b.py", .direct⟩, ⟨"b.py", "a.py", .direct⟩, ⟨"a.py", "b.py", .direct⟩,
        ⟨"c.py", "c.py", .direct⟩, ⟨"d.py", "a.py", .direct⟩, ⟨"a.py", "d.py", .dynamic⟩,
        ⟨"d.py", "os", .external⟩]⟩
    have hok : graph.check = .ok () := by cbv
    have hto : graph.Imports (· == .direct) "a.py" "b.py" := by decide
    have hback : graph.Imports (· == .direct) "b.py" "a.py" := by decide
    have ha : "a.py" ∈ graph.component "a.py" := ⟨by decide, .refl, .refl⟩
    have hb : "b.py" ∈ graph.component "a.py" := ⟨by decide, .single hto, .single hback⟩
    have hcycle : graph.IsImportCycle (graph.component "a.py") :=
      ⟨"a.py", by decide, rfl, .inl ⟨_, ha, _, hb, by decide⟩⟩
    obtain ⟨cycles, hcycles, hlist⟩ := (cycles_listsCycles graph).1 hok
    obtain ⟨index, hindex, -⟩ := hlist.existsUnique _ hcycle
    exact ⟨graph, cycles, rfl, hcycles, hlist, cycles.get index, List.get_mem _ _, hindex.ge ha,
      hindex.ge hb⟩
  · have hdefect : Graph.check ⟨["a.py", "a.py"], []⟩ = .error (.duplicateNode "a.py") := by cbv
    exact (cycles_listsCycles _).2 _ hdefect

end ImportAtlas.Graph
