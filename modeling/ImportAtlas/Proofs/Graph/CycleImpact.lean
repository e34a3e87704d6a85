import ImportAtlas.Proofs.Graph.Cycles
import ImportAtlas.Proofs.Graph.Impact
import Mathlib.Data.Fin.Tuple.Take
import Mathlib.Data.List.Permutation

/-!
# Cycles and impacts

Two files lie on a cycle together if each of them is reached from the other through direct imports,
which is to say that each is a dependent of the other once all other edges are left out. Files on a
cycle are then affected by the same changes: a file that depends on one of them depends on all of
them, so the dependents of one, with the file itself, are those of any other.

## Main results

* `WellFormed.exists_mem_cycle_iff`: files that share a cycle lead to each other
* `WellFormed.mem_keys_dependents_iff`: the dependents of a file are the other files that lead to it
* `mem_cycle_iff_mem_dependents`: the search for cycles agrees with the search for dependents
-/

namespace ImportAtlas.Graph

variable {graph : Graph} {a b : String}

/-! ## Direct imports only -/

theorem imports_directSubgraph_iff :
    graph.directSubgraph.Imports EdgeKind.isInternal a b ↔ graph.Imports (· == .direct) a b := by
  constructor
  · rintro ⟨edge, he, -, hs, ht⟩
    obtain ⟨hm, hk⟩ := List.mem_filter.mp he
    exact ⟨edge, hm, hk, hs, ht⟩
  · rintro ⟨edge, hm, hk, hs, ht⟩
    exact ⟨edge, List.mem_filter.mpr ⟨hm, hk⟩, by rw [beq_iff_eq.mp hk]; rfl, hs, ht⟩

/-- Direct imports are internal. -/
theorem Leads.internal (h : graph.Leads a b) :
    Relation.ReflTransGen (graph.Imports EdgeKind.isInternal) a b := by
  refine Relation.ReflTransGen.mono ?_ _ _ h
  rintro s t ⟨edge, hm, hk, hs, ht⟩
  exact ⟨edge, hm, by rw [beq_iff_eq.mp hk]; rfl, hs, ht⟩

section WellFormed

variable (hw : graph.WellFormed)

include hw

/-! ## Files that share a cycle -/

/-- **Two files share a cycle if each of them leads to the other.** -/
theorem WellFormed.exists_mem_cycle_iff (ha : a ∈ graph.nodes) (hb : b ∈ graph.nodes)
    (hne : a ≠ b) :
    (∃ cycle ∈ graph.cyclesUnchecked, a ∈ cycle ∧ b ∈ cycle) ↔
      graph.Leads a b ∧ graph.Leads b a := by
  have hlists := listsCycles_cyclesUnchecked hw
  constructor
  · rintro ⟨cycle, hc, hac, hbc⟩
    obtain ⟨file, -, hfiles, -⟩ := hlists.isImportCycle cycle hc
    obtain ⟨-, htoa, hfroma⟩ := hfiles.le hac
    obtain ⟨-, htob, hfromb⟩ := hfiles.le hbc
    exact ⟨hfroma.trans htob, hfromb.trans htoa⟩
  · rintro ⟨hab, hba⟩
    -- The component of the first file holds both, so it is a cycle, and is listed.
    have hina : a ∈ graph.component a := ⟨ha, .refl, .refl⟩
    have hinb : b ∈ graph.component a := ⟨hb, hab, hba⟩
    have hcycle : graph.IsImportCycle (graph.component a) :=
      ⟨a, ha, rfl, .inl ⟨a, hina, b, hinb, hne⟩⟩
    obtain ⟨index, hindex, -⟩ := hlists.existsUnique _ hcycle
    exact ⟨_, List.get_mem _ index, hindex.ge hina, hindex.ge hinb⟩

/-! ## The dependents of a file -/

/-- **The dependents of a file are the other files that lead to it** through internal imports. -/
theorem WellFormed.mem_keys_dependents_iff (ha : a ∈ graph.nodes) :
    ∃ impact, (ReverseIndex.ofGraph graph).impactOf a = .ok impact ∧
      graph.dependentsOf a = .ok impact.dependents ∧
      ∀ path, path ∈ impact.dependents.keys ↔
        path ∈ graph.nodes ∧ path ≠ a ∧
          Relation.ReflTransGen (graph.Imports EdgeKind.isInternal) path a := by
  obtain ⟨impact, himpact, -, hiff⟩ := hw.impactOf_of_mem ha
  refine ⟨impact, himpact, ?_, fun path => ?_⟩
  · rw [dependentsOf_eq, create_eq, (check_eq_ok_iff graph).mpr hw]
    exact congrArg (Except.map Impact.dependents) himpact
  · rw [Dictionary.mem_keys_iff, reflTransGen_iff_exists_walk]
    constructor
    · rintro ⟨hops, hget⟩
      obtain ⟨hp, hne, hdist⟩ := (hiff path hops).mp hget
      exact ⟨hp, hne, hops, hdist.1⟩
    · rintro ⟨hp, hne, length, hwalk⟩
      obtain ⟨hops, -, hdist⟩ := hwalk.exists_isDistance
      exact ⟨hops, (hiff path hops).mpr ⟨hp, hne, hdist⟩⟩

end WellFormed

/-- What depends on a file, or is the file, leads to it. -/
theorem mem_insert_dependents_iff (ha : a ∈ graph.nodes) {impact : Impact}
    (hkeys : ∀ path, path ∈ impact.dependents.keys ↔ path ∈ graph.nodes ∧ path ≠ a ∧
      Relation.ReflTransGen (graph.Imports EdgeKind.isInternal) path a) (path : String) :
    path = a ∨ path ∈ impact.dependents.keys ↔
      path ∈ graph.nodes ∧
        Relation.ReflTransGen (graph.Imports EdgeKind.isInternal) path a := by
  rw [hkeys]
  constructor
  · rintro (rfl | ⟨hp, -, hreach⟩)
    · exact ⟨ha, .refl⟩
    · exact ⟨hp, hreach⟩
  · rintro ⟨hp, hreach⟩
    by_cases he : path = a
    · exact .inl he
    · exact .inr ⟨hp, he, hreach⟩

/-- **The search for cycles agrees with the search for dependents.** Two files of a graph that
passes its check share a cycle if each of them is a dependent of the other in the graph of the direct
edges; and files that share a cycle have the same dependents in the whole graph, counting
themselves, hence as many of them. -/
theorem mem_cycle_iff_mem_dependents (hok : graph.check = .ok ()) (ha : a ∈ graph.nodes)
    (hb : b ∈ graph.nodes) (hne : a ≠ b) :
    ∃ cycles, graph.cycles = .ok cycles ∧
      (∃ ofA ofB, graph.directSubgraph.dependentsOf a = .ok ofA ∧
        graph.directSubgraph.dependentsOf b = .ok ofB ∧
        ((∃ cycle ∈ cycles, a ∈ cycle ∧ b ∈ cycle) ↔ a ∈ ofB.keys ∧ b ∈ ofA.keys)) ∧
      ((∃ cycle ∈ cycles, a ∈ cycle ∧ b ∈ cycle) →
        ∃ index ofA ofB, ReverseIndex.create graph = .ok index ∧
          index.impactOf a = .ok ofA ∧ index.impactOf b = .ok ofB ∧
          graph.dependentsOf a = .ok ofA.dependents ∧
          graph.dependentsOf b = .ok ofB.dependents ∧
          insert a {path | path ∈ ofA.dependents.keys} =
            insert b {path | path ∈ ofB.dependents.keys} ∧
          ofA.blastRadius.dependents = ofB.blastRadius.dependents) := by
  have hw := (check_eq_ok_iff graph).mp hok
  refine ⟨graph.cyclesUnchecked, by rw [cycles_eq, hok]; rfl, ?_, fun hshare => ?_⟩
  · -- Among the direct edges alone, the dependents of a file are those that lead to it.
    obtain ⟨ofA, -, hofA, hkeysA⟩ := hw.directSubgraph.mem_keys_dependents_iff ha
    obtain ⟨ofB, -, hofB, hkeysB⟩ := hw.directSubgraph.mem_keys_dependents_iff hb
    have hsame : graph.directSubgraph.Imports EdgeKind.isInternal =
        graph.Imports (· == .direct) := by
      ext s t
      exact imports_directSubgraph_iff
    refine ⟨_, _, hofA, hofB, ?_⟩
    rw [hw.exists_mem_cycle_iff ha hb hne, hkeysA, hkeysB, hsame]
    constructor
    · rintro ⟨hab, hba⟩
      exact ⟨⟨ha, hne, hab⟩, ⟨hb, hne.symm, hba⟩⟩
    · rintro ⟨⟨-, -, hab⟩, ⟨-, -, hba⟩⟩
      exact ⟨hab, hba⟩
  · obtain ⟨hab, hba⟩ := (hw.exists_mem_cycle_iff ha hb hne).mp hshare
    obtain ⟨ofA, himpactA, hofA, hkeysA⟩ := hw.mem_keys_dependents_iff ha
    obtain ⟨ofB, himpactB, hofB, hkeysB⟩ := hw.mem_keys_dependents_iff hb
    -- What leads to one of the two leads on to the other.
    have hinsert : ∀ path, path = a ∨ path ∈ ofA.dependents.keys ↔
        path = b ∨ path ∈ ofB.dependents.keys := by
      intro path
      rw [mem_insert_dependents_iff ha hkeysA, mem_insert_dependents_iff hb hkeysB]
      exact and_congr_right fun _ =>
        ⟨fun h => h.trans (Leads.internal hab), fun h => h.trans (Leads.internal hba)⟩
    have hnotA : a ∉ ofA.dependents.keys := fun h => ((hkeysA a).mp h).2.1 rfl
    have hnotB : b ∉ ofB.dependents.keys := fun h => ((hkeysB b).mp h).2.1 rfl
    refine ⟨_, ofA, ofB, by rw [create_eq, hok]; rfl, himpactA, himpactB, hofA, hofB,
      Set.ext hinsert, ?_⟩
    exact Dictionary.size_eq_of_mem_keys_iff hnotA hnotB hinsert

/-- Two files that import each other, one of which imports a third one that imports the other back
at run time: all three depend on each other, but only the first two share a cycle. -/
theorem mem_cycle_iff_mem_dependents_detour :
    ∃ (graph : Graph) (ofA ofB : Impact) (directA directC : Dictionary Nat),
      graph.nodes = ["a.py", "b.py", "c.py"] ∧ graph.cycles = .ok [["a.py", "b.py"]] ∧
      graph.dependentsOf "a.py" = .ok ofA.dependents ∧
      graph.dependentsOf "b.py" = .ok ofB.dependents ∧
      insert "a.py" {path | path ∈ ofA.dependents.keys} =
        insert "b.py" {path | path ∈ ofB.dependents.keys} ∧
      ofA.blastRadius.dependents = ofB.blastRadius.dependents ∧
      graph.directSubgraph.dependentsOf "a.py" = .ok directA ∧
      graph.directSubgraph.dependentsOf "c.py" = .ok directC ∧
      ¬("a.py" ∈ directC.keys ∧ "c.py" ∈ directA.keys) := by
  let graph : Graph := ⟨["a.py", "b.py", "c.py"],
    [⟨"a.py", "b.py", .direct⟩, ⟨"b.py", "a.py", .direct⟩, ⟨"b.py", "c.py", .direct⟩,
      ⟨"c.py", "a.py", .dynamic⟩, ⟨"c.py", "os", .external⟩]⟩
  have hok : graph.check = .ok () := by cbv
  have hvalue : graph.cycles = .ok [["a.py", "b.py"]] := by cbv
  obtain ⟨cycles, hcycles, -, hshare⟩ :=
    mem_cycle_iff_mem_dependents (a := "a.py") (b := "b.py") hok (by decide) (by decide) (by decide)
  obtain ⟨others, hothers, ⟨directA, directC, hdirectA, hdirectC, hiff⟩, -⟩ :=
    mem_cycle_iff_mem_dependents (a := "a.py") (b := "c.py") hok (by decide) (by decide) (by decide)
  obtain rfl := Except.ok.inj (hvalue.symm.trans hcycles)
  obtain rfl := Except.ok.inj (hvalue.symm.trans hothers)
  obtain ⟨-, ofA, ofB, -, -, -, hofA, hofB, hinsert, hsize⟩ :=
    hshare ⟨["a.py", "b.py"], by decide, by decide, by decide⟩
  exact ⟨graph, ofA, ofB, directA, directC, rfl, hvalue, hofA, hofB, hinsert, hsize, hdirectA,
    hdirectC, mt hiff.mpr (by decide)⟩

end ImportAtlas.Graph
