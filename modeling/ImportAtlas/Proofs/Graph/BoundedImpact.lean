import ImportAtlas.Proofs.Graph.Impact

/-!
# Bounded impacts

The impact of changing a file can be asked for up to a distance. The traversal then does not look
beyond the files that are as far away, and nothing that it would have found later is nearer than
what it has found. So what is found is the part of the whole impact up to that distance, and a bound
changes neither the distance of a file nor whether the query fails.

## Main definitions

* `Impact.within`: the part of an impact up to a distance

## Main results

* `get?_within`: the dependents in the part
* `WellFormed.impactWithin_eq`: a bounded query gives the part of the unbounded one
* `impactWithin_restricts_impactOf`: a bounded query is the unbounded one, restricted
-/

namespace ImportAtlas

namespace Impact

/-- The part of an impact up to a distance. -/
def within (limit : Nat) (impact : Impact) : Impact where
  target := impact.target
  dependents := ⟨impact.dependents.entries.filter (·.2 ≤ limit), impact.dependents.sorted.filter _⟩

variable (limit : Nat) (impact : Impact)

theorem mem_entries_within_iff (entry : String × Nat) :
    entry ∈ (impact.within limit).dependents.entries ↔
      entry ∈ impact.dependents.entries ∧ entry.2 ≤ limit := by
  simp [within]

/-- The dependents in the part are those that are no farther than the bound, as far as they were. -/
theorem get?_within (path : String) (hops : Nat) :
    (impact.within limit).dependents.get? path = some hops ↔
      impact.dependents.get? path = some hops ∧ hops ≤ limit := by
  rw [Dictionary.get?_eq_some_iff, Dictionary.get?_eq_some_iff, mem_entries_within_iff]

end Impact

namespace Graph

variable {graph : Graph}

/-- **A bounded query gives the part of the unbounded one** up to its bound. -/
theorem WellFormed.impactWithin_eq (hw : graph.WellFormed) (target : String) (limit : Nat) :
    (ReverseIndex.ofGraph graph).impactWithin target limit =
      ((ReverseIndex.ofGraph graph).impactOf target).map (Impact.within limit) := by
  by_cases ht : target ∈ graph.nodes
  · obtain ⟨part, hpart, rfl, hnear⟩ := hw.traverse_of_mem ht (some limit)
    obtain ⟨whole, hwhole, htarget, hall⟩ := hw.impactOf_of_mem ht
    -- Both say of a file what its distance is, if it has one; the part has the bound besides.
    have hdependents : part.dependents = (whole.within limit).dependents := by
      apply Dictionary.ext_mem
      rintro ⟨path, hops⟩
      rw [← Dictionary.get?_eq_some_iff, ← Dictionary.get?_eq_some_iff, Impact.get?_within, hnear,
        hall]
      simp only [Option.mem_some_iff, forall_eq']
      exact and_comm
    have heq : part = whole.within limit := by
      obtain ⟨target, dependents⟩ := part
      exact congrArg₂ Impact.mk htarget.symm hdependents
    rw [ReverseIndex.impactWithin, hpart, hwhole, heq]
    rfl
  · rw [ReverseIndex.impactWithin, ReverseIndex.impactOf, hw.traverse_of_not_mem ht,
      hw.traverse_of_not_mem ht]
    rfl

/-- **A bounded query is the unbounded one, restricted**, in a graph that passes its check and for
any bound. If the target is no node, both fail alike. Otherwise both succeed, with the same target,
and the bounded one has the entries of the unbounded one that are no farther than the bound. -/
theorem impactWithin_restricts_impactOf (hok : graph.check = .ok ()) (target : String)
    (limit : Nat) :
    ∃ index, ReverseIndex.create graph = .ok index ∧
      (target ∉ graph.nodes → index.impactOf target = .error (.unknownNode target) ∧
        index.impactWithin target limit = .error (.unknownNode target)) ∧
      (target ∈ graph.nodes → ∃ whole part, index.impactOf target = .ok whole ∧
        index.impactWithin target limit = .ok part ∧ part.target = whole.target ∧
        part.dependents.entries = whole.dependents.entries.filter (·.2 ≤ limit)) := by
  have hw := (check_eq_ok_iff graph).mp hok
  refine ⟨.ofGraph graph, hw.create_eq_ok, ?_, ?_⟩
  · intro ht
    exact ⟨hw.traverse_of_not_mem ht none, hw.traverse_of_not_mem ht (some limit)⟩
  · intro ht
    obtain ⟨whole, hwhole, -, -⟩ := hw.impactOf_of_mem ht
    refine ⟨whole, whole.within limit, hwhole, ?_, rfl, rfl⟩
    rw [hw.impactWithin_eq, hwhole]
    rfl

/-- A file that leads to the target by a short way and a long one, and a file that is too far for
the bound; the bound keeps the first one, at the length of the short way. -/
theorem impactWithin_restricts_impactOf_shortcut :
    let graph : Graph := ⟨["a.py", "b.py", "c.py", "d.py"],
      [⟨"a.py", "b.py", .direct⟩, ⟨"b.py", "c.py", .dynamic⟩, ⟨"a.py", "c.py", .direct⟩,
        ⟨"d.py", "a.py", .direct⟩, ⟨"c.py", "d.py", .direct⟩]⟩
    graph.check = .ok () ∧ "c.py" ∈ graph.nodes ∧
    ∃ index whole part, ReverseIndex.create graph = .ok index ∧
      index.impactOf "c.py" = .ok whole ∧ index.impactWithin "c.py" 1 = .ok part ∧
      whole.dependents.entries = [("a.py", 1), ("b.py", 1), ("d.py", 2)] ∧
      part.dependents.entries = [("a.py", 1), ("b.py", 1)] := by
  intro graph
  have hok : graph.check = .ok () := by cbv
  have hmem : "c.py" ∈ graph.nodes := by decide
  obtain ⟨index, hindex, -, hfound⟩ := impactWithin_restricts_impactOf hok "c.py" 1
  obtain ⟨whole, part, hwhole, hpart, -, hentries⟩ := hfound hmem
  have hw := (check_eq_ok_iff graph).mp hok
  obtain rfl := Except.ok.inj (hw.create_eq_ok.symm.trans hindex)
  -- The importers of each place are sorted, then the two layers around the target are worked out,
  -- and the entries from them.
  have harrows : graph.arrows EdgeKind.isInternal =
      ([(0, 1), (1, 2), (0, 2), (3, 0), (2, 3)] : List (Fin 4 × Fin 4)) := by cbv
  have hsorted : Digraph.sorted (n := 4) ⟨#v[[3], [0], [1, 0], [2]]⟩ =
      ⟨#v[[3], [0], [0, 1], [2]]⟩ := by
    simp [Digraph.sorted, List.mergeSort, List.MergeSort.Internal.splitInTwo, List.eraseReps,
      List.eraseRepsBy, List.eraseRepsBy.loop]
  have himporters : (ReverseIndex.ofGraph graph).importers =
      (⟨#v[[3], [0], [0, 1], [2]]⟩ : Digraph 4) := by
    unfold ReverseIndex.ofGraph
    rw [harrows]
    exact hsorted
  have hall : whole.dependents.entries = [("a.py", 1), ("b.py", 1), ("d.py", 2)] := by
    rw [Except.ok.inj (hwhole.symm.trans (hw.traverse_eq_layers (2 : Fin 4) none)), himporters]
    decide
  have hnear : part.dependents.entries = [("a.py", 1), ("b.py", 1)] := by
    rw [hentries, hall]
    decide
  exact ⟨hok, hmem, _, whole, part, hindex, hwhole, hpart, hall, hnear⟩

end Graph

end ImportAtlas
