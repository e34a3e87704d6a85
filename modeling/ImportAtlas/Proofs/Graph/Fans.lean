import ImportAtlas.Graph.Statistics
import ImportAtlas.Proofs.Graph.Impact
import ImportAtlas.Proofs.Impact
import Mathlib.Algebra.BigOperators.Group.List.Basic
import Mathlib.Data.Set.Card

/-!
# Fans

The fan-in and the fan-out of a file are the numbers of files that it is imported by and that it
imports. The largest ones are found by going through the files, where a file takes the place of the one
found before only if it has a larger fan, so the first file with the largest fan is found. In a graph
without files that import themselves, the importers of a file are its dependents at distance one.

## Main results

* `fanOut_eq_ncard`, `fanIn_eq_ncard`: fans in terms of imports
* `largest_eq`: the largest measure, and the first path that has it
* `sum_map_count_eq_countOfKind`: the edges of a kind, counted by their sources
* `WellFormed.mem_directDependents_iff`: the dependents at distance one
* `WellFormed.length_directDependents`: the fan-in as a number of dependents
-/

namespace ImportAtlas

theorem ncard_setOf_mem_of_nodup {α : Type} {values : List α} (h : values.Nodup) :
    {value | value ∈ values}.ncard = values.length := by
  classical
  have hset : {value | value ∈ values} = (values.toFinset : Set α) := by
    ext value
    simp
  rw [hset, Set.ncard_coe_finset, List.toFinset_card_of_nodup h]

/-- The number of values in a list is the number of their first occurrences. -/
theorem ncard_setOf_mem {α : Type} [BEq α] [LawfulBEq α] (values : List α) :
    {value | value ∈ values}.ncard = values.eraseDups.length := by
  rw [← ncard_setOf_mem_of_nodup (nodup_eraseDups values)]
  simp only [List.mem_eraseDups]

namespace Graph

variable (graph : Graph)

/-! ## Fans in terms of imports -/

theorem mem_imported_iff (path target : String) :
    target ∈ graph.fanTable.imported.values path ↔
      graph.Imports EdgeKind.isInternal path target := by
  simp [fanTable, Grouping.values_ofPairs, internalEdges, Imports, and_assoc]

theorem mem_importers_iff (path source : String) :
    source ∈ graph.fanTable.importers.values path ↔
      graph.Imports EdgeKind.isInternal source path := by
  simp only [fanTable, Grouping.values_ofPairs, internalEdges, Imports, List.mem_map,
    List.mem_filter, beq_iff_eq]
  constructor
  · rintro ⟨_, ⟨⟨edge, ⟨he, hk⟩, rfl⟩, ht⟩, hs⟩
    exact ⟨edge, he, hk, hs, ht⟩
  · rintro ⟨edge, he, hk, hs, ht⟩
    exact ⟨_, ⟨⟨edge, ⟨he, hk⟩, rfl⟩, ht⟩, hs⟩

theorem fanOut_eq_ncard (path : String) :
    graph.fanTable.fanOut path = {target | graph.Imports EdgeKind.isInternal path target}.ncard := by
  simp only [← mem_imported_iff]
  exact (ncard_setOf_mem _).symm

theorem fanIn_eq_ncard (path : String) :
    graph.fanTable.fanIn path = {source | graph.Imports EdgeKind.isInternal source path}.ncard := by
  simp only [← mem_importers_iff]
  exact (ncard_setOf_mem _).symm

/-! ## The largest fan -/

section Largest

variable (measure : String → Nat)

/-- Either all paths measure zero, or the first one of those that measure most is found. -/
theorem largest_cases (paths : List String) :
    (largest measure paths = (0, none) ∧ ∀ path ∈ paths, measure path = 0) ∨
      ∃ path, largest measure paths = (measure path, some path) ∧ 0 < measure path ∧
        (∀ other ∈ paths, measure other ≤ measure path) ∧
        paths.find? (measure · == measure path) = some path := by
  induction paths using List.reverseRecOn with
  | nil => exact .inl ⟨rfl, fun path hp => absurd hp List.not_mem_nil⟩
  | append_singleton paths last ih =>
    have hstep : largest measure (paths ++ [last]) =
        if (largest measure paths).1 < measure last then (measure last, some last)
        else largest measure paths := by
      unfold largest
      rw [List.foldl_append]
      rfl
    rw [hstep]
    by_cases hlt : (largest measure paths).1 < measure last
    · -- The last path measures more than all before it.
      have hbelow : ∀ other ∈ paths, measure other < measure last := by
        rcases ih with ⟨hnone, hzero⟩ | ⟨path, hpath, -, hle, -⟩
        · intro other ho
          rw [hnone] at hlt
          rwa [hzero other ho]
        · intro other ho
          rw [hpath] at hlt
          exact (hle other ho).trans_lt hlt
      rw [if_pos hlt]
      refine .inr ⟨last, rfl, (Nat.zero_le _).trans_lt hlt, ?_, ?_⟩
      · exact List.forall_mem_append.mpr ⟨fun other ho => (hbelow other ho).le, by simp⟩
      · have hnone : paths.find? (measure · == measure last) = none := by
          rw [List.find?_eq_none]
          intro other ho he
          exact (hbelow other ho).ne (beq_iff_eq.mp he)
        rw [List.find?_append, hnone]
        simp
    · rw [if_neg hlt]
      rcases ih with ⟨hnone, hzero⟩ | ⟨path, hpath, hpos, hle, hfind⟩
      · rw [hnone] at hlt
        have hlast : measure last = 0 := Nat.eq_zero_of_not_pos hlt
        exact .inl ⟨hnone, List.forall_mem_append.mpr ⟨hzero, by simpa using hlast⟩⟩
      · rw [hpath] at hlt
        have hlast : measure last ≤ measure path := Nat.le_of_not_lt hlt
        refine .inr ⟨path, hpath, hpos, List.forall_mem_append.mpr ⟨hle, by simpa using hlast⟩, ?_⟩
        rw [List.find?_append, hfind]
        rfl

/-- **The largest measure**, zero without paths, and the first path that has it, none if it is
zero. -/
theorem largest_eq (paths : List String) :
    largest measure paths =
      let most := (paths.map measure).max?.getD 0
      (most, if most = 0 then none else paths.find? (measure · == most)) := by
  rcases largest_cases measure paths with ⟨hlargest, hzero⟩ | ⟨path, hlargest, hpos, hle, hfind⟩
  · have hmost : (paths.map measure).max?.getD 0 = 0 := by
      cases hmax : (paths.map measure).max? with
      | none => rfl
      | some most =>
        obtain ⟨path, hp, rfl⟩ := List.mem_map.mp (List.max?_mem hmax)
        exact hzero path hp
    rw [hlargest, hmost]
    rfl
  · have hmax : (paths.map measure).max? = some (measure path) := by
      refine List.max?_eq_some_iff.mpr ⟨List.mem_map_of_mem (List.mem_of_find?_eq_some hfind), ?_⟩
      simpa using hle
    simp only [hlargest, hmax, Option.getD_some, if_neg hpos.ne', hfind]

end Largest

/-! ## Edges by source -/

/-- **Counting the edges of a kind by their sources** leaves none out, if all sources are among the
paths and the paths are distinct. -/
theorem sum_map_count_eq_countP {paths : List String} (hnodup : paths.Nodup) (kind : EdgeKind)
    {edges : List Edge} (hsource : ∀ edge ∈ edges, edge.source ∈ paths) :
    (paths.map fun path => edges.countP fun edge => edge.source == path && edge.kind == kind).sum =
      edges.countP (·.kind == kind) := by
  induction edges with
  | nil => simp
  | cons edge edges ih =>
    obtain ⟨hedge, hedges⟩ := List.forall_mem_cons.mp hsource
    -- The edge counts for its own source only.
    have hown : (paths.map fun path =>
        if edge.source == path && edge.kind == kind then 1 else 0).sum =
        if edge.kind == kind then 1 else 0 := by
      rw [List.sum_map_eq_nsmul_single edge.source _ fun path hne _ => ?_,
        List.count_eq_one_of_mem hnodup hedge, one_nsmul, BEq.rfl, Bool.true_and]
      simp [Ne.symm hne]
    simp only [List.countP_cons, List.sum_map_add, ih hedges, hown]

/-! ## Dependents at distance one -/

section Dependents

variable {graph} {target : String}

/-- **The direct dependents of a file are the other files that import it**, if the impact tells of the
files at distance one. -/
theorem WellFormed.mem_directDependents_iff (hw : graph.WellFormed) {impact : Impact}
    (hone : ∀ path, impact.dependents.get? path = some 1 ↔ path ∈ graph.nodes ∧ path ≠ target ∧
      IsDistance (graph.Imports EdgeKind.isInternal) path target 1) (path : String) :
    path ∈ impact.directDependents ↔
      path ≠ target ∧ graph.Imports EdgeKind.isInternal path target := by
  rw [Impact.directDependents, Impact.mem_atDistance_iff, ← Dictionary.get?_eq_some_iff, hone,
    isDistance_one_iff]
  constructor
  · rintro ⟨-, hne, himports, -⟩
    exact ⟨hne, himports⟩
  · rintro ⟨hne, himports⟩
    obtain ⟨edge, he, -, hs, -⟩ := id himports
    exact ⟨hs ▸ hw.source_mem edge he, hne, himports, hne⟩

/-- **The fan-in of a file that does not import itself is the number of its dependents at distance
one.** -/
theorem WellFormed.length_directDependents (hw : graph.WellFormed)
    (hself : ¬graph.Imports EdgeKind.isInternal target target) {impact : Impact}
    (hiff : ∀ path hops, impact.dependents.get? path = some hops ↔ path ∈ graph.nodes ∧
      path ≠ target ∧ IsDistance (graph.Imports EdgeKind.isInternal) path target hops) :
    impact.directDependents.length = graph.fanTable.fanIn target := by
  have hmem : ∀ path, path ∈ impact.directDependents ↔
      graph.Imports EdgeKind.isInternal path target := by
    intro path
    rw [hw.mem_directDependents_iff (fun path => hiff path 1)]
    apply and_iff_right_of_imp
    rintro himports rfl
    exact hself himports
  have hnodup : impact.directDependents.Nodup := impact.nodup_atDistance 1
  rw [fanIn_eq_ncard, ← ncard_setOf_mem_of_nodup hnodup]
  simp only [hmem]

end Dependents

end Graph

end ImportAtlas
