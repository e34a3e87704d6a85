import ImportAtlas.Proofs.Graph.Fans
import ImportAtlas.Proofs.Impact.Layers
import ImportAtlas.Proofs.Table.Content
import ImportAtlas.Proofs.Table.Listing

/-!
# Impacts in a graph have no gaps

On a shortest way to the changed file the distance goes down by one with every import. So where
there is a dependent there is one at every smaller distance, and the layers of an impact are
numbered from one on without gaps, with a bound or without. The first layer holds the files that
have an import of the changed one. What readers are shown of an impact is its layers one after the
other, in the brief form as in the table.

## Main results

* `WellFormed.exists_isDistance_of_le`: all smaller distances occur
* `WellFormed.gapless`: an impact found in a graph has no gaps
* `impact_layered`: the layers of an impact, and how they are shown
-/

namespace ImportAtlas.Graph

variable {graph : Graph} {target : String} {limit : Option Nat} {impact : Impact}

/-- Where there is a file at a distance, there are files at all smaller ones. -/
theorem WellFormed.exists_isDistance_of_le (hw : graph.WellFormed) {path : String} {far near : Nat}
    (hp : path ∈ graph.nodes) (ht : target ∈ graph.nodes)
    (hdist : IsDistance (graph.Imports EdgeKind.isInternal) path target far) (hle : near ≤ far) :
    ∃ other ∈ graph.nodes, IsDistance (graph.Imports EdgeKind.isInternal) other target near := by
  obtain ⟨place, rfl⟩ := List.mem_iff_get.mp hp
  obtain ⟨goal, rfl⟩ := List.mem_iff_get.mp ht
  -- Seen from the target, against the imports, the nearer places come first.
  obtain ⟨other, hother⟩ := ((hw.isDistance_iff place goal far).mp hdist).exists_of_le hle
  exact ⟨graph.nodes.get other, List.get_mem _ _, (hw.isDistance_iff other goal near).mpr hother⟩

section Query

variable (hw : graph.WellFormed)
  (himpact : (ReverseIndex.ofGraph graph).traverse target limit = .ok impact)

include hw himpact

/-- What a query has found, if it has not failed. -/
theorem WellFormed.get?_eq_some_iff_of_traverse :
    target ∈ graph.nodes ∧
      ∀ path hops, impact.dependents.get? path = some hops ↔
        (∀ bound ∈ limit, hops ≤ bound) ∧ path ∈ graph.nodes ∧ path ≠ target ∧
          IsDistance (graph.Imports EdgeKind.isInternal) path target hops := by
  by_cases ht : target ∈ graph.nodes
  · obtain ⟨found, hfound, -, hiff⟩ := hw.traverse_of_mem ht limit
    obtain rfl := Except.ok.inj (hfound.symm.trans himpact)
    exact ⟨ht, hiff⟩
  · rw [hw.traverse_of_not_mem ht] at himpact
    cases himpact

/-- **An impact found in a graph has no gaps.** -/
theorem WellFormed.gapless : impact.Gapless := by
  obtain ⟨ht, hiff⟩ := hw.get?_eq_some_iff_of_traverse himpact
  have hdistance : ∀ distance, distance ∈ impact.distances ↔
      ∃ path, impact.dependents.get? path = some distance := by
    intro distance
    simp [Impact.mem_distances_iff, Dictionary.get?_eq_some_iff]
  -- At distance zero there is the target only, which is not a dependent of itself.
  have hne_zero : ∀ {path : String}, path ≠ target →
      ¬IsDistance (graph.Imports EdgeKind.isInternal) path target 0 :=
    fun hne hdist => hne (isDistance_zero_iff.mp hdist).symm
  intro far hfar
  obtain ⟨path, hpath⟩ := (hdistance far).mp hfar
  obtain ⟨hlimit, hp, hne, hdist⟩ := (hiff path far).mp hpath
  constructor
  · apply Nat.pos_of_ne_zero
    rintro rfl
    exact hne_zero hne hdist
  · intro near hpos hle
    obtain ⟨other, ho, hother⟩ := hw.exists_isDistance_of_le hp ht hdist hle
    have hnear : ∀ bound ∈ limit, near ≤ bound := fun bound hb => hle.trans (hlimit bound hb)
    refine (hdistance near).mpr ⟨other, (hiff other near).mpr ⟨hnear, ho, ?_, hother⟩⟩
    rintro rfl
    have hzero := hother.eq (isDistance_zero_iff.mpr rfl)
    omega

/-- The direct dependents that a query has found, if its bound lets it find any. -/
theorem WellFormed.mem_directDependents_iff_of_ne_zero (hne : limit ≠ some 0) (path : String) :
    path ∈ impact.directDependents ↔
      path ≠ target ∧ graph.Imports EdgeKind.isInternal path target := by
  obtain ⟨-, hiff⟩ := hw.get?_eq_some_iff_of_traverse himpact
  have hpos : ∀ bound ∈ limit, 1 ≤ bound := by
    rintro bound hbound
    apply Nat.pos_of_ne_zero
    rintro rfl
    exact hne hbound
  exact hw.mem_directDependents_iff (fun path => (hiff path 1).trans (and_iff_right hpos)) path

end Query

/-- An index is made of a well-formed graph only. -/
theorem wellFormed_of_create {index : ReverseIndex} (h : ReverseIndex.create graph = .ok index) :
    graph.WellFormed ∧ ReverseIndex.ofGraph graph = index := by
  rw [create_eq] at h
  cases hcheck : graph.check with
  | error defect =>
    rw [hcheck] at h
    cases h
  | ok _ =>
    rw [hcheck] at h
    exact ⟨(check_eq_ok_iff graph).mp hcheck, Except.ok.inj h⟩

/-- A query with a bound or without is one traversal. -/
theorem elim_impact_eq (index : ReverseIndex) (target : String) (bound : Option Nat) :
    bound.elim (index.impactOf target) (index.impactWithin target) =
      index.traverse target bound := by
  cases bound <;> rfl

/-- **The layers of an impact, and how they are shown**, for an impact that has been asked for with
a bound or without. The layers are numbered without gaps; every dependent is in one of them; and the
first one holds the other files that import the changed file, unless the bound is zero. The brief
form lists the dependents by distance and then by path, each once, and so does the table: both are
read back alike. -/
theorem impact_layered {index : ReverseIndex} {bound : Option Nat}
    (hindex : ReverseIndex.create graph = .ok index)
    (himpact : bound.elim (index.impactOf target) (index.impactWithin target) = .ok impact) :
    impact.Layered ∧
    impact.directDependents.Nodup ∧
    (bound ≠ some 0 → ∀ path, path ∈ impact.directDependents ↔
      path ≠ target ∧ graph.Imports EdgeKind.isInternal path target) ∧
    ∃ (listed : List (String × Nat)) (listing table : String),
      listed.Perm impact.dependents.entries ∧
      listed.Pairwise (fun a b =>
        a.2 < b.2 ∨ a.2 = b.2 ∧ Text.bytes a.1 < Text.bytes b.1) ∧
      (∀ renderer : Renderer,
        { renderer with format := .text, quiet := true }.impact impact = .ok listing) ∧
      (∀ renderer : Renderer, { renderer with format := .csv }.impact impact = .ok table) ∧
      listing = Listing.text listed ∧
      ((∀ entry ∈ listed, '\n' ∉ entry.1.toList) → Listing.read listing = some listed) ∧
      Csv.read table =
        some (["path", "hops"] :: listed.map fun entry => [entry.1, toString entry.2]) := by
  obtain ⟨hw, rfl⟩ := wellFormed_of_create hindex
  rw [elim_impact_eq] at himpact
  obtain ⟨table, htable, hread⟩ :=
    Csv.exists_table_eq_ok (by decide) fun _ => Csv.length_of_mem_impactTable impact
  refine ⟨(hw.gapless himpact).layered, impact.nodup_atDistance 1, ?_, impact.nearestFirst,
    Listing.text impact.nearestFirst, table, impact.nearestFirst_perm, ?_,
    fun _ => congrArg Except.ok (Listing.impactBrief_eq impact), fun _ => htable, rfl,
    Listing.read_text, hread⟩
  · intro hbound
    exact hw.mem_directDependents_iff_of_ne_zero himpact hbound
  · simp only [Text.bytes_lt_bytes_iff]
    exact impact.pairwise_nearestFirst

/-- A file that leads to the target by a short way and a long one is in the first layer, and a file
that only leads to the target through it is not. -/
theorem impact_layered_shortcut :
    let graph : Graph := ⟨["a.py", "b.py", "c.py", "d.py"],
      [⟨"a.py", "b.py", .direct⟩, ⟨"b.py", "c.py", .dynamic⟩, ⟨"a.py", "c.py", .direct⟩,
        ⟨"d.py", "a.py", .direct⟩, ⟨"c.py", "d.py", .direct⟩]⟩
    ∃ index impact, ReverseIndex.create graph = .ok index ∧
      (none : Option Nat).elim (index.impactOf "c.py") (index.impactWithin "c.py") = .ok impact ∧
      impact.Layered ∧ "a.py" ∈ impact.directDependents ∧ "d.py" ∉ impact.directDependents := by
  intro graph
  have hw : graph.WellFormed := (check_eq_ok_iff graph).mp (by cbv)
  have hmem : "c.py" ∈ graph.nodes := by decide
  obtain ⟨impact, himpact, -, -⟩ := hw.impactOf_of_mem hmem
  -- Without a bound the query is the plain one.
  rw [← Option.elim_none ((ReverseIndex.ofGraph graph).impactOf "c.py")
    ((ReverseIndex.ofGraph graph).impactWithin "c.py")] at himpact
  obtain ⟨hlayered, -, hdirect, -⟩ := impact_layered hw.create_eq_ok himpact
  have hdirect := hdirect (Option.some_ne_none 0).symm
  have hnear : "a.py" ∈ impact.directDependents := (hdirect "a.py").mpr (by decide)
  have hfar : "d.py" ∉ impact.directDependents := by
    rw [hdirect "d.py"]
    decide
  exact ⟨_, impact, hw.create_eq_ok, himpact, hlayered, hnear, hfar⟩

end ImportAtlas.Graph
