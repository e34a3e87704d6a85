import ImportAtlas.Proofs.Impact
import ImportAtlas.Proofs.Text.ByteOrder
import Mathlib.Data.List.Lemmas

/-!
# Layers of an impact

The dependents of a file fall into layers, one for each distance. Every dependent is in one layer
only, and the paths of a layer increase. If with every distance all smaller ones occur, then the
layers are numbered from one to the largest distance. That is no law of impacts, which may be made
of any distances; it is one of impacts that are found in a graph.

## Main definitions

* `Impact.Gapless`: whether with every distance all smaller ones occur
* `Impact.Layered`: what the layers of an impact are like

## Main results

* `le_maxDistance`, `maxDistance_mem`: the largest distance
* `Gapless.distances_eq`: the distances of an impact without gaps
* `Gapless.layered`: an impact without gaps is layered
-/

namespace ImportAtlas.Impact

variable (impact : Impact)

/-! ## The largest distance -/

theorem maxDistance_eq : impact.maxDistance = impact.dependents.values.max?.getD 0 := by
  unfold maxDistance
  rw [List.foldl_max]
  exact Nat.zero_max _

theorem mem_values_iff (distance : Nat) :
    distance ∈ impact.dependents.values ↔ distance ∈ impact.distances := by
  rw [mem_distances_iff]
  exact List.mem_map

variable {impact} in
theorem le_maxDistance {distance : Nat} (h : distance ∈ impact.distances) :
    distance ≤ impact.maxDistance := by
  rw [← mem_values_iff] at h
  rw [maxDistance_eq]
  cases hmax : impact.dependents.values.max? with
  | none =>
    rw [List.max?_eq_none_iff.mp hmax] at h
    cases h
  | some most => exact (List.max?_eq_some_iff.mp hmax).2 distance h

variable {impact} in
theorem maxDistance_mem (h : 0 < impact.maxDistance) : impact.maxDistance ∈ impact.distances := by
  rw [← mem_values_iff]
  rw [maxDistance_eq] at h ⊢
  cases hmax : impact.dependents.values.max? with
  | none =>
    rw [hmax] at h
    exact absurd h (Nat.lt_irrefl 0)
  | some most => exact List.max?_mem hmax

/-! ## Distances without gaps -/

/-- Whether no dependent is at distance zero, and with every distance all smaller ones occur. -/
def Gapless : Prop :=
  ∀ far ∈ impact.distances, 0 < far ∧ ∀ near, 0 < near → near ≤ far → near ∈ impact.distances

variable {impact} in
/-- **The distances of an impact without gaps** are the numbers from one to the largest distance. -/
theorem Gapless.distances_eq (h : impact.Gapless) :
    impact.distances = List.range' 1 impact.maxDistance := by
  have hmem : ∀ distance, distance ∈ impact.distances ↔
      distance ∈ List.range' 1 impact.maxDistance := by
    intro distance
    rw [List.mem_range'_1]
    constructor
    · intro hd
      have hle := le_maxDistance hd
      exact ⟨(h distance hd).1, by omega⟩
    · rintro ⟨hpos, hlt⟩
      -- The largest distance occurs, and so do the smaller ones.
      have hmax : impact.maxDistance ∈ impact.distances := maxDistance_mem (by omega)
      exact (h _ hmax).2 distance hpos (by omega)
  -- Both lists increase, so they are equal once they have the same members.
  have hincreasing := impact.pairwise_distances
  have hrange : (List.range' 1 impact.maxDistance).Pairwise (· < ·) := List.pairwise_lt_range'
  have hperm : impact.distances.Perm (List.range' 1 impact.maxDistance) :=
    (List.perm_ext_iff_of_nodup (hincreasing.imp Nat.ne_of_lt) (hrange.imp Nat.ne_of_lt)).mpr hmem
  apply hperm.eq_of_pairwise _ hincreasing hrange
  intro a b _ _ hab hba
  exact absurd hab (Nat.lt_asymm hba)

/-! ## Layers -/

theorem mem_byDistance_iff (group : Nat × List String) :
    group ∈ impact.byDistance ↔
      group.1 ∈ impact.distances ∧ group.2 = impact.atDistance group.1 := by
  unfold byDistance
  rw [List.mem_map]
  constructor
  · rintro ⟨distance, hd, rfl⟩
    exact ⟨hd, rfl⟩
  · rintro ⟨hd, hgroup⟩
    exact ⟨group.1, hd, Prod.ext rfl hgroup.symm⟩

theorem pairwise_atDistance (distance : Nat) :
    (impact.atDistance distance).Pairwise fun a b => Text.bytes a < Text.bytes b := by
  simp only [Text.bytes_lt_bytes_iff]
  exact List.pairwise_map.mpr (impact.dependents.sorted.filter _)

variable {impact} in
/-- **Every dependent is in one layer only**, which is the one of its distance. -/
theorem existsUnique_mem_byDistance {path : String} (h : path ∈ impact.dependents.keys) :
    ∃! group, group ∈ impact.byDistance ∧ path ∈ group.2 := by
  obtain ⟨hops, hget⟩ := (impact.dependents.mem_keys_iff path).mp h
  have hentry := (impact.dependents.get?_eq_some_iff path hops).mp hget
  have hdistance : hops ∈ impact.distances :=
    (impact.mem_distances_iff hops).mpr ⟨(path, hops), hentry, rfl⟩
  refine ⟨(hops, impact.atDistance hops), ⟨?_, ?_⟩, ?_⟩
  · exact (impact.mem_byDistance_iff _).mpr ⟨hdistance, rfl⟩
  · exact (impact.mem_atDistance_iff hops path).mpr hentry
  · rintro ⟨distance, paths⟩ ⟨hgroup, hpath⟩
    obtain ⟨-, hpaths⟩ := (impact.mem_byDistance_iff _).mp hgroup
    simp only at hpaths hpath
    rw [hpaths, mem_atDistance_iff, ← Dictionary.get?_eq_some_iff, hget] at hpath
    rw [hpaths, Option.some.inj hpath]

/-- The layer of distance one, if there is one, holds the direct dependents; otherwise there are
none. -/
theorem lookup_byDistance_one : (impact.byDistance.lookup 1).getD [] = impact.directDependents := by
  unfold directDependents
  cases hlookup : impact.byDistance.lookup 1 with
  | none =>
    -- Whoever is at distance one would have a layer.
    symm
    apply List.eq_nil_iff_forall_not_mem.mpr
    intro path hpath
    have hentry := (impact.mem_atDistance_iff 1 path).mp hpath
    have hone : 1 ∈ impact.distances := (impact.mem_distances_iff 1).mpr ⟨_, hentry, rfl⟩
    have hgroup := (impact.mem_byDistance_iff (1, impact.atDistance 1)).mpr ⟨hone, rfl⟩
    have hne := List.lookup_eq_none_iff.mp hlookup _ hgroup
    simp at hne
  | some paths =>
    obtain ⟨before, after, heq, -⟩ := List.lookup_eq_some_iff.mp hlookup
    have hgroup : (1, paths) ∈ impact.byDistance := by simp [heq]
    exact ((impact.mem_byDistance_iff _).mp hgroup).2

/-- What the layers of an impact are like. -/
structure Layered : Prop where
  /-- The layers are numbered from one to the largest distance. -/
  distances_eq : impact.byDistance.map (·.1) = List.range' 1 impact.maxDistance
  /-- Every dependent is in one layer. -/
  existsUnique_group : ∀ path ∈ impact.dependents.keys,
    ∃! group, group ∈ impact.byDistance ∧ path ∈ group.2
  /-- All paths in a layer are dependents, at its distance. -/
  get?_eq : ∀ group ∈ impact.byDistance, ∀ path ∈ group.2,
    impact.dependents.get? path = some group.1
  /-- The paths of a layer increase, byte by byte. -/
  increasing : ∀ group ∈ impact.byDistance,
    group.2.Pairwise fun a b => Text.bytes a < Text.bytes b
  /-- The direct dependents are the layer of distance one. -/
  directDependents_eq : impact.directDependents = (impact.byDistance.lookup 1).getD []

variable {impact} in
/-- **An impact without gaps is layered.** -/
theorem Gapless.layered (h : impact.Gapless) : impact.Layered where
  distances_eq := by
    unfold byDistance
    rw [List.map_map, ← h.distances_eq]
    exact List.map_id _
  existsUnique_group := fun _ hp => existsUnique_mem_byDistance hp
  get?_eq := by
    intro group hgroup path hpath
    rw [((impact.mem_byDistance_iff group).mp hgroup).2, mem_atDistance_iff] at hpath
    exact (impact.dependents.get?_eq_some_iff path group.1).mpr hpath
  increasing := by
    intro group hgroup
    rw [((impact.mem_byDistance_iff group).mp hgroup).2]
    exact impact.pairwise_atDistance group.1
  directDependents_eq := impact.lookup_byDistance_one.symm

end ImportAtlas.Impact
