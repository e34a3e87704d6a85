import ImportAtlas.Impact
import ImportAtlas.Proofs.Dictionary
import ImportAtlas.Proofs.Unseen
import Mathlib.Data.List.Nodup

/-!
# Listing impacts

The dependents of a file are listed by their distance, and those of one distance by their path. The
distances are taken from the dependents themselves, each once and in increasing order, so no dependent
is left out or listed twice.

## Main definitions

* `Impact.ComesBefore`: the order of the listing

## Main results

* `mem_atDistance_iff`, `nodup_atDistance`: the dependents of one distance
* `nearestFirst_eq`: the listing in terms of the entries
* `pairwise_nearestFirst`, `nearestFirst_perm`: the listing has all dependents, in order
-/

namespace ImportAtlas.Impact

/-- Whether an entry comes before another one: it is nearer, or as near with a smaller path. -/
def ComesBefore (a b : String × Nat) : Prop :=
  a.2 < b.2 ∨ a.2 = b.2 ∧ a.1 < b.1

theorem ComesBefore.ne {a b : String × Nat} (h : ComesBefore a b) : a ≠ b := by
  rintro rfl
  rcases h with h | ⟨-, h⟩
  · exact Nat.lt_irrefl _ h
  · exact String.lt_irrefl _ h

variable (impact : Impact)

theorem mem_atDistance_iff (distance : Nat) (path : String) :
    path ∈ impact.atDistance distance ↔ (path, distance) ∈ impact.dependents.entries := by
  unfold atDistance
  rw [List.mem_map]
  constructor
  · rintro ⟨entry, he, rfl⟩
    obtain ⟨hm, hdistance⟩ := List.mem_filter.mp he
    rwa [← beq_iff_eq.mp hdistance]
  · intro hm
    exact ⟨_, List.mem_filter.mpr ⟨hm, BEq.rfl⟩, rfl⟩

theorem nodup_atDistance (distance : Nat) : (impact.atDistance distance).Nodup :=
  impact.dependents.nodup_keys.sublist (List.filter_sublist.map _)

theorem mem_distances_iff (distance : Nat) :
    distance ∈ impact.distances ↔ ∃ entry ∈ impact.dependents.entries, entry.2 = distance := by
  simp [distances, List.mem_eraseDups, Dictionary.values]

theorem pairwise_distances : impact.distances.Pairwise (· < ·) := by
  have hsorted : (impact.dependents.values.mergeSort (· ≤ ·)).Pairwise (· ≤ ·) := by
    have htrans : ∀ a b c : Nat, decide (a ≤ b) = true → decide (b ≤ c) = true →
        decide (a ≤ c) = true := by
      simp only [decide_eq_true_eq]
      exact fun a b c => Nat.le_trans
    have htotal : ∀ a b : Nat, (decide (a ≤ b) || decide (b ≤ a)) = true := by
      simp only [Bool.or_eq_true, decide_eq_true_eq]
      exact Nat.le_total
    have hpairwise := List.pairwise_mergeSort htrans htotal impact.dependents.values
    exact hpairwise.imp fun hle => of_decide_eq_true hle
  have hle : impact.distances.Pairwise (· ≤ ·) := hsorted.sublist (eraseDups_sublist _)
  have hne : impact.distances.Pairwise (· ≠ ·) := nodup_eraseDups _
  exact hle.imp₂ (fun _ _ hle hne => Nat.lt_of_le_of_ne hle hne) hne

/-- The listing goes through the entries once for each distance. -/
theorem nearestFirst_eq :
    impact.nearestFirst = impact.distances.flatMap fun distance =>
      impact.dependents.entries.filter (·.2 == distance) := by
  unfold nearestFirst byDistance atDistance
  rw [List.flatMap_map]
  refine List.flatMap_congr ?_
  intro distance _
  rw [List.map_map]
  refine (List.map_congr_left ?_).trans (List.map_id _)
  intro entry he
  have hdistance := (List.mem_filter.mp he).2
  exact Prod.ext rfl (beq_iff_eq.mp hdistance).symm

/-- **The dependents are listed by distance and then by path.** -/
theorem pairwise_nearestFirst : impact.nearestFirst.Pairwise ComesBefore := by
  rw [nearestFirst_eq, List.pairwise_flatMap]
  constructor
  · intro distance _
    -- Entries of one distance stay in the order of their paths.
    refine (impact.dependents.sorted.filter _).imp_of_mem ?_
    intro a b ha hb hlt
    have ha := beq_iff_eq.mp (List.mem_filter.mp ha).2
    have hb := beq_iff_eq.mp (List.mem_filter.mp hb).2
    exact .inr ⟨ha.trans hb.symm, hlt⟩
  · refine impact.pairwise_distances.imp ?_
    intro near far hlt a ha b hb
    have ha := beq_iff_eq.mp (List.mem_filter.mp ha).2
    have hb := beq_iff_eq.mp (List.mem_filter.mp hb).2
    exact .inl (by rwa [ha, hb])

theorem mem_nearestFirst_iff (entry : String × Nat) :
    entry ∈ impact.nearestFirst ↔ entry ∈ impact.dependents.entries := by
  rw [nearestFirst_eq, List.mem_flatMap]
  constructor
  · rintro ⟨distance, -, he⟩
    exact List.mem_of_mem_filter he
  · intro he
    exact ⟨entry.2, (impact.mem_distances_iff _).mpr ⟨entry, he, rfl⟩,
      List.mem_filter.mpr ⟨he, BEq.rfl⟩⟩

/-- **All dependents are listed**, each once. -/
theorem nearestFirst_perm : impact.nearestFirst.Perm impact.dependents.entries := by
  have hlisted : impact.nearestFirst.Nodup := impact.pairwise_nearestFirst.imp ComesBefore.ne
  have hentries : impact.dependents.entries.Nodup := impact.dependents.nodup_keys.of_map
  exact (List.perm_ext_iff_of_nodup hlisted hentries).mpr impact.mem_nearestFirst_iff

end ImportAtlas.Impact
