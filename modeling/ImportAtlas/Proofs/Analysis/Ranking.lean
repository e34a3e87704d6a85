import ImportAtlas.Analysis.Report
import ImportAtlas.Proofs.Graph.Fans
import ImportAtlas.Proofs.Impact.Layers

/-!
# Rankings

A report ranks the files by the number of their dependents, and files with as many of them by the bytes
of their paths. Of two entries with different paths one always comes before the other, so there is only
one way to rank files of different paths: in which order their impacts were worked out cannot be told
from the ranking.

## Main definitions

* `Impact.SummedUpBy`: what an entry says of an impact
* `BlastRadius.RanksNoLower`: the order of a ranking

## Main results

* `Impact.summedUpBy_blastRadius`: the size of an impact sums it up
* `Report.rank_perm`, `Report.pairwise_rank`: a ranking has all entries, in order
* `Report.eq_rank`: entries of different paths are in the order of a ranking in one way only
* `Report.withBlastRadius_ranks`: the ranking of a report
-/

namespace ImportAtlas

/-! ## Entries -/

/-- Whether an entry sums up an impact. -/
structure Impact.SummedUpBy (impact : Impact) (entry : BlastRadius) : Prop where
  path_eq : entry.path = impact.target
  dependents_eq :
    entry.dependents = {path | ∃ hops, impact.dependents.get? path = some hops}.ncard
  directDependents_eq :
    entry.directDependents = {path | impact.dependents.get? path = some 1}.ncard
  /-- The distance is that of a farthest dependent, zero if there is none. -/
  maxDistance_isGreatest :
    IsGreatest (insert 0 {hops | ∃ path, impact.dependents.get? path = some hops})
      entry.maxDistance

/-- **The size of an impact sums it up.** -/
theorem Impact.summedUpBy_blastRadius (impact : Impact) : impact.SummedUpBy impact.blastRadius where
  path_eq := rfl
  dependents_eq := by
    have hlength : impact.dependents.keys.length = impact.size := List.length_map _
    show impact.size = _
    rw [← hlength, ← ncard_setOf_mem_of_nodup impact.dependents.nodup_keys]
    simp only [Dictionary.mem_keys_iff]
  directDependents_eq := by
    show (impact.atDistance 1).length = _
    rw [← ncard_setOf_mem_of_nodup (impact.nodup_atDistance 1)]
    simp only [mem_atDistance_iff, Dictionary.get?_eq_some_iff]
  maxDistance_isGreatest := by
    have hdistances : ∀ hops, hops ∈ impact.distances ↔
        ∃ path, impact.dependents.get? path = some hops := by
      intro hops
      simp [mem_distances_iff, Dictionary.get?_eq_some_iff]
    simp only [← hdistances]
    show IsGreatest _ impact.maxDistance
    constructor
    · rcases Nat.eq_zero_or_pos impact.maxDistance with hzero | hpos
      · exact .inl hzero
      · exact .inr (maxDistance_mem hpos)
    · rintro hops (rfl | hmem)
      · exact Nat.zero_le _
      · exact le_maxDistance hmem

namespace BlastRadius

/-- Whether an entry ranks no lower than another one: its file has more dependents, or as many and a
path whose bytes come no later. -/
def RanksNoLower (a b : BlastRadius) : Prop :=
  b.dependents < a.dependents ∨
    a.dependents = b.dependents ∧ Text.bytes a.path ≤ Text.bytes b.path

variable {a b c : BlastRadius}

theorem ranksNoLower_iff :
    a.RanksNoLower b ↔
      b.dependents < a.dependents ∨ a.dependents = b.dependents ∧ a.path ≤ b.path := by
  -- Both orders are total, so it is enough to know which texts come before others.
  have hle : Text.bytes a.path ≤ Text.bytes b.path ↔ a.path ≤ b.path := by
    rw [← List.not_lt, ← String.not_lt, Text.bytes_lt_bytes_iff]
  rw [RanksNoLower, hle]

theorem ranksBefore_iff : Report.ranksBefore a b = true ↔ a.RanksNoLower b := by
  simp [Report.ranksBefore, ranksNoLower_iff]

theorem RanksNoLower.trans (hab : a.RanksNoLower b) (hbc : b.RanksNoLower c) :
    a.RanksNoLower c := by
  rw [ranksNoLower_iff] at *
  rcases hab with hab | ⟨hab, hpath⟩
  · left
    omega
  · rcases hbc with hbc | ⟨hbc, hpath'⟩
    · left
      omega
    · exact .inr ⟨hab.trans hbc, String.le_trans hpath hpath'⟩

theorem ranksNoLower_total (a b : BlastRadius) : a.RanksNoLower b ∨ b.RanksNoLower a := by
  rw [ranksNoLower_iff, ranksNoLower_iff]
  rcases Nat.lt_trichotomy a.dependents b.dependents with hlt | heq | hgt
  · exact .inr (.inl hlt)
  · rcases String.le_total a.path b.path with hle | hle
    · exact .inl (.inr ⟨heq, hle⟩)
    · exact .inr (.inr ⟨heq.symm, hle⟩)
  · exact .inl (.inl hgt)

/-- Entries that rank no lower than each other are of the same path. -/
theorem RanksNoLower.path_eq (hab : a.RanksNoLower b) (hba : b.RanksNoLower a) :
    a.path = b.path := by
  rw [ranksNoLower_iff] at *
  rcases hab with hab | ⟨hab, hle⟩
  · rcases hba with hba | ⟨hba, -⟩ <;> omega
  · rcases hba with hba | ⟨-, hle'⟩
    · omega
    · exact String.le_antisymm hle hle'

end BlastRadius

/-! ## Rankings -/

namespace Report

open BlastRadius (RanksNoLower ranksBefore_iff ranksNoLower_total)

theorem rank_perm (impacts : List Impact) :
    (rank impacts).Perm (impacts.map Impact.blastRadius) :=
  List.mergeSort_perm _ _

/-- **A ranking is in order.** -/
theorem pairwise_rank (impacts : List Impact) : (rank impacts).Pairwise RanksNoLower := by
  have hsorted : (rank impacts).Pairwise fun a b => ranksBefore a b = true := by
    apply List.pairwise_mergeSort
    · intro a b c hab hbc
      rw [ranksBefore_iff] at *
      exact hab.trans hbc
    · intro a b
      rw [Bool.or_eq_true, ranksBefore_iff, ranksBefore_iff]
      exact ranksNoLower_total a b
  exact hsorted.imp ranksBefore_iff.mp

/-- **Entries of different paths are in the order of a ranking in one way only.** -/
theorem eq_rank {impacts : List Impact} (hdistinct : (impacts.map (·.target)).Nodup)
    {entries : List BlastRadius} (hperm : entries.Perm (impacts.map Impact.blastRadius))
    (hsorted : entries.Pairwise RanksNoLower) : entries = rank impacts := by
  have hpaths : (entries.map (·.path)).Nodup := by
    rw [(hperm.map _).nodup_iff, List.map_map]
    exact hdistinct
  apply (hperm.trans (rank_perm impacts).symm).eq_of_pairwise _ hsorted (pairwise_rank impacts)
  intro a b ha hb hab hba
  have hb : b ∈ entries := hperm.mem_iff.mpr ((rank_perm impacts).mem_iff.mp hb)
  exact List.inj_on_of_nodup_map hpaths ha hb (hab.path_eq hba)

/-- **The ranking of a report** is all that a report gets from impacts. It has one entry for each impact,
which sums it up, and the entries are in order. Impacts of different targets are ranked alike in
whatever order they come. -/
theorem withBlastRadius_ranks (report : Report) (impacts : List Impact) :
    ∃ entries ranking, report.withBlastRadius impacts = { report with blastRadius := some ranking } ∧
      List.Forall₂ Impact.SummedUpBy impacts entries ∧ ranking.Perm entries ∧
      ranking.Pairwise RanksNoLower ∧
      ((impacts.map (·.target)).Nodup → ∀ (other : Report) (others : List Impact),
        others.Perm impacts → (other.withBlastRadius others).blastRadius = some ranking) := by
  have hentries : List.Forall₂ Impact.SummedUpBy impacts (impacts.map Impact.blastRadius) := by
    rw [List.forall₂_map_right_iff, List.forall₂_same]
    exact fun impact _ => impact.summedUpBy_blastRadius
  refine ⟨_, rank impacts, rfl, hentries, rank_perm impacts, pairwise_rank impacts, ?_⟩
  intro hdistinct other others hperm
  have hothers : rank others = rank impacts := by
    apply eq_rank hdistinct
    · exact (rank_perm others).trans (hperm.map _)
    · exact pairwise_rank others
  exact congrArg some hothers

/-- Two files with as many dependents, before and behind one with more. -/
theorem withBlastRadius_ranks_tied :
    let report := Report.create "demo" "/" ⟨⟨2024, 1, 1⟩, 0, 0, 0⟩ .empty []
    let least : Impact := ⟨"a.py", .ofEntries [("c.py", 1)]⟩
    let most : Impact := ⟨"b.py", .ofEntries [("a.py", 1), ("c.py", 2)]⟩
    let last : Impact := ⟨"c.py", .ofEntries [("b.py", 3)]⟩
    ([last, least, most].map (·.target)).Nodup ∧ [most, last, least].Perm [last, least, most] ∧
    ∃ ranking, (report.withBlastRadius [last, least, most]).blastRadius = some ranking ∧
      (report.withBlastRadius [most, last, least]).blastRadius = some ranking ∧
      ranking = [⟨"b.py", 2, 1, 2⟩, ⟨"a.py", 1, 1, 1⟩, ⟨"c.py", 1, 0, 3⟩] := by
  intro report least most last
  have hdistinct : ([last, least, most].map (·.target)).Nodup := by decide
  have hperm : [most, last, least].Perm [last, least, most] := by decide
  obtain ⟨-, ranking, hranking, -, -, -, hothers⟩ :=
    withBlastRadius_ranks report [last, least, most]
  have hvalue : [⟨"b.py", 2, 1, 2⟩, ⟨"a.py", 1, 1, 1⟩, ⟨"c.py", 1, 0, 3⟩] =
      rank [last, least, most] := by
    apply eq_rank hdistinct
    · decide
    · simp [BlastRadius.ranksNoLower_iff]
  have hown := congrArg blastRadius hranking
  exact ⟨hdistinct, hperm, ranking, hown, hothers hdistinct report _ hperm,
    (Option.some.inj hown).symm.trans hvalue.symm⟩

end Report

end ImportAtlas
