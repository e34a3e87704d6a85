import Mathlib.Data.Fintype.Card
import Mathlib.Logic.Relation
import Mathlib.Order.Bounds.Basic

/-!
# Walks and distances

The distance between two points is the length of a shortest walk along a relation. The points at
distance `k + 1` are the successors of those at distance `k` that are not nearer themselves, so all
smaller distances occur before a distance does, and the number of points bounds them.

## Main definitions

* `Walk`: walks along a relation, by their length
* `IsDistance`: the length of a shortest walk between two points

## Main results

* `reflTransGen_iff_exists_walk`: what is reached is what some walk leads to
* `isDistance_succ_iff`: the points at the next distance
* `IsDistance.lt_card`: a distance is less than the number of points
-/

namespace ImportAtlas

variable {α β : Type} {step : α → α → Prop} {step' : β → β → Prop} {a b c : α} {k : Nat}

/-- Walks along a relation, by their length. -/
inductive Walk (step : α → α → Prop) (start : α) : Nat → α → Prop
  | nil : Walk step start 0 start
  | snoc {length : Nat} {middle stop : α} :
      Walk step start length middle → step middle stop → Walk step start (length + 1) stop

namespace Walk

theorem cons (harrow : step a b) (h : Walk step b k c) : Walk step a (k + 1) c := by
  induction h with
  | nil => exact .snoc .nil harrow
  | snoc _ hlast ih => exact .snoc ih hlast

theorem reverse (h : Walk step a k b) : Walk (flip step) b k a := by
  induction h with
  | nil => exact .nil
  | snoc _ hlast ih => exact cons hlast ih

theorem map (f : α → β) (hf : ∀ a b, step a b → step' (f a) (f b)) (h : Walk step a k b) :
    Walk step' (f a) k (f b) := by
  induction h with
  | nil => exact .nil
  | snoc _ hlast ih => exact .snoc ih (hf _ _ hlast)

end Walk

theorem walk_zero_iff : Walk step a 0 b ↔ b = a := by
  constructor
  · intro h
    cases h
    rfl
  · rintro rfl
    exact .nil

theorem walk_succ_iff : Walk step a (k + 1) c ↔ ∃ b, Walk step a k b ∧ step b c := by
  constructor
  · intro h
    cases h with
    | snoc hwalk hlast => exact ⟨_, hwalk, hlast⟩
  · rintro ⟨b, hwalk, hlast⟩
    exact .snoc hwalk hlast

/-- What is reached is what some walk leads to. -/
theorem reflTransGen_iff_exists_walk :
    Relation.ReflTransGen step a b ↔ ∃ length, Walk step a length b := by
  constructor
  · intro h
    induction h with
    | refl => exact ⟨0, .nil⟩
    | tail _ hlast ih =>
      obtain ⟨length, hwalk⟩ := ih
      exact ⟨length + 1, hwalk.snoc hlast⟩
  · rintro ⟨length, hwalk⟩
    induction hwalk with
    | nil => exact .refl
    | snoc _ hlast ih => exact ih.tail hlast

/-- Whether a number is the length of a shortest walk between two points. -/
def IsDistance (step : α → α → Prop) (a b : α) (k : Nat) : Prop :=
  IsLeast {length | Walk step a length b} k

theorem Walk.exists_isDistance (h : Walk step a k b) : ∃ j ≤ k, IsDistance step a b j := by
  classical
  have hex : ∃ j, Walk step a j b := ⟨k, h⟩
  exact ⟨Nat.find hex, Nat.find_min' hex h, Nat.find_spec hex, fun j hj => Nat.find_min' hex hj⟩

theorem isDistance_zero_iff : IsDistance step a b 0 ↔ b = a := by
  constructor
  · intro h
    exact walk_zero_iff.mp h.1
  · intro h
    exact ⟨walk_zero_iff.mpr h, fun _ _ => Nat.zero_le _⟩

theorem IsDistance.eq {j : Nat} (h : IsDistance step a b k) (h' : IsDistance step a b j) : k = j :=
  IsLeast.unique h h'

/-- **The points at the next distance** are the successors of those at a distance that are at none
of the distances so far. -/
theorem isDistance_succ_iff :
    IsDistance step a c (k + 1) ↔
      (∃ b, IsDistance step a b k ∧ step b c) ∧ ∀ j ≤ k, ¬IsDistance step a c j := by
  constructor
  · intro h
    refine ⟨?_, fun j hj hd => ?_⟩
    · obtain ⟨b, hwalk, hlast⟩ := walk_succ_iff.mp h.1
      -- A shorter walk to the point before the last would make the whole walk shorter.
      obtain ⟨j, hj, hd⟩ := hwalk.exists_isDistance
      have hle : k + 1 ≤ j + 1 := h.2 (.snoc hd.1 hlast)
      obtain rfl : j = k := by omega
      exact ⟨b, hd, hlast⟩
    · have heq := h.eq hd
      omega
  · rintro ⟨⟨b, hd, hlast⟩, hfar⟩
    refine ⟨.snoc hd.1 hlast, fun l hl => ?_⟩
    obtain ⟨j, hj, hdj⟩ := Walk.exists_isDistance hl
    by_contra hlt
    exact hfar j (by omega) hdj

theorem isDistance_one_iff : IsDistance step a b 1 ↔ step a b ∧ a ≠ b := by
  rw [isDistance_succ_iff]
  simp only [isDistance_zero_iff, exists_eq_left, Nat.le_zero, forall_eq]
  exact and_congr_right fun _ => ne_comm

/-- All smaller distances occur as well. -/
theorem IsDistance.exists_of_le (h : IsDistance step a b k) {j : Nat} (hj : j ≤ k) :
    ∃ c, IsDistance step a c j := by
  induction k generalizing b with
  | zero =>
    obtain rfl : j = 0 := by omega
    exact ⟨b, h⟩
  | succ k ih =>
    rcases hj.lt_or_eq with hlt | rfl
    · obtain ⟨⟨c, hc, -⟩, -⟩ := isDistance_succ_iff.mp h
      exact ih hc (by omega)
    · exact ⟨b, h⟩

/-- **A distance is less than the number of points.** -/
theorem IsDistance.lt_card [Fintype α] (h : IsDistance step a b k) : k < Fintype.card α := by
  choose point hpoint using fun j : Fin (k + 1) => h.exists_of_le (Nat.le_of_lt_succ j.isLt)
  have hinj : Function.Injective point := by
    intro i j hij
    have hi := hpoint i
    rw [hij] at hi
    exact Fin.ext (hi.eq (hpoint j))
  have hcard := Fintype.card_le_of_injective point hinj
  rw [Fintype.card_fin] at hcard
  exact hcard

end ImportAtlas
