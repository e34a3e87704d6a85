import Mathlib.Data.List.Basic
import Std.Data.HashSet.Lemmas

/-!
# First occurrences

Symbol tables and graphs are both filled from a list with a set of the values seen so far: a value
is taken if it is not in the set, and then it counts as seen. What is taken are the first
occurrences of the values that were not seen at the start.

## Main definitions

* `unseen`: the first occurrences of the values that are not in a set

## Main results

* `unseen_cons_of_mem`, `unseen_cons_of_not_mem`: one step of going through a list
* `eraseDups_filter`: first occurrences can be taken before or after a filter
* `nodup_eraseDups`, `eraseDups_sublist`: first occurrences are distinct, and in the order of the
  list
* `eraseDups_eq_self`, `eraseDups_concat`: distinct values, and one more value at the end of a list
-/

namespace ImportAtlas

section

variable {α : Type} [BEq α] [LawfulBEq α]

/-- A filter keeps or drops all occurrences of a value alike, so it does not matter whether the
repetitions are dropped before it or after it. -/
theorem eraseDups_filter (p : α → Bool) :
    ∀ values : List α, (values.filter p).eraseDups = values.eraseDups.filter p
  | [] => rfl
  | value :: values => by
    -- What follows `value` is filtered before its repetitions are dropped, so the induction is on the
    -- length and not on the list.
    rw [List.eraseDups_cons, List.filter_cons, List.filter_cons,
      ← eraseDups_filter p (values.filter fun other => !other == value)]
    split
    · -- `value` stays, and the two filters commute.
      rw [List.eraseDups_cons, List.filter_filter, List.filter_filter]
      simp only [Bool.and_comm]
    · next hp =>
      -- The filter drops `value` itself, so its other occurrences are dropped already.
      rw [List.filter_filter]
      refine congrArg List.eraseDups (List.filter_congr ?_)
      intro other _
      by_cases he : other = value
      · subst he
        simp [hp]
      · simp [he]
termination_by values => values.length
decreasing_by exact Nat.lt_succ_of_le (List.length_filter_le _ _)

theorem nodup_eraseDups : ∀ values : List α, values.eraseDups.Nodup
  | [] => List.nodup_nil
  | value :: values => by
    rw [List.eraseDups_cons, List.nodup_cons]
    refine ⟨?_, nodup_eraseDups (values.filter fun other => !other == value)⟩
    simp [List.mem_eraseDups]
termination_by values => values.length
decreasing_by exact Nat.lt_succ_of_le (List.length_filter_le _ _)

omit [LawfulBEq α] in
theorem eraseDups_sublist : ∀ values : List α, values.eraseDups.Sublist values
  | [] => .slnil
  | value :: values => by
    rw [List.eraseDups_cons]
    refine .cons_cons value ?_
    exact (eraseDups_sublist (values.filter fun other => !other == value)).trans
      List.filter_sublist
termination_by values => values.length
decreasing_by exact Nat.lt_succ_of_le (List.length_filter_le _ _)

theorem eraseDups_eq_self {values : List α} (h : values.Nodup) : values.eraseDups = values := by
  induction values with
  | nil => rfl
  | cons value values ih =>
    obtain ⟨hnew, hnodup⟩ := List.nodup_cons.mp h
    have hfilter : values.filter (fun other => !other == value) = values := by
      rw [List.filter_eq_self]
      intro other hother
      have hne : other ≠ value := fun heq => hnew (heq ▸ hother)
      simpa using hne
    rw [List.eraseDups_cons, hfilter, ih hnodup]

theorem contains_eraseDups (values : List α) (value : α) :
    values.eraseDups.contains value = values.contains value := by
  rw [Bool.eq_iff_iff, List.contains_iff_mem, List.contains_iff_mem, List.mem_eraseDups]

/-- One more value is a first occurrence if it has not occurred before. -/
theorem eraseDups_concat (values : List α) (value : α) :
    (values ++ [value]).eraseDups =
      if values.contains value then values.eraseDups else values.eraseDups ++ [value] := by
  have hone : [value].eraseDups = [value] := by
    rw [List.eraseDups_cons]
    rfl
  rw [List.eraseDups_append]
  by_cases h : value ∈ values
  · simp [List.removeAll, h]
  · simp [List.removeAll, h, hone]

end

variable {α : Type} [BEq α] [Hashable α]

/-- The first occurrences of the values that are not in a set. -/
def unseen (seen : Std.HashSet α) (values : List α) : List α :=
  (values.filter fun value => !seen.contains value).eraseDups

variable {seen : Std.HashSet α} {value : α}

@[simp] theorem unseen_nil (seen : Std.HashSet α) : unseen seen [] = [] := rfl

@[simp] theorem unseen_empty (values : List α) : unseen ∅ values = values.eraseDups := by
  simp [unseen]

theorem unseen_cons_of_mem (h : value ∈ seen) (values : List α) :
    unseen seen (value :: values) = unseen seen values := by
  simp [unseen, h]

variable [LawfulBEq α]

theorem unseen_cons_of_not_mem [LawfulHashable α] (h : value ∉ seen) (values : List α) :
    unseen seen (value :: values) = value :: unseen (seen.insert value) values := by
  unfold unseen
  rw [List.filter_cons_of_pos (by simpa using h), List.eraseDups_cons, List.filter_filter]
  -- To drop the later occurrences of `value` is to count it as seen.
  refine congrArg (fun rest => value :: List.eraseDups rest) (List.filter_congr ?_)
  intro other _
  simp [Std.HashSet.contains_insert, Bool.beq_comm]

theorem mem_unseen_iff (values : List α) :
    value ∈ unseen seen values ↔ value ∈ values ∧ value ∉ seen := by
  simp [unseen, List.mem_eraseDups]

theorem nodup_unseen (seen : Std.HashSet α) (values : List α) : (unseen seen values).Nodup :=
  nodup_eraseDups _

end ImportAtlas
