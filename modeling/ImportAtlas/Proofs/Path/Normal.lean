import ImportAtlas.Path.Normal
import ImportAtlas.Proofs.Text.Split
import Mathlib.Data.List.Induction

/-!
# Normal forms move alike

Walking the segments of a normal form leads, from any trail, where walking the segments of the path
itself leads. So a path may be replaced by its normal form wherever it is taken from a directory, and
the normal form of a normal form is itself.

## Main definitions

* `Path.IsStep`: the segments that a walk keeps

## Main results

* `foldl_walk_collapse`: collapsing segments does not change where they lead
* `foldl_walk_normalChars`: a path and its normal form lead to the same trail
* `normalize_normalize`, `under_normalize`, `normalize_under`: normal forms of normal forms
-/

namespace ImportAtlas.Path

open Text

/-! ## Walking -/

/-- The segments that a walk keeps: those that are not empty and do not stay in the directory. -/
def IsStep (segment : List Char) : Prop :=
  segment ≠ [] ∧ segment ≠ here

variable {trail rest : List (List Char)} {segment last : List Char}

theorem walk_of_not_isStep (h : ¬IsStep segment) : walk trail segment = trail := by
  have hstay : segment = [] ∨ segment = here := by
    by_contra hn
    exact h (not_or.mp hn)
  unfold walk
  rw [if_pos hstay]

theorem walk_of_ne_up (h : IsStep segment) (hu : segment ≠ up) :
    walk trail segment = segment :: trail := by
  unfold walk
  rw [if_neg (not_or.mpr h), if_neg hu]

theorem isStep_up : IsStep up := by
  constructor <;> decide

theorem walk_nil_up : walk [] up = [up] := rfl

theorem walk_up_up : walk (up :: rest) up = up :: up :: rest := rfl

/-- Going up takes back the latest name. -/
theorem walk_cons_up (hl : last ≠ up) : walk (last :: rest) up = rest := by
  unfold walk
  rw [if_neg (not_or.mpr isStep_up), if_pos rfl]
  exact if_neg hl

theorem mem_walk (hm : last ∈ walk trail segment) : last ∈ trail ∨ last = segment ∧ IsStep last := by
  by_cases hs : IsStep segment
  · by_cases hu : segment = up
    · subst hu
      cases trail with
      | nil =>
        rw [walk_nil_up, List.mem_singleton] at hm
        exact .inr ⟨hm, hm ▸ hs⟩
      | cons first rest =>
        by_cases hf : first = up
        · subst hf
          rw [walk_up_up, List.mem_cons] at hm
          exact hm.symm.imp_right fun he => ⟨he, he ▸ hs⟩
        · rw [walk_cons_up hf] at hm
          exact .inl (List.mem_cons_of_mem _ hm)
    · rw [walk_of_ne_up hs hu, List.mem_cons] at hm
      exact hm.symm.imp_right fun he => ⟨he, he ▸ hs⟩
  · rw [walk_of_not_isStep hs] at hm
    exact .inl hm

/-- A trail holds segments of the path that a walk keeps. -/
theorem mem_foldl_walk {segments : List (List Char)} (hm : last ∈ segments.foldl walk trail) :
    last ∈ trail ∨ last ∈ segments ∧ IsStep last := by
  induction segments generalizing trail with
  | nil => exact .inl hm
  | cons segment segments ih =>
    rcases ih hm with hw | ⟨hs, hstep⟩
    · rcases mem_walk hw with ht | ⟨rfl, hstep⟩
      · exact .inl ht
      · exact .inr ⟨List.mem_cons_self, hstep⟩
    · exact .inr ⟨List.mem_cons_of_mem _ hs, hstep⟩

theorem mem_collapse {segments : List (List Char)} (hm : last ∈ collapse segments) :
    last ∈ segments ∧ IsStep last :=
  (mem_foldl_walk (List.mem_reverse.mp hm)).resolve_left List.not_mem_nil

/-- **Collapsing segments does not change where they lead.** -/
theorem foldl_walk_collapse (segments trail : List (List Char)) :
    (collapse segments).foldl walk trail = segments.foldl walk trail := by
  unfold collapse
  -- The induction follows the walk, so the last segment is the one taken off.
  induction segments using List.reverseRecOn with
  | nil => rfl
  | append_singleton segments segment ih =>
    rw [List.foldl_append, List.foldl_append, ← ih]
    change (walk (segments.foldl walk []) segment).reverse.foldl walk trail =
      walk ((segments.foldl walk []).reverse.foldl walk trail) segment
    have hkept : ∀ kept ∈ segments.foldl walk [], IsStep kept :=
      fun kept hk => ((mem_foldl_walk hk).resolve_left List.not_mem_nil).2
    generalize segments.foldl walk [] = walked at hkept ⊢
    by_cases hs : IsStep segment
    · by_cases hu : segment = up
      · subst hu
        cases walked with
        | nil => rfl
        | cons first walked =>
          by_cases hf : first = up
          · subst hf
            have hreverse : (up :: up :: walked).reverse = (up :: walked).reverse ++ [up] :=
              List.reverse_cons
            rw [walk_up_up, hreverse, List.foldl_append]
            rfl
          · -- The step up takes back the name on both sides.
            rw [walk_cons_up hf, List.reverse_cons, List.foldl_append, List.foldl_cons,
              List.foldl_nil, walk_of_ne_up (hkept first List.mem_cons_self) hf, walk_cons_up hf]
      · rw [walk_of_ne_up hs hu, List.reverse_cons, List.foldl_append]
        rfl
    · rw [walk_of_not_isStep hs, walk_of_not_isStep hs]

/-! ## Normal forms -/

theorem isSeparator_slash : isSeparator '/' = true := rfl

/-- **A path and its normal form lead to the same trail.** -/
theorem foldl_walk_normalChars (path : List Char) (trail : List (List Char)) :
    (segments (normalChars path)).foldl walk trail = (segments path).foldl walk trail := by
  rw [← foldl_walk_collapse (segments path)]
  unfold normalChars
  by_cases hnil : collapse (segments path) = []
  · rw [hnil]
    rfl
  · unfold segments at hnil ⊢
    rw [split_join isSeparator_slash hnil]
    exact fun piece hp d hd => sep_eq_false_of_mem_split (mem_collapse hp).1 hd

theorem normalChars_normalChars (path : List Char) :
    normalChars (normalChars path) = normalChars path := by
  have h := foldl_walk_normalChars path []
  unfold normalChars collapse at h ⊢
  rw [h]

/-- **The normal form of a normal form is itself.** -/
theorem normalize_normalize (path : String) : normalize (normalize path) = normalize path := by
  unfold normalize
  rw [String.toList_ofList, normalChars_normalChars]

theorem normalChars_append_slash (dir rest : List Char) :
    normalChars (dir ++ '/' :: rest) =
      join ['/'] ((segments rest).foldl walk ((segments dir).foldl walk [])).reverse := by
  unfold normalChars collapse segments
  rw [split_append_cons isSeparator_slash, List.foldl_append]

/-- A path from a directory is the same as its normal form from there. -/
theorem under_normalize (dir rest : String) : under dir (normalize rest) = under dir rest := by
  unfold under
  split
  · exact normalize_normalize rest
  · have hjoin : ∀ text : String, (dir ++ "/" ++ text).toList = dir.toList ++ '/' :: text.toList := by
      intro text
      rw [String.toList_append, String.toList_append, List.append_assoc]
      rfl
    have hrest : (normalize rest).toList = normalChars rest.toList := String.toList_ofList
    unfold normalize at hrest ⊢
    rw [hjoin, hjoin, hrest, normalChars_append_slash, normalChars_append_slash,
      foldl_walk_normalChars]

theorem normalize_under (dir rest : String) : normalize (under dir rest) = under dir rest := by
  unfold under
  split <;> exact normalize_normalize _

theorem under_empty (rest : String) : under "" rest = normalize rest := rfl

end ImportAtlas.Path
