import ImportAtlas.Text.Split
import Mathlib.Logic.Basic

/-!
# Splitting is the inverse of joining

A separator between two texts splits them apart, so pieces without separators are found again after
they have been joined.

## Main results

* `split_append_cons`: a separator between two texts
* `join_cons`, `join_concat`, `mem_of_mem_join`: joining one more piece at either end
* `replaceChar_eq_self`, `replaceChar_join`, `split_replaceChar`: what replacing a character does not
  change, joining with another separator, and splitting at it
* `split_join`, `join_split`: splitting what has been joined, and joining what has been split
* `sep_eq_false_of_mem_split`: no piece contains a separator
-/

namespace ImportAtlas.Text

variable {sep : Char → Bool}

theorem split_cons_of_sep {c : Char} (hc : sep c = true) (cs : List Char) :
    split sep (c :: cs) = [] :: split sep cs := by
  rw [split, if_pos hc]

/-- A character that does not separate belongs to the first piece. -/
theorem split_cons_of_not_sep {c : Char} (hc : sep c = false) {cs : List Char} {piece : List Char}
    {pieces : List (List Char)} (h : split sep cs = piece :: pieces) :
    split sep (c :: cs) = (c :: piece) :: pieces := by
  rw [split, if_neg (by simp [hc]), h]

theorem exists_split_eq_cons (sep : Char → Bool) (cs : List Char) :
    ∃ piece pieces, split sep cs = piece :: pieces :=
  List.exists_cons_of_ne_nil (split_ne_nil sep cs)

/-- A separator between two texts splits them apart. -/
theorem split_append_cons {c : Char} (hc : sep c = true) (before after : List Char) :
    split sep (before ++ c :: after) = split sep before ++ split sep after := by
  induction before with
  | nil => exact split_cons_of_sep hc after
  | cons b before ih =>
    rw [List.cons_append]
    cases hb : sep b with
    | true => rw [split_cons_of_sep hb, split_cons_of_sep hb, ih, List.cons_append]
    | false =>
      obtain ⟨piece, pieces, hp⟩ := exists_split_eq_cons sep before
      rw [hp, List.cons_append] at ih
      rw [split_cons_of_not_sep hb ih, split_cons_of_not_sep hb hp, List.cons_append]

theorem split_eq_singleton {cs : List Char} (h : ∀ c ∈ cs, sep c = false) : split sep cs = [cs] := by
  induction cs with
  | nil => rfl
  | cons c cs ih =>
    obtain ⟨hc, hcs⟩ := List.forall_mem_cons.mp h
    exact split_cons_of_not_sep hc (ih hcs)

theorem join_cons {between : List Char} {pieces : List (List Char)} (hne : pieces ≠ [])
    (piece : List Char) :
    join between (piece :: pieces) = piece ++ between ++ join between pieces := by
  cases pieces with
  | nil => exact absurd rfl hne
  | cons second pieces => rfl

theorem join_concat {between : List Char} {pieces : List (List Char)} (hne : pieces ≠ [])
    (last : List Char) : join between (pieces ++ [last]) = join between pieces ++ between ++ last := by
  induction pieces with
  | nil => exact absurd rfl hne
  | cons piece pieces ih =>
    by_cases hpieces : pieces = []
    · subst hpieces
      rfl
    · rw [List.cons_append, join_cons (List.concat_ne_nil last pieces), ih hpieces,
        join_cons hpieces]
      simp only [List.append_assoc]

/-- The later pieces end the text of all of them. -/
theorem join_suffix_join_append {between : List Char} {later : List (List Char)} (hne : later ≠ [])
    (pieces : List (List Char)) : join between later <:+ join between (pieces ++ later) := by
  induction pieces with
  | nil => exact List.suffix_refl _
  | cons piece pieces ih =>
    rw [List.cons_append, join_cons (List.append_ne_nil_of_right_ne_nil pieces hne)]
    exact ih.trans (List.suffix_append _ _)

/-- A character of joined pieces is one of a piece or of the text between them. -/
theorem mem_of_mem_join {between : List Char} {pieces : List (List Char)} {c : Char}
    (h : c ∈ join between pieces) : c ∈ between ∨ ∃ piece ∈ pieces, c ∈ piece := by
  induction pieces with
  | nil => cases h
  | cons piece pieces ih =>
    by_cases hpieces : pieces = []
    · subst hpieces
      exact .inr ⟨piece, List.mem_cons_self, h⟩
    · rw [join_cons hpieces, List.append_assoc, List.mem_append, List.mem_append] at h
      rcases h with hpiece | hbetween | hlater
      · exact .inr ⟨piece, List.mem_cons_self, hpiece⟩
      · exact .inl hbetween
      · exact (ih hlater).imp_right fun ⟨other, ho, hc⟩ => ⟨other, List.mem_cons_of_mem _ ho, hc⟩

/-- There is nothing to replace in a text without the character. -/
theorem replaceChar_eq_self {old : Char} {cs : List Char} (h : old ∉ cs) (new : Char) :
    replaceChar old new cs = cs := by
  refine (List.map_congr_left fun c hc => if_neg ?_).trans (List.map_id cs)
  rintro rfl
  exact h hc

/-- Replacing the separator of pieces that do not contain it. -/
theorem replaceChar_join {old new : Char} {pieces : List (List Char)}
    (h : ∀ piece ∈ pieces, old ∉ piece) :
    replaceChar old new (join [old] pieces) = join [new] pieces := by
  induction pieces with
  | nil => rfl
  | cons piece pieces ih =>
    obtain ⟨hfirst, hlater⟩ := List.forall_mem_cons.mp h
    by_cases hpieces : pieces = []
    · subst hpieces
      exact replaceChar_eq_self hfirst new
    · have happend : ∀ first second : List Char, replaceChar old new (first ++ second) =
          replaceChar old new first ++ replaceChar old new second := fun _ _ => List.map_append
      have hold : replaceChar old new [old] = [new] := congrArg ([·]) (if_pos rfl)
      rw [join_cons hpieces, join_cons hpieces, happend, happend, replaceChar_eq_self hfirst, hold,
        ih hlater]

/-- One separator is as good as another. -/
theorem split_replaceChar {old new : Char} (hold : sep old = true) (hnew : sep new = true)
    (cs : List Char) : split sep (replaceChar old new cs) = split sep cs := by
  induction cs with
  | nil => rfl
  | cons c cs ih =>
    change split sep ((if c = old then new else c) :: replaceChar old new cs) = split sep (c :: cs)
    by_cases hc : c = old
    · subst hc
      rw [if_pos rfl, split_cons_of_sep hnew, split_cons_of_sep hold, ih]
    · rw [if_neg hc, split, split, ih]

/-- **Pieces without separators are found again after they have been joined.** -/
theorem split_join {c : Char} (hc : sep c = true) {pieces : List (List Char)} (hne : pieces ≠ [])
    (h : ∀ piece ∈ pieces, ∀ d ∈ piece, sep d = false) : split sep (join [c] pieces) = pieces := by
  induction pieces with
  | nil => exact absurd rfl hne
  | cons piece pieces ih =>
    obtain ⟨hpiece, hpieces⟩ := List.forall_mem_cons.mp h
    by_cases hlater : pieces = []
    · subst hlater
      exact split_eq_singleton hpiece
    · rw [join_cons hlater, List.append_assoc, List.singleton_append, split_append_cons hc,
        split_eq_singleton hpiece, ih hlater hpieces, List.singleton_append]

/-- Joining the pieces of a text with the separator gives the text back. -/
theorem join_split (c : Char) (cs : List Char) : join [c] (split (· == c) cs) = cs := by
  induction cs with
  | nil => rfl
  | cons d cs ih =>
    obtain ⟨piece, pieces, hp⟩ := exists_split_eq_cons (· == c) cs
    rw [hp] at ih
    cases hd : d == c with
    | true =>
      obtain rfl := beq_iff_eq.mp hd
      rw [@split_cons_of_sep (· == d) d hd, hp, join, ih]
      · rfl
      · exact List.cons_ne_nil _ _
    | false =>
      rw [@split_cons_of_not_sep (· == c) d hd cs piece pieces hp, ← ih]
      cases pieces <;> rfl

theorem sep_eq_false_of_mem_split {cs piece : List Char} (hp : piece ∈ split sep cs) {d : Char}
    (hd : d ∈ piece) : sep d = false := by
  induction cs generalizing piece with
  | nil =>
    obtain rfl := List.mem_singleton.mp hp
    cases hd
  | cons c cs ih =>
    cases hc : sep c with
    | true =>
      rw [split_cons_of_sep hc] at hp
      rcases List.mem_cons.mp hp with rfl | hp
      · cases hd
      · exact ih hp hd
    | false =>
      obtain ⟨first, pieces, hs⟩ := exists_split_eq_cons sep cs
      rw [split_cons_of_not_sep hc hs] at hp
      rw [hs] at ih
      rcases List.mem_cons.mp hp with rfl | hp
      · rcases List.mem_cons.mp hd with rfl | hd
        · exact hc
        · exact ih List.mem_cons_self hd
      · exact ih (List.mem_cons_of_mem _ hp) hd

end ImportAtlas.Text
