import ImportAtlas.Text.Blank
import Mathlib.Data.List.TakeWhile

/-!
# Texts without blanks at their ends

Trimming takes away every blank at the two ends of a text, so there is none left to take away, and it
looks at nothing but which characters are blank.

## Main results

* `trim_trim`: a trimmed text is trimmed
* `trim_around`: blanks around a text make no difference
* `trimChars_map`: replacing characters without touching blanks
-/

namespace ImportAtlas.Text

/-- What is left after dropping does not start with a character to drop. -/
theorem head?_dropWhile_isBlank {cs : List Char} {c : Char}
    (h : c ∈ (cs.dropWhile isBlank).head?) : isBlank c = false := by
  have hhead := List.head?_dropWhile_not isBlank cs
  rw [Option.mem_def.mp h] at hhead
  exact hhead

theorem trimChars_trimChars (cs : List Char) : trimChars (trimChars cs) = trimChars cs := by
  apply trimChars_eq_self
  · intro c hc
    -- The text that is left begins like the one with its end.
    obtain ⟨last, hlast⟩ : trimChars cs <+: cs.dropWhile isBlank := by
      rw [← List.reverse_suffix]
      unfold trimChars
      rw [List.reverse_reverse]
      exact List.dropWhile_suffix _
    have hfirst : c ∈ (cs.dropWhile isBlank).head? := by
      rw [← hlast, List.head?_append, Option.mem_def.mp hc]
      rfl
    exact head?_dropWhile_isBlank hfirst
  · intro c hc
    unfold trimChars at hc
    rw [List.getLast?_reverse] at hc
    exact head?_dropWhile_isBlank hc

/-- **A trimmed text is trimmed.** -/
@[simp] theorem trim_trim (s : String) : trim (trim s) = trim s := by
  unfold trim
  rw [String.toList_ofList, trimChars_trimChars]

/-- Dropping blanks at the front keeps those at the end, unless there is nothing else. -/
theorem dropWhile_isBlank_append {blanks : List Char} (h : ∀ c ∈ blanks, isBlank c = true)
    (cs : List Char) :
    (cs ++ blanks).dropWhile isBlank = cs.dropWhile isBlank ++ blanks ∨
      (cs ++ blanks).dropWhile isBlank = [] ∧ cs.dropWhile isBlank = [] := by
  rw [List.dropWhile_append]
  split
  · next hnil => exact .inr ⟨List.dropWhile_eq_nil_iff.mpr h, List.isEmpty_iff.mp hnil⟩
  · exact .inl rfl

theorem trimChars_around {before after : List Char} (hbefore : ∀ c ∈ before, isBlank c = true)
    (hafter : ∀ c ∈ after, isBlank c = true) (cs : List Char) :
    trimChars (before ++ (cs ++ after)) = trimChars cs := by
  unfold trimChars
  rw [List.dropWhile_append_of_pos hbefore]
  rcases dropWhile_isBlank_append hafter cs with hkept | ⟨hgone, hnil⟩
  · have hreverse : ∀ c ∈ after.reverse, isBlank c = true := fun c hc =>
      hafter c (List.mem_reverse.mp hc)
    rw [hkept, List.reverse_append, List.dropWhile_append_of_pos hreverse]
  · rw [hgone, hnil]

/-- **Blanks around a text make no difference.** -/
theorem trim_around {before after : String} (hbefore : isBlankText before = true)
    (hafter : isBlankText after = true) (s : String) : trim (before ++ s ++ after) = trim s := by
  unfold trim
  rw [String.toList_append, String.toList_append, List.append_assoc,
    trimChars_around (List.all_eq_true.mp hbefore) (List.all_eq_true.mp hafter)]

/-- Characters may be replaced before or after trimming if blanks stay blanks and no others become
blanks. -/
theorem trimChars_map {f : Char → Char} (h : ∀ c, isBlank (f c) = isBlank c) (cs : List Char) :
    trimChars (cs.map f) = (trimChars cs).map f := by
  have hcomp : isBlank ∘ f = isBlank := funext h
  unfold trimChars
  rw [List.dropWhile_map, hcomp, ← List.map_reverse, List.dropWhile_map, hcomp, List.map_reverse]

end ImportAtlas.Text
