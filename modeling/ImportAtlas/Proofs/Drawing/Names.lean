import ImportAtlas.Render.Dot
import Mathlib.Algebra.Ring.Parity
import Mathlib.Data.List.DropRight
import Mathlib.Order.Bounds.Basic

/-!
# Quoted names

A name stands between quotes. The quote that closes it is the first one behind an even number of
backslashes, and between the two a backslash before a quote or another backslash is taken off.
Whatever characters a name has, its closing quote is the last character of its quoted form, and
what stands between means the name.

## Main definitions

* `Drawing.backslashes`: the number of backslashes at the end of a text
* `Drawing.IsClosing`: a place with a quote that closes a name
* `Drawing.Unclosed`: a piece of a name in which no quote closes it
* `Drawing.undo`: what the characters between the quotes mean

## Main results

* `Drawing.unclosed_escaped`: no quote of a name closes its quoted form
* `Drawing.flatMap_dotEscape`: one pass over a name does what one for each escaped character would
* `Drawing.isLeast_isClosing`: the first closing quote is the last character
* `Drawing.undo_escaped`: what stands between means the name
-/

namespace ImportAtlas.Drawing

open Render (dotEscape dotQuoted dotQuotedChars)
open Text (replaceWith)

/-- The number of backslashes at the end of a text. -/
def backslashes (cs : List Char) : Nat := (cs.rtakeWhile (· == '\\')).length

/-- A place with a quote that an even number of backslashes precedes. -/
def IsClosing (cs : List Char) (place : Nat) : Prop :=
  cs[place]? = some '"' ∧ Even (backslashes (cs.take place))

/-- A piece of a name, behind its start, in which no quote closes it. -/
def Unclosed (start piece : List Char) : Prop :=
  ∀ before after : List Char, piece = before ++ '"' :: after →
    ¬Even (backslashes (start ++ before))

/-- What the characters between the quotes of a name mean. -/
def undo : List Char → List Char
  | [] => []
  | [c] => [c]
  | c :: d :: cs =>
    if c = '\\' ∧ (d = '"' ∨ d = '\\') then d :: undo cs else c :: undo (d :: cs)

example : undo "a\\\"b\\\\c\\n\\".toList = "a\"b\\c\\n\\".toList := by decide

/-! ## Backslashes -/

@[simp] theorem backslashes_nil : backslashes [] = 0 := rfl

@[simp] theorem backslashes_concat (cs : List Char) (c : Char) :
    backslashes (cs ++ [c]) = if c = '\\' then backslashes cs + 1 else 0 := by
  by_cases hc : c = '\\' <;> simp [backslashes, hc]

/-- What a name starts behind does not count, if it is no backslash. -/
theorem backslashes_cons {c : Char} (hc : c ≠ '\\') (cs : List Char) :
    backslashes (c :: cs) = backslashes cs := by
  induction cs using List.reverseRecOn with
  | nil => simpa [hc] using backslashes_concat [] c
  | append_singleton cs last ih =>
    rw [← List.cons_append, backslashes_concat, backslashes_concat, ih]

/-! ## The characters of a name -/

theorem even_backslashes_append_dotEscape {start : List Char} (h : Even (backslashes start))
    (c : Char) : Even (backslashes (start ++ dotEscape c)) := by
  by_cases hbackslash : c = '\\'
  · subst hbackslash
    show Even (backslashes (start ++ ['\\', '\\']))
    rw [List.append_cons, backslashes_concat, backslashes_concat]
    simpa [add_assoc] using h.add even_two
  · have hlast : ∃ before, start ++ dotEscape c = before ++ [c] := by
      by_cases hquote : c = '"'
      · exact ⟨start ++ ['\\'], by simp [dotEscape, hquote]⟩
      · exact ⟨start, by simp [dotEscape, hquote, hbackslash]⟩
    obtain ⟨before, hlast⟩ := hlast
    rw [hlast, backslashes_concat, if_neg hbackslash]
    exact Even.zero

/-- The quoted form of a name has no half of a pair of backslashes at its end. -/
theorem even_backslashes_escaped {start : List Char} (h : Even (backslashes start))
    (cs : List Char) : Even (backslashes (start ++ cs.flatMap dotEscape)) := by
  induction cs generalizing start with
  | nil => simpa using h
  | cons c cs ih =>
    rw [List.flatMap_cons, ← List.append_assoc]
    exact ih (even_backslashes_append_dotEscape h c)

/-! ## Pieces in which no quote closes a name -/

theorem Unclosed.nil (start : List Char) : Unclosed start [] := by
  intro before after h
  simp at h

/-- A piece is unclosed if its first part is, and the second behind that. -/
theorem Unclosed.append {start piece rest : List Char} (hpiece : Unclosed start piece)
    (hrest : Unclosed (start ++ piece) rest) : Unclosed start (piece ++ rest) := by
  intro before after h
  rcases List.append_eq_append_iff.mp h with ⟨middle, hbefore, hquote⟩ | ⟨middle, hpiece', hquote⟩
  · -- The quote stands in the second part.
    rw [hbefore, ← List.append_assoc]
    exact hrest middle after hquote
  · cases middle with
    | nil =>
      -- The quote is the first character of the second part.
      have hrest' := hrest [] after (by simpa using hquote.symm)
      simpa [hpiece'] using hrest'
    | cons c middle =>
      obtain ⟨rfl, -⟩ := List.cons.inj hquote
      exact hpiece before middle hpiece'

/-- A piece is unclosed if its first character closes nothing, and nor does the rest behind it. -/
theorem unclosed_cons_iff {start : List Char} {c : Char} {cs : List Char} :
    Unclosed start (c :: cs) ↔
      ¬(c = '"' ∧ Even (backslashes start)) ∧ Unclosed (start ++ [c]) cs := by
  constructor
  · intro h
    refine ⟨?_, ?_⟩
    · rintro ⟨rfl, heven⟩
      exact h [] cs rfl (by simpa using heven)
    · intro before after hcs
      have hnot := h (c :: before) after (by simp [hcs])
      simpa using hnot
  · rintro ⟨hc, hcs⟩
    have hfirst : Unclosed start [c] := by
      intro before after h
      cases before with
      | nil =>
        obtain ⟨rfl, -⟩ := List.cons.inj h
        simpa using hc
      | cons d before => simp at h
    exact hfirst.append hcs

/-- **No quote of a name closes its quoted form**: each has a backslash of its own. -/
theorem unclosed_escaped {start : List Char} (h : Even (backslashes start)) (cs : List Char) :
    Unclosed start (cs.flatMap dotEscape) := by
  induction cs generalizing start with
  | nil => exact .nil start
  | cons c cs ih =>
    rw [List.flatMap_cons]
    refine .append ?_ (ih (even_backslashes_append_dotEscape h c))
    unfold dotEscape
    by_cases hquote : c = '"'
    · subst hquote
      -- The backslash before the quote makes the number of them odd.
      simp [unclosed_cons_iff, Unclosed.nil, h.add_one]
    · by_cases hbackslash : c = '\\' <;> simp [unclosed_cons_iff, Unclosed.nil, hquote, hbackslash]

/-- **Escaping the backslashes and then the quotes comes to the same** as one pass over the name. In the
other order the backslashes before the quotes would be doubled. -/
theorem flatMap_dotEscape (cs : List Char) :
    cs.flatMap dotEscape =
      replaceWith '"' ['\\', '"'] (replaceWith '\\' ['\\', '\\'] cs) := by
  unfold replaceWith
  rw [List.flatMap_assoc]
  apply List.flatMap_congr
  intro c _
  by_cases hbackslash : c = '\\'
  · subst hbackslash
    rfl
  · by_cases hquote : c = '"' <;> simp [dotEscape, hbackslash, hquote]

/-! ## What stands between the quotes -/

/-- **What stands between the quotes means the name.** -/
theorem undo_escaped (cs : List Char) : undo (cs.flatMap dotEscape) = cs := by
  induction cs with
  | nil => rfl
  | cons c cs ih =>
    rw [List.flatMap_cons]
    by_cases hescaped : c = '"' ∨ c = '\\'
    · have hc : dotEscape c = ['\\', c] := if_pos hescaped
      rw [hc, List.cons_append, List.singleton_append, undo, if_pos ⟨rfl, hescaped⟩, ih]
    · have hc : dotEscape c = [c] := if_neg hescaped
      have hbackslash : c ≠ '\\' := fun h => hescaped (.inr h)
      rw [hc, List.singleton_append]
      cases hrest : cs.flatMap dotEscape with
      | nil =>
        rw [hrest] at ih
        rw [undo, ← ih]
        rfl
      | cons d rest => rw [undo, if_neg fun h => hbackslash h.1, ← hrest, ih]

theorem toList_dotQuoted (s : String) :
    (dotQuoted s).toList = '"' :: (s.toList.flatMap dotEscape ++ ['"']) := by
  rw [dotQuoted, String.toList_ofList, dotQuotedChars, ← flatMap_dotEscape, List.cons_append]

/-- **The first closing quote of a quoted name is its last character.** -/
theorem isLeast_isClosing (s : String) :
    IsLeast {place | 0 < place ∧ IsClosing (dotQuoted s).toList place}
      ((s.toList.flatMap dotEscape).length + 1) := by
  have heven : Even (backslashes []) := Even.zero
  rw [toList_dotQuoted]
  refine ⟨⟨Nat.succ_pos _, by simp, ?_⟩, ?_⟩
  · have hbetween := even_backslashes_escaped heven s.toList
    simpa [backslashes_cons] using hbetween
  · -- A quote before it would be one between the two.
    rintro place ⟨hpos, hquote, hclosing⟩
    obtain ⟨place, rfl⟩ := Nat.exists_eq_add_one_of_ne_zero hpos.ne'
    by_contra hlt
    have hplace : place < (s.toList.flatMap dotEscape).length := by omega
    rw [List.getElem?_cons_succ, List.getElem?_append_left hplace] at hquote
    have hsplit : s.toList.flatMap dotEscape =
        (s.toList.flatMap dotEscape).take place ++
          '"' :: (s.toList.flatMap dotEscape).drop (place + 1) := by
      obtain ⟨_, hget⟩ := List.getElem?_eq_some_iff.mp hquote
      rw [← hget, List.getElem_cons_drop, List.take_append_drop]
    have hopen := unclosed_escaped heven s.toList _ _ hsplit
    rw [List.take_succ_cons, List.take_append_of_le_length hplace.le,
      backslashes_cons (by decide)] at hclosing
    exact hopen hclosing

/-- A name without quotes and backslashes stands for itself. -/
theorem dotQuoted_eq {s : String} (h : ∀ c ∈ s.toList, ¬(c = '"' ∨ c = '\\')) :
    dotQuoted s = "\"" ++ s ++ "\"" := by
  have hplain : s.toList.flatMap dotEscape = s.toList := by
    have hchars : ∀ c ∈ s.toList, dotEscape c = [c] := fun c hc => if_neg (h c hc)
    rw [List.flatMap_congr hchars]
    simp
  apply String.toList_injective
  rw [toList_dotQuoted, hplain]
  simp

end ImportAtlas.Drawing
