import ImportAtlas.Import.Specifier
import ImportAtlas.Proofs.Text.Split
import Mathlib.Data.List.TakeWhile
import Mathlib.Order.Basic

/-!
# Top-level names

The package of an import is a beginning of its text: it goes up to the second slash if the text
starts with `@`, and up to the first dot, slash or colon otherwise. Both are the text up to a stop of
a given number, so a text has one top-level name only.

## Main definitions

* `Text.IsUpTo`: the text up to a stop of a given number
* `Import.IsTopLevelName`: the top-level name of a text

## Main results

* `Text.IsUpTo.unique`: the text up to a stop is determined
* `Import.topLevelName?_eq_some_iff`: the package found for an import is its top-level name
-/

namespace ImportAtlas

namespace Text

/-- `name` is the beginning of a text up to its stop number `n`, counted from zero, or all of the text
if there is no such stop. -/
def IsUpTo (stop : Char → Bool) (n : Nat) (text name : List Char) : Prop :=
  ∃ rest, text = name ++ rest ∧
    ((name.countP stop = n ∧ ∃ c, rest.head? = some c ∧ stop c = true) ∨
      (name.countP stop ≤ n ∧ rest = []))

variable {stop : Char → Bool} {n : Nat} {text a b : List Char}

theorem IsUpTo.countP_le (h : IsUpTo stop n text a) : a.countP stop ≤ n := by
  obtain ⟨-, -, ⟨hn, -⟩ | ⟨hn, -⟩⟩ := h
  · exact hn.le
  · exact hn

theorem IsUpTo.prefix (h : IsUpTo stop n text a) : a <+: text := by
  obtain ⟨rest, rfl, -⟩ := h
  exact List.prefix_append a rest

/-- A longer beginning of the text would go past the stop, or past the end of the text. -/
theorem IsUpTo.eq_of_prefix (ha : IsUpTo stop n text a) (hb : IsUpTo stop n text b) (h : a <+: b) :
    a = b := by
  obtain ⟨more, rfl⟩ := h
  obtain ⟨rest, rfl, ⟨hn, c, hc, hstop⟩ | ⟨-, rfl⟩⟩ := ha
  · -- A stop comes after `a`, so with anything more there would be one stop too many.
    obtain ⟨after, he⟩ := hb.prefix
    rw [List.append_assoc, List.append_cancel_left_eq] at he
    subst he
    cases more with
    | nil => exact (List.append_nil a).symm
    | cons d more =>
      obtain rfl := Option.some.inj hc
      have hle := hb.countP_le
      rw [List.countP_append, List.countP_cons_of_pos hstop] at hle
      omega
  · -- The text ends with `a`.
    have hle := hb.prefix.length_le
    simp only [List.length_append, List.length_nil] at hle
    obtain rfl := List.length_eq_zero_iff.mp (show more.length = 0 by omega)
    exact (List.append_nil a).symm

theorem IsUpTo.unique (ha : IsUpTo stop n text a) (hb : IsUpTo stop n text b) : a = b := by
  rcases List.prefix_or_prefix_of_prefix ha.prefix hb.prefix with h | h
  · exact ha.eq_of_prefix hb h
  · exact (hb.eq_of_prefix ha h).symm

theorem isUpTo_takeWhile (stop : Char → Bool) (text : List Char) :
    IsUpTo stop 0 text (text.takeWhile (!stop ·)) := by
  refine ⟨text.dropWhile (!stop ·), (List.takeWhile_append_dropWhile).symm, ?_⟩
  have hcount : (text.takeWhile (!stop ·)).countP stop = 0 := by
    rw [List.countP_eq_zero]
    intro c hc
    simpa using List.mem_takeWhile_imp hc
  cases hrest : text.dropWhile (!stop ·) with
  | nil => exact .inr ⟨hcount.le, rfl⟩
  | cons c rest =>
    -- What is left starts with the character that has ended the beginning.
    refine .inl ⟨hcount, c, rfl, ?_⟩
    have hne : text.dropWhile (!stop ·) ≠ [] := by simp [hrest]
    simpa [hrest] using List.head_dropWhile_not _ hne

end Text

namespace Import

open Text

/-- The top-level name of a text: up to its second slash if it starts with `@`, and up to its first
dot, slash or colon otherwise. -/
@[irreducible]
def IsTopLevelName (text name : String) : Prop :=
  if text.toList.head? = some '@' then IsUpTo (· == '/') 1 text.toList name.toList
  else IsUpTo (fun c => c == '.' || c == '/' || c == ':') 0 text.toList name.toList

theorem IsTopLevelName.unique {text a b : String} (ha : IsTopLevelName text a)
    (hb : IsTopLevelName text b) : a = b := by
  unfold IsTopLevelName at ha hb
  rw [← String.toList_inj]
  split at ha
  · next h =>
    rw [if_pos h] at hb
    exact ha.unique hb
  · next h =>
    rw [if_neg h] at hb
    exact ha.unique hb

theorem countP_slash_of_mem_split {text piece : List Char} (h : piece ∈ split (· == '/') text) :
    piece.countP (· == '/') = 0 := by
  rw [List.countP_eq_zero]
  intro c hc
  simp [sep_eq_false_of_mem_split h hc]

/-- A scoped name goes up to the second slash. -/
theorem isUpTo_scopedName (text : List Char) : IsUpTo (· == '/') 1 text (scopedName text) := by
  have hjoin := join_split '/' text
  have hzero : ∀ piece ∈ split (· == '/') text, piece.countP (· == '/') = 0 := by
    intro piece hp
    exact countP_slash_of_mem_split hp
  unfold scopedName
  cases hs : split (· == '/') text with
  | nil => exact absurd hs (split_ne_nil _ _)
  | cons scope pieces =>
    rw [hs] at hjoin hzero
    have hscope := hzero scope List.mem_cons_self
    cases pieces with
    | nil =>
      -- There is no slash at all.
      refine ⟨[], (List.append_nil _).symm, .inr ⟨?_, rfl⟩⟩
      rw [← hjoin]
      exact hscope.le.trans (Nat.zero_le _)
    | cons name pieces =>
      have hname := hzero name (List.mem_cons_of_mem _ List.mem_cons_self)
      have hcount : (scope ++ ['/'] ++ name).countP (· == '/') = 1 := by
        simp only [List.countP_append, hscope, hname]
        rfl
      cases pieces with
      | nil =>
        -- The text ends before there is a second slash.
        refine ⟨[], ?_, .inr ⟨hcount.le, rfl⟩⟩
        rw [List.append_nil, ← hjoin]
        rfl
      | cons third pieces =>
        refine ⟨'/' :: join ['/'] (third :: pieces), ?_, .inl ⟨hcount, '/', rfl, rfl⟩⟩
        rw [← hjoin]
        simp [join]

/-- **The package found for an import** is the top-level name of its text without the blanks around
it. A blank text and one that starts with a dot have none. -/
theorem topLevelName?_eq_some_iff (rawImport name : String) :
    topLevelName? rawImport = some name ↔
      trim rawImport ≠ "" ∧ (trim rawImport).toList.head? ≠ some '.' ∧
        IsTopLevelName (trim rawImport) name := by
  have htrim : (trim rawImport).toList = trimChars rawImport.toList := String.toList_ofList
  have hempty : trim rawImport = "" ↔ trimChars rawImport.toList = [] := by
    rw [← String.toList_inj, htrim]
    rfl
  -- In either case of a name, the one that is found and the one that is asked for are both up to the
  -- same stop.
  have hfound : ∀ found : List Char, IsTopLevelName (trim rawImport) (String.ofList found) →
      (some (String.ofList found) = some name ↔ IsTopLevelName (trim rawImport) name) := by
    intro found hf
    rw [Option.some.injEq]
    constructor
    · rintro rfl
      exact hf
    · exact hf.unique
  unfold topLevelName?
  rw [ne_eq, hempty, htrim]
  split
  · next h => simp [h]
  · next h => simp [h]
  · next rest h =>
    rw [hfound]
    · simp [h]
    · simp [IsTopLevelName, htrim, h, isUpTo_scopedName]
  · next hnil hdot hat =>
    have hne : trimChars rawImport.toList ≠ [] := hnil
    have hhead : ∀ c, (∀ rest, trimChars rawImport.toList ≠ c :: rest) →
        (trimChars rawImport.toList).head? ≠ some c := by
      intro c hc hh
      obtain ⟨rest, hrest⟩ := List.head?_eq_some_iff.mp hh
      exact hc rest hrest
    rw [hfound]
    · simp [hne, hhead '.' hdot]
    · unfold IsTopLevelName
      rw [htrim, if_neg (hhead '@' hat), String.toList_ofList]
      exact isUpTo_takeWhile _ _

end Import

end ImportAtlas
