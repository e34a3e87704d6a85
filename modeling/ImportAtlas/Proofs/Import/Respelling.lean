import ImportAtlas.Proofs.Import.Candidates
import Mathlib.Data.List.Forall2

/-!
# Repositories with their paths spelled anew

Paths are compared by their normal forms only, so the search for an import answers with a place in the
list of paths rather than with a text: the place of the first path that has the normal form of the
candidate found. That place depends on the normal forms of the paths and of the importing file alone;
the spelling comes in at the end, when the path at the place is read off.

## Main definitions

* `FileIndex.placeOf?`: the place of the file that an import stands for
* `FileIndex.IsFirst`: the place of a path, no path before it having its normal form

## Main results

* `resolve?_eq_bind_placeOf?`: an import resolves to the path at its place
* `isFirst_iff_placeOf?`: the place is the first one of the normal form found
* `resolve?_respelled`: lists of paths with the same normal forms give answers at the same places
-/

namespace ImportAtlas.FileIndex

open Import ImportAtlas.Path

/-- The place of the file that an import stands for, in terms of the normal forms of the paths. -/
def placeOf? (rules : ImportRules) (normals : List String) (specifier importer : String) :
    Option Nat :=
  (candidates rules specifier importer).findSome? fun candidate =>
    normals.findIdx? (· == candidate)

/-- Whether a path stands at a place of a list and no path before it has its normal form. -/
def IsFirst (paths : List String) (place : Nat) (path : String) : Prop :=
  paths[place]? = some path ∧ ∀ earlier ∈ paths.take place, normalize earlier ≠ normalize path

variable {rules : ImportRules} {paths : List String} {specifier importer path : String}
  {place : Nat}

/-! ## Places -/

/-- Only one place is the first one of a path. -/
theorem IsFirst.place_unique {other : Nat} (h : IsFirst paths place path)
    (ho : IsFirst paths other path) : place = other := by
  have hbefore : ∀ {first second : Nat}, IsFirst paths first path → IsFirst paths second path →
      ¬first < second := by
    intro first second hfirst hsecond hlt
    refine hsecond.2 path (List.mem_iff_getElem?.mpr ⟨first, ?_⟩) rfl
    rw [List.getElem?_take_of_lt hlt, hfirst.1]
  exact Nat.le_antisymm (Nat.le_of_not_lt (hbefore ho h)) (Nat.le_of_not_lt (hbefore h ho))

/-- **An import resolves to the path at its place.** -/
theorem resolve?_eq_bind_placeOf? (rules : ImportRules) (paths : List String)
    (specifier importer : String) :
    (ofPaths rules paths).resolve? specifier importer =
      (placeOf? rules (paths.map normalize) specifier importer).bind (paths[·]?) := by
  rw [resolve?_ofPaths]
  unfold placeOf?
  induction candidates rules specifier importer with
  | nil => rfl
  | cons candidate later ih =>
    have hfind : (paths.find? fun path => normalize path == candidate) =
        ((paths.map normalize).findIdx? (· == candidate)).bind (paths[·]?) := by
      rw [List.findIdx?_map]
      exact List.find?_eq_bind_findIdx?_getElem?
    rw [List.findSome?_cons, List.findSome?_cons, hfind, ih]
    cases hplace : (paths.map normalize).findIdx? (· == candidate) with
    | none => rfl
    | some place =>
      -- A place that is found holds a path.
      obtain ⟨hlt, -, -⟩ := List.findIdx?_eq_some_iff_getElem.mp hplace
      rw [List.length_map] at hlt
      rw [Option.bind_some, List.getElem?_eq_getElem hlt]

/-- The place that is found is the first one of its normal form. -/
theorem exists_isFirst_of_placeOf?
    (h : placeOf? rules (paths.map normalize) specifier importer = some place) :
    ∃ path, IsFirst paths place path := by
  unfold placeOf? at h
  obtain ⟨candidate, -, hfind⟩ := List.exists_of_findSome?_eq_some h
  obtain ⟨hlt, hcandidate, hbefore⟩ := List.findIdx?_eq_some_iff_getElem.mp hfind
  have hplace : place < paths.length := List.length_map normalize ▸ hlt
  refine ⟨paths[place], List.getElem?_eq_getElem hplace, ?_⟩
  intro earlier hearlier heq
  -- A path before it with that normal form would have been found instead.
  obtain ⟨i, hi, rfl⟩ := List.mem_take_iff_getElem.mp hearlier
  refine hbefore i (by omega) ?_
  rw [List.getElem_map, heq, ← List.getElem_map normalize]
  exact hcandidate

/-- **The place of an import is the first one of the normal form that it resolves to.** -/
theorem isFirst_iff_placeOf? :
    (∃ path, (ofPaths rules paths).resolve? specifier importer = some path ∧
        IsFirst paths place path) ↔
      placeOf? rules (paths.map normalize) specifier importer = some place := by
  rw [resolve?_eq_bind_placeOf?]
  constructor
  · rintro ⟨path, hpath, hfirst⟩
    -- The place found holds the path as well, and it is the first one of a normal form too.
    obtain ⟨found, hfound, hat⟩ := Option.bind_eq_some_iff.mp hpath
    obtain ⟨written, hwritten⟩ := exists_isFirst_of_placeOf? hfound
    obtain rfl : written = path := Option.some.inj (hwritten.1.symm.trans hat)
    rw [hfound, hwritten.place_unique hfirst]
  · intro hplace
    obtain ⟨path, hfirst⟩ := exists_isFirst_of_placeOf? hplace
    rw [hplace]
    exact ⟨path, hfirst.1, hfirst⟩

theorem resolve?_eq_none_iff_placeOf? :
    (ofPaths rules paths).resolve? specifier importer = none ↔
      placeOf? rules (paths.map normalize) specifier importer = none := by
  rw [resolve?_eq_bind_placeOf?]
  constructor
  · intro hnone
    cases hplace : placeOf? rules (paths.map normalize) specifier importer with
    | none => rfl
    | some place =>
      obtain ⟨path, hfirst⟩ := exists_isFirst_of_placeOf? hplace
      rw [hplace, Option.bind_some, hfirst.1] at hnone
      cases hnone
  · intro hplace
    rw [hplace]
    rfl

/-! ## Two spellings -/

/-- The importing file matters by its normal form only. -/
theorem candidates_congr {importer' : String} (h : normalize importer = normalize importer')
    (rules : ImportRules) (specifier : String) :
    candidates rules specifier importer = candidates rules specifier importer' := by
  unfold candidates
  rw [h]

/-- **Lists of paths with the same normal forms give answers at the same places**, for importing files
with the same normal form. An answer is a path as it is written in the list, and the first one of its
normal form. -/
theorem resolve?_respelled {left right : List String} {importer importer' : String}
    (hpaths : List.Forall₂ (fun path other => normalize path = normalize other) left right)
    (himporter : normalize importer = normalize importer') (rules : ImportRules)
    (specifier : String) :
    (∀ place,
      (∃ path, (ofPaths rules left).resolve? specifier importer = some path ∧
        IsFirst left place path) ↔
      ∃ path, (ofPaths rules right).resolve? specifier importer' = some path ∧
        IsFirst right place path) ∧
    ((ofPaths rules left).resolve? specifier importer = none ↔
      (ofPaths rules right).resolve? specifier importer' = none) ∧
    (∀ path, (ofPaths rules left).resolve? specifier importer = some path →
      ∃ place, IsFirst left place path) := by
  have hnormals : left.map normalize = right.map normalize := by
    rw [← List.forall₂_eq_eq_eq, List.forall₂_map_left_iff, List.forall₂_map_right_iff]
    exact hpaths
  have hplace : placeOf? rules (left.map normalize) specifier importer =
      placeOf? rules (right.map normalize) specifier importer' := by
    unfold placeOf?
    rw [hnormals, candidates_congr himporter]
  refine ⟨fun place => ?_, ?_, fun path hpath => ?_⟩
  · rw [isFirst_iff_placeOf?, isFirst_iff_placeOf?, hplace]
  · rw [resolve?_eq_none_iff_placeOf?, resolve?_eq_none_iff_placeOf?, hplace]
  · rw [resolve?_eq_bind_placeOf?] at hpath
    obtain ⟨place, hfound, hat⟩ := Option.bind_eq_some_iff.mp hpath
    obtain ⟨written, hfirst⟩ := exists_isFirst_of_placeOf? hfound
    obtain rfl : written = path := Option.some.inj (hfirst.1.symm.trans hat)
    exact ⟨place, hfirst⟩

/-- Two of three paths collide, and the importing file is reached through another directory. -/
theorem resolve?_respelled_collision :
    let rules : ImportRules := { convention := .packageRoot }
    let left := ["main.py", "pkg\\a.py", "./pkg/a.py"]
    let right := ["lib/../main.py", "pkg/./a.py", "pkg//a.py"]
    (∃ path, (ofPaths rules left).resolve? " .a " "pkg\\main.py" = some path ∧
        IsFirst left 1 path) ∧
      (ofPaths rules left).resolve? " .a " "pkg\\main.py" = some "pkg\\a.py" ∧
      ∃ path, (ofPaths rules right).resolve? " .a " "./pkg/lib/../main.py" = some path ∧
        IsFirst right 1 path := by
  intro rules left right
  have hpaths : List.Forall₂ (fun path other => normalize path = normalize other) left right := by
    decide
  have himporter : normalize "pkg\\main.py" = normalize "./pkg/lib/../main.py" := by decide
  have hfound : (ofPaths rules left).resolve? " .a " "pkg\\main.py" = some "pkg\\a.py" := by
    rw [resolve?_eq_findSome?, find?_ofPaths_eq]
    decide +kernel
  have hleft : ∃ path, (ofPaths rules left).resolve? " .a " "pkg\\main.py" = some path ∧
      IsFirst left 1 path := by
    refine ⟨_, hfound, rfl, ?_⟩
    decide
  exact ⟨hleft, hfound, (resolve?_respelled hpaths himporter rules " .a ").1 1 |>.mp hleft⟩

end ImportAtlas.FileIndex
