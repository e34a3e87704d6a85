import Std.Data.HashMap

/-!
# Values by place and by key

A row holds one value for each of `n` places. Reading a row after writing to it gives the value
written at that place, and elsewhere what was there before. A grouping holds the values of each key,
in the order in which they were given.

## Main definitions

* `Grouping.ofPairs`: the values of each key, in order
* `Grouping.values`: the values of one key

## Main results

* `Row.get_set`: reading after writing
* `Row.get_replicate`: reading where nothing has been written
* `Row.toList_eq_map_get`: the values in the order of the places
* `Grouping.values_ofPairs`: the values of a key are those of its pairs, in their order
-/

namespace ImportAtlas

namespace Row

variable {α : Type} {n : Nat}

theorem get_eq_getElem (row : Vector α n) (place : Fin n) : row.get place = row[place.val] := rfl

theorem get_set (row : Vector α n) (written place : Fin n) (value : α) :
    (row.set written.val value written.isLt).get place =
      if written = place then value else row.get place := by
  simp only [get_eq_getElem, Vector.getElem_set, Fin.ext_iff]

theorem get_replicate (value : α) (place : Fin n) :
    (Vector.replicate n value).get place = value := by
  simp only [get_eq_getElem, Vector.getElem_replicate]

theorem toList_eq_map_get (row : Vector α n) : row.toList = (List.finRange n).map row.get := by
  apply List.ext_getElem
  · simp
  · intro k hk hk'
    simp [get_eq_getElem]

end Row

/-- Lists of values by key. -/
structure Grouping (α : Type) where
  table : Std.HashMap String (List α)

namespace Grouping

variable {α : Type}

/-- The values of a key, in order; none for a key that never occurs. -/
def values (groups : Grouping α) (key : String) : List α :=
  groups.table.getD key []

/-- Groups pairs by their first component. -/
def ofPairs (pairs : List (String × α)) : Grouping α :=
  ⟨pairs.foldr (fun pair table => table.insert pair.1 (pair.2 :: table.getD pair.1 [])) ∅⟩

theorem values_ofPairs (pairs : List (String × α)) (key : String) :
    (ofPairs pairs).values key = (pairs.filter (·.1 == key)).map (·.2) := by
  induction pairs with
  | nil => simp [ofPairs, values]
  | cons pair pairs ih =>
    simp only [ofPairs, values] at ih ⊢
    rw [List.foldr_cons, Std.HashMap.getD_insert, List.filter_cons]
    by_cases h : pair.1 = key
    · subst h
      simp [ih]
    · simp [h, ih]

end Grouping

end ImportAtlas
