import ImportAtlas.Dictionary
import Mathlib.Data.List.Nodup
import Mathlib.Data.List.Perm.Basic

/-!
# Reading dictionaries

What a dictionary says of a key once an entry has been inserted, and what the dictionary of a list
of entries says of it. The keys are distinct, so a dictionary is as large as their set.

## Main results

* `get?_eq_some_iff`: the entries are the values of their keys
* `get?_insert`: an insertion changes the value of its key only
* `get?_ofEntries`: the last entry of a key counts
* `get?_ofEntries_eq_some_iff`: entries that agree on a key give it their value
* `ext_mem`, `ofEntries_eq_of_perm`: dictionaries of the same entries are equal
* `entries_ofEntries_map`: a change of the values leaves the order of the keys
* `map_get?_keys`: the values are those of the keys
* `size_eq_of_mem_keys_iff`: dictionaries whose keys agree after one more each have the same size
-/

namespace ImportAtlas.Dictionary

variable {α : Type}

theorem lookup_cons_eq (key : String) (entry : String × α) (entries : List (String × α)) :
    (entry :: entries).lookup key =
      if key = entry.1 then some entry.2 else entries.lookup key := by
  rw [List.lookup_cons]
  by_cases h : key = entry.1
  · rw [if_pos h, beq_iff_eq.mpr h]
  · rw [if_neg h, beq_eq_false_iff_ne.mpr h]

theorem lookup_insertEntry (key other : String) (value : α) (entries : List (String × α)) :
    (insertEntry key value entries).lookup other =
      if other = key then some value else entries.lookup other := by
  induction entries with
  | nil => exact lookup_cons_eq other (key, value) []
  | cons entry rest ih =>
    unfold insertEntry
    split
    · exact lookup_cons_eq other (key, value) _
    · split
      · next heq =>
        rw [lookup_cons_eq, lookup_cons_eq, ← heq]
        by_cases ho : other = key <;> simp [ho]
      · next hne =>
        rw [lookup_cons_eq, lookup_cons_eq, ih]
        by_cases ho : other = key
        · rw [if_pos ho, if_pos ho, if_neg (ho ▸ hne)]
        · rw [if_neg ho, if_neg ho]

/-- Keys that increase are distinct, so every entry is found. -/
theorem get?_eq_some_iff (d : Dictionary α) (key : String) (value : α) :
    d.get? key = some value ↔ (key, value) ∈ d.entries := by
  obtain ⟨entries, sorted⟩ := d
  change entries.lookup key = some value ↔ (key, value) ∈ entries
  induction entries with
  | nil => simp
  | cons entry rest ih =>
    obtain ⟨hfirst, hrest⟩ := List.pairwise_cons.mp sorted
    rw [lookup_cons_eq, List.mem_cons]
    by_cases h : key = entry.1
    · have hnot : (key, value) ∉ rest := by
        intro hm
        have hlt : entry.1 < key := hfirst _ hm
        exact String.lt_irrefl key (h ▸ hlt)
      rw [if_pos h, or_iff_left hnot, Prod.ext_iff, Option.some.injEq, eq_comm]
      exact (and_iff_right h).symm
    · rw [if_neg h, ih hrest]
      refine (or_iff_right fun he => h ?_).symm
      exact congrArg Prod.fst he

/-- An insertion changes the value of its key only. -/
theorem get?_insert (d : Dictionary α) (key other : String) (value : α) :
    (d.insert key value).get? other = if other = key then some value else d.get? other :=
  lookup_insertEntry key other value d.entries

theorem get?_foldl_insert (d : Dictionary α) (entries : List (String × α)) (key : String) :
    (entries.foldl (fun d entry => d.insert entry.1 entry.2) d).get? key =
      (entries.reverse.lookup key).or (d.get? key) := by
  induction entries generalizing d with
  | nil => rfl
  | cons entry entries ih =>
    rw [List.foldl_cons, ih, List.reverse_cons, List.lookup_append, Option.or_assoc, get?_insert,
      lookup_cons_eq]
    by_cases h : key = entry.1 <;> simp [h]

/-- The last entry of a key counts. -/
theorem get?_ofEntries (entries : List (String × α)) (key : String) :
    (ofEntries entries).get? key = entries.reverse.lookup key := by
  unfold ofEntries
  rw [get?_foldl_insert]
  exact Option.or_none

/-- Entries that agree on a key give it their value. -/
theorem get?_ofEntries_eq_some_iff {entries : List (String × α)} {key : String} {value : α}
    (hagree : ∀ v w, (key, v) ∈ entries → (key, w) ∈ entries → v = w) :
    (ofEntries entries).get? key = some value ↔ (key, value) ∈ entries := by
  rw [get?_ofEntries]
  have hmem : ∀ v, entries.reverse.lookup key = some v → (key, v) ∈ entries := by
    intro v hv
    obtain ⟨before, after, he, -⟩ := List.lookup_eq_some_iff.mp hv
    rw [← List.mem_reverse, he]
    simp
  constructor
  · exact hmem value
  · intro hm
    cases hl : entries.reverse.lookup key with
    | none =>
      have hne := List.lookup_eq_none_iff.mp hl (key, value) (List.mem_reverse.mpr hm)
      simp at hne
    | some found => rw [hagree found value (hmem found hl) hm]

/-! ## Equal dictionaries -/

theorem nodup_keys (d : Dictionary α) : d.keys.Nodup := by
  refine List.pairwise_map.mpr (d.sorted.imp fun {a b} hlt he => ?_)
  rw [he] at hlt
  exact String.lt_irrefl _ hlt

/-- Dictionaries of the same entries are equal. -/
theorem ext_mem {d e : Dictionary α} (h : ∀ entry, entry ∈ d.entries ↔ entry ∈ e.entries) :
    d = e := by
  have hnodup : ∀ d : Dictionary α, d.entries.Nodup := fun d => d.nodup_keys.of_map
  have hperm := (List.perm_ext_iff_of_nodup (hnodup d) (hnodup e)).mpr h
  refine ext (hperm.eq_of_pairwise (fun a b _ _ hab hba => ?_) d.sorted e.sorted)
  exact absurd (String.lt_trans hab hba) (String.lt_irrefl a.1)

theorem mem_entries_ofEntries_iff {entries : List (String × α)}
    (hdistinct : (entries.map (·.1)).Nodup) (entry : String × α) :
    entry ∈ (ofEntries entries).entries ↔ entry ∈ entries := by
  obtain ⟨key, value⟩ := entry
  rw [← get?_eq_some_iff]
  refine get?_ofEntries_eq_some_iff fun v w hv hw => ?_
  exact congrArg Prod.snd (List.inj_on_of_nodup_map hdistinct hv hw rfl)

/-- Entries with distinct keys are only put in order. -/
theorem entries_ofEntries_perm {entries : List (String × α)}
    (hdistinct : (entries.map (·.1)).Nodup) : (ofEntries entries).entries.Perm entries :=
  (List.perm_ext_iff_of_nodup (nodup_keys _).of_map hdistinct.of_map).mpr
    (mem_entries_ofEntries_iff hdistinct)

/-- The order of entries with distinct keys makes no difference. -/
theorem ofEntries_eq_of_perm {entries entries' : List (String × α)}
    (hdistinct : (entries.map (·.1)).Nodup) (h : entries.Perm entries') :
    ofEntries entries = ofEntries entries' := by
  refine ext_mem fun entry => ?_
  rw [mem_entries_ofEntries_iff hdistinct,
    mem_entries_ofEntries_iff ((h.map (·.1)).nodup_iff.mp hdistinct), h.mem_iff]

/-- A dictionary is the dictionary of its entries. -/
theorem ofEntries_entries (d : Dictionary α) : ofEntries d.entries = d :=
  ext_mem (mem_entries_ofEntries_iff d.nodup_keys)

theorem insertEntry_map {β : Type} (f : α → β) (key : String) (value : α)
    (entries : List (String × α)) :
    insertEntry key (f value) (entries.map fun entry => (entry.1, f entry.2)) =
      (insertEntry key value entries).map fun entry => (entry.1, f entry.2) := by
  induction entries with
  | nil => rfl
  | cons entry rest ih =>
    rw [List.map_cons, insertEntry, insertEntry]
    split
    · rfl
    · split
      · rfl
      · rw [ih, List.map_cons]

/-- Entries may be made a dictionary before more are inserted. -/
theorem ofEntries_entries_append (entries more : List (String × α)) :
    ofEntries ((ofEntries entries).entries ++ more) = ofEntries (entries ++ more) := by
  have happend : ∀ entries : List (String × α), ofEntries (entries ++ more) =
      more.foldl (fun d entry => d.insert entry.1 entry.2) (ofEntries entries) :=
    fun _ => List.foldl_append
  rw [happend, happend, ofEntries_entries]

/-- A change of the values leaves the order of the keys. -/
theorem entries_ofEntries_map {β : Type} (f : α → β) (entries : List (String × α)) :
    (ofEntries (entries.map fun entry => (entry.1, f entry.2))).entries =
      (ofEntries entries).entries.map fun entry => (entry.1, f entry.2) := by
  have hfold : ∀ (d : Dictionary α) (e : Dictionary β),
      e.entries = d.entries.map (fun entry => (entry.1, f entry.2)) →
      ((entries.map fun entry => (entry.1, f entry.2)).foldl
          (fun d entry => d.insert entry.1 entry.2) e).entries =
        (entries.foldl (fun d entry => d.insert entry.1 entry.2) d).entries.map
          fun entry => (entry.1, f entry.2) := by
    induction entries with
    | nil => exact fun _ _ h => h
    | cons entry entries ih =>
      intro d e h
      refine ih (d.insert entry.1 entry.2) (e.insert entry.1 (f entry.2)) ?_
      exact (congrArg (insertEntry entry.1 (f entry.2)) h).trans (insertEntry_map f _ _ _)
  exact hfold empty empty rfl

/-- The values are those of the keys, in their order. -/
theorem map_get?_keys (d : Dictionary α) : d.keys.map d.get? = d.values.map some := by
  unfold keys values
  rw [List.map_map, List.map_map]
  apply List.map_congr_left
  intro entry hentry
  exact (d.get?_eq_some_iff entry.1 entry.2).mpr hentry

/-! ## The set of keys -/

theorem mem_keys_iff (d : Dictionary α) (key : String) :
    key ∈ d.keys ↔ ∃ value, d.get? key = some value := by
  simp [keys, get?_eq_some_iff]

/-- Dictionaries that have the same keys once each gets one more have the same size. -/
theorem size_eq_of_mem_keys_iff {β : Type} {d : Dictionary α} {e : Dictionary β} {a b : String}
    (ha : a ∉ d.keys) (hb : b ∉ e.keys)
    (h : ∀ key, key = a ∨ key ∈ d.keys ↔ key = b ∨ key ∈ e.keys) : d.size = e.size := by
  have hperm : (a :: d.keys).Perm (b :: e.keys) := by
    refine (List.perm_ext_iff_of_nodup (List.nodup_cons.mpr ⟨ha, d.nodup_keys⟩)
      (List.nodup_cons.mpr ⟨hb, e.nodup_keys⟩)).mpr fun key => ?_
    rw [List.mem_cons, List.mem_cons, h key]
  have hlength := hperm.length_eq
  simpa [keys, size] using hlength

end ImportAtlas.Dictionary
