import ImportAtlas.Proofs.Dictionary
import ImportAtlas.Proofs.Toml.Lines

/-!
# The tables of a file

Entries under keys without dots become the members of the table that they are written into, and a
key may be written once only. The document of a file with one header has the entries above it, and
the table of the entries below it under the key of the header.

## Main definitions

* `Table.plain`: an entry under a key without dots

## Main results

* `Table.addEntries?_plain`: entries are added if their keys are new and distinct
* `parse?_of_spellsFile`, `parse?_of_spellsFile_header`: the documents of files without a header and
  with one
-/

namespace ImportAtlas.Toml

open Codec (Document)

namespace Table

/-- An entry under a key without dots. -/
def plain (member : String × Document) : Entry := ⟨[], member.1, member.2⟩

/-- A member as it stands in a growing table. -/
def closed (member : String × Document) : String × Item := (member.1, .closed member.2)

variable {table : Table} {key : String}

theorem filter_entries_eq_self (h : table.get? key = none) :
    table.entries.filter (·.1 != key) = table.entries := by
  refine List.filter_eq_self.mpr fun entry he => bne_iff_ne.mpr ?_
  exact (bne_iff_ne.mp (List.lookup_eq_none_iff.mp h entry he)).symm

/-- A new key is added, in a table that dotted keys have not made. -/
theorem addEntry?_plain (horigin : table.origin ≠ .dots) (value : Document) :
    table.addEntry? [] key value =
      if table.get? key = none then
        some (mk table.origin ((key, .closed value) :: table.entries))
      else none := by
  have hplain : ((table.origin == .dots) == ([] : List String).isEmpty) = false := by
    simp [horigin]
  simp only [alter?, hplain, addEntry?]
  cases hfound : table.get? key with
  | some _ => rfl
  | none =>
    rw [set, filter_entries_eq_self hfound]
    rfl

/-- Keys are new once one more is written if they are new and other than that. -/
theorem forall_get?_cons_iff {item : Item} {members : List (String × Document)} :
    (∀ member ∈ members,
        (mk table.origin ((key, item) :: table.entries)).get? member.1 = none) ↔
      key ∉ members.map (·.1) ∧ ∀ member ∈ members, table.get? member.1 = none := by
  have hget : ∀ other, (mk table.origin ((key, item) :: table.entries)).get? other =
      if other = key then some item else table.get? other :=
    fun other => Dictionary.lookup_cons_eq other (key, item) table.entries
  simp only [hget, List.mem_map, not_exists, not_and, ← forall_and]
  refine forall_congr' fun member => forall_congr' fun hm => ?_
  by_cases he : member.1 = key <;> simp [he]

/-- **Entries are added** if their keys are new and distinct. -/
theorem addEntries?_plain (horigin : table.origin ≠ .dots) (members : List (String × Document)) :
    table.addEntries? (members.map plain) =
      if (members.map (·.1)).Nodup ∧ ∀ member ∈ members, table.get? member.1 = none then
        some (mk table.origin ((members.map closed).reverse ++ table.entries))
      else none := by
  induction members generalizing table with
  | nil =>
    cases table
    rw [if_pos ⟨List.nodup_nil, List.forall_mem_nil _⟩]
    rfl
  | cons member members ih =>
    have hstep : table.addEntries? ((member :: members).map plain) =
        ( table.addEntry? [] member.1 member.2).bind (·.addEntries? (members.map plain)) := rfl
    rw [hstep, addEntry?_plain horigin]
    by_cases hnew : table.get? member.1 = none
    · have hrest := @ih (mk table.origin ((member.1, .closed member.2) :: table.entries)) horigin
      have hiff : ((members.map (·.1)).Nodup ∧ ∀ other ∈ members,
          (mk table.origin ((member.1, .closed member.2) :: table.entries)).get? other.1 = none) ↔
          ((member :: members).map (·.1)).Nodup ∧
            ∀ other ∈ member :: members, table.get? other.1 = none := by
        rw [forall_get?_cons_iff, List.map_cons, List.nodup_cons, List.forall_mem_cons,
          and_iff_right hnew, ← and_assoc, and_comm (a := (members.map _).Nodup)]
      have hgrown : ((member :: members).map closed).reverse ++ table.entries =
          (members.map closed).reverse ++ closed member :: table.entries := by
        rw [List.map_cons, List.reverse_cons, List.append_assoc, List.singleton_append]
      rw [if_pos hnew, Option.bind_some, hrest, if_congr hiff rfl rfl, hgrown]
      rfl
    · rw [if_neg hnew, if_neg fun h => hnew (h.2 member List.mem_cons_self)]
      rfl

theorem entryDocuments_closed (members : List (String × Document)) :
    entryDocuments (members.map closed) = members := by
  induction members with
  | nil => rfl
  | cons member members ih => rw [List.map_cons, closed, entryDocuments, ih, itemDocument]

theorem mapDocument_eq (members : List (String × Document)) :
    mapDocument members = .ofMembers (Dictionary.ofEntries members).entries := rfl

/-- Entries with distinct keys, in any order, make the same document. -/
theorem mapDocument_eq_of_perm {members members' : List (String × Document)}
    (hdistinct : (members.map (·.1)).Nodup) (h : members.Perm members') :
    mapDocument members = mapDocument members' := by
  rw [mapDocument_eq, mapDocument_eq, Dictionary.ofEntries_eq_of_perm hdistinct h]

/-- The document of a table in which members have been written. -/
theorem toDocument_closed {members : List (String × Document)}
    (hdistinct : (members.map (·.1)).Nodup) (origin : Origin) :
    (mk origin (members.map closed).reverse).toDocument = mapDocument members := by
  rw [toDocument, ← List.map_reverse, entryDocuments_closed]
  exact (mapDocument_eq_of_perm hdistinct members.reverse_perm.symm).symm

/-- The table of a whole text, with its members. -/
theorem addEntries?_fresh (members : List (String × Document)) :
    (fresh .header).addEntries? (members.map plain) =
      if (members.map (·.1)).Nodup then some (mk .header (members.map closed).reverse)
      else none := by
  have hnew : ∀ member ∈ members, (fresh .header).get? member.1 = none := fun _ _ => rfl
  have hadd := @addEntries?_plain (fresh .header) (by decide) members
  rw [hadd, if_congr (and_iff_left hnew) rfl rfl]
  exact if_congr Iff.rfl (congrArg some (congrArg _ (List.append_nil _))) rfl

/-- A section under a new key becomes a table of its own. -/
theorem addSection?_plain {members inner : List (String × Document)} {key : String}
    (hdistinct : (members.map (·.1)).Nodup) (hkey : key ∉ members.map (·.1)) :
    ((mk .header (members.map closed).reverse).addSection? ⟨false, [], key, inner.map plain⟩).map
        toDocument =
      if (inner.map (·.1)).Nodup then some (mapDocument (members ++ [(key, mapDocument inner)]))
      else none := by
  have hnew : (mk .header (members.map closed).reverse).get? key = none := by
    refine List.lookup_eq_none_iff.mpr fun entry he => bne_iff_ne.mpr ?_
    rintro rfl
    rw [entries, List.mem_reverse, List.mem_map] at he
    obtain ⟨member, hm, rfl⟩ := he
    exact hkey (List.mem_map_of_mem hm)
  have hadd : (mk .header (members.map closed).reverse).addSection?
      ⟨false, [], key, inner.map plain⟩ =
        ((fresh .header).addEntries? (inner.map plain)).bind fun table =>
          some ((mk .header (members.map closed).reverse).set key (.table table)) := by
    simp only [addSection?, alter?, hnew]
    rfl
  rw [hadd, addEntries?_fresh]
  by_cases hinner : (inner.map (·.1)).Nodup
  · rw [if_pos hinner, if_pos hinner, Option.bind_some, Option.map_some, set,
      filter_entries_eq_self hnew, toDocument, entryDocuments, itemDocument,
      toDocument_closed hinner, entries, ← List.map_reverse, entryDocuments_closed]
    refine congrArg some (mapDocument_eq_of_perm ?_ ?_)
    · rw [List.map_cons, List.map_reverse, List.nodup_cons, List.mem_reverse, List.nodup_reverse]
      exact ⟨hkey, hdistinct⟩
    · exact ((List.reverse_perm members).cons _).trans (List.perm_append_singleton _ members).symm
  · rw [if_neg hinner, if_neg hinner]
    rfl

end Table

/-- What is read of a text without a mark of its encoding. -/
theorem parse?_of_sections? {s : String} (hmark : s.toList.head? ≠ some byteOrderMark)
    {entries : List Table.Entry} {sections : List Table.Section}
    (h : SpellsFile entries sections s.toList) :
    parse? s = ((Table.fresh .header).addEntries? entries).bind fun table =>
      (sections.foldlM Table.addSection? table).map Table.toDocument := by
  have hread : sections? (3 * s.toList.length + 3) s.toList = some (entries, sections) :=
    sections?_append h (.blanks (List.forall_mem_nil _))
      (show 0 + s.toList.length + 1 < 3 * s.toList.length + 3 by omega)
  have hparse : parse? s = (sections? (3 * s.toList.length + 3) s.toList).bind fun found =>
      ((Table.fresh .header).addEntries? found.1).bind fun table =>
        (found.2.foldlM Table.addSection? table).bind fun table => some table.toDocument := by
    unfold parse?
    generalize s.toList = cs at hmark
    cases cs with
    | nil => rfl
    | cons c rest =>
      have hc : c ≠ byteOrderMark := fun he => hmark (congrArg some he)
      simp only [if_neg hc]
      rfl
  rw [hparse, hread]
  simp only [Option.bind_some, Option.map_eq_bind]
  rfl

section

variable {s : String} {members inner : List (String × Document)} {key : String}

/-- **The document of a file without headers.** -/
theorem parse?_of_spellsFile (h : SpellsFile (members.map Table.plain) [] s.toList)
    (hmark : s.toList.head? ≠ some byteOrderMark) (hdistinct : (members.map (·.1)).Nodup) :
    parse? s = some (Table.mapDocument members) := by
  rw [parse?_of_sections? hmark h, Table.addEntries?_fresh, if_pos hdistinct]
  exact congrArg some (Table.toDocument_closed hdistinct .header)

/-- **The document of a file with one header.** The entries below the header are members of its
table, not of the whole, and there is no document if a key stands there twice. -/
theorem parse?_of_spellsFile_header
    (h : SpellsFile (members.map Table.plain) [⟨false, [], key, inner.map Table.plain⟩] s.toList)
    (hmark : s.toList.head? ≠ some byteOrderMark) (hdistinct : (members.map (·.1)).Nodup)
    (hkey : key ∉ members.map (·.1)) :
    parse? s =
      if (inner.map (·.1)).Nodup then
        some (Table.mapDocument (members ++ [(key, Table.mapDocument inner)]))
      else none := by
  rw [parse?_of_sections? hmark h, Table.addEntries?_fresh, if_pos hdistinct, Option.bind_some,
    ← Table.addSection?_plain hdistinct hkey]
  exact congrArg (Option.map Table.toDocument) (bind_pure _)

end

end ImportAtlas.Toml
