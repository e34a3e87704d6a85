import ImportAtlas.Proofs.Dictionary
import ImportAtlas.Proofs.Impact
import ImportAtlas.Proofs.Table.Reading
import ImportAtlas.Proofs.Text.ByteOrder
import ImportAtlas.Render.Renderer
import Mathlib.Data.List.SplitBy
import Std.Data.String.ToNat

/-!
# What tables hold

The table of an outcome has a row of heads and a record for each edge, for each file of a cycle, for each
dependent or for each file. All records of a table are of one length, so no table is refused, and whoever
reads it finds the records again. The records of cycles are grouped by their number, and those of
dependents are the entries of a dictionary, so the cycles and the dependents are recovered from them.

## Main definitions

* `Csv.cyclesOf`, `Csv.dependentsOf`: the cycles and the dependents that records tell of

## Main results

* `Csv.cyclesOf_records`, `Csv.dependentsOf_records`: cycles and dependents are recovered
* `Csv.read_rendered`: what is read of the table of each outcome
-/

namespace ImportAtlas.Csv

open Render

/-! ## Cycles -/

/-- The cycles that records of a number, a position and a path tell of. -/
def cyclesOf (records : List (List String)) : List (List String) :=
  (records.splitBy fun a b => a.head? == b.head?).map fun group => group.filterMap (·[2]?)

/-- The records of one cycle. -/
def cycleRecords (number : Nat) (cycle : List String) : List (List String) :=
  cycle.zipIdx.map fun (path, position) => [toString number, toString position, path]

theorem head?_of_mem_cycleRecords {number : Nat} {cycle record : List String}
    (h : record ∈ cycleRecords number cycle) : record.head? = some (toString number) := by
  obtain ⟨entry, -, rfl⟩ := List.mem_map.mp h
  rfl

theorem filterMap_cycleRecords (number : Nat) (cycle : List String) :
    (cycleRecords number cycle).filterMap (·[2]?) = cycle := by
  unfold cycleRecords
  rw [List.filterMap_map]
  change cycle.zipIdx.filterMap (fun entry => some entry.1) = cycle
  rw [List.filterMap_eq_map', List.zipIdx_map_fst]

theorem cycleRecords_ne_nil (number : Nat) {cycle : List String} (h : cycle ≠ []) :
    cycleRecords number cycle ≠ [] := by
  simpa [cycleRecords] using h

/-- **Cycles are recovered from their records**, if each of them has a file. -/
theorem cyclesOf_records (cycles : List (List String)) (hne : ∀ cycle ∈ cycles, cycle ≠ [])
    (first : Nat) :
    cyclesOf ((cycles.zipIdx first).flatMap fun (cycle, number) => cycleRecords number cycle) =
      cycles := by
  induction cycles generalizing first with
  | nil => rfl
  | cons cycle cycles ih =>
    obtain ⟨hcycle, hcycles⟩ := List.forall_mem_cons.mp hne
    -- The records of one cycle have one number, and those of the next cycle have another one.
    have hsame : (cycleRecords first cycle).splitBy (fun a b => a.head? == b.head?) =
        [cycleRecords first cycle] := by
      refine List.splitBy_of_isChain (cycleRecords_ne_nil first hcycle) ?_
      refine (List.pairwise_of_forall_mem_list fun a ha b hb => ?_).isChain
      rw [head?_of_mem_cycleRecords ha, head?_of_mem_cycleRecords hb, BEq.rfl]
    rw [List.zipIdx_cons, List.flatMap_cons]
    unfold cyclesOf at ih ⊢
    rw [List.splitBy_append, hsame, List.map_append, ih hcycles, List.map_singleton,
      filterMap_cycleRecords, List.singleton_append]
    intro last hlast next hnext
    obtain ⟨⟨other, number⟩, hother, hmem⟩ :=
      List.mem_flatMap.mp (List.mem_of_mem_head? hnext)
    have hle : first + 1 ≤ number := (List.mk_mem_zipIdx_iff_le_and_getElem?_sub.mp hother).1
    rw [head?_of_mem_cycleRecords (List.mem_of_mem_getLast? hlast),
      head?_of_mem_cycleRecords hmem, beq_eq_false_iff_ne, ne_eq, Option.some.injEq]
    intro heq
    have hnumber : first = number := Nat.repr_inj.mp heq
    omega

/-! ## Dependents -/

/-- The dependents that records of a path and a distance tell of. -/
def dependentsOf (records : List (List String)) : Dictionary Nat :=
  .ofEntries (records.filterMap fun
    | [path, hops] => hops.toNat?.map fun distance => (path, distance)
    | _ => none)

/-- **Dependents are recovered from their records**, in whatever order these are. -/
theorem dependentsOf_records {entries : List (String × Nat)} {dependents : Dictionary Nat}
    (h : entries.Perm dependents.entries) :
    dependentsOf (entries.map fun entry => [entry.1, toString entry.2]) = dependents := by
  have hread : (entries.map fun entry => [entry.1, toString entry.2]).filterMap (fun
      | [path, hops] => hops.toNat?.map fun distance => (path, distance)
      | _ => none) = entries := by
    rw [List.filterMap_map]
    refine (List.filterMap_congr fun entry _ => ?_).trans List.filterMap_some
    exact congrArg (Option.map fun distance => (entry.1, distance)) (Nat.toNat?_repr entry.2)
  unfold dependentsOf
  rw [hread, ← Dictionary.ofEntries_eq_of_perm dependents.nodup_keys h.symm,
    Dictionary.ofEntries_entries]

/-! ## Tables of outcomes -/

theorem length_of_mem_graphTable (graph : Graph) {row : List String}
    (h : row ∈ graphTable graph) : row.length = 3 := by
  rcases List.mem_cons.mp h with rfl | h
  · rfl
  · obtain ⟨edge, -, rfl⟩ := List.mem_map.mp h
    rfl

theorem length_of_mem_cyclesTable (cycles : List (List String)) {row : List String}
    (h : row ∈ cyclesTable cycles) : row.length = 3 := by
  rcases List.mem_cons.mp h with rfl | h
  · rfl
  · obtain ⟨cycle, -, hrow⟩ := List.mem_flatMap.mp h
    obtain ⟨entry, -, rfl⟩ := List.mem_map.mp hrow
    rfl

theorem length_of_mem_impactTable (impact : Impact) {row : List String}
    (h : row ∈ impactTable impact) : row.length = 2 := by
  rcases List.mem_cons.mp h with rfl | h
  · rfl
  · obtain ⟨entry, -, rfl⟩ := List.mem_map.mp h
    rfl

theorem length_of_mem_reportTable (report : Report) {row : List String}
    (h : row ∈ reportTable report) : row.length = 7 := by
  rcases List.mem_cons.mp h with rfl | h
  · rfl
  · obtain ⟨path, -, rfl⟩ := List.mem_map.mp h
    rfl

/-- A table whose rows are of one length is not refused. -/
theorem exists_table_eq_ok {rows : List (List String)} {width : Nat} (hpos : 0 < width)
    (hwidth : ∀ row ∈ rows, row.length = width) :
    ∃ text, Renderer.table rows = .ok text ∧ read text = some rows := by
  obtain ⟨text, htext, hread⟩ := exists_csv_eq_ok hpos hwidth
  refine ⟨text, ?_, hread⟩
  unfold Renderer.table
  rw [htext]
  rfl

/-- **What is read of the table of each outcome**, whatever texts there are in it. No table is refused.
Reading it gives a record for each edge of a graph, in order; a record for each file of each cycle, in
order, from which the cycles are recovered if none of them is empty; a record for each dependent, by
distance and then by the bytes of the path, from which the dependents are recovered; and a record of
seven fields for each file of a report. -/
theorem read_rendered (renderer : Renderer) (graph : Graph) (cycles : List (List String))
    (impact : Impact) (report : Report) :
    let tables : Renderer := { renderer with format := .csv }
    (∃ text, tables.graph graph = .ok text ∧
      read text = some (["source", "target", "type"] ::
        graph.edges.map fun edge => [edge.source, edge.target, edge.kind.name])) ∧
    (∃ text records, tables.cycles cycles = .ok text ∧
      read text = some (["cycle", "position", "path"] :: records) ∧
      records = ((cycles.zipIdx 1).flatMap fun (cycle, number) =>
        cycle.zipIdx.map fun (path, position) => [toString number, toString position, path]) ∧
      ((∀ cycle ∈ cycles, cycle ≠ []) → cyclesOf records = cycles)) ∧
    (∃ text records, ∃ entries : List (String × Nat), tables.impact impact = .ok text ∧
      read text = some (["path", "hops"] :: records) ∧
      records = (entries.map fun entry => [entry.1, toString entry.2]) ∧
      entries.Perm impact.dependents.entries ∧
      entries.Pairwise (fun a b =>
        a.2 < b.2 ∨ a.2 = b.2 ∧ Text.bytes a.1 < Text.bytes b.1) ∧
      dependentsOf records = impact.dependents) ∧
    ∃ text records, tables.report report = .ok text ∧
      read text = some (["path", "imports", "imported_by", "external", "unresolved", "in_cycle",
        "dependents"] :: records) ∧
      records.map List.head? = report.graph.nodes.map some ∧
      ∀ record ∈ records, record.length = 7 := by
  intro tables
  refine ⟨?_, ?_, ?_, ?_⟩
  · exact exists_table_eq_ok (by decide) fun _ => length_of_mem_graphTable graph
  · obtain ⟨text, htext, hread⟩ :=
      exists_table_eq_ok (by decide) fun _ => length_of_mem_cyclesTable cycles
    exact ⟨text, _, htext, hread, rfl, fun hne => cyclesOf_records cycles hne 1⟩
  · obtain ⟨text, htext, hread⟩ :=
      exists_table_eq_ok (by decide) fun _ => length_of_mem_impactTable impact
    refine ⟨text, _, impact.nearestFirst, htext, hread, rfl, impact.nearestFirst_perm, ?_,
      dependentsOf_records impact.nearestFirst_perm⟩
    simp only [Text.bytes_lt_bytes_iff]
    exact impact.pairwise_nearestFirst
  · obtain ⟨text, htext, hread⟩ :=
      exists_table_eq_ok (by decide) fun _ => length_of_mem_reportTable report
    refine ⟨text, _, htext, hread, ?_, fun record hrecord => ?_⟩
    · rw [List.map_map]
      rfl
    · exact length_of_mem_reportTable report (List.mem_cons_of_mem _ hrecord)

/-- Cycles of files whose paths have commas, quotes and ends of lines in them. -/
theorem read_rendered_separators :
    let cycles := [["a,b.py", "\"c\".py", ""], ["d\r\ne.py"]]
    (∀ cycle ∈ cycles, cycle ≠ []) ∧
    ∃ text records, Renderer.cycles { format := .csv } cycles = .ok text ∧
      read text = some (["cycle", "position", "path"] :: records) ∧
      records = [["1", "0", "a,b.py"], ["1", "1", "\"c\".py"], ["1", "2", ""],
        ["2", "0", "d\r\ne.py"]] ∧
      cyclesOf records = cycles := by
  intro cycles
  have hne : ∀ cycle ∈ cycles, cycle ≠ [] := by decide
  obtain ⟨-, ⟨text, records, htext, hread, hrecords, hcycles⟩, -, -⟩ :=
    read_rendered {} .empty cycles ⟨"", .empty⟩ (.create "" "" ⟨⟨2024, 1, 1⟩, 0, 0, 0⟩ .empty [])
  refine ⟨hne, text, records, htext, hread, ?_, hcycles hne⟩
  rw [hrecords]
  decide

end ImportAtlas.Csv
